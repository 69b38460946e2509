/-
# The grammar of scripts

Each production is a function on the reading state: the current token and what follows it,
the statement's surroundings, and nothing else. Productions that contain themselves are
reached through a record, `Rules`; the record of depth `n + 1` is built from the one of depth
`n`, and a text of `n` characters never needs more than a multiple of `n` levels.

The first fault ends the reading. Nodes are annotated with the bytes they extend over.
-/
import Clearance.Script.Regexp
import Clearance.Script.Tree

namespace Clearance.Script

/-- The bytes a node extends over. -/
inductive Extent where
  /-- The node has no place. -/
  | unknown
  /-- Only the start is known. -/
  | startsAt (start : Nat)
  /-- From a byte up to another. -/
  | range (start stop : Nat)
  /-- From a byte up to another, over text that was skipped and is no expression. -/
  | skipped (start stop : Nat)
deriving DecidableEq, Repr

namespace Extent

/-- The first byte. -/
def start : Extent → Nat
  | .unknown => 0
  | .startsAt a => a
  | .range a _ | .skipped a _ => a

/-- The byte after the last one, if it is known. -/
def stop? : Extent → Option Nat
  | .range _ b | .skipped _ b => some b
  | _ => none

/-- From a byte to the end of another node; without that end there is no place. -/
def upTo (start : Nat) (last : Extent) : Extent :=
  match last.stop? with
  | some stop => .range start stop
  | none => .unknown

end Extent

/-- What surrounds a statement inside its function. -/
structure Surroundings where
  /-- The operator `in` may be used. -/
  allowIn : Bool
  inLoop : Bool
  inSwitch : Bool
  inFunction : Bool
  /-- The labels of the enclosing statements, innermost first. -/
  labels : List String

/-- The surroundings at the top of a script. -/
def Surroundings.top : Surroundings := ⟨true, false, false, false, []⟩

/-- The surroundings at the top of a function body. -/
def Surroundings.body : Surroundings := ⟨true, false, false, true, []⟩

/-- The reading state. -/
structure Reading where
  token : Token
  /-- The state after the current token. Its flag `ended` tells that a line end stands before
  the current token and counts as a semicolon. -/
  lex : LexState
  around : Surroundings

/-- Actions on the reading state. -/
abbrev Parse := StateT Reading (Except Fault)

/-- Expressions as they are read. -/
abbrev RawExpr := Expr Extent

/-- Statements as they are read. -/
abbrev RawStmt := Stmt Extent

namespace Parse

/-- The current token. -/
def token : Parse Token := do return (← get).token

/-- The kind of the current token. -/
def kind : Parse TokenKind := do return (← token).kind

/-- The current token is the given keyword or punctuator. -/
def sees (text : String) : Parse Bool := do return (← kind) == .symbol text

/-- Ends the reading with a fault at a byte offset. -/
def fault {α : Type} (offset : Nat) (message : String) : Parse α := throw ⟨offset, message⟩

/-- Moves to the next token. -/
def next : Parse Unit := do
  let s ← get
  let (token, lex) ← s.lex.next
  set { s with token, lex }

/-- The current token cannot stand here. -/
def unexpected {α : Type} : Parse α := do
  let s ← get
  let t := s.token
  match t.kind with
  | .eof => throw (.endOfInput s.lex.cursor.offset)
  | .boolean | .null => throw (.token t.offset t.literal)
  | .identifier => fault t.offset "Unexpected identifier"
  | .reserved => fault t.offset "Unexpected reserved word"
  | .number => fault t.offset "Unexpected number"
  | .string => fault t.offset "Unexpected string"
  | k => throw (.token t.offset k.text)

/-- Takes a token of the given kind; its offset. -/
def expectKind (k : TokenKind) : Parse Nat := do
  let t ← token
  if t.kind == k then
    next
    return t.offset
  else unexpected

/-- Takes a keyword or punctuator; its offset. -/
def expect (text : String) : Parse Nat := expectKind (.symbol text)

/-- Takes a keyword or punctuator if it stands here. -/
def accept (text : String) : Parse Bool := do
  if ← sees text then
    next
    return true
  else return false

/-- A line end before the current token counts as a semicolon. -/
def lineEnded : Parse Bool := do return (← get).lex.ended

/-- Sets whether a line end before the current token counts as a semicolon. -/
def setLineEnded (b : Bool) : Parse Unit :=
  modify fun s => { s with lex := { s.lex with ended := b } }

/-- The end of a statement that needs a semicolon, unless a line end or a closing bracket
stands for it. -/
def semicolon : Parse Unit := do
  if !(← sees ")") && !(← sees "\x7d") then
    if ← lineEnded then setLineEnded false
    else discard (expect ";")

/-- The end of an expression statement. -/
def optionalSemicolon : Parse Unit := do
  if ← sees ";" then next
  else if ← lineEnded then setLineEnded false
  else if (← kind) != .eof && !(← sees "\x7d") then discard (expect ";")

/-- Runs an action in changed surroundings and restores them. -/
def within {α : Type} (change : Surroundings → Surroundings) (p : Parse α) : Parse α := do
  let around := (← get).around
  modify fun s => { s with around := change s.around }
  let a ← p
  modify fun s => { s with around }
  return a

/-- Collects results while there are some. The fuel bounds their number. -/
def collectUpTo {α : Type} (p : Parse (Option α)) : Nat → Parse (List α)
  | 0 => return []
  | fuel + 1 => do
    match ← p with
    | none => return []
    | some a => return a :: (← collectUpTo p fuel)

/-- Collects results while there are some. Each result takes a token, so the characters left
bound their number. -/
def collect {α : Type} (p : Parse (Option α)) : Parse (List α) := do
  collectUpTo p ((← get).lex.cursor.rest.length + 3)

/-- Skips to the next word that begins a statement, or to the end. -/
def skipStatement : Nat → Parse Unit
  | 0 => return
  | fuel + 1 => do
    match ← kind with
    | .eof => return
    | .symbol w =>
      if w ∈ ["break", "continue", "for", "if", "return", "switch", "var", "do", "try", "with",
          "while", "throw", "catch", "finally"] then return
      else
        next
        skipStatement fuel
    | _ =>
      next
      skipStatement fuel

end Parse

open Parse

/-- The productions that contain themselves. -/
structure Rules where
  assignment : Parse RawExpr
  relational : Parse RawExpr
  unary : Parse RawExpr
  construct : Parse RawExpr
  statement : Parse RawStmt

/-- The extent of a token with the given text. -/
def extentOf (offset : Nat) (text : String) : Extent := .range offset (offset + text.utf8ByteSize)

/-- A name. -/
def parseIdent : Parse (Ident Extent) := do
  let t ← token
  next
  return ⟨extentOf t.offset t.literal, t.literal⟩

/-- The characters between the quotes of a string literal. -/
def unquote (literal : String) : List Char := (literal.toList.drop 1).dropLast

/-- The value of a string literal that starts at a byte offset. -/
def stringValue (offset : Nat) (literal : String) : Parse String :=
  match unescape (unquote literal) with
  | .ok v => return v
  | .error m => fault offset m

/-- The flags of a pattern literal that ends at `after`, and the byte where it ends. A name
that follows is the flags, whatever stands between. -/
def parseFlags (after : Cursor) : Parse (String × Nat) := do
  modify fun s => { s with lex := { s.lex with cursor := after } }
  next
  let t ← token
  if t.kind == .identifier then
    next
    return (t.literal, (← get).lex.cursor.offset - 1)
  else return ("", after.offset)

/-- A pattern literal, whose first slash has just been read. -/
def parsePattern : Parse RawExpr := do
  let start := (← token).place
  let (after, pattern) ← match literalEnd (start.rest.length + 1) false start.advance with
    | .unterminated => fault start.offset "Invalid regular expression: missing /"
    | .closed after => pure (after, ((start.upTo after).drop 1).dropLast)
    | .dropped after => pure (after, [])
  let (flags, stop) ← parseFlags after
  match patternFault? pattern with
  | some m => fault start.offset m
  | none => return .regexp (.range start.offset stop) (String.ofList pattern) flags

/-- The key of an object literal's member: its spelling and its value. -/
def parseKey : Parse (String × String) := do
  let t ← token
  next
  match t.kind with
  | .identifier | .number => return (t.literal, t.literal)
  | .string => return (t.literal, ← stringValue t.offset t.literal)
  | _ => return (t.literal, if isPropertyName t.literal then t.literal else "")

/-- The formal parameters of a function, in parentheses. -/
def parseParams : Parse (List (Ident Extent)) := do
  discard (expect "(")
  let params ← collect do
    if (← sees ")") || (← kind) == .eof then return none
    if (← kind) != .identifier then unexpected
    let id ← parseIdent
    if !(← sees ")") then discard (expect ",")
    return some id
  discard (expect ")")
  return params

/-- Statements up to a closing brace. -/
def parseStatements (r : Rules) : Parse (List RawStmt) :=
  collect do
    if (← sees "\x7d") || (← kind) == .eof then return none
    return some (← r.statement)

/-- A block. -/
def parseBlock (r : Rules) : Parse (Block Extent) := do
  let start ← expect "\x7b"
  let body ← parseStatements r
  let stop ← expect "\x7d"
  return .mk (.range start (stop + 1)) body

/-- Functions declared directly in a body are hoisted there. -/
def declareDirect {α : Type} (body : List (Stmt α)) : List (Stmt α) :=
  body.map fun
    | .function s f => .function s (f.withForm .declared)
    | s => s

/-- The body of a function and its extent. -/
def parseBody (r : Rules) : Parse (List RawStmt × Extent) := do
  let b ← Parse.within (fun _ => .body) (parseBlock r)
  return (declareDirect b.body, b.span)

/-- A function from its keyword on. A declaration needs a name. -/
def parseFunction (r : Rules) (form : Form) : Parse (Function Extent) := do
  let place := (← token).place
  discard (expect "function")
  let name ←
    if (← kind) == .identifier then some <$> parseIdent
    else if form == .statement then unexpected
    else pure none
  let params ← parseParams
  let (body, extent) ← parseBody r
  let stop := (extent.stop?).getD place.offset
  return .mk (.range place.offset stop) name params body form
    (String.ofList (Text.takeBytes (stop - place.offset) place.rest))

/-- An accessor of an object literal, after the word that introduces it. -/
def parseAccessor (r : Rules) (kind : MemberKind) : Parse (Member Extent) := do
  let start := (← token).offset
  let (_, key) ← parseKey
  let params ← parseParams
  let (body, extent) ← parseBody r
  return .mk key kind (.function (.mk (.upTo start extent) none params body .expression ""))

/-- A member of an object literal. -/
def parseMember (r : Rules) : Parse (Member Extent) := do
  let (literal, key) ← parseKey
  if literal == "get" && !(← sees ":") then parseAccessor r .get
  else if literal == "set" && !(← sees ":") then parseAccessor r .set
  else
    discard (expect ":")
    return .mk key .init (← r.assignment)

/-- An object literal. Commas between members may be left out. -/
def parseObject (r : Rules) : Parse RawExpr := do
  let start ← expect "\x7b"
  let members ← collect do
    if (← sees "\x7d") || (← kind) == .eof then return none
    let m ← parseMember r
    discard (accept ",")
    return some m
  let stop ← expect "\x7d"
  return .object (.range start (stop + 1)) members

/-- An array literal; a comma without an element before it is a hole. -/
def parseArray (r : Rules) : Parse RawExpr := do
  let start ← expect "["
  let elements ← collect do
    if (← sees "]") || (← kind) == .eof then return none
    if ← accept "," then return some none
    let e ← r.assignment
    if !(← sees "]") then discard (expect ",")
    return some (some e)
  let stop ← expect "]"
  return .array (.range start (stop + 1)) elements

/-- Expressions separated by commas. -/
def parseItems (r : Rules) : Parse (List RawExpr) := do
  let first ← r.assignment
  let more ← collect do
    if ← accept "," then return some (← r.assignment) else return none
  return first :: more

/-- An expression; several separated by commas form a sequence. -/
def parseExpression (r : Rules) : Parse RawExpr := do
  match ← parseItems r with
  | [e] => return e
  | es =>
    let extent := match es.head?, es.getLast? with
      | some a, some b => .upTo a.span.start b.span
      | _, _ => .unknown
    return .sequence extent es

/-- A primary expression. -/
def parsePrimary (r : Rules) : Parse RawExpr := do
  let t ← token
  let extent := extentOf t.offset t.literal
  match t.kind with
  | .identifier => return .ident (← parseIdent)
  | .null =>
    next
    return .null extent
  | .boolean =>
    next
    return .bool extent (t.literal == "true")
  | .string =>
    next
    return .string extent (← stringValue t.offset t.literal)
  | .number =>
    next
    return .number extent (numberValue t.literal.toList)
  | .symbol "/" | .symbol "/=" => parsePattern
  | .symbol "\x7b" => parseObject r
  | .symbol "[" => parseArray r
  | .symbol "(" =>
    next
    let e ← parseExpression r
    discard (expect ")")
    return e
  | .symbol "this" =>
    next
    return .this (extentOf t.offset "this")
  | .symbol "function" => return .function (← parseFunction r .expression)
  | _ => unexpected

/-- The arguments of a call, and the offset of the closing parenthesis. -/
def parseArguments (r : Rules) : Parse (List RawExpr × Nat) := do
  discard (expect "(")
  let args ← if ← sees ")" then pure [] else parseItems r
  return (args, ← expect ")")

/-- A member access after its object. -/
def parseDot (r : RawExpr) : Parse RawExpr := do
  let period ← expect "."
  let t ← token
  if isPropertyName t.literal then
    next
    let id : Ident Extent := ⟨extentOf t.offset t.literal, t.literal⟩
    return .member (.upTo r.span.start id.span) r id
  else
    discard (expectKind .identifier)
    let s ← get
    skipStatement (s.lex.cursor.rest.length + 3)
    return .null (.skipped period (← token).offset)

/-- An access by a computed key after its object. -/
def parseIndex (r : Rules) (object : RawExpr) : Parse RawExpr := do
  discard (expect "[")
  let key ← parseExpression r
  let stop ← expect "]"
  return .index (.range object.span.start (stop + 1)) object key

/-- The accesses, and calls if they are allowed, that follow an expression. The fuel bounds
their number. -/
def parseSuffixes (r : Rules) (calls : Bool) : Nat → RawExpr → Parse RawExpr
  | 0, e => return e
  | fuel + 1, e => do
    match ← kind with
    | .symbol "." => parseSuffixes r calls fuel (← parseDot e)
    | .symbol "[" => parseSuffixes r calls fuel (← parseIndex r e)
    | .symbol "(" =>
      if calls then
        let (args, stop) ← parseArguments r
        parseSuffixes r calls fuel (.call (.range e.span.start (stop + 1)) e args)
      else return e
    | _ => return e

/-- An expression with its accesses. -/
def parseAccess (r : Rules) (calls : Bool) : Parse RawExpr := do
  let e ← if ← sees "new" then r.construct else parsePrimary r
  parseSuffixes r calls ((← get).lex.cursor.rest.length + 3) e

/-- A construction. -/
def parseConstruct (r : Rules) : Parse RawExpr := do
  let start ← expect "new"
  let callee ← parseAccess r false
  if ← sees "(" then
    let (args, stop) ← parseArguments r
    return .construct (.range start (stop + 1)) callee args
  else return .construct (.upTo start callee.span) callee []

/-- Something can be assigned to this expression. -/
def isAssignable {α : Type} : Expr α → Bool
  | .ident _ | .member _ _ _ | .index _ _ _ => true
  | _ => false

/-- The wording for an operand that cannot be assigned to. -/
def badTarget : String := "invalid left-hand side in assignment"

/-- An expression with an increment or decrement after it. -/
def parsePostfix (r : Rules) : Parse RawExpr := do
  let operand ← Parse.within (fun a => { a with allowIn := true }) (parseAccess r true)
  let t ← token
  match t.kind with
  | .symbol op =>
    if (op == "++" || op == "--") && !(← lineEnded) then
      next
      if !isAssignable operand then fault t.offset badTarget
      let extent := match operand.span.stop? with
        | some stop => .range operand.span.start (stop + 2)
        | none => .unknown
      return .update extent op false operand
    else return operand
  | _ => return operand

/-- An expression with operators before it. -/
def parseUnary (r : Rules) : Parse RawExpr := do
  let t ← token
  match t.kind with
  | .symbol op =>
    if op ∈ ["+", "-", "!", "~", "delete", "void", "typeof"] then
      next
      let operand ← r.unary
      return .unary (.upTo t.offset operand.span) (.ofText op) operand
    else if op ∈ ["++", "--"] then
      next
      let operand ← r.unary
      if !isAssignable operand then fault t.offset badTarget
      return .update (.upTo t.offset operand.span) op true operand
    else parsePostfix r
  | _ => parsePostfix r

/-- The expression of a binary operator. -/
def binaryExpr (op : String) (left right : RawExpr) : RawExpr :=
  let extent := .upTo left.span.start right.span
  if op == "&&" || op == "||" then .logical extent (.ofText op) left right
  else .binary extent (.ofText op) left right

/-- Operands joined by operators of one level, grouped to the left. The fuel bounds their
number. -/
def parseJoined (ops : List String) (operand : Parse RawExpr) : Nat → RawExpr → Parse RawExpr
  | 0, left => return left
  | fuel + 1, left => do
    match ← kind with
    | .symbol op =>
      if op ∈ ops then
        next
        let right ← operand
        parseJoined ops operand fuel (binaryExpr op left right)
      else return left
    | _ => return left

/-- One level of operators that group to the left. -/
def parseLevel (operand : Parse RawExpr) (ops : List String) : Parse RawExpr := do
  let left ← operand
  parseJoined ops operand ((← get).lex.cursor.rest.length + 3) left

/-- Arithmetic operators, the tightest level first. -/
def arithmeticLevels : List (List String) := [["*", "/", "%"], ["+", "-"], ["<<", ">>", ">>>"]]

/-- The operators looser than comparisons, the tightest level first. -/
def looseLevels : List (List String) :=
  [["==", "!=", "===", "!=="], ["&"], ["^"], ["|"], ["&&"], ["||"]]

/-- Comparisons group to the right, and `in` is allowed in their right operands. -/
def parseRelational (r : Rules) : Parse RawExpr := do
  let left ← arithmeticLevels.foldl parseLevel (parseUnary r)
  match ← kind with
  | .symbol op =>
    if op ∈ ["<", "<=", ">", ">=", "instanceof"] || (op == "in" && (← get).around.allowIn) then
      Parse.within (fun a => { a with allowIn := true }) do
        next
        return binaryExpr op left (← r.relational)
    else return left
  | _ => return left

/-- A conditional expression. -/
def parseConditional (r : Rules) : Parse RawExpr := do
  let test ← looseLevels.foldl parseLevel (parseRelational r)
  if ← accept "?" then
    let consequent ← r.assignment
    discard (expect ":")
    let alternate ← r.assignment
    return .conditional (.upTo test.span.start alternate.span) test consequent alternate
  else return test

/-- The assignment operators. -/
def assignOps : List String :=
  ["=", "+=", "-=", "*=", "/=", "%=", "&=", "&^=", "|=", "^=", "<<=", ">>=", ">>>="]

/-- An assignment, or an expression without one. -/
def parseAssignment (r : Rules) : Parse RawExpr := do
  let left ← parseConditional r
  match ← kind with
  | .symbol op =>
    if op ∈ assignOps then
      next
      if !isAssignable left then fault left.span.start badTarget
      let value ← r.assignment
      return .assign (.upTo left.span.start value.span) (.ofText op) left value
    else return left
  | _ => return left

/-- One variable of a declaration. -/
def parseDeclarator (r : Rules) : Parse (Declarator Extent) := do
  let t ← token
  discard (expectKind .identifier)
  let id : Ident Extent := ⟨.startsAt t.offset, t.literal⟩
  if ← accept "=" then
    let init ← r.assignment
    return .mk (.upTo t.offset init.span) id (some init)
  else return .mk (extentOf t.offset t.literal) id none

/-- The variables of a declaration. -/
def parseDeclarators (r : Rules) : Parse (List (Declarator Extent)) := do
  let first ← parseDeclarator r
  let more ← collect do
    if ← accept "," then return some (← parseDeclarator r) else return none
  return first :: more

/-- The extent of a declared variable. -/
def Declarator.span {α : Type} : Declarator α → α
  | .mk s _ _ => s

/-- A variable statement. -/
def parseVar (r : Rules) : Parse RawStmt := do
  let start ← expect "var"
  let items ← parseDeclarators r
  semicolon
  let extent := match items.getLast? with
    | some d => .upTo start d.span
    | none => .unknown
  return .declare extent .mutable items

/-- A condition in parentheses. -/
def parseCondition (r : Rules) : Parse (RawExpr × Nat) := do
  discard (expect "(")
  let test ← parseExpression r
  return (test, ← expect ")")

/-- The body of a loop. -/
def parseLoopBody (r : Rules) : Parse RawStmt :=
  Parse.within (fun a => { a with inLoop := true }) r.statement

/-- A conditional statement. -/
def parseIf (r : Rules) : Parse RawStmt := do
  let start ← expect "if"
  let (test, _) ← parseCondition r
  let consequent ← r.statement
  if ← accept "else" then
    let alternate ← r.statement
    return .branch (.upTo start alternate.span) test consequent (some alternate)
  else return .branch (.upTo start consequent.span) test consequent none

/-- A loop with its test in front. -/
def parseWhile (r : Rules) : Parse RawStmt := do
  let start ← expect "while"
  let (test, _) ← parseCondition r
  let body ← parseLoopBody r
  return .whileLoop (.upTo start body.span) test body

/-- A loop with its test behind. No semicolon is needed after it. -/
def parseDo (r : Rules) : Parse RawStmt := do
  let start ← expect "do"
  let (body, test, stop) ← Parse.within (fun a => { a with inLoop := true }) do
    let body ← r.statement
    discard (expect "while")
    let (test, stop) ← parseCondition r
    return (body, test, stop)
  setLineEnded true
  optionalSemicolon
  return .doLoop (.range start (stop + 1)) body test

/-- What stands before the first semicolon, or before `in`, of a `for` statement. -/
inductive ForHead where
  | nothing
  | declared (items : List (Declarator Extent))
  | expression (e : RawExpr)

/-- The head of a `for` statement as a statement of its own. -/
def ForHead.stmt? : ForHead → Option RawStmt
  | .nothing => none
  | .declared items => some (.declare .unknown .mutable items)
  | .expression e => some (.expr e)

/-- A `for` statement runs over the keys of an object when `in` follows a single variable or
an expression. -/
def parseForHead (r : Rules) : Parse (ForHead × Bool) := do
  if ← sees ";" then return (.nothing, false)
  Parse.within (fun a => { a with allowIn := false }) do
    if ← accept "var" then
      let items ← parseDeclarators r
      if items.length == 1 then return (.declared items, ← accept "in")
      else return (.declared items, false)
    else
      let e ← parseExpression r
      return (.expression e, ← accept "in")

/-- A `for` statement. -/
def parseFor (r : Rules) : Parse RawStmt := do
  let start ← expect "for"
  discard (expect "(")
  let (head, overKeys) ← parseForHead r
  if overKeys then
    match head with
    | .expression e =>
      if !isAssignable e then fault start "Invalid left-hand side in for-in"
    | _ => pure ()
    let source ← parseExpression r
    discard (expect ")")
    let body ← parseLoopBody r
    return .forIn (.upTo start body.span) ((head.stmt?).getD (.empty .unknown)) source body
  else
    discard (expect ";")
    let test ← if ← sees ";" then pure none else some <$> parseExpression r
    discard (expect ";")
    let update ← if ← sees ")" then pure none else some <$> parseExpression r
    discard (expect ")")
    let body ← parseLoopBody r
    return .forLoop (.upTo start body.span) head.stmt? test update body

/-- A jump: the offset of its word and its label. `allowed` tells from the surroundings
whether it may go without a label, `labeled` whether it may have one. -/
def parseJump (word : String) (allowed labeled : Surroundings → Bool) :
    Parse (Extent × Option (Ident Extent)) := do
  let illegal := "Illegal " ++ word ++ " statement"
  let start ← expect word
  let ended ← lineEnded
  let ended ← if ← accept ";" then pure true else pure ended
  if ended || (← sees "\x7d") then
    setLineEnded false
    if !allowed (← get).around then fault start illegal
    return (extentOf start word, none)
  else if (← kind) == .identifier then
    let id ← parseIdent
    if id.name ∉ (← get).around.labels then fault start ("Undefined label '" ++ id.name ++ "'")
    if !labeled (← get).around then fault start illegal
    semicolon
    return (.upTo start id.span, some id)
  else unexpected

/-- A return statement. -/
def parseReturn (r : Rules) : Parse RawStmt := do
  let start ← expect "return"
  if !(← get).around.inFunction then fault start "Illegal return statement"
  let bare := (← lineEnded) || (← sees ";") || (← sees "\x7d") || (← kind) == .eof
  let value ← if bare then pure none else some <$> parseExpression r
  semicolon
  return .giveBack (match value with
    | some e => .upTo start e.span
    | none => extentOf start "return") value

/-- A throw statement, whose value starts on the same line. -/
def parseThrow (r : Rules) : Parse RawStmt := do
  let start ← expect "throw"
  if ← lineEnded then
    if (← get).lex.cursor.rest.isEmpty then throw (.endOfInput start)
    else fault start "Illegal newline after throw"
  let value ← parseExpression r
  semicolon
  return .raise (.upTo start value.span) value

/-- A case of a switch, and the offset it starts at. -/
def parseCase (r : Rules) : Parse (Case Extent × Nat) := do
  let start := (← token).offset
  let test ←
    if ← accept "default" then pure none
    else do
      discard (expect "case")
      some <$> parseExpression r
  discard (expect ":")
  let body ← collect do
    if (← kind) == .eof || (← sees "\x7d") || (← sees "case") || (← sees "default") then return none
    return some (← r.statement)
  let extent := match body.getLast? with
    | some s => .upTo start s.span
    | none => .unknown
  return (.mk extent test body, start)

/-- A case without a test. -/
def Case.isDefault {α : Type} : Case α → Bool
  | .mk _ test _ => test.isNone

/-- The cases of a switch up to its closing brace, and the byte after it. A switch that the
text breaks off ends there. The fuel bounds the number of cases. -/
def parseCases (r : Rules) : Nat → Bool → Parse (List (Case Extent) × Nat)
  | 0, _ => return ([], 0)
  | fuel + 1, seenDefault => do
    if (← kind) == .eof then return ([], 0)
    let here := (← token).offset
    if ← accept "\x7d" then return ([], here + 1)
    let (c, start) ← parseCase r
    if c.isDefault && seenDefault then fault start "Already saw a default in switch"
    let (cs, stop) ← parseCases r fuel (seenDefault || c.isDefault)
    return (c :: cs, stop)

/-- A switch statement. -/
def parseSwitch (r : Rules) : Parse RawStmt := do
  let start ← expect "switch"
  let (discriminant, _) ← parseCondition r
  discard (expect "\x7b")
  let (cases, stop) ← Parse.within (fun a => { a with inSwitch := true }) do
    parseCases r ((← get).lex.cursor.rest.length + 3) false
  return .choose (.range start stop) discriminant cases

/-- A catch clause, if one stands here. -/
def parseHandler (r : Rules) : Parse (Option (Handler Extent)) := do
  let start := (← token).offset
  if ← accept "catch" then
    discard (expect "(")
    if (← kind) != .identifier then unexpected
    let param ← parseIdent
    discard (expect ")")
    let body ← parseBlock r
    return some (.mk (.upTo start body.span) param none body)
  else return none

/-- The extent of a catch clause. -/
def Handler.span {α : Type} : Handler α → α
  | .mk s _ _ _ => s

/-- A try statement. -/
def parseTry (r : Rules) : Parse RawStmt := do
  let start ← expect "try"
  let body ← parseBlock r
  let handler ← parseHandler r
  let final ← if ← accept "finally" then some <$> parseBlock r else pure none
  match handler, final with
  | none, none => fault start "Missing catch or finally after try"
  | _, some b => return .guarded (.upTo start b.span) body handler.toList final
  | some h, none => return .guarded (.upTo start h.span) body [h] none

/-- A with statement. -/
def parseWith (r : Rules) : Parse RawStmt := do
  let start ← expect "with"
  let (object, _) ← parseCondition r
  let body ← r.statement
  return .within (.upTo start body.span) object body

/-- An expression statement, or a label and its statement. -/
def parseSimple (r : Rules) : Parse RawStmt := do
  let e ← parseExpression r
  match e with
  | .ident id =>
    if ← accept ":" then
      if id.name ∈ (← get).around.labels then
        fault id.span.start ("Label '" ++ id.name ++ "' already exists")
      let body ← Parse.within (fun a => { a with labels := id.name :: a.labels }) r.statement
      return .labeled (.upTo id.span.start body.span) id body
    else
      optionalSemicolon
      return .expr e
  | _ =>
    optionalSemicolon
    return .expr e

/-- A statement. -/
def parseStatement (r : Rules) : Parse RawStmt := do
  let t ← token
  match t.kind with
  | .eof => unexpected
  | .symbol ";" =>
    next
    return .empty (.range t.offset (t.offset + 1))
  | .symbol "\x7b" => return .block (← parseBlock r)
  | .symbol "if" => parseIf r
  | .symbol "do" => parseDo r
  | .symbol "while" => parseWhile r
  | .symbol "for" => parseFor r
  | .symbol "break" =>
    let (extent, label) ← parseJump "break" (fun a => a.inLoop || a.inSwitch) (fun _ => true)
    return .breakTo extent label none
  | .symbol "continue" =>
    let (extent, label) ← parseJump "continue" Surroundings.inLoop Surroundings.inLoop
    return .continueTo extent label none
  | .symbol "debugger" =>
    next
    semicolon
    return .debugger (extentOf t.offset "debugger")
  | .symbol "with" => parseWith r
  | .symbol "var" => parseVar r
  | .symbol "switch" => parseSwitch r
  | .symbol "return" => parseReturn r
  | .symbol "throw" => parseThrow r
  | .symbol "try" => parseTry r
  | .symbol "function" =>
    let fn ← parseFunction r .statement
    return .function fn.span fn
  | _ => parseSimple r

/-- The productions, nested at most `n` deep. -/
def rules : Nat → Rules
  | 0 =>
    { assignment := unexpected, relational := unexpected, unary := unexpected,
      construct := unexpected, statement := unexpected }
  | n + 1 =>
    { assignment := fun s => parseAssignment (rules n) s
      relational := fun s => parseRelational (rules n) s
      unary := fun s => parseUnary (rules n) s
      construct := fun s => parseConstruct (rules n) s
      statement := fun s => parseStatement (rules n) s }

/-- A whole script. -/
def parseScript (r : Rules) : Parse (List RawStmt) := do
  let body ← collect do
    if (← kind) == .eof then return none
    return some (← r.statement)
  return declareDirect body

/-- The statements of a script text. -/
def readScript (text : String) : Except Fault (List RawStmt) := do
  let (first, lex) ← (LexState.start text).next
  let (body, _) ← (parseScript (rules (4 * text.length + 16))).run ⟨first, lex, .top⟩
  return body

end Clearance.Script
