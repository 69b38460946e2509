/-
# Tokens

The text of a script is cut into tokens on demand: whether a slash divides or opens a pattern
is known only to the grammar. Between tokens stand white space, line ends and comments. A line
end after a token that may end a statement counts as an implicit semicolon.

Reading a script stops at the first fault. A fault knows the byte offset it was found at,
from which the line and column are counted.
-/
import Clearance.Script.Literal

namespace Clearance.Script

/-! ## Faults -/

/-- Why a text is no script, and the byte offset where that shows. -/
structure Fault where
  offset : Nat
  message : String
deriving DecidableEq, Repr

namespace Fault

/-- The text ends too early. -/
def endOfInput (offset : Nat) : Fault := ⟨offset, "Unexpected end of input"⟩

/-- A token stands where it cannot stand. -/
def token (offset : Nat) (text : String) : Fault := ⟨offset, "Unexpected token " ++ text⟩

end Fault

/-- Characters that end a line. -/
def isLineEnd (c : Char) : Bool :=
  c == '\n' || c == '\r' || c == '\u2028' || c == '\u2029'

/-- The number of line ends before a byte offset and the offset of the last byte of the last
one. A carriage return followed by a line feed ends one line. -/
def lineEndsBefore (offset : Nat) : List Char → Nat → Bool → Nat → Option Nat → Nat × Option Nat
  | [], _, _, line, last => (line, last)
  | c :: cs, here, pair, line, last =>
    if here ≥ offset then (line, last)
    else
      let next := here + c.utf8Size
      if c == '\r' then lineEndsBefore offset cs next true (line + 1) (some here)
      else if c == '\n' then
        lineEndsBefore offset cs next false (if pair then line else line + 1) (some here)
      else if isLineEnd c then lineEndsBefore offset cs next false (line + 1) (some (here + 2))
      else lineEndsBefore offset cs next false line last

/-- The line and column of a fault; columns count bytes. -/
def Fault.place (f : Fault) (text : List Char) : Nat × Nat :=
  match lineEndsBefore f.offset text 0 false 0 none with
  | (line, some last) => (line + 1, f.offset - last)
  | (line, none) => (line + 1, f.offset + 1)

/-! ## Places in a text -/

/-- A place in a text: what follows and how many bytes stand before it. -/
structure Cursor where
  rest : List Char
  offset : Nat

namespace Cursor

/-- The character at the cursor. -/
def head? (c : Cursor) : Option Char := c.rest.head?

/-- The cursor after the next character. -/
def advance (c : Cursor) : Cursor :=
  match c.rest with
  | [] => c
  | x :: xs => ⟨xs, c.offset + x.utf8Size⟩

/-- The cursor after the next `n` characters. -/
def skip (c : Cursor) (n : Nat) : Cursor :=
  ⟨c.rest.drop n, c.offset + Text.byteSize (c.rest.take n)⟩

/-- The leading characters that satisfy `p`, and the cursor after them. -/
def span (p : Char → Bool) (c : Cursor) : List Char × Cursor :=
  let taken := c.rest.takeWhile p
  (taken, ⟨c.rest.dropWhile p, c.offset + Text.byteSize taken⟩)

/-- The characters between a cursor and a later one. -/
def upTo (c later : Cursor) : List Char := c.rest.take (c.rest.length - later.rest.length)

end Cursor

/-- What a token is. -/
inductive TokenKind where
  /-- Something that is no token. -/
  | illegal
  /-- The end of the text. -/
  | eof
  /-- A word reserved for later use. -/
  | reserved
  | string
  | boolean
  | null
  | number
  | identifier
  /-- A keyword or punctuator, by its spelling. -/
  | symbol (text : String)
deriving DecidableEq, Repr

/-- The spelling of a kind of token in messages. -/
def TokenKind.text : TokenKind → String
  | .illegal => "ILLEGAL"
  | .eof => "EOF"
  | .reserved => "KEYWORD"
  | .string => "STRING"
  | .boolean => "BOOLEAN"
  | .null => "NULL"
  | .number => "NUMBER"
  | .identifier => "IDENTIFIER"
  | .symbol s => s

/-- The keywords of the language. -/
def keywords : List String :=
  ["if", "in", "do", "var", "for", "new", "try", "this", "else", "case", "void", "with",
   "while", "break", "catch", "throw", "return", "typeof", "delete", "switch", "default",
   "finally", "function", "continue", "debugger", "instanceof"]

/-- Keywords that may end a statement. -/
def closingKeywords : List String := ["this", "break", "throw", "return", "continue", "debugger"]

/-- Words reserved for later use. -/
def reservedWords : List String :=
  ["const", "class", "enum", "export", "extends", "import", "super"]

/-- The punctuators, longer ones before their beginnings. -/
def punctuators : List String :=
  [">>>=", ">>>", ">>=", "<<=", "===", "!==", "&^=", ">>", "<<", "==", "!=", "<=", ">=", "&^",
   "&&", "||", "++", "--", "+=", "-=", "*=", "/=", "%=", "&=", "|=", "^=", "+", "-", "*", "/",
   "%", "&", "|", "^", "=", "!", "<", ">", "~", "?", ":", ",", ";", "(", ")", "[", "]",
   "\x7b", "\x7d", "."]

/-- Punctuators that may end a statement. -/
def closingPunctuators : List String := [")", "]", "\x7d", "++", "--", "/", "/="]

/-- The first character of a name. A backslash opens an escape. -/
def isNameStart (c : Char) : Bool :=
  c == '$' || c == '_' || c == '\\' || Text.isLetter c

/-- The further characters of a name. -/
def isNamePart (c : Char) : Bool := isNameStart c || Text.isDigit c

/-- A word that can stand for a property after a dot or before a colon. -/
def isPropertyName (s : String) : Bool :=
  match s.toList with
  | [] => false
  | c :: cs =>
    let first := fun (c : Char) => c == '$' || c == '_' || Text.isLetter c
    first c && cs.all (fun c => first c || c.isDigit || c == '\x7d')

/-- The state between two tokens. -/
structure LexState where
  cursor : Cursor
  /-- A line end here would count as a semicolon. -/
  mayEnd : Bool
  /-- A line end since the last token counted as a semicolon. -/
  ended : Bool

/-- A token: its kind, its spelling and the place it starts at. -/
structure Token where
  kind : TokenKind
  literal : String
  place : Cursor

/-- The byte offset a token starts at. -/
def Token.offset (t : Token) : Nat := t.place.offset

/-- Skips white space. Line ends are skipped too unless one would count as a semicolon. A
character enclosed by a carriage return and a line feed is taken for part of the line end. -/
def skipBlank (halt : Bool) : List Char → Nat → Cursor
  | [], off => ⟨[], off⟩
  | '\r' :: x :: '\n' :: cs, off =>
    if x.toNat < 128 then
      if halt then ⟨x :: '\n' :: cs, off + 1⟩ else skipBlank halt ('\n' :: cs) (off + 2)
    else if halt then ⟨'\r' :: x :: '\n' :: cs, off⟩
    else skipBlank halt (x :: '\n' :: cs) (off + 1)
  | c :: cs, off =>
    if isLineEnd c then
      if halt then ⟨c :: cs, off⟩ else skipBlank halt cs (off + c.utf8Size)
    else if c == '\ufeff' || Text.isBlank c then skipBlank halt cs (off + c.utf8Size)
    else ⟨c :: cs, off⟩

/-- The cursor after the end of a block comment, if the comment ends. -/
def skipComment : List Char → Nat → Except Fault Cursor
  | '*' :: '/' :: cs, off => .ok ⟨cs, off + 2⟩
  | c :: cs, off => skipComment cs (off + c.utf8Size)
  | [], off => .error (.endOfInput off)

/-- Skips all that stands between two tokens. The fuel bounds the number of pieces. -/
def skipTrivia : Nat → LexState → Except Fault LexState
  | 0, s => .ok s
  | fuel + 1, s =>
    let here := skipBlank s.mayEnd s.cursor.rest s.cursor.offset
    match here.rest with
    | '/' :: '/' :: cs =>
      skipTrivia fuel
        { s with cursor := (Cursor.span (fun c => !isLineEnd c) ⟨cs, here.offset + 2⟩).2 }
    | '/' :: '*' :: cs => do
      let after ← skipComment cs (here.offset + 2)
      skipTrivia fuel { s with cursor := after }
    | c :: _ =>
      if isLineEnd c then skipTrivia fuel ⟨here.advance, false, true⟩
      else .ok { s with cursor := here }
    | [] => .ok { s with cursor := here }

/-- The value of a hexadecimal digit in the escape of a name: only the low byte of a character
counts here. -/
def nameDigit? (c : Char) : Option Nat := hexValue? (Char.ofNat (c.toNat % 256))

/-- Reads the escape of a name after its backslash: the cursor after it and the character. -/
def readNameEscape (c : Cursor) : Except Cursor (Char × Cursor) :=
  match c.rest with
  | 'u' :: cs =>
    let ds := (cs.take 4).takeWhile (fun d => (nameDigit? d).isSome)
    if ds.length = 4 then
      .ok (charOfCode (Decimal.valueOf 16 (ds.filterMap nameDigit?)), c.skip 5)
    else .error (c.skip (1 + ds.length))
  | _ => .error c

/-- The cursor after a name, or the cursor where a malformed escape stops it. The fuel bounds
the number of characters. -/
def skipName : Nat → Bool → Cursor → Except Cursor Cursor
  | 0, _, c => .ok c
  | fuel + 1, first, c =>
    match c.rest with
    | [] => .ok c
    | '\\' :: cs =>
      match readNameEscape ⟨cs, c.offset + 1⟩ with
      | .error stop => .error stop
      | .ok (v, after) =>
        -- the last digit of a bad escape is left unread
        if v == '\\' || !(if first then isNameStart v else isNamePart v) then
          .error (c.skip 5)
        else skipName fuel false after
    | x :: _ => if isNamePart x then skipName fuel false c.advance else .ok c

/-- A name, escapes replaced, and the cursor after it; or the cursor where it is found not to
be a name. -/
def readName (start : Cursor) : Except Cursor (String × Cursor) := do
  let stop ← skipName (start.rest.length + 1) true start
  match unescape (start.upTo stop) with
  | .ok word => .ok (word, stop)
  | .error _ => .error stop

/-- The cursor after the closing quote of a string, or after the line end that breaks it. -/
def skipString (quote : Char) : List Char → Nat → Except Cursor Cursor
  | [], off => .error ⟨[], off⟩
  | '\\' :: '\r' :: '\n' :: cs, off => skipString quote cs (off + 3)
  | '\\' :: c :: cs, off => skipString quote cs (off + 1 + c.utf8Size)
  | ['\\'], off => .error ⟨[], off + 1⟩
  | c :: cs, off =>
    if c == quote then .ok ⟨cs, off + 1⟩
    else if isLineEnd c then
      match c, cs with
      | '\r', '\n' :: more => .error ⟨more, off + 2⟩
      | _, _ => .error ⟨cs, off + c.utf8Size⟩
    else skipString quote cs (off + c.utf8Size)

/-- The exponent of a number, if one stands here; `none` when it is malformed. The cursor is
the place after what was read. -/
def skipExponent (c : Cursor) : Bool × Cursor :=
  match c.rest with
  | e :: _ =>
    if e == 'e' || e == 'E' then
      let after := c.advance
      let after := match after.head? with
        | some '+' | some '-' => after.advance
        | _ => after
      let (ds, stop) := after.span Char.isDigit
      (!ds.isEmpty, stop)
    else (true, c)
  | [] => (true, c)

/-- Whether a number may end here: no name and no digit follows at once. -/
def numberEnds (c : Cursor) : Bool :=
  match c.head? with
  | some x => !(isNameStart x || x.isDigit)
  | none => true

/-- Reads a number whose digits, and point if any, start at `start`. -/
def lexNumber (start : Cursor) : TokenKind × String × Cursor :=
  let done := fun (good : Bool) (stop : Cursor) =>
    (if good then TokenKind.number else .illegal, String.ofList (start.upTo stop), stop)
  let decimal := fun (c : Cursor) =>
    let (good, stop) := skipExponent c
    done (good && numberEnds stop) stop
  let fraction := fun (c : Cursor) =>
    match c.rest with
    | '.' :: _ => decimal (c.advance.span Char.isDigit).2
    | _ => decimal c
  match start.rest with
  | '.' :: _ => decimal (start.advance.span Char.isDigit).2
  | '0' :: x :: _ =>
    if x == 'x' || x == 'X' then
      let (ds, stop) := (start.skip 2).span (fun c => (hexValue? c).isSome)
      done (!ds.isEmpty && numberEnds stop) stop
    else if x == '.' then fraction start.advance
    else if x == 'e' || x == 'E' then decimal start.advance
    else
      let (_, stop) := start.advance.span isOctal
      done (numberEnds stop) stop
  | _ => fraction (start.span Char.isDigit).2

/-- The longest punctuator at the cursor. -/
def punctuator? (cs : List Char) : Option String :=
  punctuators.find? (fun p => p.toList.isPrefixOf cs)

/-- A word as a token, and whether a statement may end after it. Most keywords leave that as
it was. -/
def wordToken (word : String) (mayEnd : Bool) : TokenKind × Bool :=
  if word ∈ keywords then
    (.symbol word, if word ∈ closingKeywords then true else mayEnd)
  else if word ∈ reservedWords then (.reserved, mayEnd)
  else if word = "true" || word = "false" then (.boolean, true)
  else if word = "null" then (.null, true)
  else (.identifier, true)

/-- Reads the next token. -/
def LexState.next (s : LexState) : Except Fault (Token × LexState) := do
  let s ← skipTrivia (s.cursor.rest.length + 1) { s with ended := false }
  let start := s.cursor
  match start.rest with
  | [] => .ok (⟨.eof, "", start⟩, ⟨start, false, s.ended || s.mayEnd⟩)
  | c :: cs =>
    let token := fun (kind : TokenKind) (literal : String) (stop : Cursor) (mayEnd : Bool) =>
      Except.ok (⟨kind, literal, start⟩, ⟨stop, mayEnd, s.ended⟩)
    if isNameStart c then
      match readName start with
      | .error stop => token .illegal "" stop false
      | .ok (word, stop) =>
        let (kind, mayEnd) := wordToken word s.mayEnd
        token kind word stop mayEnd
    else if c.isDigit || (c == '.' && (cs.head?.map Char.isDigit).getD false) then
      let (kind, literal, stop) := lexNumber start
      token kind literal stop true
    else if c == '\x22' || c == '\x27' then
      match skipString c cs (start.offset + 1) with
      | .ok stop => token .string (String.ofList (start.upTo stop)) stop true
      | .error stop => token .illegal "" stop true
    else match punctuator? start.rest with
      | some p => token (.symbol p) "" (start.skip p.length) (p ∈ closingPunctuators)
      | none => .error (.token start.offset "ILLEGAL")

/-- The state at the start of a text. -/
def LexState.start (text : String) : LexState := ⟨⟨text.toList, 0⟩, false, false⟩

end Clearance.Script
