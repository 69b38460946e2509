/-
# Syntax trees of scripts

Trees carry an annotation of type `α` on every node: byte extents while a text is being read,
line and column spans once it is placed in a file. Statements and expressions are mutually
nested through function bodies.

A `break` or `continue` names its target by counting: target `n` is the enclosing loop, switch
or labeled statement that has `n` others between it and the jump. A jump whose target has not
been resolved has none.
-/

namespace Clearance.Script

/-- A line and column, both counted from one; zero stands for an unknown place. -/
structure Position where
  line : Nat
  column : Nat
deriving DecidableEq, Repr, Inhabited

/-- Where a node starts and ends. -/
structure Span where
  start : Position
  stop : Position
deriving DecidableEq, Repr, Inhabited

/-- The unknown place. -/
def Position.unknown : Position := ⟨0, 0⟩

/-- The span of a node without a place. -/
def Span.unknown : Span := ⟨.unknown, .unknown⟩

/-- Binary operators. -/
inductive BinaryOp where
  | add | sub | mul | div | mod
  | bitAnd | bitOr | bitXor | shiftLeft | shiftRight | shiftRightZero
  | eq | ne | same | notSame
  | lt | gt | le | ge
  | isIn | instanceOf
  /-- A spelling that names no operator of the language. -/
  | other (text : String)
deriving DecidableEq, Repr

/-- The spelling of each binary operator. -/
def BinaryOp.table : List (String × BinaryOp) :=
  [("+", .add), ("-", .sub), ("*", .mul), ("/", .div), ("%", .mod), ("&", .bitAnd),
   ("|", .bitOr), ("^", .bitXor), ("<<", .shiftLeft), (">>", .shiftRight),
   (">>>", .shiftRightZero), ("==", .eq), ("!=", .ne), ("===", .same), ("!==", .notSame),
   ("<", .lt), (">", .gt), ("<=", .le), (">=", .ge), ("in", .isIn),
   ("instanceof", .instanceOf)]

/-- The operator of a spelling. -/
def BinaryOp.ofText (s : String) : BinaryOp := (BinaryOp.table.lookup s).getD (.other s)

/-- The spelling of an operator. -/
def BinaryOp.text : BinaryOp → String
  | .other s => s
  | op => match BinaryOp.table.find? (fun p => p.2 == op) with
    | some p => p.1
    | none => ""

/-- The short-circuit operators. -/
inductive LogicalOp where
  | and | or
  /-- A spelling that names no operator of the language. -/
  | other (text : String)
deriving DecidableEq, Repr

/-- The spelling of a short-circuit operator. -/
def LogicalOp.text : LogicalOp → String
  | .and => "&&"
  | .or => "||"
  | .other s => s

/-- The short-circuit operator of a spelling. -/
def LogicalOp.ofText (s : String) : LogicalOp :=
  if s = "&&" then .and else if s = "||" then .or else .other s

/-- Unary operators. -/
inductive UnaryOp where
  | not | bitNot | plus | minus | typeOf | void | delete
  /-- A spelling that names no operator of the language. -/
  | other (text : String)
deriving DecidableEq, Repr

/-- The spelling of each unary operator. -/
def UnaryOp.table : List (String × UnaryOp) :=
  [("!", .not), ("~", .bitNot), ("+", .plus), ("-", .minus), ("typeof", .typeOf),
   ("void", .void), ("delete", .delete)]

/-- The unary operator of a spelling. -/
def UnaryOp.ofText (s : String) : UnaryOp := (UnaryOp.table.lookup s).getD (.other s)

/-- The spelling of a unary operator. -/
def UnaryOp.text : UnaryOp → String
  | .other s => s
  | op => match UnaryOp.table.find? (fun p => p.2 == op) with
    | some p => p.1
    | none => ""

/-- Plain assignment, or assignment combined with a binary operator. -/
inductive AssignOp where
  | plain
  | compound (op : BinaryOp)
deriving DecidableEq, Repr

/-- The spelling of an assignment. -/
def AssignOp.text : AssignOp → String
  | .plain => "="
  | .compound op => op.text ++ "="

/-- The assignment of a spelling: its last character is the equals sign. -/
def AssignOp.ofText (s : String) : AssignOp :=
  if s.length < 2 then .plain else .compound (.ofText (String.ofList s.toList.dropLast))

/-- Whether an object literal's member is a value or one half of an accessor. -/
inductive MemberKind where
  | init | get | set
deriving DecidableEq, Repr

/-- Where a function binds its own name. -/
inductive Form where
  /-- Hoisted into the enclosing activation. -/
  | declared
  /-- Bound when the statement runs. -/
  | statement
  /-- Bound only inside the function's own body. -/
  | expression
deriving DecidableEq, Repr

/-- How a variable is declared. -/
inductive VarKind where
  | mutable | constant
deriving DecidableEq, Repr

/-- A name at a place. -/
structure Ident (α : Type) where
  span : α
  name : String
deriving DecidableEq, Repr

mutual

/-- Expressions. -/
inductive Expr (α : Type) where
  | ident (id : Ident α)
  | number (span : α) (value : Float)
  | string (span : α) (value : String)
  | bool (span : α) (value : Bool)
  | null (span : α)
  | regexp (span : α) (pattern flags : String)
  /-- An array literal; an absent element is a hole. -/
  | array (span : α) (elements : List (Option (Expr α)))
  | object (span : α) (members : List (Member α))
  | function (fn : Function α)
  | this (span : α)
  | assign (span : α) (op : AssignOp) (target value : Expr α)
  | binary (span : α) (op : BinaryOp) (left right : Expr α)
  | logical (span : α) (op : LogicalOp) (left right : Expr α)
  | unary (span : α) (op : UnaryOp) (operand : Expr α)
  /-- Increment or decrement, before or after its operand. The spelling is kept. -/
  | update (span : α) (op : String) (before : Bool) (operand : Expr α)
  | conditional (span : α) (test consequent alternate : Expr α)
  | sequence (span : α) (items : List (Expr α))
  | call (span : α) (callee : Expr α) (args : List (Expr α))
  | construct (span : α) (callee : Expr α) (args : List (Expr α))
  | member (span : α) (object : Expr α) (property : Ident α)
  | index (span : α) (object key : Expr α)
  /-- The value of an expression, classified by a named label. -/
  | label (span : α) (name : String) (operand : Expr α)

/-- A member of an object literal. -/
inductive Member (α : Type) where
  | mk (key : String) (kind : MemberKind) (value : Expr α)

/-- A function literal with its source text. -/
inductive Function (α : Type) where
  | mk (span : α) (name : Option (Ident α)) (params : List (Ident α))
      (body : List (Stmt α)) (form : Form) (source : String)

/-- Statements. An expression is a statement of its own. -/
inductive Stmt (α : Type) where
  | expr (e : Expr α)
  | block (b : Block α)
  | declare (span : α) (kind : VarKind) (items : List (Declarator α))
  | function (span : α) (fn : Function α)
  | branch (span : α) (test : Expr α) (consequent : Stmt α) (alternate : Option (Stmt α))
  | choose (span : α) (discriminant : Expr α) (cases : List (Case α))
  | whileLoop (span : α) (test : Expr α) (body : Stmt α)
  | doLoop (span : α) (body : Stmt α) (test : Expr α)
  | forLoop (span : α) (init : Option (Stmt α)) (test update : Option (Expr α)) (body : Stmt α)
  | forIn (span : α) (target : Stmt α) (source : Expr α) (body : Stmt α)
  | breakTo (span : α) (label : Option (Ident α)) (target : Option Nat)
  | continueTo (span : α) (label : Option (Ident α)) (target : Option Nat)
  | giveBack (span : α) (value : Option (Expr α))
  | raise (span : α) (value : Expr α)
  | guarded (span : α) (body : Block α) (handlers : List (Handler α)) (final : Option (Block α))
  | labeled (span : α) (label : Ident α) (body : Stmt α)
  | within (span : α) (object : Expr α) (body : Stmt α)
  | empty (span : α)
  | debugger (span : α)

/-- A block of statements. -/
inductive Block (α : Type) where
  | mk (span : α) (body : List (Stmt α))

/-- One variable of a declaration. -/
inductive Declarator (α : Type) where
  | mk (span : α) (id : Ident α) (init : Option (Expr α))

/-- One case of a switch; the default case has no test. -/
inductive Case (α : Type) where
  | mk (span : α) (test : Option (Expr α)) (body : List (Stmt α))

/-- A catch clause. A guard that fails passes the exception on. -/
inductive Handler (α : Type) where
  | mk (span : α) (param : Ident α) (guard : Option (Expr α)) (body : Block α)

end

namespace Function

variable {α : Type}

/-- The place of a function. -/
def span : Function α → α
  | .mk s _ _ _ _ _ => s

/-- The function's own name, as it stands in the source. -/
def ident? : Function α → Option (Ident α)
  | .mk _ n _ _ _ _ => n

/-- The function's own name, empty when it has none. -/
def name (f : Function α) : String := (f.ident?.map Ident.name).getD ""

/-- The formal parameters. -/
def params : Function α → List (Ident α)
  | .mk _ _ ps _ _ _ => ps

/-- The statements of the body. -/
def body : Function α → List (Stmt α)
  | .mk _ _ _ b _ _ => b

/-- Where the function binds its name. -/
def form : Function α → Form
  | .mk _ _ _ _ f _ => f

/-- The source text, empty when it is not kept. -/
def source : Function α → String
  | .mk _ _ _ _ _ s => s

/-- The same function with another form. -/
def withForm (form : Form) : Function α → Function α
  | .mk s n ps b _ src => .mk s n ps b form src

end Function

namespace Block

variable {α : Type}

/-- The place of a block. -/
def span : Block α → α
  | .mk s _ => s

/-- The statements of a block. -/
def body : Block α → List (Stmt α)
  | .mk _ b => b

end Block

namespace Expr

variable {α : Type}

/-- The place of an expression. -/
def span : Expr α → α
  | .ident id => id.span
  | .number s _ | .string s _ | .bool s _ | .null s | .regexp s _ _ | .array s _ | .object s _
  | .this s | .assign s _ _ _ | .binary s _ _ _ | .logical s _ _ _ | .unary s _ _
  | .update s _ _ _ | .conditional s _ _ _ | .sequence s _ | .call s _ _ | .construct s _ _
  | .member s _ _ | .index s _ _ | .label s _ _ => s
  | .function f => f.span

/-- The name of the kind of an expression. -/
def kind : Expr α → String
  | .ident _ => "Identifier"
  | .number _ _ => "NumberLiteral"
  | .string _ _ => "StringLiteral"
  | .bool _ _ => "BooleanLiteral"
  | .null _ => "NullLiteral"
  | .regexp _ _ _ => "RegExpLiteral"
  | .array _ _ => "ArrayLiteral"
  | .object _ _ => "ObjectLiteral"
  | .function _ => "FunctionLiteral"
  | .this _ => "ThisExpression"
  | .assign _ _ _ _ => "AssignmentExpression"
  | .binary _ _ _ _ => "BinaryExpression"
  | .logical _ _ _ _ => "LogicalExpression"
  | .unary _ _ _ => "UnaryExpression"
  | .update _ _ _ _ => "UpdateExpression"
  | .conditional _ _ _ _ => "ConditionalExpression"
  | .sequence _ _ => "SequenceExpression"
  | .call _ _ _ => "CallExpression"
  | .construct _ _ _ => "NewExpression"
  | .member _ _ _ => "MemberExpression"
  | .index _ _ _ => "IndexExpression"
  | .label _ _ _ => "LabelExpression"

end Expr

namespace Stmt

variable {α : Type}

/-- The place of a statement. -/
def span : Stmt α → α
  | .expr e => e.span
  | .block b => b.span
  | .declare s _ _ | .function s _ | .branch s _ _ _ | .choose s _ _ | .whileLoop s _ _
  | .doLoop s _ _ | .forLoop s _ _ _ _ | .forIn s _ _ _ | .breakTo s _ _ | .continueTo s _ _
  | .giveBack s _ | .raise s _ | .guarded s _ _ _ | .labeled s _ _ | .within s _ _ | .empty s
  | .debugger s => s

/-- The name of the kind of a statement. -/
def kind : Stmt α → String
  | .expr e => e.kind
  | .block _ => "BlockStatement"
  | .declare _ _ _ => "VarDeclaration"
  | .function _ _ => "FunctionDeclaration"
  | .branch _ _ _ _ => "IfStatement"
  | .choose _ _ _ => "SwitchStatement"
  | .whileLoop _ _ _ => "WhileStatement"
  | .doLoop _ _ _ => "DoWhileStatement"
  | .forLoop _ _ _ _ _ => "ForStatement"
  | .forIn _ _ _ _ => "ForInStatement"
  | .breakTo _ _ _ => "BreakStatement"
  | .continueTo _ _ _ => "ContinueStatement"
  | .giveBack _ _ => "ReturnStatement"
  | .raise _ _ => "ThrowStatement"
  | .guarded _ _ _ _ => "TryStatement"
  | .labeled _ _ _ => "LabeledStatement"
  | .within _ _ _ => "WithStatement"
  | .empty _ => "EmptyStatement"
  | .debugger _ => "DebuggerStatement"

end Stmt

/-- A script: the name of the file it comes from and its statements. -/
structure Program (α : Type) where
  source : String
  body : List (Stmt α)

end Clearance.Script
