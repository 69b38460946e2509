/-
# Outlines

The outline of a tree is the tree seen by tools: every node has a kind, a place and named
fields. A jump shows how many enclosing statements lie between it and its target.
-/
import Clearance.Script.Grammar
import Clearance.Script.Hoist

namespace Clearance.Script

/-- A tree of named fields. -/
inductive Outline where
  /-- An absent node. -/
  | absent
  | text (s : String)
  | flag (b : Bool)
  | number (x : Float)
  | integer (n : Int)
  /-- The target of a jump. -/
  | target (n : Option Nat)
  | list (items : List Outline)
  | node (kind : String) (span : Span) (fields : List (String × Outline))

namespace Outline

/-- A name at a place. -/
def ofIdent (id : Ident Span) : Outline := .node "Identifier" id.span [("name", .text id.name)]

/-- A name that may be missing. -/
def ofIdent? : Option (Ident Span) → Outline
  | none => .absent
  | some id => ofIdent id

/-- The declarations that are bound on entry to a body. -/
def hoisted (body : List (Stmt Span)) : List (String × Outline) :=
  [("vars", .list ((hoistedVars body).map fun v =>
      .text (if v.constant then "const " ++ v.name else v.name))),
   ("functions", .list ((hoistedFunctions body).map fun f => .text f.name))]

/-- The word for the kind of a member. -/
def memberKind : MemberKind → Outline
  | .init => .text "init"
  | .get => .text "get"
  | .set => .text "set"

/-- The word for the form of a function. -/
def form : Form → Outline
  | .declared => .text "declared"
  | .statement => .text "statement"
  | .expression => .text "expression"

/-- The index of the default case, or minus one. -/
def defaultIndex (cases : List (Case Span)) : Outline :=
  match cases.findIdx? Case.isDefault with
  | some i => .integer i
  | none => .integer (-1)

end Outline

open Outline

mutual

/-- The outline of an expression. -/
def Expr.outline : Expr Span → Outline
  | .ident id => ofIdent id
  | .number s v => .node "NumberLiteral" s [("value", .number v)]
  | .string s v => .node "StringLiteral" s [("value", .text v)]
  | .bool s v => .node "BooleanLiteral" s [("value", .flag v)]
  | .null s => .node "NullLiteral" s []
  | .this s => .node "ThisExpression" s []
  | .regexp s p f => .node "RegExpLiteral" s [("pattern", .text p), ("flags", .text f)]
  | .array s es => .node "ArrayLiteral" s [("elements", .list (outlineElements es))]
  | .object s ms => .node "ObjectLiteral" s [("properties", .list (outlineMembers ms))]
  | .function f => f.outline
  | .assign s op t v => .node "AssignmentExpression" s
      [("operator", .text op.text), ("target", t.outline), ("value", v.outline)]
  | .binary s op l r => .node "BinaryExpression" s
      [("operator", .text op.text), ("left", l.outline), ("right", r.outline)]
  | .logical s op l r => .node "LogicalExpression" s
      [("operator", .text op.text), ("left", l.outline), ("right", r.outline)]
  | .unary s op e => .node "UnaryExpression" s
      [("operator", .text op.text), ("operand", e.outline)]
  | .update s op b e => .node "UpdateExpression" s
      [("operator", .text op), ("prefix", .flag b), ("operand", e.outline)]
  | .conditional s t c a => .node "ConditionalExpression" s
      [("test", t.outline), ("consequent", c.outline), ("alternate", a.outline)]
  | .sequence s es => .node "SequenceExpression" s [("expressions", .list (outlineExprs es))]
  | .call s c as => .node "CallExpression" s
      [("callee", c.outline), ("arguments", .list (outlineExprs as))]
  | .construct s c as => .node "NewExpression" s
      [("callee", c.outline), ("arguments", .list (outlineExprs as))]
  | .member s o p => .node "MemberExpression" s [("object", o.outline), ("property", ofIdent p)]
  | .index s o k => .node "IndexExpression" s [("object", o.outline), ("index", k.outline)]
  | .label s n e => .node "LabelExpression" s [("label", .text n), ("expression", e.outline)]

/-- The outlines of several expressions. -/
def outlineExprs : List (Expr Span) → List Outline
  | [] => []
  | e :: es => e.outline :: outlineExprs es

/-- The outline of an expression that may be missing. -/
def outlineExpr? : Option (Expr Span) → Outline
  | none => .absent
  | some e => e.outline

/-- The outlines of the elements of an array literal. -/
def outlineElements : List (Option (Expr Span)) → List Outline
  | [] => []
  | e :: es => outlineExpr? e :: outlineElements es

/-- The outlines of the members of an object literal. -/
def outlineMembers : List (Member Span) → List Outline
  | [] => []
  | .mk k kind v :: ms =>
    .node "Property" .unknown [("key", .text k), ("kind", memberKind kind), ("value", v.outline)]
      :: outlineMembers ms

/-- The outline of a function literal. -/
def Function.outline : Function Span → Outline
  | .mk s n ps b f src => .node "FunctionLiteral" s
      ([("id", ofIdent? n), ("params", .list (ps.map ofIdent)), ("body", .list (outlineStmts b)),
        ("form", form f), ("source", .text src)] ++ hoisted b)

/-- The outline of a statement. -/
def Stmt.outline : Stmt Span → Outline
  | .expr e => e.outline
  | .block b => b.outline
  | .declare s k ds => .node "VarDeclaration" s
      [("kind", .text (if k = .constant then "const" else "var")),
       ("declarations", .list (outlineDeclarators ds))]
  | .function s f => .node "FunctionDeclaration" s [("function", f.outline)]
  | .branch s t c a => .node "IfStatement" s
      [("test", t.outline), ("consequent", c.outline), ("alternate", outlineStmt? a)]
  | .choose s d cs => .node "SwitchStatement" s
      [("discriminant", d.outline), ("cases", .list (outlineCases cs)),
       ("defaultIndex", defaultIndex cs)]
  | .whileLoop s t b => .node "WhileStatement" s [("test", t.outline), ("body", b.outline)]
  | .doLoop s b t => .node "DoWhileStatement" s [("body", b.outline), ("test", t.outline)]
  | .forLoop s i t u b => .node "ForStatement" s
      [("init", outlineStmt? i), ("test", outlineExpr? t), ("update", outlineExpr? u),
       ("body", b.outline)]
  | .forIn s t e b => .node "ForInStatement" s
      [("left", t.outline), ("right", e.outline), ("body", b.outline)]
  | .breakTo s l t => .node "BreakStatement" s [("label", ofIdent? l), ("target", .target t)]
  | .continueTo s l t => .node "ContinueStatement" s [("label", ofIdent? l), ("target", .target t)]
  | .giveBack s v => .node "ReturnStatement" s [("argument", outlineExpr? v)]
  | .raise s v => .node "ThrowStatement" s [("argument", v.outline)]
  | .guarded s b hs f => .node "TryStatement" s
      [("block", b.outline), ("handlers", .list (outlineHandlers hs)),
       ("finalizer", outlineBlock? f)]
  | .labeled s l b => .node "LabeledStatement" s [("label", ofIdent l), ("body", b.outline)]
  | .within s o b => .node "WithStatement" s [("object", o.outline), ("body", b.outline)]
  | .empty s => .node "EmptyStatement" s []
  | .debugger s => .node "DebuggerStatement" s []

/-- The outlines of several statements. -/
def outlineStmts : List (Stmt Span) → List Outline
  | [] => []
  | s :: ss => s.outline :: outlineStmts ss

/-- The outline of a statement that may be missing. -/
def outlineStmt? : Option (Stmt Span) → Outline
  | none => .absent
  | some s => s.outline

/-- The outline of a block. -/
def Block.outline : Block Span → Outline
  | .mk s b => .node "BlockStatement" s [("body", .list (outlineStmts b))]

/-- The outline of a block that may be missing. -/
def outlineBlock? : Option (Block Span) → Outline
  | none => .absent
  | some b => b.outline

/-- The outlines of declared variables. -/
def outlineDeclarators : List (Declarator Span) → List Outline
  | [] => []
  | .mk s id init :: ds =>
    .node "VariableDeclarator" s [("id", ofIdent id), ("init", outlineExpr? init)]
      :: outlineDeclarators ds

/-- The outlines of the cases of a switch. -/
def outlineCases : List (Case Span) → List Outline
  | [] => []
  | .mk s t b :: cs =>
    .node "SwitchCase" s [("test", outlineExpr? t), ("body", .list (outlineStmts b))]
      :: outlineCases cs

/-- The outlines of catch clauses. -/
def outlineHandlers : List (Handler Span) → List Outline
  | [] => []
  | .mk s p g b :: hs =>
    .node "CatchClause" s
        [("param", ofIdent p), ("guard", outlineExpr? g), ("body", b.outline)]
      :: outlineHandlers hs

end

/-- The outline of a script. -/
def Program.outline (p : Program Span) : Outline :=
  .node "Program" .unknown
    ([("source", .text p.source), ("body", .list (outlineStmts p.body))] ++ hoisted p.body)

end Clearance.Script
