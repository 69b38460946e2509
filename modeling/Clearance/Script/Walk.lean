/-
# Walking over a tree

The nodes of a tree in the order of a walk from the root: a node comes before its children,
and children come in source order. A walk may stay out of function literals; it then meets
the literal itself and nothing inside it.
-/
import Clearance.Script.Tree

namespace Clearance.Script

variable {α : Type}

/-- A node of any kind. -/
inductive Node (α : Type) where
  | ident (id : Ident α)
  | expr (e : Expr α)
  | member (m : Member α)
  | stmt (s : Stmt α)
  | block (b : Block α)
  | declarator (kind : VarKind) (d : Declarator α)
  | case (c : Case α)
  | handler (h : Handler α)
  | program (p : Program α)

/-- The name of the kind of a node. -/
def Node.kind : Node α → String
  | .ident _ => "Identifier"
  | .expr e => e.kind
  | .member _ => "Property"
  | .stmt s => s.kind
  | .block _ => "BlockStatement"
  | .declarator _ _ => "VariableDeclarator"
  | .case _ => "SwitchCase"
  | .handler _ => "CatchClause"
  | .program _ => "Program"

mutual

/-- The nodes of an expression. `into` tells whether function literals are entered. -/
def Expr.nodes (into : Bool) (e : Expr α) : List (Node α) :=
  match e with
  | .ident id => [.ident id]
  | .number s v => [.expr (.number s v)]
  | .string s v => [.expr (.string s v)]
  | .bool s v => [.expr (.bool s v)]
  | .null s => [.expr (.null s)]
  | .regexp s p f => [.expr (.regexp s p f)]
  | .this s => [.expr (.this s)]
  | .array s es => .expr (.array s es) :: nodesOfElements into es
  | .object s ms => .expr (.object s ms) :: nodesOfMembers into ms
  | .function f => f.nodes into
  | .assign s op t v => .expr (.assign s op t v) :: (t.nodes into ++ v.nodes into)
  | .binary s op l r => .expr (.binary s op l r) :: (l.nodes into ++ r.nodes into)
  | .logical s op l r => .expr (.logical s op l r) :: (l.nodes into ++ r.nodes into)
  | .unary s op e => .expr (.unary s op e) :: e.nodes into
  | .update s op b e => .expr (.update s op b e) :: e.nodes into
  | .conditional s t c a =>
    .expr (.conditional s t c a) :: (t.nodes into ++ c.nodes into ++ a.nodes into)
  | .sequence s es => .expr (.sequence s es) :: nodesOfExprs into es
  | .call s c as => .expr (.call s c as) :: (c.nodes into ++ nodesOfExprs into as)
  | .construct s c as => .expr (.construct s c as) :: (c.nodes into ++ nodesOfExprs into as)
  | .member s o p => .expr (.member s o p) :: (o.nodes into ++ [.ident p])
  | .index s o k => .expr (.index s o k) :: (o.nodes into ++ k.nodes into)
  | .label s n e => .expr (.label s n e) :: e.nodes into

/-- The nodes of a list of expressions. -/
def nodesOfExprs (into : Bool) : List (Expr α) → List (Node α)
  | [] => []
  | e :: es => e.nodes into ++ nodesOfExprs into es

/-- The nodes of an optional expression. -/
def nodesOfExpr? (into : Bool) : Option (Expr α) → List (Node α)
  | none => []
  | some e => e.nodes into

/-- The nodes of the elements of an array literal. -/
def nodesOfElements (into : Bool) : List (Option (Expr α)) → List (Node α)
  | [] => []
  | e :: es => nodesOfExpr? into e ++ nodesOfElements into es

/-- The nodes of the members of an object literal. -/
def nodesOfMembers (into : Bool) : List (Member α) → List (Node α)
  | [] => []
  | .mk k kind v :: ms => .member (.mk k kind v) :: (v.nodes into ++ nodesOfMembers into ms)

/-- The nodes of a function literal. -/
def Function.nodes (into : Bool) : Function α → List (Node α)
  | .mk s n ps b form src =>
    .expr (.function (.mk s n ps b form src)) ::
      (if into then (n.toList ++ ps).map .ident ++ nodesOfStmts into b else [])

/-- The nodes of a statement. -/
def Stmt.nodes (into : Bool) (s : Stmt α) : List (Node α) :=
  match s with
  | .expr e => e.nodes into
  | .block b => b.nodes into
  | .declare s k ds => .stmt (.declare s k ds) :: nodesOfDeclarators into k ds
  | .function s f => .stmt (.function s f) :: f.nodes into
  | .branch s t c a =>
    .stmt (.branch s t c a) :: (t.nodes into ++ c.nodes into ++ nodesOfStmt? into a)
  | .choose s d cs => .stmt (.choose s d cs) :: (d.nodes into ++ nodesOfCases into cs)
  | .whileLoop s t b => .stmt (.whileLoop s t b) :: (t.nodes into ++ b.nodes into)
  | .doLoop s b t => .stmt (.doLoop s b t) :: (b.nodes into ++ t.nodes into)
  | .forLoop s i t u b =>
    .stmt (.forLoop s i t u b) ::
      (nodesOfStmt? into i ++ nodesOfExpr? into t ++ nodesOfExpr? into u ++ b.nodes into)
  | .forIn s t e b => .stmt (.forIn s t e b) :: (t.nodes into ++ e.nodes into ++ b.nodes into)
  | .breakTo s l t => .stmt (.breakTo s l t) :: l.toList.map .ident
  | .continueTo s l t => .stmt (.continueTo s l t) :: l.toList.map .ident
  | .giveBack s v => .stmt (.giveBack s v) :: nodesOfExpr? into v
  | .raise s v => .stmt (.raise s v) :: v.nodes into
  | .guarded s b hs f =>
    .stmt (.guarded s b hs f) :: (b.nodes into ++ nodesOfHandlers into hs ++ nodesOfBlock? into f)
  | .labeled s l b => .stmt (.labeled s l b) :: .ident l :: b.nodes into
  | .within s o b => .stmt (.within s o b) :: (o.nodes into ++ b.nodes into)
  | .empty s => [.stmt (.empty s)]
  | .debugger s => [.stmt (.debugger s)]

/-- The nodes of a list of statements. -/
def nodesOfStmts (into : Bool) : List (Stmt α) → List (Node α)
  | [] => []
  | s :: ss => s.nodes into ++ nodesOfStmts into ss

/-- The nodes of an optional statement. -/
def nodesOfStmt? (into : Bool) : Option (Stmt α) → List (Node α)
  | none => []
  | some s => s.nodes into

/-- The nodes of a block. -/
def Block.nodes (into : Bool) : Block α → List (Node α)
  | .mk s b => .block (.mk s b) :: nodesOfStmts into b

/-- The nodes of an optional block. -/
def nodesOfBlock? (into : Bool) : Option (Block α) → List (Node α)
  | none => []
  | some b => b.nodes into

/-- The nodes of declared variables. -/
def nodesOfDeclarators (into : Bool) (kind : VarKind) : List (Declarator α) → List (Node α)
  | [] => []
  | .mk s id init :: ds =>
    .declarator kind (.mk s id init) :: .ident id ::
      (nodesOfExpr? into init ++ nodesOfDeclarators into kind ds)

/-- The nodes of the cases of a switch. -/
def nodesOfCases (into : Bool) : List (Case α) → List (Node α)
  | [] => []
  | .mk s t b :: cs =>
    .case (.mk s t b) :: (nodesOfExpr? into t ++ nodesOfStmts into b ++ nodesOfCases into cs)

/-- The nodes of catch clauses. -/
def nodesOfHandlers (into : Bool) : List (Handler α) → List (Node α)
  | [] => []
  | .mk s p g b :: hs =>
    .handler (.mk s p g b) :: .ident p ::
      (nodesOfExpr? into g ++ b.nodes into ++ nodesOfHandlers into hs)

end

/-- The nodes of a script, the script itself first. -/
def Program.nodes (into : Bool) (p : Program α) : List (Node α) :=
  .program p :: nodesOfStmts into p.body

end Clearance.Script
