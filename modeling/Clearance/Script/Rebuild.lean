/-
# Rebuilding trees

`rebuild f g` goes over a tree from the leaves up: it applies `f` to the annotation of every
node and `g` to every expression rebuilt so far, and leaves the rest of the tree alone.
-/
import Clearance.Script.Tree

namespace Clearance.Script

variable {α β : Type}

/-- Applies a function to the place of a name. -/
def Ident.map (f : α → β) (id : Ident α) : Ident β := ⟨f id.span, id.name⟩

mutual

/-- Rebuilds an expression: `f` changes annotations, `g` whole expressions. -/
def Expr.rebuild (f : α → β) (g : Expr β → Expr β) : Expr α → Expr β
  | .ident id => g (.ident (id.map f))
  | .number s v => g (.number (f s) v)
  | .string s v => g (.string (f s) v)
  | .bool s v => g (.bool (f s) v)
  | .null s => g (.null (f s))
  | .regexp s p fl => g (.regexp (f s) p fl)
  | .array s es => g (.array (f s) (rebuildElements f g es))
  | .object s ms => g (.object (f s) (rebuildMembers f g ms))
  | .function fn => g (.function (fn.rebuild f g))
  | .this s => g (.this (f s))
  | .assign s op t v => g (.assign (f s) op (t.rebuild f g) (v.rebuild f g))
  | .binary s op l r => g (.binary (f s) op (l.rebuild f g) (r.rebuild f g))
  | .logical s op l r => g (.logical (f s) op (l.rebuild f g) (r.rebuild f g))
  | .unary s op e => g (.unary (f s) op (e.rebuild f g))
  | .update s op b e => g (.update (f s) op b (e.rebuild f g))
  | .conditional s t c a => g (.conditional (f s) (t.rebuild f g) (c.rebuild f g) (a.rebuild f g))
  | .sequence s es => g (.sequence (f s) (rebuildExprs f g es))
  | .call s c as => g (.call (f s) (c.rebuild f g) (rebuildExprs f g as))
  | .construct s c as => g (.construct (f s) (c.rebuild f g) (rebuildExprs f g as))
  | .member s o p => g (.member (f s) (o.rebuild f g) (p.map f))
  | .index s o k => g (.index (f s) (o.rebuild f g) (k.rebuild f g))
  | .label s n e => g (.label (f s) n (e.rebuild f g))

/-- `Expr.rebuild` on a list. -/
def rebuildExprs (f : α → β) (g : Expr β → Expr β) : List (Expr α) → List (Expr β)
  | [] => []
  | e :: es => e.rebuild f g :: rebuildExprs f g es

/-- `Expr.rebuild` on an optional expression. -/
def rebuildExpr? (f : α → β) (g : Expr β → Expr β) : Option (Expr α) → Option (Expr β)
  | none => none
  | some e => some (e.rebuild f g)

/-- `Expr.rebuild` on the elements of an array literal. -/
def rebuildElements (f : α → β) (g : Expr β → Expr β) :
    List (Option (Expr α)) → List (Option (Expr β))
  | [] => []
  | e :: es => rebuildExpr? f g e :: rebuildElements f g es

/-- Rebuilds an object literal's members. -/
def rebuildMembers (f : α → β) (g : Expr β → Expr β) : List (Member α) → List (Member β)
  | [] => []
  | .mk k kind v :: ms => .mk k kind (v.rebuild f g) :: rebuildMembers f g ms

/-- Rebuilds a function. -/
def Function.rebuild (f : α → β) (g : Expr β → Expr β) : Function α → Function β
  | .mk s n ps b form src =>
    .mk (f s) (n.map (Ident.map f)) (ps.map (Ident.map f)) (rebuildStmts f g b) form src

/-- Rebuilds a statement. -/
def Stmt.rebuild (f : α → β) (g : Expr β → Expr β) : Stmt α → Stmt β
  | .expr e => .expr (e.rebuild f g)
  | .block b => .block (b.rebuild f g)
  | .declare s k ds => .declare (f s) k (rebuildDeclarators f g ds)
  | .function s fn => .function (f s) (fn.rebuild f g)
  | .branch s t c a => .branch (f s) (t.rebuild f g) (c.rebuild f g) (rebuildStmt? f g a)
  | .choose s d cs => .choose (f s) (d.rebuild f g) (rebuildCases f g cs)
  | .whileLoop s t b => .whileLoop (f s) (t.rebuild f g) (b.rebuild f g)
  | .doLoop s b t => .doLoop (f s) (b.rebuild f g) (t.rebuild f g)
  | .forLoop s i t u b =>
    .forLoop (f s) (rebuildStmt? f g i) (rebuildExpr? f g t) (rebuildExpr? f g u) (b.rebuild f g)
  | .forIn s t e b => .forIn (f s) (t.rebuild f g) (e.rebuild f g) (b.rebuild f g)
  | .breakTo s l t => .breakTo (f s) (l.map (Ident.map f)) t
  | .continueTo s l t => .continueTo (f s) (l.map (Ident.map f)) t
  | .giveBack s v => .giveBack (f s) (rebuildExpr? f g v)
  | .raise s v => .raise (f s) (v.rebuild f g)
  | .guarded s b hs fin =>
    .guarded (f s) (b.rebuild f g) (rebuildHandlers f g hs) (rebuildBlock? f g fin)
  | .labeled s l b => .labeled (f s) (l.map f) (b.rebuild f g)
  | .within s o b => .within (f s) (o.rebuild f g) (b.rebuild f g)
  | .empty s => .empty (f s)
  | .debugger s => .debugger (f s)

/-- `Stmt.rebuild` on a list. -/
def rebuildStmts (f : α → β) (g : Expr β → Expr β) : List (Stmt α) → List (Stmt β)
  | [] => []
  | s :: ss => s.rebuild f g :: rebuildStmts f g ss

/-- `Stmt.rebuild` on an optional statement. -/
def rebuildStmt? (f : α → β) (g : Expr β → Expr β) : Option (Stmt α) → Option (Stmt β)
  | none => none
  | some s => some (s.rebuild f g)

/-- Rebuilds a block. -/
def Block.rebuild (f : α → β) (g : Expr β → Expr β) : Block α → Block β
  | .mk s b => .mk (f s) (rebuildStmts f g b)

/-- `Block.rebuild` on an optional block. -/
def rebuildBlock? (f : α → β) (g : Expr β → Expr β) : Option (Block α) → Option (Block β)
  | none => none
  | some b => some (b.rebuild f g)

/-- Rebuilds declared variables. -/
def rebuildDeclarators (f : α → β) (g : Expr β → Expr β) : List (Declarator α) → List (Declarator β)
  | [] => []
  | .mk s id init :: ds => .mk (f s) (id.map f) (rebuildExpr? f g init) :: rebuildDeclarators f g ds

/-- Rebuilds the cases of a switch. -/
def rebuildCases (f : α → β) (g : Expr β → Expr β) : List (Case α) → List (Case β)
  | [] => []
  | .mk s t b :: cs => .mk (f s) (rebuildExpr? f g t) (rebuildStmts f g b) :: rebuildCases f g cs

/-- Rebuilds catch clauses. -/
def rebuildHandlers (f : α → β) (g : Expr β → Expr β) : List (Handler α) → List (Handler β)
  | [] => []
  | .mk s p guard b :: hs =>
    .mk (f s) (p.map f) (rebuildExpr? f g guard) (b.rebuild f g) :: rebuildHandlers f g hs

end

end Clearance.Script
