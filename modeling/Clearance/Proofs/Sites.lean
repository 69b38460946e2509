/-
# Statements and what is around them

A jump goes to a statement around it. This file takes a tree apart into its statements, each with
the statements around it up to the function or script that it stands in (`Program.sites`). No
statement is left out. It says of a statement whether it has what it needs there (`Site.Valid`) and
of a jump with a target that it goes where it should (`Site.Bound`).

Statements are told apart by where they stand, not by what they say: a target is a position in the
list of the statements around a jump.
-/
import Clearance.Proofs.Grammar
import Clearance.Script.Walk

namespace Clearance.Script

variable {α : Type}

/-! ## Statements and what is around them -/

/-- A statement and the statements around it, innermost first, in the same function. -/
structure Site (α : Type) where
  around : List (Stmt α)
  here : Stmt α

mutual

/-- The statements of the functions in an expression. -/
def Expr.sites : Expr α → List (Site α)
  | .array _ es => sitesOfElements es
  | .object _ ms => sitesOfMembers ms
  | .function f => f.sites
  | .assign _ _ t v => t.sites ++ v.sites
  | .binary _ _ l r => l.sites ++ r.sites
  | .logical _ _ l r => l.sites ++ r.sites
  | .unary _ _ e => e.sites
  | .update _ _ _ e => e.sites
  | .conditional _ t c a => t.sites ++ c.sites ++ a.sites
  | .sequence _ es => sitesOfExprs es
  | .call _ c as => c.sites ++ sitesOfExprs as
  | .construct _ c as => c.sites ++ sitesOfExprs as
  | .member _ o _ => o.sites
  | .index _ o k => o.sites ++ k.sites
  | .label _ _ e => e.sites
  | _ => []
termination_by structural x => x

/-- The statements of the functions in a list of expressions. -/
def sitesOfExprs : List (Expr α) → List (Site α)
  | [] => []
  | e :: es => e.sites ++ sitesOfExprs es
termination_by structural x => x

/-- The statements of the functions in an optional expression. -/
def sitesOfExpr? : Option (Expr α) → List (Site α)
  | none => []
  | some e => e.sites
termination_by structural x => x

/-- The statements of the functions in an array literal. -/
def sitesOfElements : List (Option (Expr α)) → List (Site α)
  | [] => []
  | e :: es => sitesOfExpr? e ++ sitesOfElements es
termination_by structural x => x

/-- The statements of the functions in an object literal. -/
def sitesOfMembers : List (Member α) → List (Site α)
  | [] => []
  | .mk _ _ v :: ms => v.sites ++ sitesOfMembers ms
termination_by structural x => x

/-- The statements of a function. Nothing outside of it is around them. -/
def Function.sites : Function α → List (Site α)
  | .mk _ _ _ b _ _ => sitesOfStmts [] b
termination_by structural x => x

/-- A statement and the statements in it. -/
def Stmt.sites (around : List (Stmt α)) (s : Stmt α) : List (Site α) :=
  ⟨around, s⟩ :: match s with
    | .expr e => e.sites
    | .block b => b.sites (s :: around)
    | .declare _ _ ds => sitesOfDeclarators ds
    | .function _ f => f.sites
    | .branch _ t c a => t.sites ++ c.sites (s :: around) ++ sitesOfStmt? (s :: around) a
    | .choose _ d cs => d.sites ++ sitesOfCases (s :: around) cs
    | .whileLoop _ t b => t.sites ++ b.sites (s :: around)
    | .doLoop _ b t => b.sites (s :: around) ++ t.sites
    | .forLoop _ i t u b =>
      sitesOfStmt? (s :: around) i ++ sitesOfExpr? t ++ sitesOfExpr? u ++ b.sites (s :: around)
    | .forIn _ t e b => t.sites (s :: around) ++ e.sites ++ b.sites (s :: around)
    | .giveBack _ v => sitesOfExpr? v
    | .raise _ v => v.sites
    | .guarded _ b hs f =>
      b.sites (s :: around) ++ sitesOfHandlers (s :: around) hs ++ sitesOfBlock? (s :: around) f
    | .labeled _ _ b => b.sites (s :: around)
    | .within _ o b => o.sites ++ b.sites (s :: around)
    | .breakTo _ _ _ | .continueTo _ _ _ | .empty _ | .debugger _ => []
termination_by structural s

/-- The statements of a list, and those in them. -/
def sitesOfStmts (around : List (Stmt α)) : List (Stmt α) → List (Site α)
  | [] => []
  | s :: ss => s.sites around ++ sitesOfStmts around ss
termination_by structural x => x

/-- The statements of an optional statement. -/
def sitesOfStmt? (around : List (Stmt α)) : Option (Stmt α) → List (Site α)
  | none => []
  | some s => s.sites around
termination_by structural x => x

/-- The statements of a block. -/
def Block.sites (around : List (Stmt α)) : Block α → List (Site α)
  | .mk _ b => sitesOfStmts around b
termination_by structural x => x

/-- The statements of an optional block. -/
def sitesOfBlock? (around : List (Stmt α)) : Option (Block α) → List (Site α)
  | none => []
  | some b => b.sites around
termination_by structural x => x

/-- The statements of the functions in initial values. -/
def sitesOfDeclarators : List (Declarator α) → List (Site α)
  | [] => []
  | .mk _ _ init :: ds => sitesOfExpr? init ++ sitesOfDeclarators ds
termination_by structural x => x

/-- The statements of the cases of a switch. -/
def sitesOfCases (around : List (Stmt α)) : List (Case α) → List (Site α)
  | [] => []
  | .mk _ t b :: cs => sitesOfExpr? t ++ sitesOfStmts around b ++ sitesOfCases around cs
termination_by structural x => x

/-- The statements of catch clauses. -/
def sitesOfHandlers (around : List (Stmt α)) : List (Handler α) → List (Site α)
  | [] => []
  | .mk _ _ g b :: hs => sitesOfExpr? g ++ b.sites around ++ sitesOfHandlers around hs
termination_by structural x => x

end

/-- The statements of a script. -/
def Program.sites (p : Program α) : List (Site α) := sitesOfStmts [] p.body

/-! ## No statement is left out -/

/-- The statement itself, unless it is an expression or a block. -/
def Site.statement? (x : Site α) : Option (Stmt α) :=
  match x.here with
  | .expr _ | .block _ => none
  | s => some s

/-- The statement that a node is. -/
def Node.statement? : Node α → Option (Stmt α)
  | .stmt s => some s
  | _ => none

section

variable {xs ys : List (Site α)} {as bs : List (Node α)}

lemma statements_append (hx : xs.filterMap Site.statement? = as.filterMap Node.statement?)
    (hy : ys.filterMap Site.statement? = bs.filterMap Node.statement?) :
    (xs ++ ys).filterMap Site.statement? = (as ++ bs).filterMap Node.statement? := by
  rw [List.filterMap_append, List.filterMap_append, hx, hy]

/-- Names are no statements. -/
lemma statements_idents (ids : List (Ident α)) :
    (ids.map Node.ident).filterMap Node.statement? = [] := by
  rw [List.filterMap_map]
  exact List.filterMap_eq_nil_iff.2 fun _ _ => rfl

lemma statements_append_ident (id : Ident α)
    (hx : xs.filterMap Site.statement? = as.filterMap Node.statement?) :
    xs.filterMap Site.statement? = (as ++ [Node.ident id]).filterMap Node.statement? := by
  rw [List.filterMap_append, hx]
  exact (List.append_nil _).symm

lemma statements_idents_append (ids : List (Ident α))
    (hx : xs.filterMap Site.statement? = as.filterMap Node.statement?) :
    xs.filterMap Site.statement? = (ids.map Node.ident ++ as).filterMap Node.statement? := by
  rw [List.filterMap_append, statements_idents, List.nil_append, hx]

end

mutual

lemma Expr.statements : ∀ e : Expr α,
    e.sites.filterMap Site.statement? = (e.nodes true).filterMap Node.statement?
  | .ident _ | .number .. | .string .. | .bool .. | .null _ | .regexp .. | .this _ => rfl
  | .array _ es => statementsOfElements es
  | .object _ ms => statementsOfMembers ms
  | .function fn => fn.statements
  | .assign _ _ l r | .binary _ _ l r | .logical _ _ l r | .index _ l r =>
    statements_append l.statements r.statements
  | .unary _ _ e | .update _ _ _ e | .label _ _ e => e.statements
  | .member _ o p => statements_append_ident p o.statements
  | .conditional _ t c a =>
    statements_append (statements_append t.statements c.statements) a.statements
  | .sequence _ es => statementsOfExprs es
  | .call _ c as | .construct _ c as => statements_append c.statements (statementsOfExprs as)
termination_by structural x => x

lemma statementsOfExprs : ∀ es : List (Expr α),
    (sitesOfExprs es).filterMap Site.statement? = (nodesOfExprs true es).filterMap Node.statement?
  | [] => rfl
  | e :: es => statements_append e.statements (statementsOfExprs es)
termination_by structural x => x

lemma statementsOfExpr? : ∀ e : Option (Expr α),
    (sitesOfExpr? e).filterMap Site.statement? = (nodesOfExpr? true e).filterMap Node.statement?
  | none => rfl
  | some e => e.statements
termination_by structural x => x

lemma statementsOfElements : ∀ es : List (Option (Expr α)),
    (sitesOfElements es).filterMap Site.statement? =
      (nodesOfElements true es).filterMap Node.statement?
  | [] => rfl
  | e :: es => statements_append (statementsOfExpr? e) (statementsOfElements es)
termination_by structural x => x

lemma statementsOfMembers : ∀ ms : List (Member α),
    (sitesOfMembers ms).filterMap Site.statement? =
      (nodesOfMembers true ms).filterMap Node.statement?
  | [] => rfl
  | .mk _ _ v :: ms => statements_append v.statements (statementsOfMembers ms)
termination_by structural x => x

lemma Function.statements : ∀ fn : Function α,
    fn.sites.filterMap Site.statement? = (fn.nodes true).filterMap Node.statement?
  | .mk _ n ps b _ _ =>
    statements_idents_append (n.toList ++ ps) (statementsOfStmts b [])
termination_by structural x => x

lemma Stmt.statements : ∀ (s : Stmt α) (around : List (Stmt α)),
    (s.sites around).filterMap Site.statement? = (s.nodes true).filterMap Node.statement?
  | .expr e, _ => e.statements
  | .block b, _ => b.statements _
  | .declare _ kind ds, _ => congrArg (List.cons _) (statementsOfDeclarators ds kind)
  | .function _ fn, _ => congrArg (List.cons _) fn.statements
  | .branch _ t c a, _ => congrArg (List.cons _)
    (statements_append (statements_append t.statements (c.statements _)) (statementsOfStmt? a _))
  | .choose _ d cs, _ => congrArg (List.cons _)
    (statements_append d.statements (statementsOfCases cs _))
  | .whileLoop _ t b, _ => congrArg (List.cons _) (statements_append t.statements (b.statements _))
  | .doLoop _ b t, _ => congrArg (List.cons _) (statements_append (b.statements _) t.statements)
  | .forLoop _ i t u b, _ => congrArg (List.cons _) (statements_append (statements_append
    (statements_append (statementsOfStmt? i _) (statementsOfExpr? t)) (statementsOfExpr? u))
    (b.statements _))
  | .forIn _ t e b, _ => congrArg (List.cons _)
    (statements_append (statements_append (t.statements _) e.statements) (b.statements _))
  | .breakTo _ l _, _ | .continueTo _ l _, _ =>
    congrArg (List.cons _) (statements_idents l.toList).symm
  | .giveBack _ v, _ => congrArg (List.cons _) (statementsOfExpr? v)
  | .raise _ v, _ => congrArg (List.cons _) v.statements
  | .guarded _ b hs f, _ => congrArg (List.cons _) (statements_append
    (statements_append (b.statements _) (statementsOfHandlers hs _)) (statementsOfBlock? f _))
  | .labeled _ _ b, _ => congrArg (List.cons _) (b.statements _)
  | .within _ o b, _ => congrArg (List.cons _) (statements_append o.statements (b.statements _))
  | .empty _, _ | .debugger _, _ => rfl
termination_by structural x => x

lemma statementsOfStmts : ∀ (ss : List (Stmt α)) (around : List (Stmt α)),
    (sitesOfStmts around ss).filterMap Site.statement? =
      (nodesOfStmts true ss).filterMap Node.statement?
  | [], _ => rfl
  | s :: ss, around => statements_append (s.statements around) (statementsOfStmts ss around)
termination_by structural x => x

lemma statementsOfStmt? : ∀ (s : Option (Stmt α)) (around : List (Stmt α)),
    (sitesOfStmt? around s).filterMap Site.statement? =
      (nodesOfStmt? true s).filterMap Node.statement?
  | none, _ => rfl
  | some s, around => s.statements around
termination_by structural x => x

lemma Block.statements : ∀ (b : Block α) (around : List (Stmt α)),
    (b.sites around).filterMap Site.statement? = (b.nodes true).filterMap Node.statement?
  | .mk _ b, around => statementsOfStmts b around
termination_by structural x => x

lemma statementsOfBlock? : ∀ (b : Option (Block α)) (around : List (Stmt α)),
    (sitesOfBlock? around b).filterMap Site.statement? =
      (nodesOfBlock? true b).filterMap Node.statement?
  | none, _ => rfl
  | some b, around => b.statements around
termination_by structural x => x

lemma statementsOfDeclarators : ∀ (ds : List (Declarator α)) (kind : VarKind),
    (sitesOfDeclarators ds).filterMap Site.statement? =
      (nodesOfDeclarators true kind ds).filterMap Node.statement?
  | [], _ => rfl
  | .mk _ _ init :: ds, kind =>
    statements_append (statementsOfExpr? init) (statementsOfDeclarators ds kind)
termination_by structural x => x

lemma statementsOfCases : ∀ (cs : List (Case α)) (around : List (Stmt α)),
    (sitesOfCases around cs).filterMap Site.statement? =
      (nodesOfCases true cs).filterMap Node.statement?
  | [], _ => rfl
  | .mk _ t b :: cs, around => statements_append
    (statements_append (statementsOfExpr? t) (statementsOfStmts b around))
    (statementsOfCases cs around)
termination_by structural x => x

lemma statementsOfHandlers : ∀ (hs : List (Handler α)) (around : List (Stmt α)),
    (sitesOfHandlers around hs).filterMap Site.statement? =
      (nodesOfHandlers true hs).filterMap Node.statement?
  | [], _ => rfl
  | .mk _ _ guard b :: hs, around => statements_append
    (statements_append (statementsOfExpr? guard) (b.statements around))
    (statementsOfHandlers hs around)
termination_by structural x => x

end

/-! ## What jumps need and where they go -/

namespace Stmt

/-- The statement is a loop. -/
def isLoop : Stmt α → Bool
  | .whileLoop .. | .doLoop .. | .forLoop .. | .forIn .. => true
  | _ => false

/-- The statement is a switch. -/
def isSwitch : Stmt α → Bool
  | .choose .. => true
  | _ => false

/-- The label of a labeled statement. -/
def label? : Stmt α → Option String
  | .labeled _ l _ => some l.name
  | _ => none

/-- The statement behind all labels. -/
def unlabeled : Stmt α → Stmt α
  | .labeled _ _ b => b.unlabeled
  | s => s

/-- Jumps can go to the statement. -/
def isTarget (s : Stmt α) : Bool := s.isLoop || s.isSwitch || s.label?.isSome

end Stmt

namespace Site

/-- The statement has what it needs around it. A label must not be that of a statement around it. A
jump needs a statement to go to: one with its label, or without a label a loop, or a switch to break
from. To go on with a label, the statement behind the label must be a loop. -/
def Valid (x : Site α) : Prop :=
  match x.here with
  | .labeled _ l _ => ∀ t ∈ x.around, t.label? ≠ some l.name
  | .breakTo _ (some l) _ => ∃ t ∈ x.around, t.label? = some l.name
  | .continueTo _ (some l) _ =>
    ∃ t ∈ x.around, t.label? = some l.name ∧ t.unlabeled.isLoop = true
  | .breakTo _ none _ => ∃ t ∈ x.around, t.isLoop = true ∨ t.isSwitch = true
  | .continueTo _ none _ => ∃ t ∈ x.around, t.isLoop = true
  | _ => True

/-- The target stands for the statement `t` around this one, which has `before` inside of it and
`after` outside: it counts the statements in between that jumps can go to. -/
structure GoesTo (x : Site α) (target : Option Nat) (before : List (Stmt α)) (t : Stmt α)
    (after : List (Stmt α)) : Prop where
  around : x.around = before ++ t :: after
  reachable : t.isTarget = true
  count : target = some (before.countP Stmt.isTarget)

/-- No other statement of a list has the label. -/
def Only (name : String) (others : List (Stmt α)) : Prop := ∀ u ∈ others, u.label? ≠ some name

/-- If the statement is a jump, it goes where it should. With a label, `break` goes to the statement
with this label, and `continue` to the loop behind it, with only labels in between. Without, both
go to the innermost loop, or switch for `break`. -/
def Bound (x : Site α) : Prop :=
  match x.here with
  | .breakTo _ (some l) n => ∃ before t after, x.GoesTo n before t after ∧
      t.label? = some l.name ∧ Only l.name (before ++ after)
  | .continueTo _ (some l) n => ∃ before t labels outer after,
      x.GoesTo n before t (labels ++ outer :: after) ∧ t.isLoop = true ∧
        (∀ u ∈ labels, u.label?.isSome = true) ∧ outer.label? = some l.name ∧ outer.unlabeled = t ∧
          Only l.name (before ++ t :: labels ++ after)
  | .breakTo _ none n => ∃ before t after, x.GoesTo n before t after ∧
      (t.isLoop = true ∨ t.isSwitch = true) ∧ ∀ u ∈ before, u.isLoop = false ∧ u.isSwitch = false
  | .continueTo _ none n => ∃ before t after, x.GoesTo n before t after ∧
      t.isLoop = true ∧ ∀ u ∈ before, u.isLoop = false
  | _ => True

end Site

end Clearance.Script
