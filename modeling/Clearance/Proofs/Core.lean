/-
# The first-order core

The part of the language that works on primitive values of globals only: literals, names, labels,
operators and assignments to names, and the statements that are built from them without
functions, objects and catch clauses. Jumps are in it or not, which is said by a flag: `break`,
`continue`, `throw`, `return`, `switch`, labels and final blocks.

A program of the core is written over a list of names, those of its globals. Its operators convert
and combine primitive values. This runs no script and does not look at the store: the result is the
same in every state (`Fixed`).
-/
import Clearance.Eval.Expr
import Clearance.Proofs.Run
import Clearance.Script.Hoist
import Clearance.Script.Source
import Mathlib.Tactic.Common

namespace Clearance.Script

variable {α : Type}

/-- The operators that work on primitive values. -/
def BinaryOp.core : BinaryOp → Bool
  | .isIn | .instanceOf => false
  | _ => true

/-- An assignment combines with an operator on primitive values. -/
def AssignOp.core : AssignOp → Bool
  | .plain => true
  | .compound op => op.core

/-- One of the given names. -/
def Expr.names (ns : List String) : Expr α → Bool
  | .ident id => ns.contains id.name
  | _ => false

mutual

/-- The expressions of the core over some names. -/
def Expr.core (ns : List String) : Expr α → Bool
  | .ident id => ns.contains id.name
  | .number .. | .string .. | .bool .. | .null .. => true
  | .assign _ op target value => op.core && target.names ns && value.core ns
  | .binary _ op left right => op.core && left.core ns && right.core ns
  | .logical _ _ left right => left.core ns && right.core ns
  | .unary _ op operand => op != .delete && operand.core ns
  | .update _ _ _ operand => operand.names ns
  | .conditional _ test yes no => test.core ns && yes.core ns && no.core ns
  | .sequence _ items => coreExprs ns items
  | .label _ _ operand => operand.core ns
  | _ => false

/-- All of them are expressions of the core. -/
def coreExprs (ns : List String) : List (Expr α) → Bool
  | [] => true
  | e :: es => e.core ns && coreExprs ns es

end

/-- An expression that may be missing. -/
def coreExpr? (ns : List String) : Option (Expr α) → Bool
  | none => true
  | some e => e.core ns

/-- The variables of a declaration are among the names. -/
def coreItems (ns : List String) : List (Declarator α) → Bool
  | [] => true
  | .mk _ id init :: items => ns.contains id.name && coreExpr? ns init && coreItems ns items

mutual

/-- The statements of the core over some names, with or without jumps. -/
def Stmt.core (ns : List String) (jumps : Bool) : Stmt α → Bool
  | .expr e => e.core ns
  | .block b => b.core ns jumps
  | .declare _ kind items => kind == .mutable && coreItems ns items
  | .branch _ test yes no => test.core ns && yes.core ns jumps && coreStmt? ns jumps no
  | .whileLoop _ test body => test.core ns && body.core ns jumps
  | .doLoop _ body test => body.core ns jumps && test.core ns
  | .forLoop _ init test step body =>
    coreStmt? ns jumps init && coreExpr? ns test && coreExpr? ns step && body.core ns jumps
  | .empty _ => true
  | .choose _ value cases => jumps && value.core ns && coreCases ns jumps cases
  | .breakTo .. | .continueTo .. => jumps
  | .giveBack _ value => jumps && coreExpr? ns value
  | .raise _ value => jumps && value.core ns
  | .guarded _ body handlers final =>
    jumps && handlers.isEmpty && body.core ns jumps && coreBlock? ns jumps final
  | .labeled _ _ body => jumps && body.core ns jumps
  | _ => false

/-- All of them are statements of the core. -/
def coreStmts (ns : List String) (jumps : Bool) : List (Stmt α) → Bool
  | [] => true
  | s :: ss => s.core ns jumps && coreStmts ns jumps ss

/-- A statement that may be missing. -/
def coreStmt? (ns : List String) (jumps : Bool) : Option (Stmt α) → Bool
  | none => true
  | some s => s.core ns jumps

/-- A block of the core. -/
def Block.core (ns : List String) (jumps : Bool) : Block α → Bool
  | .mk _ body => coreStmts ns jumps body

/-- A block that may be missing. -/
def coreBlock? (ns : List String) (jumps : Bool) : Option (Block α) → Bool
  | none => true
  | some b => b.core ns jumps

/-- The cases of a switch. -/
def coreCases (ns : List String) (jumps : Bool) : List (Case α) → Bool
  | [] => true
  | .mk _ test body :: cs => coreExpr? ns test && coreStmts ns jumps body && coreCases ns jumps cs

end

/-! ## Declarations -/

variable {ns : List String} {jumps : Bool}

/-- The core declares no functions. -/
lemma hoistedFunctions_of_core {body : List (Stmt α)} (h : coreStmts ns jumps body = true) :
    hoistedFunctions body = [] := by
  induction body with
  | nil => rfl
  | cons s ss ih =>
    rw [coreStmts, Bool.and_eq_true] at h
    have hrest := ih h.2
    unfold hoistedFunctions at hrest ⊢
    cases s <;> simp_all [Stmt.core]

/-- A variable, not a constant, among the names. -/
def HoistedVar.Core (ns : List String) (v : HoistedVar) : Prop :=
  v.constant = false ∧ v.name ∈ ns

lemma core_of_declaredBy {items : List (Declarator α)} (h : coreItems ns items = true) :
    ∀ v ∈ declaredBy .mutable items, v.Core ns := by
  induction items with
  | nil => simp [declaredBy]
  | cons item items ih =>
    obtain ⟨span, id, init⟩ := item
    simp only [coreItems, Bool.and_eq_true, List.contains_iff_mem] at h
    simp only [declaredBy, List.map_cons, List.forall_mem_cons]
    exact ⟨⟨rfl, h.1.1⟩, ih h.2⟩

mutual

/-- The variables that a statement of the core declares. -/
theorem core_of_declared : ∀ s : Stmt α, s.core ns jumps = true → ∀ v ∈ s.declared, v.Core ns
  | .expr .., _ | .empty .., _ | .breakTo .., _ | .continueTo .., _ | .giveBack .., _
  | .raise .., _ | .debugger .., _ | .function .., _ => by simp [Stmt.declared]
  | .block b, h => by
    rw [Stmt.core] at h
    rw [Stmt.declared]
    exact core_of_declaredInBlock b h
  | .declare _ kind items, h => by
    simp only [Stmt.core, Bool.and_eq_true, beq_iff_eq] at h
    obtain ⟨rfl, hitems⟩ := h
    exact core_of_declaredBy hitems
  | .branch _ _ yes no, h => by
    simp only [Stmt.core, Bool.and_eq_true] at h
    rw [Stmt.declared, List.forall_mem_append]
    exact ⟨core_of_declared yes h.1.2, core_of_declaredIn? no h.2⟩
  | .whileLoop _ _ body, h => by
    simp only [Stmt.core, Bool.and_eq_true] at h
    exact core_of_declared body h.2
  | .doLoop _ body _, h => by
    simp only [Stmt.core, Bool.and_eq_true] at h
    exact core_of_declared body h.1
  | .forLoop _ init _ _ body, h => by
    simp only [Stmt.core, Bool.and_eq_true] at h
    rw [Stmt.declared, List.forall_mem_append]
    exact ⟨core_of_declaredIn? init h.1.1.1, core_of_declared body h.2⟩
  | .choose _ _ cases, h => by
    simp only [Stmt.core, Bool.and_eq_true] at h
    exact core_of_declaredInCases cases h.2
  | .guarded _ body handlers final, h => by
    simp only [Stmt.core, Bool.and_eq_true, List.isEmpty_iff] at h
    obtain ⟨⟨⟨-, rfl⟩, hbody⟩, hfinal⟩ := h
    simp only [Stmt.declared, declaredInHandlers, List.append_nil, List.forall_mem_append]
    exact ⟨core_of_declaredInBlock body hbody, core_of_declaredInBlock? final hfinal⟩
  | .labeled _ _ body, h => by
    simp only [Stmt.core, Bool.and_eq_true] at h
    exact core_of_declared body h.2
  | .forIn .., h | .within .., h => by simp [Stmt.core] at h

lemma core_of_declaredIn : ∀ ss : List (Stmt α), coreStmts ns jumps ss = true →
    ∀ v ∈ declaredIn ss, v.Core ns
  | [], _ => by simp [declaredIn]
  | s :: ss, h => by
    rw [coreStmts, Bool.and_eq_true] at h
    rw [declaredIn, List.forall_mem_append]
    exact ⟨core_of_declared s h.1, core_of_declaredIn ss h.2⟩

lemma core_of_declaredIn? : ∀ s : Option (Stmt α), coreStmt? ns jumps s = true →
    ∀ v ∈ declaredIn? s, v.Core ns
  | none, _ => by simp [declaredIn?]
  | some s, h => core_of_declared s h

lemma core_of_declaredInBlock : ∀ b : Block α, b.core ns jumps = true →
    ∀ v ∈ b.declared, v.Core ns
  | .mk _ body, h => core_of_declaredIn body h

lemma core_of_declaredInBlock? : ∀ b : Option (Block α), coreBlock? ns jumps b = true →
    ∀ v ∈ declaredInBlock? b, v.Core ns
  | none, _ => by simp [declaredInBlock?]
  | some b, h => core_of_declaredInBlock b h

lemma core_of_declaredInCases : ∀ cs : List (Case α), coreCases ns jumps cs = true →
    ∀ v ∈ declaredInCases cs, v.Core ns
  | [], _ => by simp [declaredInCases]
  | .mk _ _ body :: cs, h => by
    simp only [coreCases, Bool.and_eq_true] at h
    rw [declaredInCases, List.forall_mem_append]
    exact ⟨core_of_declaredIn body h.1.2, core_of_declaredInCases cs h.2⟩

end

lemma mem_of_firstDeclared {seen : List String} {vs : List HoistedVar} {v : HoistedVar}
    (h : v ∈ firstDeclared seen vs) : v ∈ vs := by
  induction vs generalizing seen with
  | nil => exact h
  | cons w vs ih =>
    unfold firstDeclared at h
    split_ifs at h
    · exact List.mem_cons_of_mem _ (ih h)
    · rcases List.mem_cons.1 h with rfl | h
      · exact List.mem_cons_self
      · exact List.mem_cons_of_mem _ (ih h)

/-- The variables bound on entry to a program of the core. -/
lemma core_of_hoistedVars {body : List (Stmt α)} (h : coreStmts ns jumps body = true) :
    ∀ v ∈ hoistedVars body, v.Core ns :=
  fun v hv => core_of_declaredIn body h v (mem_of_firstDeclared hv)

end Clearance.Script

namespace Clearance

open Clearance.Action

/-! ## Operators on primitive values -/

/-- The action leaves every state alone and gives the same result in all of them, or it always
fails with an error that no script can catch. -/
def Fixed {α : Type} (p : Action α) (Q : α → Prop) : Prop :=
  (∃ x, Q x ∧ ∀ serve fuel s, p.run serve fuel s = .done x s) ∨
    ∃ m, ∀ serve fuel s, p.run serve fuel s = .failed (.internal m) s

namespace Fixed

variable {α β : Type} {Q : α → Prop}

lemma pure {x : α} (h : Q x) : Fixed (Pure.pure x) Q := .inl ⟨x, h, fun _ _ _ => rfl⟩

lemma internal (m : String) : Fixed (.fail (.internal m) : Action α) Q := .inr ⟨m, fun _ _ _ => rfl⟩

lemma mono {p : Action α} {R : α → Prop} (h : Fixed p R) (hR : ∀ x, R x → Q x) : Fixed p Q := by
  rcases h with ⟨x, hx, hrun⟩ | hfail
  · exact .inl ⟨x, hR x hx, hrun⟩
  · exact .inr hfail

lemma bind {p : Action β} {k : β → Action α} {R : β → Prop} (hp : Fixed p R)
    (hk : ∀ x, R x → Fixed (k x) Q) : Fixed (p >>= k) Q := by
  rcases hp with ⟨x, hx, hrun⟩ | ⟨m, hrun⟩
  · rcases hk x hx with ⟨y, hy, hrun'⟩ | ⟨m, hrun'⟩
    · exact .inl ⟨y, hy, fun serve fuel s => by rw [run_bind, hrun]; exact hrun' serve fuel s⟩
    · exact .inr ⟨m, fun serve fuel s => by rw [run_bind, hrun]; exact hrun' serve fuel s⟩
  · exact .inr ⟨m, fun serve fuel s => by rw [run_bind, hrun]⟩

/-- What is looked up is the same in every store. -/
lemma look {f : Store → α} {x : α} (hx : Q x) (h : ∀ s, f s = x) : Fixed (Action.look f) Q :=
  .inl ⟨x, hx, fun _ _ s => by rw [run_look, h]⟩

/-- What follows is the same in every store. -/
lemma lookBind {f : Store → β} {k : β → Action α} {p : Action α} (h : ∀ s, k (f s) = p)
    (hp : Fixed p Q) : Fixed (Action.look f >>= k) Q := by
  have hrun : ∀ serve fuel s, (Action.look f >>= k).run serve fuel s = p.run serve fuel s := by
    intro serve fuel s
    rw [run_bind, run_look]
    dsimp only
    rw [h]
  simpa only [Fixed, hrun] using hp

lemma ite {c : Prop} [Decidable c] {p q : Action α} (hp : Fixed p Q) (hq : Fixed q Q) :
    Fixed (if c then p else q) Q := by
  split_ifs
  · exact hp
  · exact hq

end Fixed

namespace Raw

variable {v : Raw}

lemma number_of_isPrimitive (h : v.isPrimitive = true) (heap : Heap) :
    heap.number v = Heap.number #[] v := by
  cases v <;> first | rfl | cases h

lemma text_of_isPrimitive (h : v.isPrimitive = true) (heap : Heap) :
    heap.text v = Heap.text #[] v := by
  cases v <;> first | rfl | cases h

end Raw

section

variable {v w : Raw}

lemma fixed_toPrimitive (hv : v.isPrimitive = true) (hint : Hint) :
    Fixed (toPrimitive v hint) (· = Value.plain v) := by
  cases v <;> first | exact .pure rfl | cases hv

lemma fixed_numberOf (hv : v.isPrimitive = true) : Fixed (numberOf v) fun _ => True := by
  refine .bind (fixed_toPrimitive hv .number) ?_
  rintro _ rfl
  exact .look trivial fun s => Raw.number_of_isPrimitive hv s.heap

lemma fixed_twoNumbers (hv : v.isPrimitive = true) (hw : w.isPrimitive = true) :
    Fixed (twoNumbers v w) fun _ => True :=
  .bind (fixed_numberOf hv) fun _ _ => .bind (fixed_numberOf hw) fun _ _ => .pure trivial

/-- The heap is looked at for the number and the text of primitive values only. -/
lemma fixed_addValues (hv : v.isPrimitive = true) (hw : w.isPrimitive = true) :
    Fixed (addValues v w) (Raw.isPrimitive · = true) := by
  refine .bind (fixed_toPrimitive hv .number) ?_
  rintro _ rfl
  refine .bind (fixed_toPrimitive hw .number) ?_
  rintro _ rfl
  refine .lookBind (p := if (Value.plain v).text?.isSome || (Value.plain w).text?.isSome
    then pure (.string (Heap.text #[] v ++ Heap.text #[] w))
    else pure (.number (Heap.number #[] v + Heap.number #[] w)))
    (fun s => ?_) (.ite (.pure rfl) (.pure rfl))
  simp only [Value.plain_raw, Raw.text_of_isPrimitive hv s.heap, Raw.text_of_isPrimitive hw s.heap,
    Raw.number_of_isPrimitive hv s.heap, Raw.number_of_isPrimitive hw s.heap]

lemma fixed_compareValues (op : Script.BinaryOp) (hv : v.isPrimitive = true)
    (hw : w.isPrimitive = true) : Fixed (compareValues op v w) (Raw.isPrimitive · = true) := by
  refine .bind (fixed_toPrimitive hv .number) ?_
  rintro _ rfl
  refine .bind (fixed_toPrimitive hw .number) ?_
  rintro _ rfl
  split
  · exact .pure rfl
  · refine .lookBind (p := pure (.bool (related op (Heap.number #[] v) (Heap.number #[] w))))
      (fun s => ?_) (.pure rfl)
    simp only [Value.plain_raw, Raw.number_of_isPrimitive hv s.heap,
      Raw.number_of_isPrimitive hw s.heap]

lemma fixed_looseEquals (hv : v.isPrimitive = true) (hw : w.isPrimitive = true) :
    Fixed (looseEquals v w) fun _ => True := by
  have hpair : ∀ fuel, looseEqualsWithin (fuel + 1) v w =
      if v.sameKind w then pure (v.same w)
      else if v.isNullish || w.isNullish then pure (v.isNullish && w.isNullish)
      else look fun s => s.heap.looselyEqual v w := by
    intro fuel
    cases v <;> cases w <;>
      first | rfl | exact absurd hv Bool.false_ne_true | exact absurd hw Bool.false_ne_true
  have hheap : ∀ heap : Heap, heap.looselyEqual v w = Heap.looselyEqual #[] v w := by
    intro heap
    unfold Heap.looselyEqual
    rw [Raw.number_of_isPrimitive hv heap, Raw.number_of_isPrimitive hw heap]
  refine .lookBind (fun s => hpair (s.heap.size + 3))
    (.ite (.pure trivial) (.ite (.pure trivial) ?_))
  exact .look trivial fun s => hheap s.heap

/-- The operators of the core do not look at the state. -/
theorem fixed_binaryOp {op : Script.BinaryOp} (hop : op.core = true) (hv : v.isPrimitive = true)
    (hw : w.isPrimitive = true) : Fixed (binaryOp op v w) (Raw.isPrimitive · = true) := by
  have hnumbers : ∀ f : Float × Float → Raw, (∀ x, (f x).isPrimitive = true) →
      Fixed (twoNumbers v w >>= fun x => pure (f x)) (Raw.isPrimitive · = true) :=
    fun f hf => .bind (fixed_twoNumbers hv hw) fun x _ => .pure (hf x)
  cases op with
  | add => exact fixed_addValues hv hw
  | eq | ne => exact .bind (fixed_looseEquals hv hw) fun _ _ => .pure rfl
  | same | notSame => exact .pure rfl
  | lt | gt | le | ge => exact fixed_compareValues _ hv hw
  | other text => exact .internal _
  | isIn | instanceOf => cases hop
  | _ => exact hnumbers _ fun _ => rfl

end

end Clearance
