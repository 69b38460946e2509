/-
# The label intrinsic

Calls of the intrinsic become label expressions after a text has been read and before its jumps are
resolved.
-/
import Clearance.Proofs.Grammar
import Clearance.Proofs.Jumps

namespace Clearance.Script

variable {α : Type}

/-- The name, if the expression is one. -/
def Expr.name? : Expr α → Option String
  | .ident id => some id.name
  | _ => none

/-- The text, if the expression is a string literal. -/
def Expr.literal? : Expr α → Option String
  | .string _ v => some v
  | _ => none

/-- The place, the label and the operand of a call of the intrinsic: a call by its name with a
string literal and one more argument. -/
def Expr.intrinsicCall? (intrinsic : String) : Expr α → Option (α × String × Expr α)
  | .call s c [a, e] =>
    if intrinsic ≠ "" ∧ c.name? = some intrinsic then a.literal?.map (s, ·, e) else none
  | _ => none

/-- The label expression for a call of the intrinsic, otherwise the expression itself. -/
lemma labelCall_eq (intrinsic : String) (e : Expr α) : labelCall intrinsic e =
    match e.intrinsicCall? intrinsic with
    | some (s, name, operand) => .label s name operand
    | none => e := by
  unfold labelCall
  split
  · rename_i s id s' name x
    have hcall : (Expr.call s (.ident id) [.string s' name, x]).intrinsicCall? intrinsic =
        if intrinsic ≠ "" ∧ id.name = intrinsic then some (s, name, x) else none := by
      simp [Expr.intrinsicCall?, Expr.name?, Expr.literal?]
    rw [hcall]
    split_ifs <;> rfl
  · rename_i hnot
    suffices hnone : e.intrinsicCall? intrinsic = none by rw [hnone]
    unfold Expr.intrinsicCall?
    split
    · rename_i s c a x
      split_ifs with hname
      · cases c <;> cases hname.2
        cases a <;> first | rfl | exact absurd rfl (hnot _ _ _ _ _)
      · rfl
    · rfl

lemma Expr.intrinsicCall?_eq_some {intrinsic name : String} {s : α} {e x : Expr α}
    (h : e.intrinsicCall? intrinsic = some (s, name, x)) : ∃ id s', intrinsic ≠ "" ∧
      id.name = intrinsic ∧ e = .call s (.ident id) [.string s' name, x] := by
  unfold intrinsicCall? at h
  split at h
  · rename_i s₀ c a x₀
    split_ifs at h with hname
    obtain ⟨hset, hname⟩ := hname
    cases c <;> simp only [name?, reduceCtorEq, Option.some.injEq] at hname
    cases a <;> simp only [literal?, Option.map_some, Option.map_none, reduceCtorEq,
      Option.some.injEq, Prod.mk.injEq] at h
    obtain ⟨rfl, rfl, rfl⟩ := h
    exact ⟨_, _, hset, hname, rfl⟩
  · cases h

lemma name?_labelCall (intrinsic : String) (e : Expr α) :
    (labelCall intrinsic e).name? = e.name? := by
  cases hcall : e.intrinsicCall? intrinsic with
  | none => rw [labelCall_eq, hcall]
  | some c =>
    obtain ⟨_, _, -, -, rfl⟩ := Expr.intrinsicCall?_eq_some hcall
    rw [labelCall_eq, hcall]
    rfl

lemma literal?_labelCall (intrinsic : String) (e : Expr α) :
    (labelCall intrinsic e).literal? = e.literal? := by
  cases hcall : e.intrinsicCall? intrinsic with
  | none => rw [labelCall_eq, hcall]
  | some c =>
    obtain ⟨_, _, -, -, rfl⟩ := Expr.intrinsicCall?_eq_some hcall
    rw [labelCall_eq, hcall]
    rfl

section

variable {β : Type} (intrinsic : String) (f : α → β) {g : Expr β → Expr β}
  (hname : ∀ e, (g e).name? = e.name?) (hliteral : ∀ e, (g e).literal? = e.literal?)

include hname in
lemma Expr.name?_rebuild (e : Expr α) : (e.rebuild f g).name? = e.name? := by
  rw [rebuild_eq_descend, hname]
  cases e <;> rfl

include hliteral in
lemma Expr.literal?_rebuild (e : Expr α) : (e.rebuild f g).literal? = e.literal? := by
  rw [rebuild_eq_descend, hliteral]
  cases e <;> rfl

include hname hliteral in
/-- A call of the intrinsic stays one when what is below it is rebuilt. -/
lemma Expr.intrinsicCall?_descend (e : Expr α) : (e.descend f g).intrinsicCall? intrinsic =
    (e.intrinsicCall? intrinsic).map fun c => (f c.1, c.2.1, c.2.2.rebuild f g) := by
  cases e
  case call s c as =>
    match as with
    | [] | [_] | _ :: _ :: _ :: _ => rfl
    | [a, x] =>
      have hcall : (Expr.call s c [a, x]).descend f g =
          .call (f s) (c.rebuild f g) [a.rebuild f g, x.rebuild f g] := by
        simp only [Expr.descend, rebuildExprs]
      rw [hcall, intrinsicCall?, intrinsicCall?, name?_rebuild f hname, literal?_rebuild f hliteral]
      split_ifs
      · cases a.literal? <;> rfl
      · rfl
  all_goals rfl

end

section

variable {β : Type} (intrinsic : String) (f : α → β)

/-- Label expressions may be put in the place of calls before or after places change. -/
lemma labelCall_rebuild (e : Expr α) :
    (labelCall intrinsic e).rebuild f id = labelCall intrinsic (e.rebuild f id) := by
  have hcall : (e.rebuild f id).intrinsicCall? intrinsic =
      (e.intrinsicCall? intrinsic).map fun c => (f c.1, c.2.1, c.2.2.rebuild f id) := by
    rw [Expr.rebuild_eq_descend]
    exact e.intrinsicCall?_descend intrinsic f (fun _ => rfl) fun _ => rfl
  rw [labelCall_eq, labelCall_eq, hcall]
  cases e.intrinsicCall? intrinsic <;> rfl

end

/-! ## Jumps -/

lemma Expr.kept_of_resolve {e e' : Expr α} (h : e.resolve = .ok e') :
    e'.name? = e.name? ∧ e'.literal? = e.literal? := by
  cases e <;> simp only [Expr.resolve, bind_eq_ok] at h
  case ident | number | string | bool | null | regexp | this =>
    cases h
    exact ⟨rfl, rfl⟩
  case assign | binary | logical | call | construct | index =>
    obtain ⟨_, -, _, -, ⟨⟩⟩ := h
    exact ⟨rfl, rfl⟩
  case conditional =>
    obtain ⟨_, -, _, -, _, -, ⟨⟩⟩ := h
    exact ⟨rfl, rfl⟩
  all_goals
    obtain ⟨_, -, ⟨⟩⟩ := h
    exact ⟨rfl, rfl⟩

/-- Resolving jumps leaves calls of the intrinsic alone. -/
lemma Expr.intrinsicCall?_of_resolve {intrinsic : String} {e e' : Expr α} (h : e.resolve = .ok e') :
    (e'.intrinsicCall? intrinsic).isSome = (e.intrinsicCall? intrinsic).isSome := by
  cases e <;> simp only [Expr.resolve, bind_eq_ok] at h
  case ident | number | string | bool | null | regexp | this =>
    cases h
    rfl
  case call s c as =>
    obtain ⟨c', hc, as', has, ⟨⟩⟩ := h
    obtain ⟨hname, -⟩ := kept_of_resolve hc
    match as with
    | [] =>
      cases has
      rfl
    | [a] =>
      simp only [resolveExprs, bind_eq_ok] at has
      obtain ⟨a', ha, _, ⟨⟩, ⟨⟩⟩ := has
      rfl
    | [a, x] =>
      simp only [resolveExprs, bind_eq_ok] at has
      obtain ⟨a', ha, _, ⟨x', hx, _, ⟨⟩, ⟨⟩⟩, ⟨⟩⟩ := has
      obtain ⟨-, htext⟩ := kept_of_resolve ha
      simp only [intrinsicCall?, hname, htext]
      split_ifs <;> simp
    | a :: x :: y :: rest =>
      simp only [resolveExprs, bind_eq_ok] at has
      obtain ⟨a', ha, _, ⟨x', hx, _, ⟨y', hy, rest', _, ⟨⟩⟩, ⟨⟩⟩, ⟨⟩⟩ := has
      rfl
  case assign | binary | logical | construct | index =>
    obtain ⟨_, -, _, -, ⟨⟩⟩ := h
    rfl
  case conditional =>
    obtain ⟨_, -, _, -, _, -, ⟨⟩⟩ := h
    rfl
  all_goals
    obtain ⟨_, -, ⟨⟩⟩ := h
    rfl

/-- Label expressions may be put in the place of calls before or after jumps are resolved. -/
lemma resolve_labelCall (intrinsic : String) (e : Expr α) :
    (labelCall intrinsic e).resolve = labelCall intrinsic <$> e.resolve := by
  cases hcall : e.intrinsicCall? intrinsic with
  | some c =>
    obtain ⟨s, name, x⟩ := c
    obtain ⟨id, s', hset, hname, rfl⟩ := Expr.intrinsicCall?_eq_some hcall
    rw [labelCall_eq, hcall]
    simp only [Expr.resolve, resolveExprs]
    cases x.resolve with
    | error e => rfl
    | ok x' => exact congrArg Except.ok (if_pos ⟨hset, hname⟩).symm
  | none =>
    rw [labelCall_eq, hcall]
    dsimp only
    cases hresolve : e.resolve with
    | error _ => rfl
    | ok e' =>
      have hnone : e'.intrinsicCall? intrinsic = none := by
        have hkept : (e'.intrinsicCall? intrinsic).isSome = (e.intrinsicCall? intrinsic).isSome :=
          Expr.intrinsicCall?_of_resolve hresolve
        rwa [hcall, Option.isSome_none, Option.isSome_eq_false_iff, Option.isNone_iff_eq_none]
          at hkept
      have hsame : labelCall intrinsic e' = e' := by rw [labelCall_eq, hnone]
      exact congrArg Except.ok hsame.symm

end Clearance.Script
