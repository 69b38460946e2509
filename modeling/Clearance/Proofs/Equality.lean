/-
# Equality up to conversion

Two values of the same kind are equal up to conversion when they are the same, and so are two
objects. Undefined and null only equal each other. An object that is compared with any other
primitive is converted first (`Raw.converted?`), which may call its methods; nothing else is ever
converted. What comes out of the conversion is a primitive, and primitives of different kinds are
compared as numbers (`Heap.looselyEqual`), which calls nothing.

So there is at most one conversion in a comparison, of whichever operand is the object, and the
order of the operands does not matter: not for the answer, nor for how the comparison fails, nor for
the state that it leaves (`loose_equality_symmetric`).
-/
import Clearance.Proofs.Conversion
import Clearance.Proofs.Elements
import Clearance.Proofs.Core

namespace Clearance

open Clearance.Action Script

/-! ## Comparing without calls -/

lemma Decimal.beq_comm (x y : Float) : (x == y) = (y == x) :=
  Bool.eq_iff_iff.2 ⟨beq_symm, beq_symm⟩

namespace Raw

variable (a b : Raw)

lemma sameKind_comm : a.sameKind b = b.sameKind a := by
  cases a <;> cases b <;> rfl

lemma same_comm : a.same b = b.same a := by
  cases a with
  | number x => cases b with
    | number y => exact Decimal.beq_comm x y
    | _ => rfl
  | bool x => cases b with
    | bool y => exact BEq.comm
    | _ => rfl
  | string x => cases b with
    | string y => exact BEq.comm
    | _ => rfl
  | object o => cases b with
    | object o' => exact BEq.comm
    | _ => rfl
  | _ => cases b <;> rfl

/-- The object that is converted when two values are compared, and the value it is compared with. -/
def converted? : Raw → Raw → Option (Ref × Raw)
  | .object _, .object _ => none
  | .object o, v | v, .object o => if v.isNullish then none else some (o, v)
  | _, _ => none

lemma converted?_comm : a.converted? b = b.converted? a := by
  cases a <;> cases b <;> rfl

end Raw

lemma Heap.looselyEqual_comm (h : Heap) (a b : Raw) : h.looselyEqual a b = h.looselyEqual b a := by
  unfold Heap.looselyEqual
  rw [Raw.sameKind_comm b a, Raw.same_comm b a, Bool.or_comm b.isNullish, Bool.and_comm b.isNullish,
    Decimal.beq_comm (h.number b)]

/-- A truth value is compared as the number it counts as. -/
lemma Heap.looselyEqual_bool (h : Heap) (x : Bool) {v : Raw} (hv : v.isPrimitive = true) :
    h.looselyEqual (.number (if x then 1.0 else 0.0)) v = h.looselyEqual (.bool x) v := by
  have hcounts : ∀ x y : Bool,
      ((if x then 1.0 else 0.0 : Float) == if y then 1.0 else 0.0) = (x == y) := by decide +kernel
  cases v with
  | bool y => exact hcounts x y
  | object o => cases hv
  | _ => rfl

/-- A wrapper object holds a primitive. -/
def Heap.WrapsPrimitives (h : Heap) : Prop :=
  ∀ id, ∀ v ∈ (h.get id).primitive, v.raw.isPrimitive = true

/-! ## Conversions -/

section

variable {serve : Service} {fuel : Nat} {o : Ref} {s t : State}

lemma Calls.isPrimitive {names : List String} {w : Value} (h : Calls serve fuel o names s w t) :
    w.raw.isPrimitive = true := by
  induction h with
  | gives _ _ _ hw => exact hw
  | absent _ _ _ ih => exact ih
  | other _ _ _ _ _ ih => exact ih

/-- A conversion gives a primitive. -/
lemma isPrimitive_of_run_toPrimitive {hint : Hint} {p : Value}
    (hwraps : s.store.heap.WrapsPrimitives)
    (h : (toPrimitive (.object o) hint).run serve fuel s = .done p t) :
    p.raw.isPrimitive = true := by
  unfold toPrimitive at h
  rw [run_bind, run_object] at h
  dsimp only at h
  cases hwrapped : (s.store.heap.get o.id).primitive with
  | some v =>
    rw [hwrapped] at h
    cases h
    exact hwraps o.id p hwrapped
  | none =>
    rw [hwrapped] at h
    obtain ⟨r, u, hrun, hlast⟩ := run_bind_done.1 h
    cases hlast
    obtain ⟨w, hcalls, rfl⟩ := (run_firstPrimitive _).1 hrun
    exact hcalls.isPrimitive

/-- A call of a method does not come to an end. -/
def Service.Hangs (serve : Service) (w : Stuck) (t : State) : Prop :=
  ∃ f this u, serve (.call f this []) u = .stuck w t

variable {w : Stuck}

lemma hangs_of_run_getProperty {name : String}
    (h : (getProperty o name).run serve fuel s = .stuck w t) : serve.Hangs w t := by
  unfold getProperty at h
  rw [run_bind, run_look] at h
  dsimp only at h
  split at h
  · cases h
  · split_ifs at h
    · split at h
      · exact ⟨_, _, _, h⟩
      · cases h
    · cases h

/-- Only the methods that are called keep a conversion from ending. -/
lemma hangs_of_run_firstPrimitive (names : List String) : ∀ {s : State},
    (firstPrimitive o names).run serve fuel s = .stuck w t → serve.Hangs w t := by
  induction names with
  | nil => exact fun h => nomatch h
  | cons name rest ih =>
    intro s h
    unfold firstPrimitive at h
    rw [run_bind] at h
    cases hget : (getProperty o name).run serve fuel s with
    | failed f u => rw [hget] at h; cases h
    | stuck w' u =>
      rw [hget] at h
      cases h
      exact hangs_of_run_getProperty hget
    | done m u =>
      rw [hget] at h
      dsimp only at h
      split at h
      · exact ih h
      · rename_i f _
        rw [run_bind, run_call] at h
        cases hcall : serve (.call f (Raw.object o) []) u with
        | failed g x => rw [hcall] at h; cases h
        | stuck w' x =>
          rw [hcall] at h
          cases h
          exact ⟨f, _, u, hcall⟩
        | done v x =>
          rw [hcall] at h
          dsimp only at h
          split_ifs at h
          · cases h
          · exact ih h

lemma hangs_of_run_toPrimitive {hint : Hint}
    (h : (toPrimitive (.object o) hint).run serve fuel s = .stuck w t) : serve.Hangs w t := by
  unfold toPrimitive at h
  rw [run_bind, run_object] at h
  dsimp only at h
  split at h
  · cases h
  · rw [run_bind] at h
    cases hrun : (firstPrimitive o hint.methods).run serve fuel s with
    | done r u => rw [hrun] at h; cases h
    | failed f u => rw [hrun] at h; cases h
    | stuck w' u =>
      rw [hrun] at h
      cases h
      exact hangs_of_run_firstPrimitive _ hrun

end

/-! ## The comparison -/

/-- Converts an object and compares what comes out of it. -/
def compareConverted (o : Ref) (v : Raw) : Action Bool := do
  let p ← toPrimitive (.object o) .number
  look fun s => s.heap.looselyEqual p.raw v

section

variable {serve : Service} {fuel : Nat} {s : State} {a b : Raw}

/-- Without an object there is nothing to convert. -/
lemma run_looseEqualsWithin_primitives (n : Nat) (ha : a.object? = none) (hb : b.object? = none) :
    (looseEqualsWithin (n + 1) a b).run serve fuel s = .done (s.store.heap.looselyEqual a b) s := by
  cases a <;> cases b <;> first | rfl | contradiction

lemma Raw.object?_of_isPrimitive (ha : a.isPrimitive = true) : a.object? = none := by
  cases a <;> first | rfl | cases ha

/-- The conversion of an object, and what its primitive is compared with. -/
lemma run_compareConverted {o : Ref} {v : Raw} (hwraps : s.store.heap.WrapsPrimitives)
    {k : Value → Action Bool}
    (hk : ∀ p t, p.raw.isPrimitive = true →
      (k p).run serve fuel t = .done (t.store.heap.looselyEqual p.raw v) t) :
    (toPrimitive (.object o) .number >>= k).run serve fuel s =
      (compareConverted o v).run serve fuel s := by
  unfold compareConverted
  rw [run_bind, run_bind]
  cases hrun : (toPrimitive (.object o) .number).run serve fuel s with
  | done p t =>
    dsimp only
    rw [hk p t (isPrimitive_of_run_toPrimitive hwraps hrun), run_look]
  | failed => rfl
  | stuck => rfl

lemma run_looseEqualsWithin_converted (n : Nat) {o : Ref} {v : Raw}
    (hwraps : s.store.heap.WrapsPrimitives) (h : a.converted? b = some (o, v)) :
    (looseEqualsWithin (n + 2) a b).run serve fuel s = (compareConverted o v).run serve fuel s := by
  have hafter : ∀ (p : Value) (w : Raw) (t : State), p.raw.isPrimitive = true → w.object? = none →
      (looseEqualsWithin (n + 1) p.raw w).run serve fuel t =
        .done (t.store.heap.looselyEqual p.raw w) t := fun p w t hp hw =>
    run_looseEqualsWithin_primitives n (Raw.object?_of_isPrimitive hp) hw
  have hafter' : ∀ (p : Value) (w : Raw) (t : State), p.raw.isPrimitive = true → w.object? = none →
      (looseEqualsWithin (n + 1) w p.raw).run serve fuel t =
        .done (t.store.heap.looselyEqual p.raw w) t := fun p w t hp hw => by
    rw [Heap.looselyEqual_comm]
    exact run_looseEqualsWithin_primitives n hw (Raw.object?_of_isPrimitive hp)
  -- the object is on the left or on the right; a truth value on the left counts as its number
  cases a <;> cases b <;> cases h
  case object.absent | object.bool | object.number | object.string =>
    exact run_compareConverted hwraps fun p t hp => hafter p _ t hp rfl
  case absent.object | number.object | string.object =>
    exact run_compareConverted hwraps fun p t hp => hafter' p _ t hp rfl
  case bool.object x =>
    refine run_compareConverted hwraps fun p t hp => ?_
    rw [hafter' p _ t hp rfl, Heap.looselyEqual_comm, Heap.looselyEqual_bool _ _ hp,
      Heap.looselyEqual_comm]

lemma run_looseEqualsWithin_unconverted (n : Nat) (h : a.converted? b = none) :
    (looseEqualsWithin (n + 1) a b).run serve fuel s = .done (s.store.heap.looselyEqual a b) s := by
  cases a <;> cases b <;> first | rfl | exact nomatch h

/-- The fuel is more than enough, whatever wraps what. -/
lemma run_looseEquals (hwraps : s.store.heap.WrapsPrimitives) :
    (looseEquals a b).run serve fuel s = match a.converted? b with
      | none => .done (s.store.heap.looselyEqual a b) s
      | some (o, v) => (compareConverted o v).run serve fuel s := by
  unfold looseEquals
  rw [run_bind, run_look]
  dsimp only
  cases h : a.converted? b with
  | none => exact run_looseEqualsWithin_unconverted _ h
  | some found => exact run_looseEqualsWithin_converted _ hwraps h

end

/-- What is known of the comparison of two values up to conversion. -/
structure Raw.LooseContract (a b : Raw) (serve : Service) (fuel : Nat) (s : State) : Prop where
  /-- The order of the operands does not matter. -/
  symmetric : (looseEquals a b).run serve fuel s = (looseEquals b a).run serve fuel s
  /-- Values of one kind are equal if they are the same. -/
  sameKind : a.sameKind b = true → (looseEquals a b).run serve fuel s = .done (a.same b) s
  /-- Where nothing is converted, nothing is called. -/
  unconverted : a.converted? b = none →
    (looseEquals a b).run serve fuel s = .done (s.store.heap.looselyEqual a b) s
  /-- Otherwise there is one conversion, which decides how the comparison ends. -/
  converted : ∀ o v, a.converted? b = some (o, v) → (looseEquals a b).run serve fuel s =
    match (toPrimitive (.object o) .number).run serve fuel s with
    | .done p t => .done (t.store.heap.looselyEqual p.raw v) t
    | .failed f t => .failed f t
    | .stuck w t => .stuck w t
  /-- The comparison ends if the methods do that are called. -/
  ends : ∀ w t, (looseEquals a b).run serve fuel s = .stuck w t → serve.Hangs w t

/-- **Equality up to conversion is symmetric.** In every heap in which wrapper objects hold
primitives, any two values are compared in the same way in either order, with one conversion at
most; values of the same kind, and two objects, are compared like the strict equality does. -/
theorem loose_equality_symmetric (serve : Service) (fuel : Nat) {s : State}
    (hwraps : s.store.heap.WrapsPrimitives) (a b : Value) :
    a.raw.LooseContract b.raw serve fuel s := by
  have hconverted : ∀ o v, a.raw.converted? b.raw = some (o, v) →
      (looseEquals a.raw b.raw).run serve fuel s =
        match (toPrimitive (.object o) .number).run serve fuel s with
        | .done p t => .done (t.store.heap.looselyEqual p.raw v) t
        | .failed f t => .failed f t
        | .stuck w t => .stuck w t := by
    intro o v h
    rw [run_looseEquals hwraps, h]
    dsimp only
    unfold compareConverted
    rw [run_bind]
    cases (toPrimitive (.object o) .number).run serve fuel s <;> rfl
  refine ⟨?_, fun hkind => ?_, fun h => ?_, hconverted, fun w t hstuck => ?_⟩
  · rw [run_looseEquals hwraps, run_looseEquals hwraps, Raw.converted?_comm, Heap.looselyEqual_comm]
  · have hnone : a.raw.converted? b.raw = none := by
      generalize a.raw = x at hkind ⊢
      generalize b.raw = y at hkind ⊢
      cases x <;> cases y <;> first | rfl | exact nomatch hkind
    rw [run_looseEquals hwraps, hnone]
    dsimp only
    rw [Heap.looselyEqual, if_pos hkind]
  · rw [run_looseEquals hwraps, h]
  · cases h : a.raw.converted? b.raw with
    | none =>
      rw [run_looseEquals hwraps, h] at hstuck
      cases hstuck
    | some found =>
      rw [hconverted _ _ h] at hstuck
      split at hstuck
      · cases hstuck
      · cases hstuck
      · rename_i hrun
        cases hstuck
        exact hangs_of_run_toPrimitive hrun

/-- A heap with the function `Number`, and an object that has it as its `valueOf`. -/
def zeroHeap : Heap :=
  #[Library.nativeObject 0 "Number" 1 (some (.builtin .number)) none,
    (Object.blank "Object" none .none).set "valueOf" (Raw.object ⟨0, .native⟩)]

/-- A session with this heap. -/
def zeroSession : State := (Session.fresh .standard).withHeap zeroHeap

/-- An action gives a truth value. -/
def answers (p : Action Bool) (s : State) (answer : Bool) : Bool :=
  match p.run (machine .none 50 50) 50 s with
  | .done b _ => b == answer
  | _ => false

set_option maxRecDepth 100000 in
/-- The object is converted to the number zero, which equals the text of zero. -/
theorem loose_equality_symmetric_of_zero :
    (Raw.object ⟨1, .plain⟩).LooseContract (.string "0") (machine .none 50 50) 50 zeroSession ∧
      answers (looseEquals (.object ⟨1, .plain⟩) (.string "0")) zeroSession true = true ∧
      answers (looseEquals (.string "0") (.object ⟨1, .plain⟩)) zeroSession true = true := by
  have hwraps : zeroSession.store.heap.WrapsPrimitives := by
    have hall : ∀ id < zeroHeap.size, (zeroHeap.get id).primitive = none := by
      intro id hid
      rcases id with _ | _ | id
      · rfl
      · rfl
      · exact absurd hid (by simp [zeroHeap])
    intro id v hv
    by_cases hid : id < zeroHeap.size
    · exact nomatch (hall id hid).symm.trans hv
    · have hnothing := Heap.get_of_size_le (Nat.le_of_not_lt hid)
      exact nomatch (congrArg Object.primitive hnothing).symm.trans hv
  exact ⟨loose_equality_symmetric _ _ hwraps (Value.plain (.object ⟨1, .plain⟩))
    (Value.plain (.string "0")), by decide +kernel, by decide +kernel⟩

end Clearance
