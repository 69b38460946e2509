/-
# Texts of nested arrays

The text of an array consists of the texts of its elements, which may be arrays again. Objects are
converted by calling their methods. If all of these are built-in functions, a conversion asks for
other conversions (`Heap.Asking`), and so on along the elements. The machine counts activations of
closures, but no calls of built-in functions, so nothing but the objects themselves keeps this from
going on for ever.

If what is asked for is well founded, conversions come to an end, with a primitive value or a type
error. If it is not, as where an array is among its own elements, they do not, however much may be
nested (`text_ends_with_nesting`).
-/
import Clearance.Proofs.Mutators
import Mathlib.Logic.Relation

namespace Clearance

open Clearance.Action Clearance.Library

/-! ## Ends and bounds -/

/-- An action has ended in a state. -/
def Outcome.ending {α : Type} (s : State) : Except Failure α → Outcome α
  | .ok a => .done a s
  | .error f => .failed f s

namespace Action

variable {α β : Type}

/-- The action ends in one way on every machine that allows for enough rounds and levels, and on all
others it gets stuck. It leaves the state alone. -/
structure Settles (p : Action α) (hosts : Hosts) (s : State) (r : Except Failure α) : Prop where
  always : ∀ rounds levels, p.run (machine hosts rounds levels) rounds s = .stuck .fuel s ∨
    p.run (machine hosts rounds levels) rounds s = .ending s r
  eventually : ∃ bound, ∀ rounds levels, bound ≤ rounds → bound ≤ levels →
    p.run (machine hosts rounds levels) rounds s = .ending s r

/-- The action does not end on machines with the given number of levels. -/
def HangsAt (p : Action α) (hosts : Hosts) (levels : Nat) (s : State) : Prop :=
  ∀ rounds, p.run (machine hosts rounds levels) rounds s = .stuck .fuel s

/-- The action settles with a result, or it is refused with a type error. -/
inductive Ends (p : Action α) (hosts : Hosts) (s : State) (willing : Prop) (P : α → Prop) : Prop
  | done {a : α} : p.Settles hosts s (.ok a) → P a → Ends p hosts s willing P
  | refused {m : String} : ¬willing → p.Settles hosts s (.error (.fault "TypeError" m)) →
      Ends p hosts s willing P

variable {p : Action β} {k : β → Action α} {hosts : Hosts} {s : State} {n : Nat}

namespace Settles

lemma of_run {q : Action α} {r : Except Failure α}
    (h : ∀ serve fuel, q.run serve fuel s = .ending s r) : q.Settles hosts s r :=
  ⟨fun _ _ => .inr (h _ _), 0, fun _ _ _ _ => h _ _⟩

lemma bind {b : β} {r : Except Failure α} (hp : p.Settles hosts s (.ok b))
    (hk : (k b).Settles hosts s r) : (p >>= k).Settles hosts s r := by
  obtain ⟨halways, bound, hbound⟩ := hp
  obtain ⟨halways', bound', hbound'⟩ := hk
  refine ⟨fun rounds levels => ?_, max bound bound', fun rounds levels hrounds hlevels => ?_⟩
  · rcases halways rounds levels with h | h
    · exact .inl (run_bind_stuck h k)
    · rw [run_bind_of_done h]
      exact halways' rounds levels
  · rw [run_bind_of_done (hbound rounds levels (by omega) (by omega))]
    exact hbound' rounds levels (by omega) (by omega)

lemma bind_error {f : Failure} (hp : p.Settles hosts s (.error f)) :
    (p >>= k).Settles hosts s (.error f) := by
  obtain ⟨halways, bound, hbound⟩ := hp
  refine ⟨fun rounds levels => ?_, bound, fun rounds levels hrounds hlevels => ?_⟩
  · rcases halways rounds levels with h | h
    · exact .inl (run_bind_stuck h k)
    · exact .inr (run_bind_failed h k)
  · exact run_bind_failed (hbound rounds levels hrounds hlevels) k

lemma attempt {q : Action α} {r : Except Failure α} (hq : q.Settles hosts s r) :
    (Action.attempt q).Settles hosts s (.ok r) := by
  obtain ⟨halways, bound, hbound⟩ := hq
  have hattempt : ∀ rounds levels, q.run (machine hosts rounds levels) rounds s = .ending s r →
      (Action.attempt q).run (machine hosts rounds levels) rounds s = .done r s := by
    intro rounds levels h
    rw [run_attempt, h]
    cases r <;> rfl
  refine ⟨fun rounds levels => ?_, bound, fun rounds levels hrounds hlevels => ?_⟩
  · rcases halways rounds levels with h | h
    · rw [run_attempt, h]
      exact .inl rfl
    · exact .inr (hattempt rounds levels h)
  · exact hattempt rounds levels (hbound rounds levels hrounds hlevels)

/-- A call takes one level more than what is called. -/
lemma call {f : Ref} {this : Value} {args : List Value} {r : Except Failure Value}
    (h : (perform hosts (.call f this args)).Settles hosts s r) :
    (Action.call f this args).Settles hosts s r := by
  obtain ⟨halways, bound, hbound⟩ := h
  refine ⟨fun rounds levels => ?_, bound + 1, fun rounds levels hrounds hlevels => ?_⟩
  · cases levels with
    | zero => exact .inl rfl
    | succ n =>
      rw [run_call, machine_succ]
      exact halways rounds n
  · obtain ⟨n, rfl⟩ := Nat.exists_eq_add_one_of_ne_zero (Nat.ne_of_gt (Nat.lt_of_lt_of_le
      (Nat.succ_pos bound) hlevels))
    rw [run_call, machine_succ]
    exact hbound rounds n (by omega) (by omega)

end Settles

namespace HangsAt

lemma bind (h : p.HangsAt hosts n s) : (p >>= k).HangsAt hosts n s :=
  fun rounds => run_bind_stuck (h rounds) k

lemma rest {b : β} (hp : p.Settles hosts s (.ok b)) (hk : (k b).HangsAt hosts n s) :
    (p >>= k).HangsAt hosts n s := by
  intro rounds
  rcases hp.always rounds n with h | h
  · exact run_bind_stuck h k
  · rw [run_bind_of_done h]
    exact hk rounds

lemma attempt {q : Action α} (h : q.HangsAt hosts n s) : (Action.attempt q).HangsAt hosts n s := by
  intro rounds
  rw [run_attempt, h rounds]

lemma call_zero (f : Ref) (this : Value) (args : List Value) :
    (Action.call f this args).HangsAt hosts 0 s := fun _ => rfl

lemma call_succ {f : Ref} {this : Value} {args : List Value}
    (h : (perform hosts (.call f this args)).HangsAt hosts n s) :
    (Action.call f this args).HangsAt hosts (n + 1) s := by
  intro rounds
  rw [run_call, machine_succ]
  exact h rounds

end HangsAt

namespace Ends

variable {W W' : Prop} {P : β → Prop} {Q : α → Prop}

lemma of_run {q : Action α} {a : α} (h : ∀ serve fuel, q.run serve fuel s = .done a s) (ha : Q a) :
    q.Ends hosts s W Q := .done (.of_run h) ha

lemma refuse {q : Action α} {m : String} (hW : ¬W)
    (h : ∀ serve fuel, q.run serve fuel s = .failed (.fault "TypeError" m) s) :
    q.Ends hosts s W Q :=
  .refused hW (.of_run h)

lemma bind (hp : p.Ends hosts s W P) (hk : ∀ b, P b → (k b).Ends hosts s W Q) :
    (p >>= k).Ends hosts s W Q := by
  cases hp with
  | done hp hb =>
    cases hk _ hb with
    | done hk ha => exact .done (hp.bind hk) ha
    | refused hW hk => exact .refused hW (hp.bind hk)
  | refused hW hp => exact .refused hW hp.bind_error

lemma mono {q : Action α} {R : α → Prop} (h : q.Ends hosts s W Q) (hW : W' → W)
    (hR : ∀ a, Q a → R a) : q.Ends hosts s W' R := by
  cases h with
  | done h ha => exact .done h (hR _ ha)
  | refused hnot h => exact .refused (fun hw => hnot (hW hw)) h

/-- What is not refused settles with a result. -/
lemma settles {q : Action α} (h : q.Ends hosts s W Q) (hW : W) :
    ∃ a, q.Settles hosts s (.ok a) ∧ Q a := by
  cases h with
  | done h ha => exact ⟨_, h, ha⟩
  | refused hnot => exact absurd hW hnot

end Ends

end Action

/-! ## What conversions ask for -/

/-- The conversion of a value to a primitive. -/
structure Conversion where
  value : Raw
  hint : Hint

/-- Converts the value. -/
def Conversion.action (c : Conversion) : Action Value := toPrimitive c.value c.hint

/-- The texts that are wanted of elements: those of undefined and null are not. -/
def wanted (elements : List Value) : List Conversion :=
  (elements.filter fun v => !v.raw.isNullish).map fun v => ⟨v.raw, .string⟩

/-- The length of an array is determined. -/
lemma Object.Lists.length_unique {o : Object} {n n' : Nat} {f f' : Nat → Option Value}
    (h : o.Lists n f) (h' : o.Lists n' f') : n = n' := by
  obtain ⟨q, hq, -, hraw⟩ := h.length
  obtain ⟨q', hq', -, hraw'⟩ := h'.length
  obtain rfl := Option.some.inj (hq.symm.trans hq')
  have hword := congrArg (fun r => (Heap.word #[] r).toNat) (hraw.symm.trans hraw')
  rwa [Heap.toNat_word_ofNat _ h.bound, Heap.toNat_word_ofNat _ h'.bound] at hword

namespace Heap

/-- What is found under a name, if no getter is to be called for it. -/
def datum? (h : Heap) (id : Nat) (name : String) : Option Value :=
  match h.find? id name with
  | none => some .undefined
  | some (_, q) => if q.isAccessor then none else some q.value

/-- What a built-in function asks for when it is called on an object to convert it, and whether it
then gives a primitive or is a type error. -/
inductive Asks (h : Heap) (o : Ref) : Builtin → List Conversion → Bool → Prop
  | join {m : ArrayFn} {n : Nat} {f : Nat → Option Value} : m = .join ∨ m = .toString →
      (h.get o.id).Lists n f → h.Inherits o.id Property.Plain →
        Asks h o (.arrayMethod m) (wanted (h.elementsAt o.id n)) true
  | text {m : StringFn} : m = .toString ∨ m = .valueOf →
      Asks h o (.stringMethod m) [⟨.object o, .string⟩] true
  | number {b : Builtin} : b = .numberToString ∨ b = .numberValueOf →
      Asks h o b [⟨.object o, .number⟩] true
  | cls : Asks h o .objectToString [] true
  | error {name message : Value} : h.datum? o.id "name" = some name →
      h.datum? o.id "message" = some message → Asks h o .errorToString [] true
  | function : Asks h o .functionToString [] (Raw.object o).callable?.isSome
  | boolean {b : Builtin} : b = .booleanToString ∨ b = .booleanValueOf →
      (h.get o.id).primitive = none → Asks h o b [] false
  | pattern : (h.get o.id).pattern = none → Asks h o .regexpToString [] false

/-- What is asked for when the named methods of an object are tried. All of them are built in. -/
inductive Tries (h : Heap) (o : Ref) : List String → List Conversion → Bool → Prop
  | none : Tries h o [] [] false
  | absent {name : String} {rest : List String} {v : Value} {ds : List Conversion} {ok : Bool} :
      h.datum? o.id name = some v → v.raw.callable? = none → Tries h o rest ds ok →
        Tries h o (name :: rest) ds ok
  /-- `Object.prototype.valueOf` gives the object back. -/
  | passes {name : String} {rest : List String} {v : Value} {f : Ref} {title : String} {arity : Nat}
      {ctor : Option Native} {ds : List Conversion} {ok : Bool} :
      h.datum? o.id name = some v → v.raw.callable? = some f →
        (h.get f.id).behaviour = .native title arity (some (.builtin .objectValueOf)) ctor →
          Tries h o rest ds ok → Tries h o (name :: rest) ds ok
  | asks {name : String} {rest : List String} {v : Value} {f : Ref} {b : Builtin} {title : String}
      {arity : Nat} {ctor : Option Native} {ds : List Conversion} {ok : Bool} :
      h.datum? o.id name = some v → v.raw.callable? = some f →
        (h.get f.id).behaviour = .native title arity (some (.builtin b)) ctor →
          Asks h o b ds ok → Tries h o (name :: rest) ds ok

/-- What a conversion asks for. -/
inductive Asking (h : Heap) : Conversion → List Conversion → Bool → Prop
  | primitive {v : Raw} {hint : Hint} : v.isPrimitive = true → Asking h ⟨v, hint⟩ [] true
  | wrapper {o : Ref} {p : Value} {hint : Hint} : (h.get o.id).primitive = some p →
      p.raw.isPrimitive = true → Asking h ⟨.object o, hint⟩ [] true
  | methods {o : Ref} {hint : Hint} {ds : List Conversion} {ok : Bool} :
      (h.get o.id).primitive = none → Tries h o hint.methods ds ok →
        Asking h ⟨.object o, hint⟩ ds ok

/-- One conversion is asked for by another one. -/
def Demands (h : Heap) (d c : Conversion) : Prop := ∃ ds ok, h.Asking c ds ok ∧ d ∈ ds

/-- One conversion leads to another one. -/
def Leads (h : Heap) : Conversion → Conversion → Prop :=
  Relation.ReflTransGen fun c d => h.Demands d c

/-- Wherever a conversion leads, all methods are built in. -/
def Tame (h : Heap) (c : Conversion) : Prop := ∀ d, h.Leads c d → ∃ ds ok, h.Asking d ds ok

/-- Wherever a conversion leads, there is no type error. -/
def Willing (h : Heap) (c : Conversion) : Prop :=
  ∀ d, h.Leads c d → ∀ ds, ¬h.Asking d ds false

variable {h : Heap} {c d : Conversion}

lemma Tame.demanded (hc : h.Tame c) (hd : h.Demands d c) : h.Tame d :=
  fun e he => hc e (he.head hd)

lemma Willing.demanded (hc : h.Willing c) (hd : h.Demands d c) : h.Willing d :=
  fun e he => hc e (he.head hd)

/-! ### What is asked for is determined -/

variable {o : Ref} {ds ds' : List Conversion} {ok ok' : Bool}

lemma Asks.unique {b : Builtin} (h₁ : h.Asks o b ds ok) (h₂ : h.Asks o b ds' ok') :
    ds' = ds ∧ ok' = ok := by
  cases h₁ with
  | join _ hlists _ =>
    cases h₂ with
    | join _ hlists' _ => rw [hlists.length_unique hlists']; exact ⟨rfl, rfl⟩
    | number hb | boolean hb => rcases hb with hb | hb <;> cases hb
  | text _ =>
    cases h₂ with
    | text _ => exact ⟨rfl, rfl⟩
    | number hb | boolean hb => rcases hb with hb | hb <;> cases hb
  | number hb =>
    rcases hb with rfl | rfl <;> cases h₂ with
    | number _ => exact ⟨rfl, rfl⟩
    | boolean hb => rcases hb with hb | hb <;> cases hb
  | boolean hb _ =>
    rcases hb with rfl | rfl <;> cases h₂ with
    | boolean => exact ⟨rfl, rfl⟩
    | number hb => rcases hb with hb | hb <;> cases hb
  | cls | error | function | pattern =>
    cases h₂ with
    | number hb | boolean hb => rcases hb with hb | hb <;> cases hb
    | _ => exact ⟨rfl, rfl⟩

lemma Tries.unique {names : List String} (h₁ : h.Tries o names ds ok)
    (h₂ : h.Tries o names ds' ok') : ds' = ds ∧ ok' = ok := by
  induction h₁ with
  | none => cases h₂; exact ⟨rfl, rfl⟩
  | absent hv hf _ ih =>
    cases h₂ with
    | absent _ _ hrest => exact ih hrest
    | passes hv' hf' | asks hv' hf' =>
      obtain rfl := Option.some.inj (hv.symm.trans hv')
      cases hf.symm.trans hf'
  | passes hv hf hb _ ih =>
    cases h₂ with
    | absent hv' hf' =>
      obtain rfl := Option.some.inj (hv.symm.trans hv')
      cases hf.symm.trans hf'
    | passes _ _ _ hrest => exact ih hrest
    | asks hv' hf' hb' hasks =>
      obtain rfl := Option.some.inj (hv.symm.trans hv')
      obtain rfl := Option.some.inj (hf.symm.trans hf')
      cases hb.symm.trans hb'
      cases hasks with
      | number hb | boolean hb => rcases hb with hb | hb <;> cases hb
  | asks hv hf hb hasks =>
    cases h₂ with
    | absent hv' hf' =>
      obtain rfl := Option.some.inj (hv.symm.trans hv')
      cases hf.symm.trans hf'
    | passes hv' hf' hb' =>
      obtain rfl := Option.some.inj (hv.symm.trans hv')
      obtain rfl := Option.some.inj (hf.symm.trans hf')
      cases hb.symm.trans hb'
      cases hasks with
      | number hb | boolean hb => rcases hb with hb | hb <;> cases hb
    | asks hv' hf' hb' hasks' =>
      obtain rfl := Option.some.inj (hv.symm.trans hv')
      obtain rfl := Option.some.inj (hf.symm.trans hf')
      cases hb.symm.trans hb'
      exact hasks.unique hasks'

lemma Asking.unique (h₁ : h.Asking c ds ok) (h₂ : h.Asking c ds' ok') : ds' = ds ∧ ok' = ok := by
  cases h₁ with
  | primitive hv =>
    cases h₂ with
    | primitive => exact ⟨rfl, rfl⟩
    | wrapper | methods => exact absurd hv Bool.false_ne_true
  | wrapper hwrapped =>
    cases h₂ with
    | primitive hv => exact absurd hv Bool.false_ne_true
    | wrapper => exact ⟨rfl, rfl⟩
    | methods hunwrapped => cases hwrapped.symm.trans hunwrapped
  | methods hunwrapped htries =>
    cases h₂ with
    | primitive hv => exact absurd hv Bool.false_ne_true
    | wrapper hwrapped => cases hwrapped.symm.trans hunwrapped
    | methods _ htries' => exact htries.unique htries'

/-- Conversions that only lead to each other. -/
lemma tame_of_closed {S : Conversion → Prop}
    (hS : ∀ c, S c → ∃ ds, h.Asking c ds true ∧ ∀ d ∈ ds, S d) (hc : S c) :
    h.Tame c ∧ h.Willing c := by
  have hleads : ∀ d, h.Leads c d → S d := by
    intro d hd
    induction hd with
    | refl => exact hc
    | tail _ hdemands ih =>
      obtain ⟨ds, hasking, hds⟩ := hS _ ih
      obtain ⟨ds', ok, hasking', hmem⟩ := hdemands
      obtain ⟨rfl, -⟩ := hasking.unique hasking'
      exact hds _ hmem
  refine ⟨fun d hd => ?_, fun d hd ds hfalse => ?_⟩
  · obtain ⟨ds, hasking, -⟩ := hS d (hleads d hd)
    exact ⟨ds, true, hasking⟩
  · obtain ⟨ds', hasking, -⟩ := hS d (hleads d hd)
    exact absurd (hasking.unique hfalse).2 Bool.false_ne_true

end Heap

/-! ## Built-in methods -/

section

variable {serve : Service} {fuel : Nat} {hosts : Hosts} {s : State} {o : Ref} {n : Nat} {W : Prop}

lemma run_getProperty_datum {name : String} {v : Value}
    (h : s.store.heap.datum? o.id name = some v) :
    (getProperty o name).run serve fuel s = .done v s := by
  unfold Heap.datum? at h
  unfold getProperty
  rw [run_bind, run_look]
  dsimp only
  revert h
  cases s.store.heap.find? o.id name with
  | none =>
    intro h
    cases h
    rfl
  | some found =>
    intro h
    dsimp only at h ⊢
    split_ifs at h ⊢
    cases h
    rfl

/-- Too few rounds for the elements of an array. -/
lemma run_elementsOf_stuck {f : Nat → Option Value} (hlists : (s.store.heap.get o.id).Lists n f)
    (hplain : s.store.heap.Inherits o.id Property.Plain) (hfuel : fuel ≤ n) :
    (elementsOf o).run serve fuel s = .stuck .fuel s := by
  unfold elementsOf elementsFrom
  rw [run_bind, run_lengthOf_lists hlists]
  dsimp only
  rw [run_loop, Nat.zero_add]
  -- the index grows by one in each round, and it is the length before the last round
  suffices hsteps : ∀ fuel' j acc, j + fuel' ≤ n →
      iterate (fun (x : Nat × List Value) u => (if x.1 < n then do
          return .inl (x.1 + 1, (← getProperty o (indexName x.1)) :: x.2)
        else return .inr x.2.reverse : Action ((Nat × List Value) ⊕ List Value)).run serve
          fuel u) fuel'
        (j, acc) s = .stuck .fuel s from
    hsteps fuel 0 [] (by omega)
  intro fuel'
  induction fuel' with
  | zero => exact fun _ _ _ => rfl
  | succ fuel' ih =>
    intro j acc hj
    have hread := @run_getProperty_elementAt serve fuel s o n j f hlists hplain
      (Nat.lt_of_lt_of_le (show j < n by omega) hlists.bound)
    rw [iterate, if_pos (show j < n by omega), run_bind, hread]
    exact ih (j + 1) _ (by omega)

lemma settles_elementsOf {f : Nat → Option Value} (hlists : (s.store.heap.get o.id).Lists n f)
    (hplain : s.store.heap.Inherits o.id Property.Plain) :
    (elementsOf o).Settles hosts s (.ok (s.store.heap.elementsAt o.id n)) := by
  refine ⟨fun rounds levels => ?_, n + 1, fun rounds levels hrounds _ => ?_⟩
  · rcases Nat.lt_or_ge n rounds with hlt | hle
    · exact .inr (run_elementsOf_elementsAt hlists hplain hlt)
    · exact .inl (run_elementsOf_stuck hlists hplain hle)
  · exact run_elementsOf_elementsAt hlists hplain hrounds

/-! ### Texts and numbers -/

lemma ends_stringOf {v : Raw} {P : Value → Prop}
    (h : (Conversion.mk v .string).action.Ends hosts s W P) :
    (stringOf v).Ends hosts s W fun _ => True :=
  h.bind fun _ _ => .of_run (fun _ _ => rfl) trivial

lemma hangs_stringOf {v : Raw} (h : (Conversion.mk v .string).action.HangsAt hosts n s) :
    (stringOf v).HangsAt hosts n s := h.bind

lemma ends_numberOf {v : Raw} {P : Value → Prop}
    (h : (Conversion.mk v .number).action.Ends hosts s W P) :
    (numberOf v).Ends hosts s W fun _ => True :=
  h.bind fun _ _ => .of_run (fun _ _ => rfl) trivial

/-- A type error in an argument is one of the function. -/
lemma ends_converted {α : Type} {p : Action α} {P : α → Prop} (name : String) (i : Nat)
    (h : p.Ends hosts s W P) : (converted name i p).Ends hosts s W P := by
  cases h with
  | done h ha => exact .done (h.attempt.bind (.of_run fun _ _ => rfl)) ha
  | refused hW h => exact .refused hW (h.attempt.bind (.of_run fun _ _ => rfl))

/-- The elements are converted one after the other. -/
lemma ends_elementTexts {P : Value → Prop} {elements : List Value}
    (h : ∀ d ∈ wanted elements, d.action.Ends hosts s W P) :
    (elementTexts elements).Ends hosts s W fun _ => True := by
  induction elements with
  | nil => exact .of_run (fun _ _ => rfl) trivial
  | cons v vs ih =>
    unfold elementTexts
    unfold wanted at h ih
    split_ifs with hnullish
    · rw [List.filter_cons_of_neg (by simp [hnullish])] at h
      exact (Action.Ends.of_run (Q := fun _ => True) (fun _ _ => rfl) trivial).bind fun _ _ =>
        (ih h).bind fun _ _ => .of_run (fun _ _ => rfl) trivial
    · rw [List.filter_cons_of_pos (by simp [hnullish]), List.map_cons, List.forall_mem_cons] at h
      exact (ends_stringOf h.1).bind fun _ _ =>
        (ih h.2).bind fun _ _ => .of_run (fun _ _ => rfl) trivial

/-- An element whose conversion does not end keeps the others from being converted. -/
lemma hangs_elementTexts {P : Value → Prop} {elements : List Value}
    (h : ∀ d ∈ wanted elements, d.action.Ends hosts s True P ∨ d.action.HangsAt hosts n s)
    (hd : ∃ d ∈ wanted elements, d.action.HangsAt hosts n s) :
    (elementTexts elements).HangsAt hosts n s := by
  induction elements with
  | nil =>
    obtain ⟨d, hd, -⟩ := hd
    cases hd
  | cons v vs ih =>
    unfold elementTexts
    unfold wanted at h ih hd
    split_ifs with hnullish
    · rw [List.filter_cons_of_neg (by simp [hnullish])] at h hd
      exact .rest (.of_run fun _ _ => rfl) (ih h hd).bind
    · rw [List.filter_cons_of_pos (by simp [hnullish]), List.map_cons] at h hd
      obtain ⟨hfirst, hothers⟩ := List.forall_mem_cons.1 h
      rcases hfirst with hends | hhangs
      · obtain ⟨t, ht, -⟩ := (ends_stringOf hends).settles trivial
        by_cases hrest : ∃ d ∈ (vs.filter fun v => !v.raw.isNullish).map
            (fun v => Conversion.mk v.raw .string), d.action.HangsAt hosts n s
        · exact .rest ht (ih hothers hrest).bind
        · -- then the first conversion hangs as well as it ends, so the machine is stuck there
          obtain ⟨d, hmem, hhangs⟩ := hd
          rcases List.mem_cons.1 hmem with rfl | hmem
          · exact (hangs_stringOf hhangs).bind
          · exact absurd ⟨d, hmem, hhangs⟩ hrest
      · exact (hangs_stringOf hhangs).bind

/-- What the functions give that are asked to convert an object. -/
def GivesPrimitive (v : Value) : Prop := v.raw.isPrimitive = true

/-- What `join` gives. -/
def GivesText (v : Value) : Prop := ∃ text, v.raw = .string text

lemma GivesText.givesPrimitive {v : Value} (h : GivesText v) : GivesPrimitive v := by
  obtain ⟨text, h⟩ := h
  unfold GivesPrimitive
  rw [h]
  rfl

lemma ends_lift {f : RawFn} {this : Value} {args : List Value}
    (h : (f this.raw (args.map Value.raw)).Ends hosts s W GivesPrimitive) :
    (lift f this args).Ends hosts s W GivesPrimitive :=
  h.bind fun r hr => .of_run (fun _ _ => rfl) (by
    unfold GivesPrimitive
    rw [Value.wrap_raw]
    exact hr)

/-- The conversions that `join` asks for. -/
def joined (args elements : List Value) : List Conversion :=
  (if (argAt args 0).raw.isUndefined then [] else [⟨(argAt args 0).raw, .string⟩]) ++
  wanted elements

section

variable {f : Nat → Option Value} {this : Value} {args : List Value} {P : Value → Prop}
  (hlists : (s.store.heap.get o.id).Lists n f)
  (hplain : s.store.heap.Inherits o.id Property.Plain) (hthis : this.raw = .object o)
include hlists hplain hthis

lemma ends_join
    (h : ∀ d ∈ joined args (s.store.heap.elementsAt o.id n), d.action.Ends hosts s W P) :
    (join this args).Ends hosts s W GivesText := by
  have hlast : ∀ (k : Label) (separator : String), (do
      let elements ← elementsOf o
      let texts ← elementTexts elements
      return (Raw.string (separator.intercalate texts)).labeled
        (k.join (Value.joinLabels elements)) : Action Value).Ends hosts s W GivesText := by
    intro k separator
    have helements : (elementsOf o).Settles hosts s (.ok (s.store.heap.elementsAt o.id n)) :=
      settles_elementsOf hlists hplain
    refine (Action.Ends.done (P := (· = s.store.heap.elementsAt o.id n)) helements rfl).bind ?_
    rintro _ rfl
    exact (ends_elementTexts fun d hd => h d (List.mem_append_right _ hd)).bind fun _ _ =>
      .of_run (fun _ _ => rfl) ⟨_, Value.wrap_raw ..⟩
  unfold join thisObject
  rw [hthis]
  refine (Action.Ends.of_run (Q := (· = o)) (fun _ _ => rfl) rfl).bind ?_
  rintro _ rfl
  dsimp only
  split_ifs with hundefined
  · exact (Action.Ends.of_run (Q := fun _ => True) (fun _ _ => rfl) trivial).bind fun _
      _ => hlast _ _
  · refine (ends_stringOf (h _ (List.mem_append_left _ ?_))).bind fun _ _ => hlast _ _
    rw [if_neg hundefined]
    exact List.mem_singleton_self _

lemma hangs_join {m : Nat}
    (h : ∀ d ∈ joined args (s.store.heap.elementsAt o.id n),
      d.action.Ends hosts s True P ∨ d.action.HangsAt hosts m s)
    (hd : ∃ d ∈ joined args (s.store.heap.elementsAt o.id n), d.action.HangsAt hosts m s) :
    (join this args).HangsAt hosts m s := by
  have hlast : ∀ (k : Label) (separator : String),
      (∃ d ∈ wanted (s.store.heap.elementsAt o.id n), d.action.HangsAt hosts m s) → (do
      let elements ← elementsOf o
      let texts ← elementTexts elements
      return (Raw.string (separator.intercalate texts)).labeled
        (k.join (Value.joinLabels elements)) : Action Value).HangsAt hosts m s :=
    fun k separator hd => .rest (settles_elementsOf hlists hplain)
      (hangs_elementTexts (fun d hd => h d (List.mem_append_right _ hd)) hd).bind
  unfold join thisObject
  rw [hthis]
  refine .rest (.of_run fun _ _ => rfl) ?_
  dsimp only
  unfold joined at h hd
  split_ifs at h hd ⊢ with hundefined
  · exact .rest (.of_run fun _ _ => rfl) (hlast _ _ (by simpa using hd))
  · by_cases hrest : ∃ d ∈ wanted (s.store.heap.elementsAt o.id n), d.action.HangsAt hosts m s
    · rcases h _ List.mem_cons_self with hends | hhangs
      · obtain ⟨t, ht, -⟩ := (ends_stringOf hends).settles trivial
        exact .rest ht (hlast _ _ hrest)
      · exact (hangs_stringOf hhangs).bind
    · obtain ⟨d, hmem, hhangs⟩ := hd
      rcases List.mem_cons.1 hmem with rfl | hmem
      · exact (hangs_stringOf hhangs).bind
      · exact absurd ⟨d, hmem, hhangs⟩ hrest

end

lemma run_readQuietly_datum {name : String} {v : Value}
    (h : s.store.heap.datum? o.id name = some v) :
    (readQuietly o name).run serve fuel s = .done v s := by
  unfold readQuietly
  rw [run_bind, run_attempt, run_getProperty_datum h]
  rfl

lemma ends_numberInRadix (x : Float) :
    (numberInRadix x .undefined).Ends hosts s W GivesPrimitive := by
  unfold numberInRadix optionalIndex
  refine (Action.Ends.of_run (Q := (· = (10 : Int))) (fun _ _ => rfl) rfl).bind ?_
  rintro _ rfl
  rw [if_neg (by decide)]
  split
  · split_ifs <;> exact .of_run (fun _ _ => rfl) rfl
  · exact .of_run (fun _ _ => rfl) rfl

lemma ends_adaptedResult {p : Action Value} {P : Value → Prop} (name : String)
    (h : p.Ends hosts s W P) : (adaptedResult name p).Ends hosts s W P := by
  cases h with
  | done h ha => exact .done (h.attempt.bind (.of_run fun _ _ => rfl)) ha
  | refused hW h => exact .refused hW (h.attempt.bind (.of_run fun _ _ => rfl))

lemma ends_errorText {name message : Value} (hname : s.store.heap.datum? o.id "name" = some name)
    (hmessage : s.store.heap.datum? o.id "message" = some message) :
    (errorText o).Ends hosts s W fun _ => True := by
  have hread : ∀ {name : String} {v : Value}, s.store.heap.datum? o.id name = some v →
      (readQuietly o name).Ends hosts s W (· = v) := fun h =>
    .of_run (fun _ _ => run_readQuietly_datum h) rfl
  unfold errorText
  refine (hread hname).bind ?_
  rintro _ rfl
  refine (hread hmessage).bind ?_
  rintro _ rfl
  split_ifs
  · exact .of_run (fun _ _ => rfl) trivial
  · exact .of_run (fun _ _ => rfl) trivial

lemma ends_functionSource (hW : W → (Raw.object o).callable?.isSome = true) :
    (Library.functionSource (.object o) []).Ends hosts s W GivesPrimitive := by
  unfold Library.functionSource thisFunction
  cases hf : (Raw.object o).callable? with
  | some f => exact .of_run (fun _ _ => rfl) rfl
  | none =>
    have hnot : ¬W := fun hw => by simpa [hf] using hW hw
    exact .refuse hnot fun _ _ => rfl

lemma ends_thisRegExp (hpattern : (s.store.heap.get o.id).pattern = none) (hW : ¬W) (name : String)
    (P : Ref × Pattern.Code → Prop) : (thisRegExp (.object o) name).Ends hosts s W P := by
  have hnone : (patternOf (.object o)).Ends hosts s W (· = none) := by
    refine .of_run (fun _ _ => ?_) rfl
    unfold patternOf
    dsimp only
    rw [run_bind, run_object]
    dsimp only
    rw [hpattern]
    rfl
  refine hnone.bind ?_
  rintro _ rfl
  exact .refuse hW fun _ _ => rfl

lemma ends_thisBoolean (hunwrapped : (s.store.heap.get o.id).primitive = none) (hW : ¬W)
    (P : Bool → Prop) : (thisBoolean (.object o)).Ends hosts s W P := by
  refine .refuse (m := "Boolean method called on " ++ (Raw.object o).typeName) hW fun
    serve fuel => ?_
  unfold thisBoolean
  dsimp only
  rw [run_bind, run_object]
  dsimp only
  rw [hunwrapped]
  rfl

/-- A built-in function that is called to convert an object ends if what it asks for does. -/
lemma Heap.Asks.ends {b : Builtin} {ds : List Conversion} {ok : Bool}
    (h : s.store.heap.Asks o b ds ok) (hds : ∀ d ∈ ds, d.action.Ends hosts s W GivesPrimitive)
    (hok : W → ok = true) :
    (Library.run b (Raw.object o) []).Ends hosts s W GivesPrimitive := by
  cases h with
  | join hm hlists hplain =>
    have hends : (Library.join (Raw.object o) []).Ends hosts s W GivesText :=
      ends_join hlists hplain rfl hds
    rcases hm with rfl | rfl <;> exact hends.mono (fun hW => hW) fun _ => GivesText.givesPrimitive
  | text hm =>
    have htext : ∀ name, (textAt name [Raw.object o] 0).Ends hosts s W fun _ => True := fun name =>
      ends_converted name 1 (ends_stringOf (hds _ (List.mem_singleton_self _)))
    rcases hm with rfl | rfl <;>
      exact ends_lift ((htext _).bind fun _ _ => .of_run (fun _ _ => rfl) rfl)
  | number hb =>
    have hnumber : ∀ name, (numberAt name [Raw.object o] 0).Ends hosts s W fun _ =>
        True := fun name =>
      ends_converted name 1 (ends_numberOf (hds _ (List.mem_singleton_self _)))
    rcases hb with rfl | rfl
    · exact ends_lift ((hnumber _).bind fun x _ => ends_adaptedResult _ (ends_numberInRadix x))
    · exact ends_lift ((hnumber _).bind fun _ _ => .of_run (fun _ _ => rfl) rfl)
  | cls => exact ends_lift (.of_run (fun _ _ => rfl) rfl)
  | error hname hmessage =>
    exact ends_lift ((ends_errorText hname hmessage).bind fun _ _ => .of_run (fun _ _ => rfl) rfl)
  | function => exact ends_lift (ends_functionSource hok)
  | boolean hb hunwrapped =>
    have hW : ¬W := fun hw => nomatch hok hw
    rcases hb with rfl | rfl <;>
      exact ends_lift ((ends_thisBoolean hunwrapped hW fun _ => True).bind fun _ _ =>
        .of_run (fun _ _ => rfl) rfl)
  | pattern hpattern =>
    have hW : ¬W := fun hw => nomatch hok hw
    refine ends_lift ((ends_thisRegExp hpattern hW "toString" fun _ => False).bind fun
      _ => False.elim)

lemma hangs_lift {f : RawFn} {this : Value} {args : List Value}
    (h : (f this.raw (args.map Value.raw)).HangsAt hosts n s) :
    (lift f this args).HangsAt hosts n s :=
  h.bind

lemma hangs_converted {α : Type} {p : Action α} (name : String) (i : Nat)
    (h : p.HangsAt hosts n s) : (converted name i p).HangsAt hosts n s := h.attempt.bind

/-- It does not end if something that it asks for does not. -/
lemma Heap.Asks.hangs {b : Builtin} {ds : List Conversion} {ok : Bool} {P : Value → Prop}
    (h : s.store.heap.Asks o b ds ok)
    (hds : ∀ d ∈ ds, d.action.Ends hosts s True P ∨ d.action.HangsAt hosts n s)
    (hd : ∃ d ∈ ds, d.action.HangsAt hosts n s) :
    (Library.run b (Raw.object o) []).HangsAt hosts n s := by
  cases h with
  | join hm hlists hplain =>
    rcases hm with rfl | rfl <;> exact hangs_join hlists hplain rfl hds hd
  | text hm =>
    obtain ⟨d, hmem, hhangs⟩ := hd
    obtain rfl := List.mem_singleton.1 hmem
    rcases hm with rfl | rfl <;>
      exact hangs_lift (hangs_converted _ _ (hangs_stringOf hhangs)).bind
  | number hb =>
    obtain ⟨d, hmem, hhangs⟩ := hd
    obtain rfl := List.mem_singleton.1 hmem
    rcases hb with rfl | rfl <;>
      exact hangs_lift (hangs_converted _ _ (Action.HangsAt.bind hhangs)).bind
  | cls | error | function | boolean | pattern =>
    obtain ⟨d, hmem, -⟩ := hd
    cases hmem

/-! ## Conversions -/

lemma run_toPrimitive_of_isPrimitive {v : Raw} {hint : Hint} (hv : v.isPrimitive = true) :
    (toPrimitive v hint).run serve fuel s = .done (Value.plain v) s := by
  cases v <;> first | rfl | cases hv

lemma performCall_builtin {f : Ref} {title : String} {arity : Nat} {b : Builtin}
    {ctor : Option Native} {this : Value} {args : List Value}
    (hf : (s.store.heap.get f.id).behaviour = .native title arity (some (.builtin b)) ctor) :
    (perform hosts (.call f this args)).run serve fuel s =
      (Library.run b this args).run serve fuel s := by
  show (performCall hosts f this args).run serve fuel s = _
  unfold performCall
  rw [run_bind, run_object]
  dsimp only
  rw [hf]
  rfl

lemma settles_builtin {f : Ref} {title : String} {arity : Nat} {b : Builtin} {ctor : Option Native}
    {this : Value} {args : List Value} {r : Except Failure Value}
    (hf : (s.store.heap.get f.id).behaviour = .native title arity (some (.builtin b)) ctor)
    (h : (Library.run b this args).Settles hosts s r) : (call f this args).Settles hosts s r := by
  refine .call ?_
  obtain ⟨halways, hbound⟩ := h
  refine ⟨fun rounds levels => ?_, ?_⟩
  · rw [performCall_builtin hf]
    exact halways rounds levels
  · simpa only [performCall_builtin hf] using hbound

lemma ends_builtin {f : Ref} {title : String} {arity : Nat} {b : Builtin} {ctor : Option Native}
    {this : Value} {args : List Value} {P : Value → Prop}
    (hf : (s.store.heap.get f.id).behaviour = .native title arity (some (.builtin b)) ctor)
    (h : (Library.run b this args).Ends hosts s W P) : (call f this args).Ends hosts s W P := by
  cases h with
  | done h ha => exact .done (settles_builtin hf h) ha
  | refused hW h => exact .refused hW (settles_builtin hf h)

lemma hangs_builtin {f : Ref} {title : String} {arity : Nat} {b : Builtin} {ctor : Option Native}
    {this : Value} {args : List Value}
    (hf : (s.store.heap.get f.id).behaviour = .native title arity (some (.builtin b)) ctor)
    (h : ∀ m < n, (Library.run b this args).HangsAt hosts m s) :
    (call f this args).HangsAt hosts n s := by
  cases n with
  | zero => exact .call_zero _ _ _
  | succ m =>
    refine .call_succ fun rounds => ?_
    rw [performCall_builtin hf]
    exact h m (Nat.lt_succ_self m) rounds

/-- By induction on the methods that are tried. -/
lemma Heap.Tries.ends {names : List String} {ds : List Conversion} {ok : Bool}
    (h : s.store.heap.Tries o names ds ok)
    (hds : ∀ d ∈ ds, d.action.Ends hosts s W GivesPrimitive) (hok : W → ok = true) :
    (firstPrimitive o names).Ends hosts s W (Raw.isPrimitive · = true) := by
  induction h with
  | none => exact .refuse (fun hw => nomatch hok hw) fun _ _ => rfl
  | @absent name _ v _ _ hv hcallable _ ih =>
    unfold firstPrimitive
    refine (Action.Ends.of_run (Q := (· = v)) (fun _ _ => run_getProperty_datum hv) rfl).bind ?_
    rintro _ rfl
    rw [hcallable]
    exact ih hds hok
  | @passes name _ v f _ _ _ _ _ hv hcallable hf _ ih =>
    unfold firstPrimitive
    refine (Action.Ends.of_run (Q := (· = v)) (fun _ _ => run_getProperty_datum hv) rfl).bind ?_
    rintro _ rfl
    rw [hcallable]
    refine (ends_builtin (P := (· = Raw.object o)) hf (.of_run (fun _ _ => rfl) rfl)).bind ?_
    rintro _ rfl
    exact ih hds hok
  | @asks name _ v f _ _ _ _ _ _ hv hcallable hf hasks =>
    unfold firstPrimitive
    refine (Action.Ends.of_run (Q := (· = v)) (fun _ _ => run_getProperty_datum hv) rfl).bind ?_
    rintro _ rfl
    rw [hcallable]
    refine (ends_builtin hf (hasks.ends hds hok)).bind fun r hr => ?_
    have hprimitive : r.raw.isPrimitive = true := hr
    dsimp only
    rw [if_pos hprimitive]
    exact .of_run (fun _ _ => rfl) hprimitive

lemma Heap.Tries.hangs {names : List String} {ds : List Conversion} {ok : Bool} {P : Value → Prop}
    (h : s.store.heap.Tries o names ds ok)
    (hds : ∀ m < n, ∀ d ∈ ds, d.action.Ends hosts s True P ∨ d.action.HangsAt hosts m s)
    (hd : ∃ d ∈ ds, ∀ m < n, d.action.HangsAt hosts m s) :
    (firstPrimitive o names).HangsAt hosts n s := by
  induction h with
  | none =>
    obtain ⟨d, hmem, -⟩ := hd
    cases hmem
  | absent hv hcallable _ ih =>
    unfold firstPrimitive
    refine .rest (.of_run fun _ _ => run_getProperty_datum hv) ?_
    rw [hcallable]
    exact ih hds hd
  | passes hv hcallable hf _ ih =>
    unfold firstPrimitive
    refine .rest (.of_run fun _ _ => run_getProperty_datum hv) ?_
    rw [hcallable]
    exact .rest (settles_builtin (r := .ok (Raw.object o)) hf (.of_run fun _ _ => rfl)) (ih hds hd)
  | asks hv hcallable hf hasks =>
    unfold firstPrimitive
    refine .rest (.of_run fun _ _ => run_getProperty_datum hv) ?_
    rw [hcallable]
    obtain ⟨d, hmem, hhangs⟩ := hd
    exact (hangs_builtin hf fun m hm => hasks.hangs (hds m hm) ⟨d, hmem, hhangs m hm⟩).bind

end

section

variable {hosts : Hosts} {s : State} {c : Conversion}

/-- Where nothing is asked for endlessly, a conversion ends. -/
theorem Conversion.ends (hacc : Acc s.store.heap.Demands c) (htame : s.store.heap.Tame c) :
    c.action.Ends hosts s (s.store.heap.Willing c) GivesPrimitive := by
  induction hacc with
  | intro c _ ih =>
    obtain ⟨ds, ok, hasking⟩ := htame c .refl
    have hds : ∀ d ∈ ds, d.action.Ends hosts s (s.store.heap.Willing c) GivesPrimitive :=
      fun d hd =>
        have hdemands : s.store.heap.Demands d c := ⟨ds, ok, hasking, hd⟩
        (ih d hdemands (htame.demanded hdemands)).mono (·.demanded hdemands) fun _ => id
    have hok : s.store.heap.Willing c → ok = true := fun hwilling => by
      cases ok with
      | true => rfl
      | false => exact absurd hasking (hwilling c .refl ds)
    unfold Conversion.action
    cases hasking with
    | primitive hv => exact .of_run (fun _ _ => run_toPrimitive_of_isPrimitive hv) hv
    | wrapper hwrapped hp =>
      refine .of_run (fun _ _ => ?_) hp
      unfold toPrimitive
      rw [run_bind, run_object]
      dsimp only
      rw [hwrapped]
      rfl
    | methods hunwrapped htries =>
      unfold toPrimitive
      refine (Action.Ends.of_run (Q := fun x => x = s.store.heap.get _)
        (fun _ _ => rfl) rfl).bind ?_
      rintro _ rfl
      rw [hunwrapped]
      exact (htries.ends hds hok).bind fun _ hr => .of_run (fun _ _ => rfl) hr

/-- Where something is asked for endlessly, a conversion does not end, by induction on the
levels. -/
theorem Conversion.hangs (hacc : ¬Acc s.store.heap.Demands c) (htame : s.store.heap.Tame c)
    (hwilling : s.store.heap.Willing c) (n : Nat) : c.action.HangsAt hosts n s := by
  induction n using Nat.strongRecOn generalizing c with
  | ind n ih =>
    obtain ⟨d, ⟨ds, ok, hasking, hmem⟩, hnot⟩ : ∃ d, s.store.heap.Demands d c ∧
        ¬Acc s.store.heap.Demands d := by
      by_contra hnone
      exact hacc ⟨c, fun d hd => by_contra fun hnot => hnone ⟨d, hd, hnot⟩⟩
    have hdemands : ∀ d ∈ ds, s.store.heap.Demands d c := fun d hd => ⟨ds, ok, hasking, hd⟩
    have hds : ∀ m < n, ∀ d ∈ ds,
        d.action.Ends hosts s True GivesPrimitive ∨ d.action.HangsAt hosts m s := by
      intro m hm d hd
      have htame' := htame.demanded (hdemands d hd)
      have hwilling' := hwilling.demanded (hdemands d hd)
      by_cases hacc' : Acc s.store.heap.Demands d
      · exact .inl ((Conversion.ends hacc' htame').mono (fun _ => hwilling') fun _ => id)
      · exact .inr (ih m hm hacc' htame' hwilling')
    have hd : ∃ d ∈ ds, ∀ m < n, d.action.HangsAt hosts m s :=
      ⟨d, hmem, fun m hm => ih m hm hnot (htame.demanded (hdemands d hmem))
        (hwilling.demanded (hdemands d hmem))⟩
    unfold Conversion.action
    cases hasking with
    | primitive | wrapper =>
      obtain ⟨d, hmem, -⟩ := hd
      cases hmem
    | methods hunwrapped htries =>
      unfold toPrimitive
      refine .rest (.of_run fun _ _ => run_object ..) ?_
      rw [hunwrapped]
      exact (htries.hangs hds hd).bind

end

/-- The action does not end, whatever the machine allows for. -/
def Action.Hangs {α : Type} (p : Action α) (hosts : Hosts) (s : State) : Prop :=
  ∀ levels, p.HangsAt hosts levels s

/-- Whether an action ends is decided by conversions that it asks for. -/
structure Action.Follows {α : Type} (p : Action α) (hosts : Hosts) (s : State)
    (ds : List Conversion) (P : α → Prop) : Prop where
  ends : (∀ d ∈ ds, Acc s.store.heap.Demands d) →
    p.Ends hosts s (∀ d ∈ ds, s.store.heap.Willing d) P
  hangs : (∀ d ∈ ds, s.store.heap.Willing d) → (∃ d ∈ ds, ¬Acc s.store.heap.Demands d) →
    p.Hangs hosts s

section

variable {hosts : Hosts} {s : State} {ds : List Conversion}

lemma ends_each (htame : ∀ d ∈ ds, s.store.heap.Tame d)
    (hacc : ∀ d ∈ ds, Acc s.store.heap.Demands d) :
    ∀ d ∈ ds, d.action.Ends hosts s (∀ d ∈ ds, s.store.heap.Willing d) GivesPrimitive :=
  fun d hd => (Conversion.ends (hacc d hd) (htame d hd)).mono (fun h => h d hd) fun _ => id

lemma ends_or_hangs_each (htame : ∀ d ∈ ds, s.store.heap.Tame d)
    (hwilling : ∀ d ∈ ds, s.store.heap.Willing d) (n : Nat) :
    ∀ d ∈ ds, d.action.Ends hosts s True GivesPrimitive ∨ d.action.HangsAt hosts n s := by
  intro d hd
  by_cases hacc : Acc s.store.heap.Demands d
  · exact .inl ((Conversion.ends hacc (htame d hd)).mono (fun _ => hwilling d hd) fun _ => id)
  · exact .inr (Conversion.hangs hacc (htame d hd) (hwilling d hd) n)

lemma follows_stringOf {v : Raw} (htame : s.store.heap.Tame ⟨v, .string⟩) :
    (stringOf v).Follows hosts s [⟨v, .string⟩] fun _ => True where
  ends hacc := ends_stringOf (ends_each (List.forall_mem_singleton.2 htame) hacc _
    (List.mem_singleton_self _))
  hangs hwilling hnot n := by
    obtain ⟨d, hd, hnot⟩ := hnot
    obtain rfl := List.mem_singleton.1 hd
    exact hangs_stringOf (Conversion.hangs hnot htame (hwilling _ hd) n)

lemma follows_join {o : Ref} {n : Nat} {f : Nat → Option Value} {this : Value} {args : List Value}
    (hlists : (s.store.heap.get o.id).Lists n f)
    (hplain : s.store.heap.Inherits o.id Property.Plain) (hthis : this.raw = .object o)
    (htame : ∀ d ∈ joined args (s.store.heap.elementsAt o.id n), s.store.heap.Tame d) :
    (join this args).Follows hosts s (joined args (s.store.heap.elementsAt o.id n)) GivesText where
  ends hacc := ends_join hlists hplain hthis (ends_each htame hacc)
  hangs hwilling hnot m := by
    obtain ⟨d, hd, hnot⟩ := hnot
    exact hangs_join hlists hplain hthis (ends_or_hangs_each htame hwilling m)
      ⟨d, hd, Conversion.hangs hnot (htame d hd) (hwilling d hd) m⟩

end

/-- **The conversion of an array to a text ends exactly if its elements are not nested for ever.**
In any heap, let the methods that convert a value, and the values in it, be built in. If nothing
asks for conversions without end, the text of the value, and `join` and `toString` of an array, end
with a text, or with a type error where an object has no method for it. If something does, and
nothing is a type error, they do not end. The number of activations is not bounded in between, since
there are none. -/
theorem text_ends_with_nesting (hosts : Hosts) (s : State) :
    (∀ v, s.store.heap.Tame ⟨v, .string⟩ →
      (stringOf v).Follows hosts s [⟨v, .string⟩] fun _ => True) ∧
    ∀ (o : Ref) (n : Nat) (f : Nat → Option Value) (this : Value) (args : List Value),
      (s.store.heap.get o.id).Lists n f → s.store.heap.Inherits o.id Property.Plain →
      this.raw = .object o →
      ((∀ d ∈ joined args (s.store.heap.elementsAt o.id n), s.store.heap.Tame d) →
        (Library.run (.arrayMethod .join) this args).Follows hosts s
          (joined args (s.store.heap.elementsAt o.id n)) GivesText) ∧
      ((∀ d ∈ wanted (s.store.heap.elementsAt o.id n), s.store.heap.Tame d) →
        (Library.run (.arrayMethod .toString) this args).Follows hosts s
          (wanted (s.store.heap.elementsAt o.id n)) GivesText) :=
  ⟨fun _ htame => follows_stringOf htame, fun _ _ _ _ _ hlists hplain hthis =>
    ⟨follows_join hlists hplain hthis, @follows_join _ _ _ _ _ _ [] hlists hplain hthis⟩⟩

/-! ## An array in an array, and one in itself -/

/-- Two arrays, one in the other, and an array that contains itself. Their method is a function. -/
def nestedHeap : Heap :=
  #[Library.nativeObject 0 "toString" 0 (some (.builtin (.arrayMethod .toString))) none,
    (Object.blank "Object" none .none).set "toString" (Raw.object ⟨0, .native⟩),
    Heap.arrayOf (some 1) .none [Raw.ofNat 7],
    Heap.arrayOf (some 1) .none [Raw.object ⟨2, .plain⟩],
    Heap.arrayOf (some 1) .none [Raw.object ⟨4, .plain⟩]]

/-- A session with this heap. -/
def nestedSession : State := (Session.fresh .standard).withHeap nestedHeap

lemma inherits_nestedHeap {id : Nat} (hchain : nestedHeap.chain id = [id, 1])
    (R : Property → Prop) :
    nestedHeap.Inherits id R := by
  intro j hj i hi q hq
  rw [hchain] at hj
  obtain rfl := List.mem_singleton.1 hj
  have hne : "toString" ≠ indexName i := fun heq => by
    have hindex := arrayIndex?_indexName hi
    rw [← heq] at hindex
    exact nomatch hindex.symm.trans (by decide : arrayIndex? "toString" = none)
  have hnone : (nestedHeap.get 1).own? (indexName i) = none :=
    (Object.own?_of_primitive rfl _).trans (if_neg hne)
  cases hnone.symm.trans hq

/-- What the conversion of one of the arrays asks for. -/
lemma asking_nestedHeap (id : Nat) (v : Value)
    (hget : nestedHeap.get id = Heap.arrayOf (some 1) .none [v])
    (hchain : nestedHeap.chain id = [id, 1]) (hmethod : nestedHeap.datum? id "toString" =
      some (Raw.object ⟨0, .native⟩)) (hv : v.raw.isAbsent = false) :
    nestedHeap.Asking ⟨.object ⟨id, .plain⟩, .string⟩ (wanted [v]) true := by
  have hholds : (nestedHeap.get id).Holds ([v].map Value.element?) := by
    rw [hget]
    exact Heap.holds_arrayOf _ _ (show 1 ≤ maxLength by decide)
  have helements : nestedHeap.elementsAt id 1 = [v] := by
    have hread : nestedHeap.elementsAt id 1 = ([v].map Value.element?).map (·.getD .undefined) :=
      elementsAt_of_bare (s := nestedSession) (o := ⟨id, .plain⟩) hholds
        (inherits_nestedHeap hchain _)
    have helement : v.element? = some v := by simp [Value.element?, hv]
    simpa [helement] using hread
  have hunwrapped : (nestedHeap.get id).primitive = none := by
    rw [hget]
    rfl
  refine .methods hunwrapped (.asks (b := .arrayMethod .toString) hmethod rfl rfl ?_)
  rw [← helements]
  exact .join (.inr rfl) hholds (inherits_nestedHeap hchain _)

lemma asking_inner : nestedHeap.Asking ⟨.object ⟨2, .plain⟩, .string⟩
    [⟨Raw.ofNat 7, .string⟩] true :=
  asking_nestedHeap 2 (Raw.ofNat 7) rfl (by decide +kernel) rfl rfl

lemma asking_outer :
    nestedHeap.Asking ⟨.object ⟨3, .plain⟩, .string⟩ [⟨.object ⟨2, .plain⟩, .string⟩] true :=
  asking_nestedHeap 3 (Raw.object ⟨2, .plain⟩) rfl (by decide +kernel) rfl rfl

lemma asking_self :
    nestedHeap.Asking ⟨.object ⟨4, .plain⟩, .string⟩ [⟨.object ⟨4, .plain⟩, .string⟩] true :=
  asking_nestedHeap 4 (Raw.object ⟨4, .plain⟩) rfl (by decide +kernel) rfl rfl

lemma Heap.acc_of_asking {h : Heap} {c : Conversion} {ds : List Conversion} {ok : Bool}
    (hasking : h.Asking c ds ok) (hds : ∀ d ∈ ds, Acc h.Demands d) : Acc h.Demands c := by
  refine ⟨c, fun d hd => ?_⟩
  obtain ⟨ds', ok', hasking', hmem⟩ := hd
  obtain ⟨rfl, -⟩ := hasking.unique hasking'
  exact hds d hmem

/-- The text of an array in an array. -/
theorem text_ends_with_nesting_of_two :
    ∃ text, (stringOf (.object ⟨3, .plain⟩)).Settles .none nestedSession (.ok text) := by
  have hprimitive : nestedHeap.Asking ⟨Raw.ofNat 7, .string⟩ [] true := .primitive rfl
  have hacc : Acc nestedHeap.Demands ⟨.object ⟨3, .plain⟩, .string⟩ :=
    Heap.acc_of_asking asking_outer <| List.forall_mem_singleton.2 <|
      Heap.acc_of_asking asking_inner <| List.forall_mem_singleton.2 <|
        Heap.acc_of_asking hprimitive (List.forall_mem_nil _)
  have hclosed : ∀ c ∈ [⟨.object ⟨3, .plain⟩, .string⟩, ⟨.object ⟨2, .plain⟩, .string⟩,
      Conversion.mk (Raw.ofNat 7) .string], ∃ ds, nestedHeap.Asking c ds true ∧
        ∀ d ∈ ds, d ∈ [⟨.object ⟨3, .plain⟩, .string⟩, ⟨.object ⟨2, .plain⟩, .string⟩,
          Conversion.mk (Raw.ofNat 7) .string] := by
    refine List.forall_mem_cons.2 ⟨⟨_, asking_outer, by simp⟩, List.forall_mem_cons.2
      ⟨⟨_, asking_inner, by simp⟩, List.forall_mem_singleton.2 ⟨_, hprimitive, by simp⟩⟩⟩
  obtain ⟨htame, hwilling⟩ := Heap.tame_of_closed (S := (· ∈ _)) hclosed List.mem_cons_self
  have hends := ((text_ends_with_nesting .none nestedSession).1 _ htame).ends
    (List.forall_mem_singleton.2 hacc)
  obtain ⟨text, htext, -⟩ := hends.settles (List.forall_mem_singleton.2 hwilling)
  exact ⟨text, htext⟩

/-- The text of an array that contains itself does not end. -/
theorem text_of_self_containing_array_hangs :
    (stringOf (.object ⟨4, .plain⟩)).Hangs .none nestedSession := by
  have hclosed : ∀ c, c = Conversion.mk (.object ⟨4, .plain⟩) .string →
      ∃ ds, nestedHeap.Asking c ds true ∧
        ∀ d ∈ ds, d = Conversion.mk (.object ⟨4, .plain⟩) .string := by
    rintro _ rfl
    exact ⟨_, asking_self, by simp⟩
  obtain ⟨htame, hwilling⟩ := Heap.tame_of_closed hclosed rfl
  have hself : nestedHeap.Demands ⟨.object ⟨4, .plain⟩, .string⟩ ⟨.object ⟨4, .plain⟩, .string⟩ :=
    ⟨_, _, asking_self, List.mem_singleton_self _⟩
  have hne : ∀ c, Acc nestedHeap.Demands c → c ≠ ⟨.object ⟨4, .plain⟩, .string⟩ := by
    intro c hc
    induction hc with
    | intro c _ ih =>
      rintro rfl
      exact ih _ hself rfl
  exact fun n => hangs_stringOf (Conversion.hangs (fun hacc => hne _ hacc rfl) htame hwilling n)

end Clearance
