/-
# Conversions and labels

Operators convert objects to primitives by calling their methods, `valueOf` or `toString`, which are
functions of the script and can give values of any label. `Calls` says which methods are called and
what the last of them gives. A conversion keeps the raw value of this and drops its label
(`run_toPrimitive`): it happens below the layer at which operators take labels together.

So the label of a converted value has no part in the label of a result, which ranks with the join of
the labels of the operands, whether these are converted or not (`Yields.height`). It is dominated by
the label of the result when it is not above those of the operands, and otherwise it is not
(`converted_label_dominated_iff`).
-/
import Clearance.Proofs.Dominance
import Clearance.Proofs.Moment

namespace Clearance

open Clearance.Action Script

/-! ## Conversions -/

/-- The methods of an object are called in turn, and the last one gives a primitive. -/
inductive Calls (serve : Service) (fuel : Nat) (o : Ref) :
    List String → State → Value → State → Prop
  | gives {name : String} {rest : List String} {s u t : State} {m w : Value} {f : Ref} :
    (getProperty o name).run serve fuel s = .done m u → m.raw.callable? = some f →
      serve (.call f (Raw.object o) []) u = .done w t → w.raw.isPrimitive = true →
        Calls serve fuel o (name :: rest) s w t
  /-- There is no such method. -/
  | absent {name : String} {rest : List String} {s u t : State} {m w : Value} :
    (getProperty o name).run serve fuel s = .done m u → m.raw.callable? = none →
      Calls serve fuel o rest u w t → Calls serve fuel o (name :: rest) s w t
  /-- The method gives no primitive. -/
  | other {name : String} {rest : List String} {s u x t : State} {m v w : Value} {f : Ref} :
    (getProperty o name).run serve fuel s = .done m u → m.raw.callable? = some f →
      serve (.call f (Raw.object o) []) u = .done v x → v.raw.isPrimitive = false →
        Calls serve fuel o rest x w t → Calls serve fuel o (name :: rest) s w t

section

variable {serve : Service} {fuel : Nat} {o : Ref} {s t : State} {w : Value}

/-- What the methods give is taken without its label, by induction on the methods. -/
lemma run_firstPrimitive (names : List String) : ∀ {s : State} {r : Raw},
    (firstPrimitive o names).run serve fuel s = .done r t ↔
      ∃ w, Calls serve fuel o names s w t ∧ r = w.raw := by
  -- on the names of the methods: the first one that gives a primitive value ends the search
  induction names with
  | nil =>
    intro s r
    constructor
    · exact fun h => nomatch h
    · rintro ⟨w, ⟨⟩, -⟩
  | cons name rest ih =>
    intro s r
    constructor
    · intro h
      obtain ⟨m, u, hget, hrest⟩ := run_bind_done.1 h
      cases hf : m.raw.callable? with
      | none =>
        rw [hf] at hrest
        obtain ⟨w, hcalls, rfl⟩ := ih.1 hrest
        exact ⟨w, .absent hget hf hcalls, rfl⟩
      | some f =>
        rw [hf] at hrest
        obtain ⟨v, x, hcall, hlast⟩ := run_bind_done.1 hrest
        dsimp only at hlast
        split_ifs at hlast with hprimitive
        · cases hlast
          exact ⟨v, .gives hget hf hcall hprimitive, rfl⟩
        · obtain ⟨w, hcalls, rfl⟩ := ih.1 hlast
          exact ⟨w, .other hget hf hcall (by simpa using hprimitive) hcalls, rfl⟩
    · rintro ⟨w, hcalls, rfl⟩
      cases hcalls with
      | gives hget hf hcall hprimitive =>
        refine run_bind_done.2 ⟨_, _, hget, ?_⟩
        rw [hf]
        refine run_bind_done.2 ⟨_, _, hcall, ?_⟩
        dsimp only
        rw [if_pos hprimitive]
        rfl
      | absent hget hf hcalls =>
        refine run_bind_done.2 ⟨_, _, hget, ?_⟩
        rw [hf]
        exact ih.2 ⟨w, hcalls, rfl⟩
      | other hget hf hcall hprimitive hcalls =>
        refine run_bind_done.2 ⟨_, _, hget, ?_⟩
        rw [hf]
        refine run_bind_done.2 ⟨_, _, hcall, ?_⟩
        dsimp only
        rw [if_neg (by simp [hprimitive])]
        exact ih.2 ⟨w, hcalls, rfl⟩

/-- A conversion drops the label of what the methods give. -/
lemma run_toPrimitive {hint : Hint} (hobject : (s.store.heap.get o.id).primitive = none)
    (h : Calls serve fuel o hint.methods s w t) :
    (toPrimitive (.object o) hint).run serve fuel s = .done (Value.plain w.raw) t := by
  unfold toPrimitive
  simp only [run_bind, run_object, hobject, (run_firstPrimitive _).2 ⟨w, h, rfl⟩, run_pure]

end

/-- The start of a conversion of an object by its methods, the last of which gives a value. -/
inductive Moment.Converts (hosts : Hosts) (rounds : Nat) (w : Value) : Moment → Prop
  | intro {o : Ref} {hint : Hint} {s t : State} {cs : List Control} {n : Nat}
    {out : Outcome Value} :
    (s.store.heap.get o.id).primitive = none →
      Calls (machine hosts rounds n) rounds o hint.methods s w t →
      out = (toPrimitive (.object o) hint).run (machine hosts rounds n) rounds s →
      Moment.Converts hosts rounds w ⟨toPrimitive (.object o) hint, s, cs, out⟩

/-! ## Operations on converted values -/

/-- An operation gives something with a label, for operands whose labels have a join: expressions
that take their operands together, the places of properties, and built-in functions on raw
values. -/
inductive Yields (serve : Service) (fuel : Nat) (s : State) :
    {α : Type} → Action α → Label → Label → Prop
  | expression {e : Expr Span} {kept : List Label} {r : Rated} {t : State} :
    Operands serve fuel e s kept [] → (valueOf e.action).run serve fuel s = .done r t →
      Yields serve fuel s (valueOf e.action) r.label (Label.joinAll kept)
  | place {span : Span} {object key : Expr Span} {o k : Rated} {u x t : State} {p : Place}
      {chosen : Label} :
    (valueOf object.action).run serve fuel s = .done o u →
      (valueOf key.action).run serve fuel u = .done k x →
      (Expr.index span object key).action.run serve fuel s = .done (.place p chosen) t →
      Yields serve fuel s (Expr.index span object key).action chosen (o.label.join k.label)
  /-- What a built-in function gives can have a label of its own. -/
  | native {f : RawFn} {this : Value} {args : List Value} {r v : Value} {t x : State} :
    (f this.raw (args.map Value.raw)).run serve fuel s = .done r x →
      (lift f this args).run serve fuel s = .done v t →
      Yields serve fuel s (lift f this args) v.label
        (r.label.join (Value.joinLabels (this :: args)))

section

variable {serve : Service} {fuel : Nat} {s : State} {k j : Label}

/-- The label of what an operation gives ranks with the join of the labels of the operands. -/
lemma Yields.height {α : Type} {p : Action α} (h : Yields serve fuel s p k j) :
    k.height = j.height := by
  cases h with
  | expression hoperands hrun => exact height_of_operands hoperands hrun
  | @place span object key o k u x t p chosen hobject hkey hplace =>
    rw [Script.Expr.action, run_bind, hobject] at hplace
    dsimp only at hplace
    rw [run_bind, hkey] at hplace
    obtain ⟨base, y, -, hrest⟩ := run_bind_done.1 hplace
    obtain ⟨name, z, -, hlast⟩ := run_bind_done.1 hrest
    cases hlast
    have hone := Label.one_le_height (o.label.join k.label)
    split_ifs with hless
    · rfl
    · rw [Label.less_iff, Label.height_none] at hless
      rw [Label.height_none]
      omega
  | native hraw hlift =>
    unfold lift at hlift
    rw [run_bind, hraw] at hlift
    cases hlift
    rw [Value.height_wrap, Label.height_join]

end

/-- **What conversions do to labels.** In the course of an operation, a conversion by a method that
gives a value takes its raw value without its label. The label of the value is dominated by that of
what the operation gives if and only if it is not above the join of the labels of the operands. -/
theorem converted_label_dominated_iff {hosts : Hosts} {rounds levels : Nat} {α : Type}
    {p : Action α} {s : State} {k j : Label}
    (h : Yields (machine hosts rounds levels) rounds s p k j) (cs : List Control) :
    ∀ m ∈ p.momentsOn hosts rounds levels cs s, ∀ w, m.Converts hosts rounds w →
      (∃ o hint u t ds,
        m = ⟨toPrimitive (.object o) hint, u, ds, .done (Value.plain w.raw) t⟩) ∧
      (w.label.leq k = true ↔ w.label.leq j = true) := by
  intro m _ w hconverts
  constructor
  · obtain ⟨hobject, hcalls, rfl⟩ := hconverts
    rw [run_toPrimitive hobject hcalls]
    exact ⟨_, _, _, _, _, rfl⟩
  · rw [Label.leq_iff, Label.leq_iff, h.height]

/-- The labels of what `valueOf` gives for the operand of a plus sign, and of the number. -/
def plusLabels? (e : Expr Span) (bound : Nat) (s : State) : Option (Label × Label) :=
  match e with
  | .unary _ .plus operand =>
    match (valueOf operand.action).run (machine .none bound bound) bound s,
      (valueOf e.action).run (machine .none bound bound) bound s with
    | .done ⟨.object o, _⟩ u, .done v _ =>
      match (u.store.heap.get o.id).primitive,
        (getProperty o "valueOf").run (machine .none bound bound) bound u with
      | none, .done m x =>
        match m.raw.callable? with
        | some f =>
          match machine .none bound bound (.call f (Raw.object o) []) x with
          | .done w _ => if w.raw.isPrimitive then some (w.label, v.label) else none
          | _ => none
        | none => none
      | _, _ => none
    | _, _ => none
  | _ => none

/-- The operand of a plus sign is converted, and the result is known. -/
lemma exists_conversion {e : Expr Span} {bound : Nat} {s : State} {a b : Label}
    (h : plusLabels? e bound s = some (a, b)) : ∃ r t j m w,
      (valueOf e.action).run (machine .none bound bound) bound s = .done r t ∧
      Yields (machine .none bound bound) bound s (valueOf e.action) r.label j ∧
      m ∈ (valueOf e.action).momentsOn .none bound bound [] s ∧ m.Converts .none bound w ∧
      w.label = a ∧ r.label = b := by
  unfold plusLabels? at h
  split at h
  · rename_i span operand
    split at h
    · rename_i o k u v t hoperand hrun
      split at h
      · rename_i m x hobject hget
        split at h
        · rename_i f hf
          split at h
          · rename_i w y hcall
            split_ifs at h with hprimitive
            cases h
            have hoperands : Operands (machine .none bound bound) bound
                (.unary span .plus operand) s
                [k] [] := .unary (by decide) (by decide) (by decide) hoperand
            refine ⟨v, t, _, ⟨toPrimitive (.object o) .number, u, [], _⟩, w, hrun,
              .expression hoperands hrun, ?_,
              .intro hobject (.gives hget hf hcall hprimitive) rfl, rfl, rfl⟩
            rw [Script.Expr.action]
            exact mem_moments_first _ (mem_moments_rest hoperand (mem_moments_first _
              (mem_moments_first _ (mem_moments_self _ _ _))))
          · cases h
        · cases h
      · cases h
    · cases h
  · cases h

/-- A plus sign before a classified object whose `valueOf` gives a secret. -/
def classifiedScript : String :=
  "+label('H', \x7bvalueOf: function() \x7b return secret; \x7d\x7d)"

/-- A plus sign before an object whose `valueOf` gives a secret. -/
def convertedScript : String := "+\x7bvalueOf: function() \x7b return secret; \x7d\x7d"

/-- The labels of a plus sign in a session with a secret. -/
lemma exists_plus {source : String} {a b : Label}
    (h : (expression? source).bind (plusLabels? · 50 secretSession) = some (a, b)) : ∃ e r t j m w,
      expression? source = some e ∧
      (valueOf e.action).run (machine .none 50 50) 50 secretSession = .done r t ∧
      Yields (machine .none 50 50) 50 secretSession (valueOf e.action) r.label j ∧
      m ∈ (valueOf e.action).momentsOn .none 50 50 [] secretSession ∧ m.Converts .none 50 w ∧
      w.label = a ∧ r.label = b := by
  obtain ⟨e, he, hlabels⟩ := Option.bind_eq_some_iff.1 h
  obtain ⟨r, t, j, m, w, hconversion⟩ := exists_conversion hlabels
  exact ⟨e, r, t, j, m, w, he, hconversion⟩

set_option maxRecDepth 100000 in
/-- The label of the operand covers what its conversion gives. -/
theorem converted_label_dominated_by_operand : ∃ e r t j m w,
    expression? classifiedScript = some e ∧
    (valueOf e.action).run (machine .none 50 50) 50 secretSession = .done r t ∧
    Yields (machine .none 50 50) 50 secretSession (valueOf e.action) r.label j ∧
    m ∈ (valueOf e.action).momentsOn .none 50 50 [] secretSession ∧ m.Converts .none 50 w ∧
    w.label = ⟨2, "H"⟩ ∧ w.label.leq r.label = true ∧
    (w.label.leq r.label = true ↔ w.label.leq j = true) := by
  have hlabels : (expression? classifiedScript).bind (plusLabels? · 50 secretSession) =
      some (⟨2, "H"⟩, ⟨2, "H"⟩) := by
    rw [show classifiedScript = String.ofList _ from rfl, expression?, statement?,
      Script.parse_ofList]
    decide +kernel
  obtain ⟨e, r, t, j, m, w, he, hrun, hyields, hm, hconverts, hw, hr⟩ := exists_plus hlabels
  have hdominated := (converted_label_dominated_iff hyields [] m hm w hconverts).2
  refine ⟨e, r, t, j, m, w, he, hrun, hyields, hm, hconverts, hw, ?_, hdominated⟩
  rw [hw, hr]
  rfl

set_option maxRecDepth 100000 in
/-- The conversion gives a secret, and the number is public. -/
theorem converted_label_not_dominated : ∃ e r t j m w,
    expression? convertedScript = some e ∧
    (valueOf e.action).run (machine .none 50 50) 50 secretSession = .done r t ∧
    Yields (machine .none 50 50) 50 secretSession (valueOf e.action) r.label j ∧
    m ∈ (valueOf e.action).momentsOn .none 50 50 [] secretSession ∧ m.Converts .none 50 w ∧
    ¬w.label.leq r.label = true := by
  have hlabels : (expression? convertedScript).bind (plusLabels? · 50 secretSession) =
      some (⟨2, "H"⟩, .none) := by
    rw [show convertedScript = String.ofList _ from rfl, expression?, statement?,
      Script.parse_ofList]
    decide +kernel
  obtain ⟨e, r, t, j, m, w, he, hrun, hyields, hm, hconverts, hw, hr⟩ := exists_plus hlabels
  refine ⟨e, r, t, j, m, w, he, hrun, hyields, hm, hconverts, ?_⟩
  rw [hw, hr]
  exact Bool.false_ne_true

end Clearance
