/-
# Operations in step

The operations that expressions and statements of the core are made of, run on twins: looking a
name up, reading and assigning it, raising the program counter, and turning failures into thrown
values.
-/
import Clearance.Proofs.Lockstep

namespace Clearance

open Clearance.Action

/-- Completions of the same kind and target. -/
inductive Completion.Agrees : Completion → Completion → Prop
  | normal : Agrees .normal .normal
  | leave (target : Option Nat) : Agrees (.leave target) (.leave target)
  | resume (target : Option Nat) : Agrees (.resume target) (.resume target)
  | returned (v v' : Value) : Agrees (.returned v) (.returned v')
  | thrown (v v' : Value) (line line' : Nat) : Agrees (.thrown v line) (.thrown v' line')

namespace View

/-- Primitive values that agree up to the level. -/
structure SameValue (V : View) (v v' : Value) : Prop where
  left : v.raw.isPrimitive = true
  right : v'.raw.isPrimitive = true
  agrees : v.Agrees V.level v'

/-- Primitive operands that agree up to the level. -/
structure SameRated (V : View) (r r' : Rated) : Prop where
  left : r.raw.isPrimitive = true
  right : r'.raw.isPrimitive = true
  agrees : r.Agrees V.level r'

/-- Operands of the core that agree up to the level. -/
inductive SameOperand (V : View) : Operand → Operand → Prop
  | value {v v' : Value} : V.SameValue v v' → SameOperand V (.value v) (.value v')
  | place {p : Place} : V.Known (.place p .none) → SameOperand V (.place p .none) (.place p .none)

variable {V : View} {α β : Type}

lemma SameRated.value {r r' : Rated} (h : V.SameRated r r') : V.SameValue r.value r'.value :=
  ⟨by rw [Rated.value, Value.labeled_raw]; exact h.left,
    by rw [Rated.value, Value.labeled_raw]; exact h.right, Value.agrees_of_rated h.agrees⟩

/-- Operands are the same and not above the level, or above it in both runs. -/
lemma SameRated.cases {r r' : Rated} (h : V.SameRated r r') :
    (r = r' ∧ r.label.leq V.level = true) ∨
      (V.level.less r.label = true ∧ V.level.less r'.label = true) := by
  rcases h.agrees with rfl | hless
  · by_cases hless : V.level.less r.label = true
    · exact .inr ⟨hless, hless⟩
    · exact .inl ⟨rfl, Label.leq_of_not_less hless⟩
  · exact .inr hless

/-- A primitive value above the level. -/
def High (V : View) (op : Operand) : Prop :=
  ∃ v : Value, op = .value v ∧ v.raw.isPrimitive = true ∧ V.level.less v.label = true

lemma High.same {op op' : Operand} (h : V.High op) (h' : V.High op') : V.SameOperand op op' := by
  obtain ⟨v, rfl, hv, hless⟩ := h
  obtain ⟨v', rfl, hv', hless'⟩ := h'
  exact .value ⟨hv, hv', .inr ⟨hless, hless'⟩⟩

lemma high_labeled {x : Raw} {k : Label} (hx : x.isPrimitive = true)
    (hk : V.level.less k = true) : V.High (.value (x.labeled k)) := by
  refine ⟨_, rfl, by rwa [Value.labeled_raw], ?_⟩
  rw [Label.less_iff] at *
  rwa [Value.height_labeled]

/-- A result that is made from operands, with a label that includes theirs. -/
lemma sameValue_labeled {x x' : Raw} {k k' : Label} (hx : x.isPrimitive = true)
    (hx' : x'.isPrimitive = true)
    (h : (x = x' ∧ k = k') ∨ (V.level.less k = true ∧ V.level.less k' = true)) :
    V.SameValue (x.labeled k) (x'.labeled k') := by
  refine ⟨by rwa [Value.labeled_raw], by rwa [Value.labeled_raw], ?_⟩
  rcases h with ⟨rfl, rfl⟩ | ⟨hk, hk'⟩
  · exact .inl rfl
  · refine .inr ⟨?_, ?_⟩
    · rw [Label.less_iff] at *
      rwa [Value.height_labeled]
    · rw [Label.less_iff] at *
      rwa [Value.height_labeled]

namespace Lockstep

variable {R : α → α → Prop} {D : α → Prop} {Q : α → Prop}

/-- Both runs end normally, in states that look the same. -/
lemma of_done {p p' : Action α}
    (h : ∀ (E E' : Engine) (s s' : State), V.Twins s s' → s.control.pc.leq V.level = true →
      ∃ x x' t t', p.run E.serve E.fuel s = .done x t ∧ p'.run E'.serve E'.fuel s' = .done x' t' ∧
        V.Twins t t' ∧ R x x') : V.Lockstep p p' R D := by
  intro E E' _ _ _ _ s s' hs hlow _ _
  obtain ⟨x, x', t, t', hrun, hrun', ht, hx⟩ := h E E' s s' hs hlow
  rw [hrun, hrun']
  exact .done hx ht

lemma of_fixed {p p' : Action α} (hp : Fixed p Q) (hp' : Fixed p' Q) :
    V.Lockstep p p' (fun x x' => Q x ∧ Q x' ∧ (p = p' → x = x')) D := by
  intro E E' _ _ _ _ s s' hs _ _ _
  rcases hp with ⟨x, hx, hrun⟩ | ⟨m, hrun⟩
  · rcases hp' with ⟨x', hx', hrun'⟩ | ⟨m, hrun'⟩
    · rw [hrun, hrun']
      refine .done ⟨hx, hx', ?_⟩ hs
      rintro rfl
      have hsame := hrun E.serve E.fuel s
      rw [hrun'] at hsame
      cases hsame
      rfl
    · rw [hrun']
      exact .right (.final rfl)
  · rw [hrun]
    exact .left (.final rfl)

/-! ## Names -/

lemma placeOf {n : String} (hn : n ∈ V.names) :
    V.Lockstep (Clearance.placeOf n) (Clearance.placeOf n)
      (fun p p' => p = p' ∧ V.Known (.place p .none)) Never := by
  refine of_done fun E E' s s' hs _ => ?_
  obtain ⟨frames, hrun, hstaged⟩ := run_placeOf hs.left.staged hn
  obtain ⟨frames', hrun', hstaged'⟩ := run_placeOf hs.right.staged hn
  refine ⟨_, _, _, _, hrun, hrun', ?_, (placed_eq hs.agrees n).symm, ?_⟩
  · exact hs.of_follows ⟨hstaged, .of_globals rfl rfl⟩ ⟨hstaged', .of_globals rfl rfl⟩
  · rw [View.Known, ← hs.left.realm]
    exact core_placed n hn

lemma resolve {op op' : Operand} (h : V.SameOperand op op') :
    V.Lockstep op.resolve op'.resolve V.SameRated Never := by
  cases h with
  | value hv =>
    refine pure ⟨hv.left, hv.right, ?_⟩
    rcases hv.agrees with rfl | hless
    · exact .inl rfl
    · exact .inr hless
  | place hp =>
    cases hp with
    | @global n hn =>
      refine of_done fun E E' s s' hs _ => ⟨s.rated n, s'.rated n, s, s', ?_, ?_, hs, ?_⟩
      · exact hs.left.run_resolve hn E.serve E.fuel
      · exact hs.right.run_resolve hn E'.serve E'.fuel
      · exact ⟨isPrimitive_rated hs.left.staged hn, isPrimitive_rated hs.right.staged hn,
          rated_agrees hs.agrees n⟩
    | nowhere hn => exact seq (S := fun _ _ => False) (fail _) fun _ _ h => h.elim

lemma valueOf {p p' : Action Operand} (h : V.Lockstep p p' V.SameOperand Never) :
    V.Lockstep (Clearance.valueOf p) (Clearance.valueOf p') V.SameRated Never :=
  seq h fun _ _ hop => resolve hop

/-- An assignment of what agrees keeps the agreement. -/
lemma assign {p : Place} (hp : V.Known (.place p .none)) (line : Nat) {r r' : Rated}
    (hr : V.SameRated r r') (declare : Bool) :
    V.Lockstep (Clearance.assign line p .none r declare) (Clearance.assign line p .none r' declare)
      V.SameValue Never := by
  intro E E' _ _ _ _ s s' hs _ _ _
  have hcore := hs.left.core hp
  rcases run_assign_name hs.left.staged hcore line hr.left declare with
    ⟨v, e, hrun⟩ | ⟨t, hrun, hwrote, -, -⟩
  · rw [hrun]
    exact .left (.final rfl)
  rcases run_assign_name hs.right.staged (hs.right.core hp) line hr.right declare with
    ⟨v, e, hrun'⟩ | ⟨t', hrun', hwrote', -, -⟩
  · rw [hrun']
    exact .right (.final rfl)
  rw [hrun, hrun']
  have hstored := stored_agrees hs.agrees hs.left.staged hs.right.staged hcore hr.agrees
  have hagrees : t.Agrees V.level t' := hwrote.agrees hs.agrees hwrote'
    (.assigned (hs.agrees.globals.properties p.name) hstored)
  refine .done hr.value ⟨⟨hwrote.staged, ?_⟩, ⟨hwrote'.staged, ?_⟩, hagrees⟩
  · rw [hwrote.control]
    exact hs.left.realm
  · rw [hwrote'.control]
    exact hs.right.realm

/-! ## Program counters -/

lemma raisedPc (kind : String) (line : Nat) {k : Label} (hk : k.leq V.level = true) :
    V.Lockstep (Clearance.raisedPc kind line k) (Clearance.raisedPc kind line k)
      (fun pc pc' => pc = pc' ∧ pc.leq V.level = true) Never := by
  refine of_done fun E E' s s' hs hlow => ?_
  obtain ⟨store, hrun, hheap, hframes⟩ := run_raisedPc E.serve E.fuel kind line k s
  obtain ⟨store', hrun', hheap', hframes'⟩ := run_raisedPc E'.serve E'.fuel kind line k s'
  refine ⟨_, _, _, _, hrun, hrun',
    hs.of_follows (hs.left.follows hheap hframes) (hs.right.follows hheap' hframes'), ?_, ?_⟩
  · rw [hs.agrees.control]
  · rw [Label.leq_iff] at *
    rw [Label.height_raised]
    omega

/-- A region that is controlled by a label up to the level. -/
lemma controlled {p p' : Action α} (hp : V.Lockstep p p' R D) (kind : String) (line : Nat)
    {k : Label} (hk : k.leq V.level = true) :
    V.Lockstep (Clearance.controlled kind line k p) (Clearance.controlled kind line k p') R D := by
  refine seq (raisedPc kind line hk) fun pc pc' ⟨hsame, hlow⟩ => ?_
  rw [← hsame]
  exact withPc hlow hp

end Lockstep

/-- A label above the level raises the program counter above it. -/
lemma Aside.raisedPc (kind : String) (line : Nat) {k : Label} (hk : V.level.less k = true) :
    V.Aside (Clearance.raisedPc kind line k) (V.level.less · = true) Never := by
  refine of_done fun E s hs _ => ?_
  obtain ⟨store, hrun, hheap, hframes⟩ := run_raisedPc E.serve E.fuel kind line k s
  refine ⟨_, _, hrun, ?_, hs.follows hheap hframes⟩
  rw [Label.less_iff] at *
  rw [Label.height_raised]
  omega

/-- A region that is controlled by a label above the level. -/
lemma Aside.controlled {S D Q : α → Prop} {p : Action α} (kind : String) (line : Nat) {k : Label}
    (hk : V.level.less k = true) (hp : V.Unseen p Q) (hV : V.Settles Q S D) :
    V.Aside (Clearance.controlled kind line k p) S D :=
  bind (raisedPc kind line hk) fun _ hpc => withPc hpc hp hV

/-! ## Failures -/

namespace Lockstep

lemma completionOf (line : Nat) {f f' : Failure} (hf : f.catchable = true)
    (hf' : f'.catchable = true) :
    V.Lockstep (Clearance.completionOf line f) (Clearance.completionOf line f') Completion.Agrees
      Completion.Thrown := by
  refine of_done fun E E' s s' hs _ => ?_
  obtain ⟨c, t, hrun, ⟨v, l, rfl⟩, ht⟩ := run_completionOf E.serve E.fuel line hf s
  obtain ⟨c', t', hrun', ⟨v', l', rfl⟩, ht'⟩ := run_completionOf E'.serve E'.fuel line hf' s'
  exact ⟨_, _, _, _, hrun, hrun',
    hs.of_follows (hs.left.follows_completionOf ht) (hs.right.follows_completionOf ht'),
    .thrown ..⟩

end Lockstep

/-- A failure that ends the program stays one, and a program that does not jump does not survive a
thrown value. -/
lemma ends_completionOf (line : Nat) {f : Failure} (hf : f.catchable = false ∨ V.jumps = false)
    (E : Engine) (s : State) :
    V.Ends Completion.Thrown ((completionOf line f).run E.serve E.fuel s) := by
  by_cases hcatch : f.catchable = true
  · obtain ⟨c, t, hrun, hc, -⟩ := run_completionOf E.serve E.fuel line hcatch s
    rw [hrun]
    rcases hf with hf | hj
    · rw [hcatch] at hf
      cases hf
    · exact .doomed hj hc
  · have hcatch : f.catchable = false := by simpa using hcatch
    rw [completionOf_of_not_catchable line hcatch]
    exact .final hcatch

lemma Lockstep.guarded {p p' : Action β} {k k' : β → Action Completion} {S : β → β → Prop}
    (line : Nat) (hp : V.Lockstep p p' S Never)
    (hk : ∀ x x', S x x' → V.Lockstep (k x) (k' x') Completion.Agrees Completion.Thrown) :
    V.Lockstep (Clearance.guarded line p k) (Clearance.guarded line p' k') Completion.Agrees
      Completion.Thrown :=
  attempt hp hk (fun _ _ hf hf' => completionOf line hf hf') fun _ hf E s =>
    ⟨ends_completionOf line hf E s, ends_completionOf line hf E s⟩

/-! ## Ends of regions -/

/-- Where results cannot be jumps, there is nothing to settle. -/
lemma settles_of_forall {Q D : α → Prop} : V.Settles Q Q D :=
  fun _ _ _ _ _ _ _ _ _ _ hx _ _ => .inr hx

/-- Statements that do not escape end normally, or the program does not. -/
lemma settles_completion : V.Settles V.Ending (· = .normal) Completion.Thrown := by
  intro E pc scope p s t cs c hlow hpc hc hrun hesc
  cases hj : V.jumps with
  | false =>
    rcases hc hj with hnormal | hthrown
    · exact .inr hnormal
    · exact .inl ⟨rfl, hthrown⟩
  | true =>
    refine .inr ?_
    by_contra hne
    refine hesc hj (.jumped hlow hpc ?_ hrun)
    cases c <;> first | rfl | exact absurd rfl hne

end View
end Clearance
