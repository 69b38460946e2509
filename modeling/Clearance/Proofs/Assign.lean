/-
# The checked write

`assign` first finds out what the location holds, and then either reports a violation or stores
the value with the labels that have come to it. Nothing of this runs a script, so the first part
is a function of the state: `Place.locationIn`. The program counter of a region that a value
controls is a function of the state, too: `Label.raised`.
-/
import Clearance.Proofs.Heap
import Clearance.Proofs.Label
import Clearance.Proofs.Visit

namespace Clearance

open Clearance.Action

/-- The state after an event has been recorded. -/
def State.recorded (s : State) (e : Event) : State :=
  ⟨s.control, if s.control.realm.traced
    then { s.store with events := e :: s.store.events } else s.store⟩

namespace State

@[simp] lemma recorded_control (s : State) (e : Event) : (s.recorded e).control = s.control := rfl

@[simp] lemma recorded_heap (s : State) (e : Event) :
    (s.recorded e).store.heap = s.store.heap := by
  unfold recorded
  dsimp only
  split_ifs <;> rfl

@[simp] lemma recorded_frames (s : State) (e : Event) :
    (s.recorded e).store.frames = s.store.frames := by
  unfold recorded
  dsimp only
  split_ifs <;> rfl

end State

/-- The state after an own property has been put. -/
def State.extended (s : State) (o : Ref) (name : String) (v : Value) : State :=
  ⟨s.control, { s.store with heap := s.store.heap.update o.id (Heap.extend · name v) }⟩

section

variable (serve : Service) (fuel : Nat) {s : State} {o : Ref} {name : String} (v : Value)

lemma run_putOwn (h : Heap.counts (s.store.heap.get o.id) name = true) :
    (putOwn o name v).run serve fuel s = .done () (s.extended o name v) := by
  unfold putOwn
  rw [run_bind, run_change]
  exact run_insist_of_holds ((Heap.counts_update_extend ..).trans h)

/-- At an array that has lost its length the program breaks down, with the element in place. -/
lemma run_putOwn_lost (h : Heap.counts (s.store.heap.get o.id) name = false) :
    (putOwn o name v).run serve fuel s =
      .stuck (.panic missingText) (s.extended o name v) := by
  unfold putOwn
  rw [run_bind, run_change]
  exact run_insist_of_not ((Heap.counts_update_extend ..).trans h)

variable (s o name) in
lemma state_run_putOwn :
    ((putOwn o name v).run serve fuel s).state = s.extended o name v := by
  cases h : Heap.counts (s.store.heap.get o.id) name with
  | true => rw [run_putOwn serve fuel v h, Outcome.state_done]
  | false => rw [run_putOwn_lost serve fuel v h, Outcome.state_stuck]

/-- What is known when a property has been put. -/
lemma eq_extended_of_putOwn {serve : Service} {fuel : Nat} {t : State} {v : Value}
    (h : (putOwn o name v).run serve fuel s = .done () t) : t = s.extended o name v := by
  have hstate := state_run_putOwn serve fuel s o name v
  rwa [h] at hstate

end

/-- What a lookup shows of a property without running getters. -/
def Property.peeked (q : Property) : Value := if q.isAccessor then .undefined else q.value

/-- The location of a place in a state. -/
def Place.locationIn (p : Place) (s : State) : Location :=
  match p.base with
  | none => ⟨.none, (s.store.heap.get s.control.realm.global).partition, false⟩
  | some o =>
    let partition := (s.store.heap.get o.id).partition
    match s.store.heap.find? o.id p.name with
    | none => ⟨.none, partition, false⟩
    | some (_, q) =>
      ⟨q.peeked.label, q.peeked.label.join partition, !q.peeked.raw.isUndefined⟩

namespace Location

@[simp] lemma stored_raw (loc : Location) (pc chosen : Label) (r : Rated) :
    (loc.stored pc chosen r).raw = r.raw := by
  unfold stored Value.raiseAbove Rated.value
  split_ifs <;> simp

/-- What is stored keeps the label of the cell. -/
lemma cell_leq_stored (loc : Location) (pc chosen : Label) (r : Rated) :
    loc.cell.leq (loc.stored pc chosen r).label = true := by
  rw [Label.leq_iff]
  unfold stored
  rw [Value.height_wrap]
  omega

end Location

section

variable {serve : Service} {fuel : Nat} {α : Type}

lemma run_trace_eq (e : Event) (s : State) :
    (trace e).run serve fuel s = .done () (s.recorded e) := run_trace e s

lemma run_violate (line : Nat) (target : String) (source location : Label) (s : State) :
    (violate line target source location : Action α).run serve fuel s =
      .failed (.violation ⟨target, source, location, s.control.file, line⟩)
        (s.recorded (.violated target source location line)) := by
  simp only [violate, run_bind, run_trace_eq, run_current, run_fail, State.recorded_control]

lemma run_partition (p : Place) (s : State) :
    p.partition.run serve fuel s = .done (match p.base with
      | none => .none
      | some o => (s.store.heap.get o.id).partition) s := by
  unfold Place.partition
  cases p.base <;> rfl

lemma run_peek (p : Place) (s : State) :
    p.peek.run serve fuel s = .done (match p.base with
      | none => none
      | some o => (s.store.heap.find? o.id p.name).map fun found => found.2.peeked) s := by
  unfold Place.peek
  cases p.base with
  | none => rfl
  | some o =>
    simp only [run_bind, run_look]
    cases s.store.heap.find? o.id p.name <;> rfl

lemma run_location (p : Place) (s : State) :
    p.location.run serve fuel s = .done (p.locationIn s) s := by
  unfold Place.location Place.locationIn
  cases hb : p.base with
  | none => rfl
  | some o =>
    simp only [run_bind, run_partition, run_peek, hb]
    cases s.store.heap.find? o.id p.name <;> rfl

/-- A write to the location is refused: the context or the choice of the place is classified above
it, or the data is, and the location does not take its classification from the data. -/
def Location.Refuses (loc : Location) (pc chosen : Label) (r : Rated) (declare : Bool) : Prop :=
  (loc.label.join loc.cell).less (pc.join (chosen.join loc.label)) = true ∨
    (loc.established = true ∨ declare = false) ∧ loc.label.less r.label = true

/-- An assignment that passes its checks: what is known of the labels, the state in which the
value is written, and that nothing else happens. -/
structure Passes (serve : Service) (fuel : Nat) (line : Nat) (p : Place) (chosen : Label)
    (r : Rated) (declare : Bool) (s u : State) : Prop where
  control : u.control = s.control
  heap : u.store.heap = s.store.heap
  frames : u.store.frames = s.store.frames
  context : (s.control.pc.join (chosen.join (p.locationIn s).label)).leq
    ((p.locationIn s).label.join (p.locationIn s).cell) = true
  data : (p.locationIn s).established = true ∨ declare = false →
    r.label.leq (p.locationIn s).label = true
  run : (assign line p chosen r declare).run serve fuel s =
    (do p.write ((p.locationIn s).stored s.control.pc chosen r); return r.value : Action _).run
      serve fuel u
  visits : ∀ (watch : Watch) (next : Next Value) (cs : List Attempt) (w : Visit),
    w ∈ (p.write ((p.locationIn s).stored s.control.pc chosen r)).visits serve watch fuel
      ⟨fun _ => pure r.value⟩ cs u →
    w ∈ (assign line p chosen r declare).visits serve watch fuel next cs s

/-- An assignment that is refused reports a violation, and others pass the checks. -/
theorem run_assign (line : Nat) (p : Place) (chosen : Label) (r : Rated) (declare : Bool)
    (s : State) :
    ((∃ v e, (assign line p chosen r declare).run serve fuel s =
      .failed (.violation v) (s.recorded e)) ∧
        (p.locationIn s).Refuses s.control.pc chosen r declare) ∨
    ∃ u, Passes serve fuel line p chosen r declare s u := by
  have hrun : (assign line p chosen r declare).run serve fuel s =
      (assignTo line p chosen r declare (p.locationIn s) s.control.pc).run serve fuel s := by
    simp only [assign, run_bind, run_location, run_pc]
  have hvisits : ∀ (watch : Watch) (next : Next Value) (cs : List Attempt) (w : Visit),
      w ∈ (assignTo line p chosen r declare (p.locationIn s) s.control.pc).visits serve watch fuel
        .nothing cs s → w ∈ (assign line p chosen r declare).visits serve watch fuel next cs s :=
    fun _ _ _ _ hw => mem_visits_rest (run_location p s) (mem_visits_rest (run_pc s) hw)
  rw [hrun]
  unfold assignTo at hrun hvisits ⊢
  dsimp only at hrun hvisits ⊢
  split_ifs at hrun hvisits ⊢ with hbound hdata hrecord
  · exact .inl ⟨⟨_, _, run_violate ..⟩, .inl hbound⟩
  · exact .inl ⟨⟨_, _, run_violate ..⟩, .inr (by simpa using hdata)⟩
  all_goals
    have hdata' : (p.locationIn s).established = true ∨ declare = false →
        r.label.leq (p.locationIn s).label = true := by
      intro h
      refine Label.leq_of_not_less fun hless => hdata ?_
      rcases h with h | h <;> simp [h, hless]
  · let e : Event := .relabeled p.name (s.control.pc.join (chosen.join (p.locationIn s).label)) line
    have htrace : (trace e).run serve fuel s = .done () (s.recorded e) := run_trace_eq e s
    refine .inr ⟨s.recorded e, rfl, State.recorded_heap .., State.recorded_frames ..,
      Label.leq_of_not_less hbound, hdata', hrun.trans (by rw [run_bind, htrace]), ?_⟩
    exact fun _ _ _ _ hw => hvisits _ _ _ _ (mem_visits_rest htrace (mem_visits_first hw))
  · refine .inr ⟨s, rfl, rfl, rfl, Label.leq_of_not_less hbound, hdata', hrun, ?_⟩
    exact fun _ _ _ _ hw => hvisits _ _ _ _ (mem_visits_first hw)

end

/-! ## Program counters -/

/-- The program counter of a region that is controlled by a label. -/
def Label.raised (pc k : Label) : Label :=
  if k.isNone || k.order pc == .eq then pc else pc.join k

@[simp] lemma Label.height_raised (pc k : Label) :
    (pc.raised k).height = max pc.height k.height := by
  unfold raised
  have hpc := one_le_height pc
  split_ifs with h
  · rcases Bool.or_eq_true_iff.1 h with hk | hk
    · rw [height_of_isNone hk]
      omega
    · rw [order_eq_iff.1 (eq_of_beq hk)]
      omega
  · exact height_join pc k

lemma run_raisedPc (serve : Service) (fuel : Nat) (kind : String) (line : Nat) (k : Label)
    (s : State) : ∃ store, (raisedPc kind line k).run serve fuel s =
      .done (s.control.pc.raised k) ⟨s.control, store⟩ ∧ store.heap = s.store.heap ∧
        store.frames = s.store.frames := by
  simp only [raisedPc, run_bind, run_pc, Label.raised]
  split_ifs
  · exact ⟨s.store, rfl, rfl, rfl⟩
  · simp only [run_bind, run_trace_eq]
    exact ⟨_, rfl, State.recorded_heap .., State.recorded_frames ..⟩
  · exact ⟨s.store, rfl, rfl, rfl⟩

end Clearance
