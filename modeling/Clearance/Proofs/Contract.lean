/-
# The contract of the checked write

A checked write to a bound place is forbidden by three labels: the program counter, the label of
what chose the place, and the label of the data, which must not be above the label of the location.
A declaration whose location holds undefined, or nothing, passes with data of any label
(`Place.Forbids`). This file says what the write does in each case (`Place.Contract`): what is
forbidden changes nothing and is reported; what is not forbidden is carried out, and then the
location holds the raw value under the join of the label of the data and its own label, and nothing
else has changed but the length of an array, which may have grown. An array that has lost its length
cannot count a new index, and the program breaks down there.

Labels are compared by their heights, so the absence of a label counts as the least one. Labels of
one lattice with the same height above the least one are equal.

A setter is a function of its own. Calling it may be reported as a violation, although the write was
not forbidden (`violation_of_setter`).
-/
import Clearance.Proofs.Location

namespace Clearance

open Clearance.Action

/-! ## Forbidden writes -/

lemma Raw.isUndefined_iff {r : Raw} : r.isUndefined = true ↔ r = .undefined := by
  cases r <;> simp [Raw.isUndefined]

namespace Place

variable {p : Place} {o : Ref} {s t : State} {chosen : Label} {r : Rated} {declare : Bool}

/-- The place holds undefined, or nothing is stored there. Accessors count as undefined. -/
def IsVacant (p : Place) (s : State) : Prop :=
  ∀ q, p.property? s = some q → q.peeked.raw = .undefined

/-- The labels forbid a checked write to the place. -/
def Forbids (p : Place) (chosen : Label) (r : Rated) (declare : Bool) (s : State) : Prop :=
  ¬s.control.pc.leq (p.labelIn s) = true ∨ ¬chosen.leq (p.labelIn s) = true ∨
    ¬r.label.leq (p.labelIn s) = true ∧ ¬(declare = true ∧ p.IsVacant s)

/-- The place holds no accessor, no constant, and it is not the length of an array. -/
structure Writable (p : Place) (s : State) : Prop where
  data : p.HoldsData s
  writable : ∀ q, p.property? s = some q → q.readOnly = false
  plain : ¬((s.store.heap.get (p.owner s).id).cls = "Array" ∧ p.name = "length")

instance (p : Place) (s : State) : Decidable (p.IsVacant s) :=
  decidable_of_iff ((p.property? s).all (·.peeked.raw.isUndefined) = true) (by
    unfold IsVacant
    cases p.property? s <;> simp [Raw.isUndefined_iff])

instance (p : Place) (chosen : Label) (r : Rated) (declare : Bool) (s : State) :
    Decidable (p.Forbids chosen r declare s) := inferInstanceAs (Decidable (_ ∨ _ ∨ _ ∧ _))

instance (p : Place) (s : State) : Decidable (p.Writable s) :=
  decidable_of_iff (p.HoldsData s ∧ (p.property? s).all (!·.readOnly) = true ∧
      ¬((s.store.heap.get (p.owner s).id).cls = "Array" ∧ p.name = "length")) (by
    have hwritable : (p.property? s).all (!·.readOnly) = true ↔
        ∀ q, p.property? s = some q → q.readOnly = false := by
      cases p.property? s <;> simp
    rw [hwritable]
    exact ⟨fun h => ⟨h.1, h.2.1, h.2.2⟩, fun h => ⟨h.data, h.writable, h.plain⟩⟩)

lemma isVacant_iff (hbase : p.base = some o) :
    p.IsVacant s ↔ (p.locationIn s).established = false := by
  have howner : p.owner s = o := by simp [owner, hbase]
  unfold IsVacant property? locationIn
  rw [howner, hbase]
  dsimp only
  cases s.store.heap.find? o.id p.name with
  | none => simp
  | some found =>
    obtain ⟨owner, q⟩ := found
    simp [← Raw.isUndefined_iff]

lemma label_locationIn (hbase : p.base = some o) : (p.locationIn s).label = p.labelIn s := by
  have howner : p.owner s = o := by simp [owner, hbase]
  unfold labelIn locationIn property? partitionIn
  rw [howner, hbase]
  dsimp only
  cases s.store.heap.find? o.id p.name <;> rfl

/-- The cell is part of the location. -/
lemma cell_leq_labelIn (hbase : p.base = some o) :
    (p.locationIn s).cell.height ≤ (p.labelIn s).height := by
  have hheight := height_labelIn hbase s
  omega

/-- The write is refused when it is forbidden. -/
lemma refuses_iff (hbase : p.base = some o) :
    (p.locationIn s).Refuses s.control.pc chosen r declare ↔ p.Forbids chosen r declare s := by
  have hcell := cell_leq_labelIn (s := s) hbase
  have hestablished : (p.locationIn s).established = true ↔ ¬p.IsVacant s := by
    rw [isVacant_iff hbase, Bool.not_eq_false]
  have hdeclare : declare = false ↔ ¬declare = true := (Bool.not_eq_true _).symm.to_iff
  unfold Location.Refuses Forbids
  rw [label_locationIn hbase, hestablished, hdeclare, ← not_and_or, and_comm (a := p.IsVacant s)]
  simp only [Label.less_iff, Label.leq_iff, Label.height_join]
  constructor
  · rintro (hcontext | ⟨hvacant, hdata⟩)
    · rcases Nat.lt_or_ge (p.labelIn s).height s.control.pc.height with hpc | hpc
      · exact .inl (by omega)
      · exact .inr (.inl (by omega))
    · exact .inr (.inr ⟨by omega, hvacant⟩)
  · rintro (hpc | hchosen | ⟨hdata, hvacant⟩)
    · exact .inl (by omega)
    · exact .inl (by omega)
    · exact .inr ⟨hvacant, by omega⟩

end Place

/-! ## Objects after a write -/

/-- The recorded length of an array grows to hold the index of a name. -/
def Object.Grows (o o' : Object) (name : String) : Prop :=
  o.cls = "Array" ∧ ∃ i q, arrayIndex? name = some i ∧
    Decimal.ofNat i ≥ Heap.arrayLength o ∧ Slots.find? "length" o.slots = some q ∧
      Slots.find? "length" o'.slots = some { q with value := Raw.ofNat (i + 1) }

/-- A new index of an array that has lost its length. -/
def Object.LacksLength (o : Object) (name : String) : Prop :=
  o.cls = "Array" ∧ arrayIndex? name ≠ none ∧ Slots.find? "length" o.slots = none ∧
    Slots.find? name o.slots = none

instance (o : Object) (name : String) : Decidable (o.LacksLength name) :=
  decidable_of_iff (o.cls = "Array" ∧ (arrayIndex? name).isSome = true ∧
      (Slots.find? "length" o.slots).isNone = true ∧ (Slots.find? name o.slots).isNone = true) (by
    unfold Object.LacksLength
    simp only [Option.isSome_iff_ne_none, Option.isNone_iff_eq_none])

/-- An object with a data property that holds a value. Its other properties are as before, but for
the length of an array, which may have grown. -/
structure Object.Receives (o o' : Object) (name : String) (v : Value) : Prop where
  shell : o.SameShell o'
  put : ∃ q, Slots.find? name o'.slots = some q ∧ q.isAccessor = false ∧ q.value = v
  others : ∀ n, n ≠ name → Slots.find? n o'.slots = Slots.find? n o.slots ∨
    n = "length" ∧ o.Grows o' name

namespace Object

variable {o : Object} {name : String}

lemma receives_define {q : Property} (v : Value) (hq : q.isAccessor = false) :
    o.Receives (o.define name { q with value := v }) name v :=
  ⟨sameShell_define .., ⟨_, (find?_define ..).trans (if_pos rfl), hq, rfl⟩,
    fun _ hn => .inl (find?_define_ne hn _)⟩

lemma arrayLength_define (h : name ≠ "length") (q : Property) :
    Heap.arrayLength (o.define name q) = Heap.arrayLength o := by
  unfold Heap.arrayLength
  rw [find?_define_ne (Ne.symm h)]

/-- Recording a length replaces the recorded one. -/
lemma find?_length_recordLength {q : Property} (v : Value)
    (hq : Slots.find? "length" o.slots = some q) :
    Slots.find? "length" (Heap.recordLength o v).slots = some { q with value := v } := by
  unfold Heap.recordLength
  rw [hq]
  exact (find?_define ..).trans (if_pos rfl)

/-- Recording a length that is not recorded does nothing. -/
lemma recordLength_none (v : Value) (hnone : Slots.find? "length" o.slots = none) :
    Heap.recordLength o v = o := by
  unfold Heap.recordLength
  rw [hnone]

lemma receives_extend (v : Value) : o.Receives (Heap.extend o name v) name v := by
  obtain ⟨hshell, -⟩ := installs_extend o name v
  have hdata : (Property.data v).isAccessor = false := rfl
  have hput : o.Receives (o.define name (.data v)) name v := receives_define (q := .data v) v hdata
  unfold Heap.extend at hshell ⊢
  dsimp only at hshell ⊢
  split_ifs at hshell ⊢ with harray
  · split at hshell
    · rename_i i hi
      have hname : name ≠ "length" := by
        rintro rfl
        rw [arrayIndex?_length] at hi
        cases hi
      split_ifs at hshell ⊢ with hgrows
      · refine ⟨hshell, ?_, fun n hn => ?_⟩
        · obtain ⟨q, hq, hacc, hvalue⟩ := hput.put
          exact ⟨q, (find?_recordLength _ _ hname).trans hq, hacc, hvalue⟩
        · by_cases hlength : n = "length"
          · subst hlength
            cases hq : Slots.find? "length" o.slots with
            | none =>
              have hnone := (find?_define_ne (o := o) hn (.data v)).trans hq
              rw [recordLength_none _ hnone, hnone]
              exact .inl rfl
            | some q =>
              have hsome := (find?_define_ne (o := o) hn (.data v)).trans hq
              rw [arrayLength_define hname] at hgrows
              exact .inr ⟨rfl, harray, i, q, hi, hgrows, hq, find?_length_recordLength _ hsome⟩
          · exact .inl ((find?_recordLength _ _ hlength).trans (find?_define_ne hn _))
      · exact hput
    · exact hput
  · exact hput

end Object

/-! ## Writes to properties -/

section

variable {serve : Service} {fuel : Nat} {o : Ref} {name : String} {s : State}

/-- A write to a constant is ignored. -/
lemma run_putProperty_constant {owner : Nat} {q : Property} (v : Value)
    (hfind : s.store.heap.find? o.id name = some (owner, q)) (hacc : q.isAccessor = false)
    (hconstant : q.readOnly = true) : (putProperty o name v).run serve fuel s = .done () s := by
  unfold putProperty
  simp only [run_bind, run_look, hfind, hacc, hconstant, Bool.false_eq_true, if_false, if_true,
    run_pure]

/-- A write to an accessor calls the setter, if there is one. -/
lemma run_putProperty_accessor {owner : Nat} {q : Property} (v : Value)
    (hfind : s.store.heap.find? o.id name = some (owner, q)) (hacc : q.isAccessor = true) :
    (putProperty o name v).run serve fuel s = (match q.setter.callable? with
      | some f => do let _ ← call f (Raw.object o) [v]
      | none => return : Action Unit).run serve fuel s := by
  unfold putProperty
  cases hsetter : q.setter.callable? <;>
    simp only [run_bind, run_look, hfind, hacc, if_true, hsetter]

/-- Putting a new property breaks the program down where nothing counts it. -/
lemma run_putOwn_receives (serve : Service) (fuel : Nat) (v : Value)
    (hnew : Slots.find? name (s.store.heap.get o.id).slots = none) :
    (putOwn o name v).run serve fuel s = if (s.store.heap.get o.id).LacksLength name
      then .stuck (.panic missingText) (s.extended o name v)
      else .done () (s.extended o name v) := by
  cases hcounts : Heap.counts (s.store.heap.get o.id) name with
  | false =>
    obtain ⟨harray, hindex, hlength⟩ := Heap.counts_eq_false_iff.1 hcounts
    rw [if_pos ⟨harray, Option.isSome_iff_ne_none.1 hindex, hlength, hnew⟩]
    exact run_putOwn_lost serve fuel v hcounts
  | true =>
    rw [if_neg]
    · exact run_putOwn serve fuel v hcounts
    · rintro ⟨harray, hindex, hlength, -⟩
      rw [Heap.counts_eq_false_iff.2 ⟨harray, Option.isSome_iff_ne_none.2 hindex, hlength⟩]
        at hcounts
      cases hcounts

/-- Other writes put the value into the object. -/
lemma run_putProperty_receives (serve : Service) (fuel : Nat) (v : Value)
    (hdata : ∀ found, s.store.heap.find? o.id name = some found →
      found.2.isAccessor = false ∧ found.2.readOnly = false)
    (hplain : ¬((s.store.heap.get o.id).cls = "Array" ∧ name = "length")) :
    ∃ g t, t = ⟨s.control, { s.store with heap := s.store.heap.update o.id g }⟩ ∧
      (s.store.heap.get o.id).Receives (g (s.store.heap.get o.id)) name v ∧
      (putProperty o name v).run serve fuel s = if (s.store.heap.get o.id).LacksLength name
        then .stuck (.panic missingText) t else .done () t := by
  unfold putProperty
  simp only [run_bind, run_look]
  cases hfind : s.store.heap.find? o.id name with
  | none =>
    have hnew : Slots.find? name (s.store.heap.get o.id).slots = none :=
      Heap.slot_eq_none fun p hp => by
        rw [hfind] at hp
        cases hp
    exact ⟨_, _, rfl, Object.receives_extend v, run_putOwn_receives serve fuel v hnew⟩
  | some found =>
    obtain ⟨owner, q⟩ := found
    obtain ⟨hacc, hro⟩ : q.isAccessor = false ∧ q.readOnly = false := hdata _ hfind
    simp only [hacc, hro, Bool.false_eq_true, if_false, run_bind, run_object]
    split
    · rename_i own howner hown
      obtain rfl := Heap.slot_of_find? hfind hown hro
      have hlength : ¬(s.store.heap.get o.id).LacksLength name := fun h => by
        rw [h.2.2.2] at hown
        cases hown
      simp only [if_neg hplain, if_neg hlength]
      exact ⟨_, _, rfl, Object.receives_define v hacc, run_change ..⟩
    · rename_i hother
      have hnew : Slots.find? name (s.store.heap.get o.id).slots = none :=
        Heap.slot_eq_none fun p hp => by
          rw [hfind] at hp
          cases hp
          exact hother q (beq_self_eq_true _)
      exact ⟨_, _, rfl, Object.receives_extend v, run_putOwn_receives serve fuel v hnew⟩

end

/-! ## The contract -/

/-- What has changed when a value of some label has been stored at a place. -/
structure Place.Stored (p : Place) (chosen : Label) (r : Rated) (s t : State) : Prop where
  control : t.control = s.control
  frames : t.store.frames = s.store.frames
  size : t.store.heap.size = s.store.heap.size
  holds : ∃ q, p.property? t = some q ∧ q.isAccessor = false ∧ q.value.raw = r.raw
  /-- The effective label is that of the data joined with that of the location. -/
  label : (p.labelIn t).order (r.label.join (p.labelIn s)) = .eq
  /-- It is not below any label that has had a part in the write. -/
  above : ∀ k ∈ [p.labelIn s, r.label, s.control.pc, chosen], k.leq (p.labelIn t) = true
  shells : ∀ id, (s.store.heap.get id).SameShell (t.store.heap.get id)
  /-- Other properties stay as they are, but for the length of an array. -/
  others : ∀ id name, ¬(id = (p.owner s).id ∧ name = p.name) →
    (t.store.heap.get id).own? name = (s.store.heap.get id).own? name ∨
      id = (p.owner s).id ∧ name = "length" ∧
        (s.store.heap.get id).Grows (t.store.heap.get id) p.name

/-- What a checked write to a bound place does. -/
structure Place.Contract (serve : Service) (fuel line : Nat) (p : Place) (o : Ref) (chosen : Label)
    (r : Rated) (declare : Bool) (s : State) : Prop where
  /-- A write that is forbidden is reported and changes nothing. -/
  forbidden : p.Forbids chosen r declare s → ∃ v t,
    (assign line p chosen r declare).run serve fuel s = .failed (.violation v) t ∧
      t.control = s.control ∧ t.store.heap = s.store.heap ∧ t.store.frames = s.store.frames
  /-- Only writes that are forbidden are reported, accessors apart. -/
  reported : p.HoldsData s → ∀ v t,
    (assign line p chosen r declare).run serve fuel s = .failed (.violation v) t →
      p.Forbids chosen r declare s
  /-- A write to an accessor that is not forbidden comes to what calling its setter comes to, which
  gets the value. -/
  accessor : ∀ q, p.property? s = some q → q.isAccessor = true → ¬p.Forbids chosen r declare s →
    ∃ u w, u.control = s.control ∧ u.store.heap = s.store.heap ∧ u.store.frames = s.store.frames ∧
      w.raw = r.raw ∧ (assign line p chosen r declare).run serve fuel s =
        match q.setter.callable? with
        | none => .done (r.raw.labeled r.label) u
        | some f => match serve (.call f (Raw.object o) [w]) u with
          | .done _ t => .done (r.raw.labeled r.label) t
          | .failed f t => .failed f t
          | .stuck w t => .stuck w t
  /-- A write to a constant that is not forbidden is ignored. -/
  constant : ∀ q, p.property? s = some q → q.isAccessor = false → q.readOnly = true →
    ¬p.Forbids chosen r declare s → ∃ t,
      (assign line p chosen r declare).run serve fuel s = .done (r.raw.labeled r.label) t ∧
        t.control = s.control ∧ t.store.heap = s.store.heap ∧ t.store.frames = s.store.frames
  /-- Other writes that are not forbidden are carried out. -/
  stored : p.Writable s → ¬p.Forbids chosen r declare s →
    ¬(s.store.heap.get o.id).LacksLength p.name → ∃ t,
      (assign line p chosen r declare).run serve fuel s = .done (r.raw.labeled r.label) t ∧
        p.Stored chosen r s t
  /-- The program breaks down when it is to count a new index of an array that has lost its
  length. -/
  lost : p.Writable s → ¬p.Forbids chosen r declare s →
    (s.store.heap.get o.id).LacksLength p.name → ∃ t,
      (assign line p chosen r declare).run serve fuel s = .stuck (.panic missingText) t

namespace Location

/-- What is stored at a location of a label is rated at the join of the data and the location,
when the context and the choice of the place are at or below the location. -/
lemma height_stored (loc : Location) {pc chosen : Label} (r : Rated)
    (hpc : pc.height ≤ loc.label.height) (hchosen : chosen.height ≤ loc.label.height)
    (hcell : loc.cell.height ≤ loc.label.height) :
    max r.label.height loc.cell.height ≤ (loc.stored pc chosen r).label.height ∧
      (loc.stored pc chosen r).label.height ≤ max r.label.height loc.label.height := by
  unfold stored Value.raiseAbove Rated.value
  split_ifs with horder hleq
  · rw [Value.height_wrap, Value.height_labeled]
    omega
  · simp only [Label.leq_iff, Label.height_join] at hleq
    omega
  · rw [Value.height_wrap, Value.height_wrap, Value.height_labeled]
    omega

end Location

section

variable {serve : Service} {fuel line : Nat} {p : Place} {o : Ref} {chosen : Label} {r : Rated}
  {declare : Bool} {s u : State}

lemma Passes.not_forbids (hbase : p.base = some o)
    (h : Passes serve fuel line p chosen r declare s u) : ¬p.Forbids chosen r declare s := by
  rw [← Place.refuses_iff hbase]
  rintro (hcontext | ⟨hestablished, hdata⟩)
  · exact Label.not_less_of_leq h.context hcontext
  · exact Label.not_less_of_leq (h.data hestablished) hdata

/-- A write that is not forbidden passes the checks. -/
lemma exists_passes (serve : Service) (fuel line : Nat) (hbase : p.base = some o)
    (h : ¬p.Forbids chosen r declare s) : ∃ u, Passes serve fuel line p chosen r declare s u := by
  obtain ⟨-, hrefuses⟩ | hpasses : _ ∨ ∃ u, Passes serve fuel line p chosen r declare s u :=
    run_assign ..
  · exact absurd ((Place.refuses_iff hbase).1 hrefuses) h
  · exact hpasses

/-- What is found for a place when it is written is what is found before the write. -/
lemma Passes.find? (h : Passes serve fuel line p chosen r declare s u) (hbase : p.base = some o) :
    u.store.heap.find? o.id p.name = s.store.heap.find? (p.owner s).id p.name := by
  rw [h.heap, Place.owner, hbase]
  rfl

/-- The effective label of a place after a value has been put there. -/
lemma Place.height_labelIn_receives {t : State} {g : Object → Object} {v : Value}
    (hcontrol : t.control = s.control)
    (hheap : t.store.heap = s.store.heap.update (p.owner s).id g)
    (hreceives : (s.store.heap.get (p.owner s).id).Receives (g (s.store.heap.get (p.owner s).id))
      p.name v)
    (hobject : (p.owner s).id < s.store.heap.size) :
    (∃ q, p.property? t = some q ∧ q.isAccessor = false ∧ q.value = v) ∧
      (p.labelIn t).height = max v.label.height (p.partitionIn s).height := by
  have howner : p.owner t = p.owner s := by simp only [owner, hcontrol]
  have hget : t.store.heap.get (p.owner t).id = g (s.store.heap.get (p.owner s).id) := by
    rw [hheap, howner, Heap.get_update_self hobject]
  obtain ⟨q, hq, hacc, hvalue⟩ := hreceives.put
  have hproperty : p.property? t = some q := by
    have hown : (t.store.heap.get (p.owner t).id).own? p.name = some q := by
      rw [hget]
      exact Object.own?_of_find? hq
    rw [property?, Heap.find?_of_own? hown]
    rfl
  have hpartition : p.partitionIn t = p.partitionIn s := by
    rw [partitionIn, hget]
    exact hreceives.shell.partition
  have hpeeked : q.peeked = v := by simp [Property.peeked, hacc, hvalue]
  refine ⟨⟨q, hproperty, hacc, hvalue⟩, ?_⟩
  unfold labelIn
  rw [hproperty, hpartition]
  dsimp only
  rw [Label.height_join, hpeeked]

/-- A write that passes the checks is carried out, also if the program then breaks down. -/
lemma Passes.stored (hbase : p.base = some o) (hobject : o.id < s.store.heap.size)
    (hwritable : p.Writable s) (h : Passes serve fuel line p chosen r declare s u) : ∃ t,
      (assign line p chosen r declare).run serve fuel s =
        (if (s.store.heap.get o.id).LacksLength p.name then .stuck (.panic missingText) t
          else .done (r.raw.labeled r.label) t) ∧
        p.Stored chosen r s t := by
  have howner : p.owner s = o := by simp [Place.owner, hbase]
  have hfound : ∀ found, u.store.heap.find? o.id p.name = some found →
      found.2.isAccessor = false ∧ found.2.readOnly = false := by
    intro found hfind
    rw [h.find? hbase] at hfind
    have hproperty : p.property? s = some found.2 := by rw [Place.property?, hfind]; rfl
    exact ⟨hwritable.data _ hproperty, hwritable.writable _ hproperty⟩
  have hplain : ¬((u.store.heap.get o.id).cls = "Array" ∧ p.name = "length") := by
    rw [h.heap, ← howner]
    exact hwritable.plain
  obtain ⟨g, t, ht, hreceives, hput⟩ := run_putProperty_receives serve fuel
    ((p.locationIn s).stored s.control.pc chosen r) hfound hplain
  have hwrite : p.write ((p.locationIn s).stored s.control.pc chosen r) =
      putProperty o p.name ((p.locationIn s).stored s.control.pc chosen r) := by
    rw [Place.write, hbase]
  rw [h.heap] at hreceives hput
  have hrun : (assign line p chosen r declare).run serve fuel s =
      if (s.store.heap.get o.id).LacksLength p.name then .stuck (.panic missingText) t
        else .done (r.raw.labeled r.label) t := by
    rw [h.run, run_bind, hwrite, hput]
    split_ifs <;> rfl
  have hheap : t.store.heap = s.store.heap.update (p.owner s).id g := by
    rw [ht, howner, ← h.heap]
  have hcontrol : t.control = s.control := by rw [ht, h.control]
  rw [← howner] at hreceives hobject
  obtain ⟨⟨q, hproperty, hacc, hvalue⟩, hheight⟩ :=
    Place.height_labelIn_receives hcontrol hheap hreceives hobject
  -- the labels that have passed the checks are at or below the location
  have hallowed := h.not_forbids hbase
  simp only [Place.Forbids, not_or, not_not, Label.leq_iff] at hallowed
  obtain ⟨hpc, hchosen, -⟩ := hallowed
  rw [← Place.label_locationIn hbase] at hpc hchosen
  have hcell := Place.cell_leq_labelIn (s := s) hbase
  have hparts := p.height_labelIn hbase s
  rw [← Place.label_locationIn hbase] at hcell hparts
  obtain ⟨hlow, hhigh⟩ := (p.locationIn s).height_stored r hpc hchosen hcell
  have hlabel : (p.labelIn t).height = max r.label.height (p.labelIn s).height := by
    rw [hheight, ← Place.label_locationIn (s := s) hbase]
    omega
  refine ⟨t, hrun, ?_⟩
  exact
    { control := hcontrol
      frames := by rw [ht, h.frames]
      size := by rw [hheap, Heap.size_update]
      holds := ⟨q, hproperty, hacc, by rw [hvalue, Location.stored_raw]⟩
      label := by rw [Label.order_eq_iff, Label.height_join, hlabel]
      above := by
        rw [Place.label_locationIn hbase] at hpc hchosen
        intro k hk
        simp only [List.mem_cons, List.not_mem_nil, or_false] at hk
        rw [Label.leq_iff, hlabel]
        rcases hk with rfl | rfl | rfl | rfl <;> omega
      shells := by
        intro id
        rw [hheap, Heap.get_update]
        split_ifs with hid
        · rw [hid.1]
          exact hreceives.shell
        · exact .refl _
      others := by
        intro id name hother
        rw [hheap, Heap.get_update]
        split_ifs with hid
        · obtain ⟨rfl, -⟩ := hid
          have hname : name ≠ p.name := fun hname => hother ⟨rfl, hname⟩
          rcases hreceives.others name hname with hsame | ⟨hlength, hgrows⟩
          · exact .inl (Object.own?_congr hreceives.shell.primitive hsame)
          · exact .inr ⟨rfl, hlength, hgrows⟩
        · exact .inl rfl }

/-- **The contract of the checked write.** What a write to a bound place does is determined by what
the place holds and by the labels of the location, the data, the context and the choice of the
place. -/
theorem checked_write_contract (serve : Service) (fuel line : Nat) {p : Place} {o : Ref}
    (hbase : p.base = some o) (chosen : Label) (r : Rated) (declare : Bool) {s : State}
    (hobject : o.id < s.store.heap.size) : p.Contract serve fuel line o chosen r declare s := by
  have hwrite : ∀ v, p.write v = putProperty o p.name v := by
    intro v
    rw [Place.write, hbase]
  -- in each case either the check forbids the write, or it passes in a state with the same heap
  refine ⟨fun hforbids => ?_, fun hdata v t hrun => ?_, fun q hq hacc hallowed => ?_,
    fun q hq hacc hconstant hallowed => ?_, fun hwritable hallowed hlength => ?_,
    fun hwritable hallowed hlost => ?_⟩
  · obtain ⟨⟨v, e, hrun⟩, -⟩ | ⟨u, hpasses⟩ :
        _ ∨ ∃ u, Passes serve fuel line p chosen r declare s u := run_assign ..
    · exact ⟨v, _, hrun, State.recorded_control .., State.recorded_heap ..,
        State.recorded_frames ..⟩
    · exact absurd hforbids (hpasses.not_forbids hbase)
  · by_contra hallowed
    obtain ⟨u, hpasses⟩ := exists_passes serve fuel line hbase hallowed
    have hfound : ∀ found, u.store.heap.find? o.id p.name = some found →
        found.2.isAccessor = false := by
      intro found hfind
      rw [hpasses.find? hbase] at hfind
      exact hdata _ (by rw [Place.property?, hfind]; rfl)
    rw [hpasses.run, run_bind, hwrite] at hrun
    rcases @run_putProperty_data serve fuel _ _ ((p.locationIn s).stored s.control.pc chosen r) _
        hfound with
      hput | ⟨_, _, hput⟩ | ⟨g, hput, -⟩ | ⟨-, hput⟩
    all_goals
      rw [hput] at hrun
      cases hrun
  · obtain ⟨u, hpasses⟩ := exists_passes serve fuel line hbase hallowed
    obtain ⟨found, hfind, rfl⟩ := Option.map_eq_some_iff.1 hq
    rw [← hpasses.find? hbase] at hfind
    refine ⟨u, (p.locationIn s).stored s.control.pc chosen r, hpasses.control, hpasses.heap,
      hpasses.frames, Location.stored_raw .., ?_⟩
    rw [hpasses.run, run_bind, hwrite, run_putProperty_accessor _ hfind hacc]
    cases found.2.setter.callable? with
    | none => rfl
    | some f =>
      simp only [run_bind, run_call]
      cases serve (.call f (Raw.object o) [(p.locationIn s).stored s.control.pc chosen r]) u <;> rfl
  · obtain ⟨u, hpasses⟩ := exists_passes serve fuel line hbase hallowed
    obtain ⟨found, hfind, rfl⟩ := Option.map_eq_some_iff.1 hq
    rw [← hpasses.find? hbase] at hfind
    refine ⟨u, ?_, hpasses.control, hpasses.heap, hpasses.frames⟩
    rw [hpasses.run, run_bind, hwrite, run_putProperty_constant _ hfind hacc hconstant]
    rfl
  · obtain ⟨u, hpasses⟩ := exists_passes serve fuel line hbase hallowed
    obtain ⟨t, hrun, hstored⟩ := hpasses.stored hbase hobject hwritable
    rw [if_neg hlength] at hrun
    exact ⟨t, hrun, hstored⟩
  · obtain ⟨u, hpasses⟩ := exists_passes serve fuel line hbase hallowed
    obtain ⟨t, hrun, -⟩ := hpasses.stored hbase hobject hwritable
    rw [if_pos hlost] at hrun
    exact ⟨t, hrun⟩

end

/-- The place of a name in a session. -/
def globalPlace (s : State) (name : String) : Place :=
  ⟨some ⟨s.control.realm.global, .plain⟩, name⟩

set_option maxRecDepth 100000 in
/-- A secret must not be written to a public location, and a public value can be written to the
location of a secret. -/
theorem checked_write_of_secret :
    secretSession.control.realm.global < secretSession.store.heap.size ∧
    (globalPlace secretSession "public").Contract (machine .none 50 50) 50 1
      ⟨secretSession.control.realm.global, .plain⟩ .none ⟨.bool true, ⟨2, "H"⟩⟩ false
      secretSession ∧
    (globalPlace secretSession "public").Forbids .none ⟨.bool true, ⟨2, "H"⟩⟩ false
      secretSession ∧
    (globalPlace secretSession "secret").Contract (machine .none 50 50) 50 1
      ⟨secretSession.control.realm.global, .plain⟩ .none ⟨.bool false, .none⟩ false
      secretSession ∧
    (globalPlace secretSession "secret").Writable secretSession ∧
    ¬(globalPlace secretSession "secret").Forbids .none ⟨.bool false, .none⟩ false
      secretSession := by
  obtain ⟨hobject, hforbids, hwritable, hallowed⟩ :
      secretSession.control.realm.global < secretSession.store.heap.size ∧
      (globalPlace secretSession "public").Forbids .none ⟨.bool true, ⟨2, "H"⟩⟩ false
        secretSession ∧
      (globalPlace secretSession "secret").Writable secretSession ∧
      ¬(globalPlace secretSession "secret").Forbids .none ⟨.bool false, .none⟩ false
        secretSession := by
    decide +kernel
  have hcontract : ∀ (s : State) (name : String) (r : Rated),
      s.control.realm.global < s.store.heap.size →
        (globalPlace s name).Contract (machine .none 50 50) 50 1
          ⟨s.control.realm.global, .plain⟩ .none r false s :=
    fun s name r hobject => checked_write_contract _ _ _ rfl _ _ _ hobject
  exact ⟨hobject, hcontract _ _ _ hobject, hforbids, hcontract _ _ _ hobject, hwritable, hallowed⟩

/-- A session with an object whose setter writes a secret to a public location. -/
def setterSession : State :=
  ((evaluate "var low = 0; var o = \x7bset a(v) \x7b low = label('H', v); \x7d\x7d;" "" 1).run
    (machine .none 50 50) 50 (Session.fresh .standard)).state

/-- The expression denotes a bound place, a checked write to which is not forbidden and is reported
all the same. -/
def reportsAllowed (e : Script.Expr Script.Span) (bound : Nat) (s : State) : Bool :=
  match e.action.run (machine .none bound bound) bound s with
  | .done (.place p chosen) u =>
    match (assign 1 p chosen ⟨.bool true, .none⟩ false).run (machine .none bound bound) bound u with
    | .failed (.violation _) _ =>
      p.base.isSome && !decide (p.Forbids chosen ⟨.bool true, .none⟩ false u)
    | _ => false
  | _ => false

set_option maxRecDepth 100000 in
/-- The labels do not forbid the write. It calls a setter, and the setter is reported. -/
theorem violation_of_setter : ∃ e p o chosen u v t, expression? "o.a" = some e ∧
    e.action.run (machine .none 50 50) 50 setterSession = .done (.place p chosen) u ∧
    p.base = some o ∧ ¬p.Forbids chosen ⟨.bool true, .none⟩ false u ∧
    (assign 1 p chosen ⟨.bool true, .none⟩ false).run (machine .none 50 50) 50 u =
      .failed (.violation v) t := by
  have hreports : (expression? "o.a").any (reportsAllowed · 50 setterSession) = true := by
    rw [setterSession, evaluate_ofList]
    decide +kernel
  cases he : expression? "o.a" with
  | none => rw [he] at hreports; cases hreports
  | some e =>
    rw [he, Option.any_some] at hreports
    unfold reportsAllowed at hreports
    split at hreports
    · rename_i p chosen u hplace
      split at hreports
      · rename_i v t hassign
        obtain ⟨hbase, hallowed⟩ := Bool.and_eq_true_iff.1 hreports
        obtain ⟨o, hbase⟩ := Option.isSome_iff_exists.1 hbase
        exact ⟨e, p, o, chosen, u, v, t, rfl, hplace, hbase, by simpa using hallowed, hassign⟩
      · cases hreports
    · cases hreports

end Clearance
