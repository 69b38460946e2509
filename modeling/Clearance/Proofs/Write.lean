/-
# The contract of the property write

An assignment to a property looks for the first property of the name along the prototypes
(`Heap.first?`), and unless this is an accessor, one of four things happens. A read-only property
stays as it is, and so does everything else. The length of an array is set, and the elements from
there on go (`Object.Resized`), or the value is no length and the assignment fails. In all other
cases the object holds the value afterwards, in the slot it had for the name or in a new one, and
nothing else changes but the length of an array that did not count the name yet (`Object.Written`).

Arrays are supposed to record a number that is above all their elements (`Object.Counts`). The
number may be any double.
-/
import Clearance.Proofs.Contract
import Clearance.Proofs.Double
import Clearance.Proofs.Tidy

namespace Clearance

open Clearance.Action

/-! ## Objects after a write -/

namespace Object

/-- An object that records a number as its length, which is above all its elements. -/
structure Counts (o : Object) : Prop where
  length : ∃ q x, Slots.find? "length" o.slots = some q ∧ q.value.raw = .number x
  above : ∀ name q i, Slots.find? name o.slots = some q → arrayIndex? name = some i →
    Decimal.ofNat i < Heap.arrayLength o

/-- If an array records a number, it can count any index. -/
lemma counts_of_counts {o : Object} (h : o.cls = "Array" → o.Counts) (name : String) :
    Heap.counts o name = true := by
  by_cases hcls : o.cls = "Array"
  · obtain ⟨q, -, hq, -⟩ := (h hcls).length
    exact Heap.counts_of_length name hq
  · exact Heap.counts_of_cls hcls name

/-- The name stands for an element of an array that its length does not count. -/
def Uncounted (o : Object) (name : String) (i : Nat) : Prop :=
  o.cls = "Array" ∧ arrayIndex? name = some i ∧ Decimal.ofNat i ≥ Heap.arrayLength o

instance (o : Object) (name : String) (i : Nat) : Decidable (o.Uncounted name i) :=
  inferInstanceAs (Decidable (_ ∧ _ ∧ _))

/-- The name stands for an element at or above a length that is there and can be deleted. -/
def Loose (o : Object) (length : Nat) (name : String) : Prop :=
  ∃ i ∈ arrayIndex? name, length ≤ i ∧ ∃ q ∈ Slots.find? name o.slots, q.permanent = false

instance (o : Object) (length : Nat) (name : String) : Decidable (o.Loose length name) :=
  inferInstanceAs (Decidable (∃ i ∈ arrayIndex? name, _))

/-- An object that holds a value under a name. A property that was there has kept its attributes and
its place, a new one has none and is the last one. -/
structure Written (o o' : Object) (name : String) (v : Value) : Prop where
  shell : o.SameShell o'
  put : Slots.find? name o'.slots = some (match o.own? name with
    | some q => { q with value := v }
    | none => .data v)
  keys : o'.keys = if o.hasOwn name then o.keys else o.keys ++ [name]
  /-- The length grows to count the element. -/
  counted : ∀ i, o.Uncounted name i → ∃ q, Slots.find? "length" o.slots = some q ∧
    Slots.find? "length" o'.slots = some { q with value := Raw.ofNat (i + 1) }
  /-- All other properties stay as they are. -/
  others : ∀ n, n ≠ name → (n = "length" → ∀ i, ¬o.Uncounted name i) →
    Slots.find? n o'.slots = Slots.find? n o.slots

/-- An array whose length has been set, under a label. -/
structure Resized (o o' : Object) (length : Nat) (k : Label) : Prop where
  shell : o.SameShell o'
  recorded : ∃ q, Slots.find? "length" o.slots = some q ∧
    Slots.find? "length" o'.slots = some { q with value := (Raw.ofNat length).labeled k }
  keys : o'.keys = o.keys.filter (¬o.Loose length ·)
  removed : ∀ n, o.Loose length n → Slots.find? n o'.slots = none
  /-- All other properties stay as they are. -/
  others : ∀ n, n ≠ "length" → ¬o.Loose length n → Slots.find? n o'.slots = Slots.find? n o.slots

variable {o : Object} {name : String}

lemma recordLength_eq {q : Property} (v : Value) (hq : Slots.find? "length" o.slots = some q) :
    Heap.recordLength o v = o.define "length" { q with value := v } := by
  unfold Heap.recordLength
  rw [hq]

/-! ### Writes to slots -/

/-- An element that is there is counted. -/
lemma Counts.not_uncounted (h : o.Counts) {q : Property} (hq : Slots.find? name o.slots = some q)
    (i : Nat) : ¬o.Uncounted name i := fun hi =>
  Decimal.not_ge_of_lt (h.above name q i hq hi.2.1) hi.2.2

lemma written_define {q : Property} (v : Value) (hq : Slots.find? name o.slots = some q)
    (hcounts : o.cls = "Array" → o.Counts) :
    o.Written (o.define name { q with value := v }) name v where
  shell := sameShell_define ..
  put := by rw [find?_define, if_pos rfl, own?_of_find? hq]
  keys := by
    rw [keys_define, hq, hasOwn, own?_of_find? hq]
  counted i hi := absurd hi ((hcounts hi.1).not_uncounted hq i)
  others _ hn _ := find?_define_ne hn _

lemma extend_of_uncounted {i : Nat} (v : Value) (hi : o.Uncounted name i) :
    Heap.extend o name v = Heap.recordLength (o.define name (.data v)) (Raw.ofNat (i + 1)) := by
  obtain ⟨hcls, hindex, hge⟩ := hi
  rw [← arrayLength_define (ne_length_of_element hindex) (.data v)] at hge
  have hcls' : (o.define name (.data v)).cls = "Array" := hcls
  unfold Heap.extend
  dsimp only
  rw [if_pos hcls', hindex]
  exact if_pos hge

lemma extend_of_counted (v : Value) (hi : ∀ i, ¬o.Uncounted name i) :
    Heap.extend o name v = o.define name (.data v) := by
  unfold Heap.extend
  dsimp only
  split_ifs with hcls
  · split
    · rename_i i hindex
      refine if_neg fun hge => hi i ⟨hcls, hindex, ?_⟩
      rwa [arrayLength_define (ne_length_of_element hindex)] at hge
    · rfl
  · rfl

/-- The slot of a new property is the last one. -/
lemma written_extend (v : Value) (hnone : o.own? name = none)
    (hcounts : o.cls = "Array" → o.Counts) : o.Written (Heap.extend o name v) name v := by
  have hslot : Slots.find? name o.slots = none := slot_of_own?_eq_none hnone
  have hkeys : (o.define name (.data v)).keys = o.keys ++ [name] := by
    rw [keys_define, hslot]
    rfl
  by_cases hi : ∃ i, o.Uncounted name i
  · obtain ⟨i, hi⟩ := hi
    have hname := ne_length_of_element hi.2.1
    obtain ⟨q, -, hq, -⟩ := (hcounts hi.1).length
    have hlength : Slots.find? "length" (o.define name (.data v)).slots = some q :=
      (find?_define_ne hname.symm _).trans hq
    refine ⟨sameShell_extend .., ?_, ?_, fun j hj => ⟨q, hq, ?_⟩, fun n hn hn' => ?_⟩
    all_goals rw [extend_of_uncounted v hi]
    · rw [find?_recordLength _ _ hname, find?_define, if_pos rfl, hnone]
    · rw [recordLength_eq _ hlength, keys_define, hlength, hasOwn, hnone]
      exact hkeys
    · obtain rfl := Option.some.inj (hi.2.1.symm.trans hj.2.1)
      exact find?_length_recordLength _ hlength
    · have hne : n ≠ "length" := fun h => hn' h i hi
      rw [find?_recordLength _ _ hne, find?_define_ne hn]
  · have hi := not_exists.1 hi
    rw [extend_of_counted v hi]
    refine ⟨sameShell_define .., ?_, ?_, fun i h => absurd h (hi i), fun n hn _ =>
      find?_define_ne hn _⟩
    · rw [find?_define, if_pos rfl, hnone]
    · rw [hkeys, hasOwn, hnone]
      rfl

/-- The value is in a slot of its own. -/
lemma Written.exists_slot {o' : Object} {v : Value} (h : o.Written o' name v)
    (hdata : ∀ q, o.own? name = some q → q.isAccessor = false) :
    ∃ q, Slots.find? name o'.slots = some q ∧ q.isAccessor = false ∧ q.value = v := by
  refine ⟨_, h.put, ?_⟩
  cases hq : o.own? name with
  | none => exact ⟨rfl, rfl⟩
  | some q => exact ⟨hdata q hq, rfl⟩

/-! ### Cutting arrays -/

lemma loose_iff {length : Nat} :
    o.Loose length name ↔ ∃ i q, arrayIndex? name = some i ∧ length ≤ i ∧
    Slots.find? name o.slots = some q ∧ q.permanent = false := by
  constructor
  · rintro ⟨i, hi, hle, q, hq, hperm⟩
    exact ⟨i, q, hi, hle, hq, hperm⟩
  · rintro ⟨i, q, hi, hle, hq, hperm⟩
    exact ⟨i, hi, hle, q, hq, hperm⟩

lemma loose_congr {o' : Object} {length : Nat}
    (h : Slots.find? name o'.slots = Slots.find? name o.slots) :
    o'.Loose length name ↔ o.Loose length name := by
  rw [Loose, Loose, h]

/-- One step of cutting removes the element if it can. -/
lemma slots_dropOne (o : Object) (length : Nat) (name : String) :
    (Heap.dropOne length o name).slots =
      if o.Loose length name then Slots.erase name o.slots else o.slots := by
  unfold Heap.dropOne
  split
  · rename_i i hi
    split_ifs with hle hloose hloose
    · obtain ⟨-, q, -, -, hq, hperm⟩ := loose_iff.1 hloose
      unfold delete
      rw [hq]
      dsimp only
      rw [if_neg (by simp [hperm])]
    · unfold delete
      cases hq : Slots.find? name o.slots with
      | none => rfl
      | some q =>
        have hperm : q.permanent = true := by
          by_contra hperm
          exact hloose (loose_iff.2 ⟨i, q, hi, hle, hq, by simpa using hperm⟩)
        dsimp only
        rw [if_pos hperm]
    · obtain ⟨j, -, hj, hlength, -, -⟩ := loose_iff.1 hloose
      obtain rfl := Option.some.inj (hi.symm.trans hj)
      exact absurd hlength hle
    · rfl
  · rename_i hi
    rw [if_neg]
    intro hloose
    obtain ⟨j, -, hj, -⟩ := loose_iff.1 hloose
    rw [hi] at hj
    cases hj

lemma find?_dropOne_ne {n : String} (hn : n ≠ name) (length : Nat) :
    Slots.find? n (Heap.dropOne length o name).slots = Slots.find? n o.slots := by
  rw [slots_dropOne]
  split_ifs
  · rw [Slots.find?_erase, if_neg hn]
  · rfl

/-- Cutting along a list of names removes the loose elements among them, by induction on the
list. -/
lemma slots_drop (length : Nat) (names : List String) (o : Object) :
    (names.foldl (Heap.dropOne length) o).slots =
      o.slots.filter fun slot => ¬(slot.1 ∈ names ∧ o.Loose length slot.1) := by
  induction names generalizing o with
  | nil => exact (List.filter_eq_self.2 fun _ _ => by simp).symm
  | cons first names ih =>
    have hrest : ∀ n, n ≠ first →
        ((Heap.dropOne length o first).Loose length n ↔ o.Loose length n) :=
      fun n hn => loose_congr (find?_dropOne_ne hn length)
    rw [List.foldl_cons, ih, slots_dropOne]
    split_ifs with hfirst
    · rw [Slots.erase_eq_filter, List.filter_filter]
      refine List.filter_congr fun slot _ => ?_
      by_cases hslot : slot.1 = first
      · simp [hslot, hfirst]
      · simp [hslot, hrest _ hslot]
    · have hsame : (Heap.dropOne length o first).slots = o.slots := by
        rw [slots_dropOne, if_neg hfirst]
      refine List.filter_congr fun slot _ => ?_
      have hloose : (Heap.dropOne length o first).Loose length slot.1 ↔ o.Loose length slot.1 :=
        loose_congr (congrArg (Slots.find? slot.1) hsame)
      by_cases hslot : slot.1 = first
      · rw [hslot] at hloose
        simp [hslot, hloose, hfirst]
      · simp [hslot, hloose]

/-- A cut array has lost its loose elements, and nothing else. -/
lemma slots_dropFrom (o : Object) (length : Nat) :
    (Heap.dropFrom o length).slots = o.slots.filter fun slot => ¬o.Loose length slot.1 := by
  rw [Heap.dropFrom_eq, slots_drop]
  refine List.filter_congr fun slot hslot => ?_
  have hname : slot.1 ∈ o.keys := List.mem_map_of_mem hslot
  simp [hname]

lemma resized_resize {q : Property} (length : Nat) (k : Label)
    (hq : Slots.find? "length" o.slots = some q) : o.Resized (Heap.resize o length k) length k := by
  have hfind : ∀ n, Slots.find? n (Heap.dropFrom o length).slots =
      if ¬o.Loose length n then Slots.find? n o.slots else none := by
    intro n
    rw [slots_dropFrom]
    exact (Slots.find?_filter (fun n => ¬o.Loose length n) n o.slots).trans (by simp)
  have hlength : Slots.find? "length" (Heap.dropFrom o length).slots = some q := by
    rw [find?_dropFrom o length arrayIndex?_length, hq]
  have hothers : ∀ n, n ≠ "length" → Slots.find? n (Heap.resize o length k).slots =
      if ¬o.Loose length n then Slots.find? n o.slots else none := fun n hn =>
    (find?_recordLength _ _ hn).trans (hfind n)
  refine ⟨sameShell_resize .., ⟨q, hq, find?_length_recordLength _ hlength⟩, ?_, fun n hn => ?_,
    fun n hn hloose => ?_⟩
  · rw [Heap.resize, recordLength_eq _ hlength, keys_define, hlength]
    change Slots.names (Heap.dropFrom o length).slots = _
    rw [slots_dropFrom]
    exact Slots.names_filter (fun n => ¬o.Loose length n) o.slots
  · obtain ⟨i, -, hi, -⟩ := loose_iff.1 hn
    rw [hothers n (ne_length_of_element hi), if_neg (not_not_intro hn)]
  · rw [hothers n hn, if_pos hloose]

end Object

/-! ## What is found -/

namespace Heap

variable {h : Heap} {id : Nat} {name : String}

/-- The first property of a name along the prototypes, and its owner. -/
def first? (h : Heap) (id : Nat) (name : String) : Option (Nat × Property) :=
  (h.chain id).findSome? fun j => ((h.get j).own? name).map (j, ·)

lemma findWithin_eq_findSome? (h : Heap) (name : String) (fuel id : Nat) :
    h.findWithin name fuel id =
      (h.chainWithin fuel id).findSome? fun j => ((h.get j).own? name).map (j, ·) := by
  induction fuel generalizing id with
  | zero => rfl
  | succ fuel ih =>
    unfold findWithin chainWithin
    dsimp only
    cases hown : (h.get id).own? name with
    | some p =>
      cases hproto : (h.get id).proto with
      | none => simp [hown]
      | some q =>
        dsimp only
        split_ifs <;> simp [hown]
    | none =>
      cases hproto : (h.get id).proto with
      | none => simp [hown]
      | some q =>
        dsimp only
        split_ifs <;> simp [hown, ih]

/-- Looking a property up finds the first one. -/
lemma find?_eq_first? (h : Heap) (id : Nat) (name : String) : h.find? id name = h.first? id name :=
  findWithin_eq_findSome? h name (id + 1) id

/-- The value converts to a number that can be the length of an array. -/
def Converts (h : Heap) (v : Value) (n : Nat) : Prop :=
  n < 2 ^ 32 ∧ (h.number v.raw == Decimal.ofNat n) = true

instance (h : Heap) (v : Value) (n : Nat) : Decidable (h.Converts v n) :=
  inferInstanceAs (Decidable (_ ∧ _))

/-- At most one object is different, and how. -/
structure Differs (h h' : Heap) (id : Nat) (R : Object → Object → Prop) : Prop where
  size : h'.size = h.size
  object : R (h.get id) (h'.get id)
  others : ∀ j, j ≠ id → h'.get j = h.get j

lemma differs_update {R : Object → Object → Prop} {f : Object → Object} (hid : id < h.size)
    (hf : R (h.get id) (f (h.get id))) : h.Differs (h.update id f) id R :=
  ⟨size_update .., by rwa [get_update_self hid], fun _ hj => get_update_ne hj f⟩

end Heap

/-! ## The contract -/

/-- What an assignment to a property does. The conditions exclude each other, and together they are
exhaustive: the property is read-only, it is the length of an array, or neither. -/
structure Ref.WriteContract (o : Ref) (name : String) (v : Value) (serve : Service) (fuel : Nat)
    (s : State) : Prop where
  /-- A read-only property stays as it is. -/
  ignored : (∃ found ∈ s.store.heap.first? o.id name, found.2.readOnly = true) →
    (putProperty o name v).run serve fuel s = .done () s
  /-- What is no length is not taken for one. -/
  refused : (∀ found ∈ s.store.heap.first? o.id name, found.2.readOnly = false) →
    (s.store.heap.get o.id).cls = "Array" → name = "length" →
    (∀ n, ¬s.store.heap.Converts v n) →
    (putProperty o name v).run serve fuel s =
      .failed (.fault "RangeError" "invalid array length") s
  /-- The length of an array is set. -/
  resized : (∀ found ∈ s.store.heap.first? o.id name, found.2.readOnly = false) →
    (s.store.heap.get o.id).cls = "Array" → name = "length" →
    ∀ n, s.store.heap.Converts v n → ∃ h',
      (putProperty o name v).run serve fuel s = .done () ⟨s.control, { s.store with heap := h' }⟩ ∧
        s.store.heap.Differs h' o.id fun obj obj' => obj.Resized obj' n v.label
  /-- In all other cases the object holds the value. -/
  written : (∀ found ∈ s.store.heap.first? o.id name, found.2.readOnly = false) →
    ¬((s.store.heap.get o.id).cls = "Array" ∧ name = "length") → ∃ h',
      (putProperty o name v).run serve fuel s = .done () ⟨s.control, { s.store with heap := h' }⟩ ∧
        (s.store.heap.Differs h' o.id fun obj obj' => obj.Written obj' name v) ∧
        (getProperty o name).run serve fuel ⟨s.control, { s.store with heap := h' }⟩ =
          .done v ⟨s.control, { s.store with heap := h' }⟩

section

variable {serve : Service} {fuel : Nat} {o : Ref} {name : String} {v : Value} {s : State}

/-- A value converts to one number at most, which is the one that is recorded. -/
lemma toNat_of_converts {n : Nat} (h : s.store.heap.Converts v n) :
    (Decimal.toWord (s.store.heap.number v.raw)).toNat = n := Decimal.toWord_of_beq h.1 h.2

lemma run_setLength_refused (h : ∀ n, ¬s.store.heap.Converts v n) :
    (setLength o v).run serve fuel s = .failed (.fault "RangeError" "invalid array length") s := by
  have hne : (Decimal.ofNat (Decimal.toWord (s.store.heap.number v.raw)).toNat !=
      s.store.heap.number v.raw) = true := by
    rw [bne, Bool.not_eq_true']
    by_contra heq
    exact h _ ⟨UInt32.toNat_lt _, Decimal.beq_symm (by simpa using heq)⟩
  unfold setLength
  simp only [run_bind, run_look, hne, if_true]
  rfl

lemma run_setLength_converts {n : Nat} (h : s.store.heap.Converts v n) :
    (setLength o v).run serve fuel s = .done () ⟨s.control,
      { s.store with heap := s.store.heap.update o.id (Heap.resize · n v.label) }⟩ := by
  have hword := toNat_of_converts h
  have heq : (Decimal.ofNat n != s.store.heap.number v.raw) = false := by
    rw [bne, Decimal.beq_symm h.2]
    rfl
  unfold setLength
  simp only [run_bind, run_look, hword, heq, Bool.false_eq_true, if_false]
  exact run_change ..

/-- An assignment to an own slot that takes it. -/
lemma run_putProperty_slot {q : Property}
    (hq : Slots.find? name (s.store.heap.get o.id).slots = some q) (hacc : q.isAccessor = false)
    (hro : q.readOnly = false) : (putProperty o name v).run serve fuel s =
      (if (s.store.heap.get o.id).cls = "Array" ∧ name = "length" then setLength o v
        else change o.id (·.define name { q with value := v })).run serve fuel s := by
  have hfind := Heap.find?_of_own? (Object.own?_of_find? hq)
  unfold putProperty
  simp only [run_bind, run_look, hfind, hacc, hro, Bool.false_eq_true, if_false, run_object, hq,
    beq_self_eq_true]

/-- An assignment to a property that the object does not own. -/
lemma run_putProperty_new (hnone : (s.store.heap.get o.id).own? name = none)
    (hcounts : (s.store.heap.get o.id).cls = "Array" → (s.store.heap.get o.id).Counts)
    (hdata : ∀ found ∈ s.store.heap.first? o.id name,
      found.2.isAccessor = false ∧ found.2.readOnly = false) :
    (putProperty o name v).run serve fuel s = .done () ⟨s.control,
      { s.store with heap := s.store.heap.update o.id (Heap.extend · name v) }⟩ := by
  have hput := run_putOwn serve fuel v (Object.counts_of_counts hcounts name)
  have hslot : Slots.find? name (s.store.heap.get o.id).slots = none :=
    Object.slot_of_own?_eq_none hnone
  rw [← Heap.find?_eq_first?] at hdata
  unfold putProperty
  simp only [run_bind, run_look]
  cases hfind : s.store.heap.find? o.id name with
  | none => exact hput
  | some found =>
    obtain ⟨hacc, hro⟩ := hdata found hfind
    simp only [hacc, hro, Bool.false_eq_true, if_false, run_bind, run_object, hslot]
    cases found.1 == o.id <;> exact hput

/-- An assignment that is neither ignored nor sets the length of an array. -/
lemma run_putProperty_written (serve : Service) (fuel : Nat) (v : Value)
    (hcounts : (s.store.heap.get o.id).cls = "Array" → (s.store.heap.get o.id).Counts)
    (hdata : ∀ found ∈ s.store.heap.first? o.id name,
      found.2.isAccessor = false ∧ found.2.readOnly = false)
    (hplain : ¬((s.store.heap.get o.id).cls = "Array" ∧ name = "length")) :
    ∃ f, (putProperty o name v).run serve fuel s =
        .done () ⟨s.control, { s.store with heap := s.store.heap.update o.id f }⟩ ∧
      (s.store.heap.get o.id).Written (f (s.store.heap.get o.id)) name v := by
  cases hown : (s.store.heap.get o.id).own? name with
  | none => exact ⟨_, run_putProperty_new hown hcounts hdata, Object.written_extend v hown hcounts⟩
  | some q =>
    have hfirst : (o.id, q) ∈ s.store.heap.first? o.id name := by
      rw [← Heap.find?_eq_first?]
      exact Heap.find?_of_own? hown
    obtain ⟨hacc, hro⟩ := hdata _ hfirst
    -- the characters of a text are read-only, so this is a slot
    have hq := Object.find?_of_own? hown hro
    refine ⟨(·.define name { q with value := v }), ?_, Object.written_define v hq hcounts⟩
    rw [run_putProperty_slot hq hacc hro, if_neg hplain]
    exact run_change ..

lemma run_getProperty_slot {q : Property}
    (hq : Slots.find? name (s.store.heap.get o.id).slots = some q) (hacc : q.isAccessor = false) :
    (getProperty o name).run serve fuel s = .done q.value s := by
  have hfind := Heap.find?_of_own? (Object.own?_of_find? hq)
  unfold getProperty
  simp only [run_bind, run_look, hfind, hacc, Bool.false_eq_true, if_false, run_pure]

end

/-- The contract of the property write: of all objects, names and values, if no accessor answers for
the name. -/
theorem property_write_contract (serve : Service) (fuel : Nat) {o : Ref} {name : String} (v : Value)
    {s : State} (hallocated : o.id < s.store.heap.size)
    (hcounts : ∀ id, (s.store.heap.get id).cls = "Array" → (s.store.heap.get id).Counts)
    (hdata : ∀ found ∈ s.store.heap.first? o.id name, found.2.isAccessor = false) :
    o.WriteContract name v serve fuel s := by
  -- an own slot that is not read-only is the first property
  have hslot : ∀ q, Slots.find? name (s.store.heap.get o.id).slots = some q →
      (o.id, q) ∈ s.store.heap.first? o.id name := fun q hq => by
    rw [← Heap.find?_eq_first?]
    exact Heap.find?_of_own? (Object.own?_of_find? hq)
  refine ⟨?_, fun hro hcls hname hnot => ?_, fun hro hcls hname n hn => ?_, fun hro hplain => ?_⟩
  · rintro ⟨⟨owner, q⟩, hfirst, hro⟩
    have hacc := hdata _ hfirst
    rw [← Heap.find?_eq_first?] at hfirst
    exact run_putProperty_constant v hfirst hacc hro
  · subst hname
    obtain ⟨q, -, hq, -⟩ := (hcounts _ hcls).length
    rw [run_putProperty_slot hq (hdata _ (hslot q hq)) (hro _ (hslot q hq)), if_pos ⟨hcls, rfl⟩]
    exact run_setLength_refused hnot
  · subst hname
    obtain ⟨q, -, hq, -⟩ := (hcounts _ hcls).length
    refine ⟨_, ?_, Heap.differs_update (f := (Heap.resize · n v.label)) hallocated
      (Object.resized_resize n v.label hq)⟩
    rw [run_putProperty_slot hq (hdata _ (hslot q hq)) (hro _ (hslot q hq)), if_pos ⟨hcls, rfl⟩]
    exact run_setLength_converts hn
  · obtain ⟨f, hput, hwritten⟩ := run_putProperty_written serve fuel v (hcounts o.id)
      (fun found hfound => ⟨hdata found hfound, hro found hfound⟩) hplain
    have hget := Heap.get_update_self hallocated f
    obtain ⟨q, hq, hacc, hvalue⟩ := hwritten.exists_slot fun q hq => hdata (o.id, q) <| by
      rw [← Heap.find?_eq_first?]
      exact Heap.find?_of_own? hq
    refine ⟨_, hput, Heap.differs_update hallocated hwritten, ?_⟩
    rw [← hget] at hq
    rw [run_getProperty_slot hq hacc, hvalue]

/-- An array of three elements, of which the second is absent. -/
def holedArray : Object := Heap.arrayOf none .none [Raw.ofNat 1, Raw.absent, Raw.ofNat 3]

lemma counts_holedArray : holedArray.Counts := by
  have helement : ∀ slot ∈ holedArray.slots, ∀ i ∈ arrayIndex? slot.1,
      Decimal.ofNat i < Heap.arrayLength holedArray := by decide +kernel
  exact ⟨⟨_, _, rfl, rfl⟩, fun name q i hq hi => helement _ (Slots.mem_of_find? hq) i hi⟩

/-- A session whose heap has one object. -/
def holdingSession (o : Object) : State :=
  ⟨(Session.fresh .standard).control, { (Session.fresh .standard).store with heap := #[o] }⟩

/-- The array grows to count a sixth element, and it can be cut to one. -/
theorem holed_array_written :
    (⟨0, .plain⟩ : Ref).WriteContract "5" (Raw.ofNat 9) (machine .none 50 50) 50
        (holdingSession holedArray) ∧
      holedArray.Uncounted "5" 5 ∧
      (⟨0, .plain⟩ : Ref).WriteContract "length" (Raw.ofNat 1) (machine .none 50 50) 50
        (holdingSession holedArray) ∧
      (holdingSession holedArray).store.heap.Converts (Raw.ofNat 1) 1 ∧ holedArray.Loose 1 "2" ∧
      ¬holedArray.Loose 1 "0" := by
  have hcounts : ∀ id, ((holdingSession holedArray).store.heap.get id).cls = "Array" →
      ((holdingSession holedArray).store.heap.get id).Counts := by
    intro id hcls
    rcases id with _ | id
    · exact counts_holedArray
    · exact absurd (show "Object" = "Array" from hcls) (by decide)
  have hcontract : ∀ name v, (∀ found ∈ (holdingSession holedArray).store.heap.first? 0 name,
      found.2.isAccessor = false) → (⟨0, .plain⟩ : Ref).WriteContract name v
        (machine .none 50 50) 50
        (holdingSession holedArray) :=
    fun name v hdata => property_write_contract _ _ v (by decide) hcounts hdata
  exact ⟨hcontract _ _ (by decide +kernel), by decide +kernel, hcontract _ _ (by decide +kernel),
    by decide +kernel, by decide +kernel, by decide +kernel⟩

end Clearance
