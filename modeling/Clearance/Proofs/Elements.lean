/-
# The elements of an array

An array of plain data stands for a list of elements, some of which may be holes. `Object.Lists`
reads the elements as a function of the index, which is `none` at a hole and from the length on, so
that a step on one element is an update of the function at one point. The steps of the methods that
change arrays are described in this way: storing, deleting and moving an element, and setting the
length. None of them changes anything else, of the array or of the heap (`Heap.Relists`).

A store looks for a property of the name along the prototypes first. Setters and constants that are
inherited would get in its way, so it is supposed that there are none (`Heap.Inherits`). A load of a
hole finds what is inherited, so for loads it is supposed that nothing is.
-/
import Clearance.Proofs.Index
import Clearance.Proofs.Names
import Clearance.Library.Array

namespace Clearance

open Clearance.Action Clearance.Library

/-- Data that can be assigned. -/
structure Property.Plain (p : Property) : Prop where
  data : p.isAccessor = false
  writable : p.readOnly = false

/-! ## Arrays -/

namespace Object

/-- An array of plain data, its length and its elements. -/
structure Lists (o : Object) (n : Nat) (f : Nat → Option Value) : Prop where
  cls : o.cls = "Array"
  unwrapped : o.primitive = none
  length : ∃ q, Slots.find? "length" o.slots = some q ∧ q.Plain ∧ q.value.raw = Raw.ofNat n
  plain : ∀ i < maxLength, ∀ q, Slots.find? (indexName i) o.slots = some q →
    q.Plain ∧ q.permanent = false
  elements : ∀ i < maxLength, (Slots.find? (indexName i) o.slots).map (·.value) = f i
  bound : n ≤ maxLength
  /-- There are no elements from the length on. -/
  above : ∀ i, n ≤ i → f i = none

/-- An array of plain data with the elements of a list. -/
def Holds (o : Object) (xs : List (Option Value)) : Prop := o.Lists xs.length fun i => xs[i]?.join

/-- Two arrays that differ in their elements and in the value of the length only. -/
structure SameRest (o o' : Object) : Prop where
  shell : o.SameShell o'
  length : ∃ q v, Slots.find? "length" o.slots = some q ∧
    Slots.find? "length" o'.slots = some { q with value := v }
  others : ∀ name, arrayIndex? name = none → name ≠ "length" →
    Slots.find? name o'.slots = Slots.find? name o.slots
  /-- The names that are no indices are in the same order. -/
  order : o'.keys.filter (fun name => (arrayIndex? name).isNone) =
    o.keys.filter fun name => (arrayIndex? name).isNone

lemma SameRest.trans {o o' o'' : Object} (h : o.SameRest o') (h' : o'.SameRest o'') :
    o.SameRest o'' := by
  refine ⟨h.shell.trans h'.shell, ?_, fun name hindex hname =>
    (h'.others name hindex hname).trans (h.others name hindex hname), h'.order.trans h.order⟩
  obtain ⟨q, v, hq, hq'⟩ := h.length
  obtain ⟨q', v', hq'', hv'⟩ := h'.length
  obtain rfl := Option.some.inj (hq'.symm.trans hq'')
  exact ⟨q, v', hq, hv'⟩

variable {o o' : Object} {n m i : Nat} {f : Nat → Option Value} {v : Value}

lemma Lists.sameRest (h : o.Lists n f) : o.SameRest o := by
  obtain ⟨q, hq, -⟩ := h.length
  exact ⟨.refl o, ⟨q, q.value, hq, hq⟩, fun _ _ _ => rfl, rfl⟩

namespace Lists

lemma lt_of_some (h : o.Lists n f) (hi : f i = some v) : i < n := by
  by_contra hge
  rw [h.above i (Nat.le_of_not_lt hge)] at hi
  cases hi

lemma lt_of_find? (h : o.Lists n f) {q : Property} (hi : i < maxLength)
    (hq : Slots.find? (indexName i) o.slots = some q) : i < n := by
  have helement := h.elements i hi
  rw [hq] at helement
  exact h.lt_of_some helement.symm

lemma arrayLength (h : o.Lists n f) : Heap.arrayLength o = n.toUInt64.toFloat := by
  obtain ⟨q, hq, -, hraw⟩ := h.length
  unfold Heap.arrayLength
  rw [hq]
  dsimp only
  rw [hraw]
  rfl

lemma counts (h : o.Lists n f) : o.Counts := by
  refine ⟨?_, fun name q i hq hi => ?_⟩
  · obtain ⟨q, hq, -, hraw⟩ := h.length
    exact ⟨q, _, hq, hraw⟩
  · obtain ⟨rfl, hlt⟩ := arrayIndex?_eq_some_iff.1 hi
    have hin := h.lt_of_find? hlt hq
    rw [h.arrayLength, ofNat_eq_toFloat (Nat.le_of_lt hlt)]
    exact (toFloat_lt_iff (Nat.lt_trans hlt (by decide))
      (Nat.lt_of_le_of_lt h.bound (by decide))).2 hin

lemma uncounted_iff (h : o.Lists n f) (hi : i < maxLength) {j : Nat} :
    o.Uncounted (indexName i) j ↔ j = i ∧ n ≤ i := by
  have hranks : Decimal.ofNat i ≥ Heap.arrayLength o ↔ n ≤ i := by
    rw [h.arrayLength, ofNat_eq_toFloat (Nat.le_of_lt hi)]
    exact toFloat_le_iff (Nat.lt_of_le_of_lt h.bound (by decide)) (Nat.lt_trans hi (by decide))
  unfold Uncounted
  rw [arrayIndex?_indexName hi, Option.some.injEq]
  constructor
  · rintro ⟨-, rfl, hge⟩
    exact ⟨rfl, hranks.1 hge⟩
  · rintro ⟨rfl, hle⟩
    exact ⟨h.cls, rfl, hranks.2 hle⟩

/-- There is an object. -/
lemma lt_size {h : Heap} {id : Nat} (hl : (h.get id).Lists n f) : id < h.size := by
  by_contra hge
  have hcls := hl.cls
  rw [Heap.get_of_size_le (Nat.le_of_not_lt hge)] at hcls
  exact absurd hcls (by decide)

lemma own?_eq (h : o.Lists n f) (name : String) : o.own? name = Slots.find? name o.slots :=
  own?_of_primitive h.unwrapped name

/-! ### Steps -/

/-- Storing an element. The length grows to count it. -/
lemma written (h : o.Lists n f) (hi : i < maxLength) (hw : o.Written o' (indexName i) v) :
    o'.Lists (max n (i + 1)) (Function.update f i (some v)) := by
  have hothers : ∀ j < maxLength, j ≠ i →
      Slots.find? (indexName j) o'.slots = Slots.find? (indexName j) o.slots := fun j hj hne =>
    hw.others _ (fun heq => hne (indexName_injective heq)) fun heq =>
      absurd heq (ne_length_of_element (arrayIndex?_indexName hj))
  have hput := hw.put
  rw [h.own?_eq] at hput
  refine ⟨hw.shell.cls.trans h.cls, hw.shell.primitive.trans h.unwrapped, ?_, fun j hj q hq => ?_,
    fun j hj => ?_, max_le h.bound hi, fun j hj => ?_⟩
  · obtain ⟨q, hq, hplain, hraw⟩ := h.length
    rcases Nat.lt_or_ge i n with hlt | hge
    · rw [max_eq_left hlt, hw.others "length" (ne_length_of_element (arrayIndex?_indexName hi)).symm
        fun _ j hj => absurd ((h.uncounted_iff hi).1 hj).2 (Nat.not_le_of_lt hlt)]
      exact ⟨q, hq, hplain, hraw⟩
    · obtain ⟨q', hq', hgrown⟩ := hw.counted i ((h.uncounted_iff hi).2 ⟨rfl, hge⟩)
      obtain rfl := Option.some.inj (hq.symm.trans hq')
      rw [max_eq_right (by omega)]
      exact ⟨_, hgrown, ⟨hplain.data, hplain.writable⟩, rfl⟩
  · by_cases hji : j = i
    · subst hji
      rw [hput] at hq
      obtain rfl := Option.some.inj hq
      cases hold : Slots.find? (indexName j) o.slots with
      | none => exact ⟨⟨rfl, rfl⟩, rfl⟩
      | some q =>
        obtain ⟨hplain, hperm⟩ := h.plain j hj q hold
        exact ⟨⟨hplain.data, hplain.writable⟩, hperm⟩
    · rw [hothers j hj hji] at hq
      exact h.plain j hj q hq
  · by_cases hji : j = i
    · subst hji
      rw [hput, Function.update_self]
      cases Slots.find? (indexName j) o.slots <;> rfl
    · rw [hothers j hj hji, Function.update_of_ne hji]
      exact h.elements j hj
  · have hji : j ≠ i := by omega
    rw [Function.update_of_ne hji]
    exact h.above j (by omega)

lemma sameRest_of_written (h : o.Lists n f) (hi : i < maxLength)
    (hw : o.Written o' (indexName i) v) : o.SameRest o' := by
  have hindex := arrayIndex?_indexName hi
  refine ⟨hw.shell, ?_, fun name hname hlength => ?_, ?_⟩
  · obtain ⟨q, hq, -⟩ := h.length
    by_cases hgrows : ∃ j, o.Uncounted (indexName i) j
    · obtain ⟨j, hj⟩ := hgrows
      obtain ⟨q', hq', hgrown⟩ := hw.counted j hj
      exact ⟨q', _, hq', hgrown⟩
    · refine ⟨q, q.value, hq, ?_⟩
      rw [hw.others "length" (ne_length_of_element hindex).symm fun _ => not_exists.1 hgrows, hq]
  · refine hw.others name ?_ fun heq => absurd heq hlength
    rintro rfl
    rw [hindex] at hname
    cases hname
  · rw [hw.keys]
    split_ifs
    · rfl
    · simp [List.filter_append, hindex]

/-- Deleting an element leaves a hole. -/
lemma delete (h : o.Lists n f) (hi : i < maxLength) :
    (o.delete (indexName i)).2.Lists n (Function.update f i none) := by
  have hshell := sameShell_delete o (indexName i)
  have hlength : "length" ≠ indexName i := (ne_length_of_element (arrayIndex?_indexName hi)).symm
  refine ⟨hshell.cls.trans h.cls, hshell.primitive.trans h.unwrapped, ?_, fun j hj q hq =>
    h.plain j hj q (find?_of_delete hq), fun j hj => ?_, h.bound, fun j hj => ?_⟩
  · rw [find?_delete_ne o hlength]
    exact h.length
  · by_cases hji : j = i
    · subst hji
      rw [find?_delete_self fun q hq => (h.plain j hj q hq).2, Function.update_self]
      rfl
    · rw [find?_delete_ne o fun heq => hji (indexName_injective heq), Function.update_of_ne hji]
      exact h.elements j hj
  · rw [Function.update_apply, h.above j hj, ite_self]

lemma sameRest_delete (h : o.Lists n f) (hi : i < maxLength) :
    o.SameRest (o.delete (indexName i)).2 := by
  have hindex := arrayIndex?_indexName hi
  refine ⟨sameShell_delete o _, ?_, fun name hname _ => find?_delete_ne o ?_, ?_⟩
  · obtain ⟨q, hq, -⟩ := h.length
    rw [find?_delete_ne o (ne_length_of_element hindex).symm]
    exact ⟨q, q.value, hq, hq⟩
  · rintro rfl
    rw [hindex] at hname
    cases hname
  · unfold Object.delete
    split
    · rfl
    · split_ifs
      · rfl
      · change (Slots.names (Slots.erase (indexName i) o.slots)).filter _ = _
        rw [Slots.erase_eq_filter, Slots.names_filter (fun name => name ≠ indexName i),
          List.filter_filter]
        refine List.filter_congr fun name _ => ?_
        by_cases hname : name = indexName i
        · simp [hname, hindex]
        · simp [hname]

lemma loose_iff (h : o.Lists n f) (hi : i < maxLength) :
    o.Loose m (indexName i) ↔ m ≤ i ∧ (f i).isSome := by
  have helement := h.elements i hi
  rw [Object.loose_iff, ← helement]
  constructor
  · rintro ⟨j, q, hj, hle, hq, -⟩
    rw [arrayIndex?_indexName hi] at hj
    obtain rfl := Option.some.inj hj
    exact ⟨hle, by rw [hq]; rfl⟩
  · rintro ⟨hle, hsome⟩
    cases hq : Slots.find? (indexName i) o.slots with
    | none => rw [hq] at hsome; cases hsome
    | some q => exact ⟨i, q, arrayIndex?_indexName hi, hle, rfl, (h.plain i hi q hq).2⟩

/-- Setting the length cuts the elements off that are not below it. -/
lemma resized (h : o.Lists n f) (hm : m ≤ maxLength) {k : Label} (hr : o.Resized o' m k) :
    o'.Lists m (fun j => if j < m then f j else none) := by
  have hslot : ∀ j < maxLength, Slots.find? (indexName j) o'.slots =
      if j < m then Slots.find? (indexName j) o.slots else none := fun j hj => by
    have hlength := ne_length_of_element (arrayIndex?_indexName hj)
    have hloose := h.loose_iff (m := m) hj
    split_ifs with hlt
    · exact hr.others _ hlength fun hl => absurd (hloose.1 hl).1 (Nat.not_le_of_lt hlt)
    · by_cases hl : o.Loose m (indexName j)
      · exact hr.removed _ hl
      · rw [hr.others _ hlength hl]
        have hnone : f j = none := by
          simpa [Nat.le_of_not_lt hlt] using (not_congr hloose).1 hl
        rw [← h.elements j hj] at hnone
        exact Option.map_eq_none_iff.1 hnone
  refine ⟨hr.shell.cls.trans h.cls, hr.shell.primitive.trans h.unwrapped, ?_, fun j hj q hq => ?_,
    fun j hj => ?_, hm, fun j hj => if_neg (Nat.not_lt_of_le hj)⟩
  · obtain ⟨q, hq, hplain, -⟩ := h.length
    obtain ⟨q', hq', hset⟩ := hr.recorded
    obtain rfl := Option.some.inj (hq.symm.trans hq')
    exact ⟨_, hset, ⟨hplain.data, hplain.writable⟩, Value.wrap_raw ..⟩
  · rw [hslot j hj] at hq
    split_ifs at hq
    exact h.plain j hj q hq
  · rw [hslot j hj, ← h.elements j hj]
    split_ifs <;> rfl

lemma sameRest_of_resized {k : Label} (hr : o.Resized o' m k) : o.SameRest o' := by
  have hindex : ∀ {name}, o.Loose m name → arrayIndex? name ≠ none := fun hl hnone => by
    obtain ⟨j, -, hj, -⟩ := Object.loose_iff.1 hl
    rw [hnone] at hj
    cases hj
  obtain ⟨q, hq, hq'⟩ := hr.recorded
  refine ⟨hr.shell, ⟨q, _, hq, hq'⟩, fun name hname hlength =>
    hr.others name hlength fun hl => hindex hl hname, ?_⟩
  rw [hr.keys, List.filter_filter]
  refine List.filter_congr fun name _ => ?_
  by_cases hl : o.Loose m name
  · simp [Option.isNone_iff_eq_none, hindex hl]
  · simp [hl]

end Lists

end Object

/-! ## New arrays -/

/-- What a value is as an element of a new array: no value at all is a hole. -/
def Value.element? (v : Value) : Option Value :=
  if v.raw.isAbsent && !v.isLabeled then none else some v

namespace Heap

/-- The slots of the elements of a new array, from an index on. -/
lemma find?_elements (elements : List Value) (k i : Nat) :
    (Slots.find? (indexName i) ((elements.zipIdx k).filterMap fun (v, i) =>
      if v.raw.isAbsent && !v.isLabeled then none else some (indexName i, Property.data v))) =
      if k ≤ i then (elements[i - k]?.bind Value.element?).map .data else none := by
  induction elements generalizing k with
  | nil => simp [Slots.find?]
  | cons v vs ih =>
    have hrest : k ≠ i → (if k + 1 ≤ i then (vs[i - (k + 1)]?.bind Value.element?).map Property.data
        else none) = if k ≤ i then ((v :: vs)[i - k]?.bind Value.element?).map .data else none := by
      intro hne
      by_cases hle : k + 1 ≤ i
      · rw [if_pos hle, if_pos (by omega), show i - k = i - (k + 1) + 1 by omega,
          List.getElem?_cons_succ]
      · rw [if_neg hle, if_neg (by omega)]
    rw [List.zipIdx_cons, List.filterMap_cons]
    by_cases hne : k = i
    · subst hne
      rw [if_pos (Nat.le_refl k), Nat.sub_self, List.getElem?_cons_zero, Option.bind_some,
        Value.element?]
      dsimp only
      split_ifs
      · rw [ih, if_neg (by omega)]
        rfl
      · exact if_pos rfl
    · rw [← hrest hne, ← ih]
      dsimp only
      split_ifs
      · rfl
      · exact if_neg fun heq => hne (indexName_injective heq)

/-- The slots of a new array. -/
lemma find?_arrayOf (proto : Option Nat) (partition : Label) (elements : List Value) {i : Nat}
    (hi : i < maxLength) : Slots.find? (indexName i) (arrayOf proto partition elements).slots =
      (elements[i]?.bind Value.element?).map .data := by
  refine (if_neg (Object.ne_length_of_element (arrayIndex?_indexName hi)).symm).trans ?_
  rw [find?_elements, if_pos (Nat.zero_le i), Nat.sub_zero]

/-- A new array holds its elements. -/
lemma holds_arrayOf (proto : Option Nat) (partition : Label) {elements : List Value}
    (hlength : elements.length ≤ maxLength) :
    (arrayOf proto partition elements).Holds (elements.map Value.element?) := by
  refine ⟨rfl, rfl, ⟨_, rfl, ⟨rfl, rfl⟩, ?_⟩, fun i hi q hq => ?_, fun i hi => ?_, ?_,
    fun i hi => ?_⟩
  · rw [List.length_map]
    rfl
  · rw [find?_arrayOf _ _ _ hi] at hq
    obtain ⟨v, -, rfl⟩ := Option.map_eq_some_iff.1 hq
    exact ⟨⟨rfl, rfl⟩, rfl⟩
  · rw [find?_arrayOf _ _ _ hi, List.getElem?_map, Option.map_map]
    cases elements[i]? with
    | none => rfl
    | some v => cases hv : v.element? <;> simp [hv, Property.data]
  · rwa [List.length_map]
  · rw [List.getElem?_eq_none hi]
    rfl

end Heap

/-! ## Heaps -/

namespace Heap

/-- What an object inherits under the names of indices. -/
def Inherits (h : Heap) (id : Nat) (R : Property → Prop) : Prop :=
  ∀ j ∈ (h.chain id).tail, ∀ i < maxLength, ∀ q, (h.get j).own? (indexName i) = some q → R q

/-- A heap that differs from another one in one array, whose elements are given. -/
structure Relists (h h' : Heap) (id n : Nat) (f : Nat → Option Value) : Prop where
  differs : h.Differs h' id Object.SameRest
  lists : (h'.get id).Lists n f

variable {h h' : Heap} {id n : Nat} {f : Nat → Option Value} {R S : Property → Prop}

lemma Inherits.mono (hh : h.Inherits id R) (hR : ∀ q, R q → S q) : h.Inherits id S :=
  fun j hj i hi q hq => hR q (hh j hj i hi q hq)

/-- The prototypes come after the object. -/
lemma exists_chain_eq (h : Heap) (id : Nat) :
    ∃ rest, h.chain id = id :: rest ∧ ∀ j ∈ rest, j < id := by
  have hbelow : ∀ fuel id, ∀ j ∈ h.chainWithin fuel id, j ≤ id := by
    intro fuel
    induction fuel with
    | zero => exact fun _ _ hj => absurd hj List.not_mem_nil
    | succ fuel ih =>
      intro id j hj
      unfold chainWithin at hj
      split at hj
      · split_ifs at hj with hlt
        · rcases List.mem_cons.1 hj with rfl | hj
          · exact Nat.le_refl _
          · exact (ih _ j hj).trans (Nat.le_of_lt hlt)
        · exact Nat.le_of_eq (List.mem_singleton.1 hj)
      · exact Nat.le_of_eq (List.mem_singleton.1 hj)
  unfold chain chainWithin
  split
  · rename_i p _
    split_ifs with hlt
    · exact ⟨_, rfl, fun j hj => Nat.lt_of_le_of_lt (hbelow _ _ j hj) hlt⟩
    · exact ⟨[], rfl, fun _ hj => absurd hj List.not_mem_nil⟩
  · exact ⟨[], rfl, fun _ hj => absurd hj List.not_mem_nil⟩

/-- What is found under the name of an index is the element or inherited. -/
lemma Inherits.first? (hh : h.Inherits id R) {i : Nat} (hi : i < maxLength) {found : Nat × Property}
    (hfound : found ∈ h.first? id (indexName i)) :
    (h.get id).own? (indexName i) = some found.2 ∨
      (h.get id).own? (indexName i) = none ∧ R found.2 := by
  obtain ⟨rest, hchain, -⟩ := h.exists_chain_eq id
  have hrest : ∀ j ∈ rest, ∀ q, (h.get j).own? (indexName i) = some q → R q := fun j hj =>
    hh j (by rwa [hchain]) i hi
  rw [Heap.first?, hchain, List.findSome?_cons] at hfound
  cases hown : (h.get id).own? (indexName i) with
  | some q =>
    rw [hown] at hfound
    obtain rfl := Option.some.inj hfound
    exact .inl rfl
  | none =>
    rw [hown] at hfound
    obtain ⟨j, hj, hq⟩ := List.exists_of_findSome?_eq_some hfound
    obtain ⟨q, hown, rfl⟩ := Option.map_eq_some_iff.1 hq
    exact .inr ⟨rfl, hrest j hj q hown⟩

/-- What is missing is not found if nothing is inherited. -/
lemma Inherits.find?_eq_none (hh : h.Inherits id fun _ => False) {i : Nat} (hi : i < maxLength)
    (hown : (h.get id).own? (indexName i) = none) : h.find? id (indexName i) = none := by
  rw [Heap.find?_eq_first?]
  cases hfound : h.first? id (indexName i) with
  | none => rfl
  | some found =>
    rcases hh.first? hi hfound with hsome | ⟨-, hfalse⟩
    · rw [hown] at hsome
      cases hsome
    · exact hfalse.elim

namespace Relists

lemma refl (hlists : (h.get id).Lists n f) : h.Relists h id n f :=
  ⟨⟨rfl, hlists.sameRest, fun _ _ => rfl⟩, hlists⟩

/-- A change of the array. -/
lemma update (hh : h.Relists h' id n f) (hid : id < h.size) {g : Object → Object} {n' : Nat}
    {f' : Nat → Option Value} (hrest : (h'.get id).SameRest (g (h'.get id)))
    (hlists : (g (h'.get id)).Lists n' f') : h.Relists (h'.update id g) id n' f' := by
  have hself : (h'.update id g).get id = g (h'.get id) :=
    get_update_self (by rwa [hh.differs.size]) g
  refine ⟨⟨(size_update ..).trans hh.differs.size, ?_, fun j hj =>
    (get_update_ne hj g).trans (hh.differs.others j hj)⟩, ?_⟩
  · rw [hself]
    exact hh.differs.object.trans hrest
  · rwa [hself]

/-- What is inherited stays. -/
lemma inherits (hh : h.Relists h' id n f) (hinherits : h.Inherits id R) : h'.Inherits id R := by
  have hproto : ∀ j, (h'.get j).proto = (h.get j).proto := fun j => by
    by_cases hj : j = id
    · rw [hj]
      exact hh.differs.object.shell.proto
    · rw [hh.differs.others j hj]
  have hchain : h'.chain id = h.chain id := chainWithin_congr hproto ..
  obtain ⟨rest, hrest, hbelow⟩ := h.exists_chain_eq id
  intro j hj i hi q hq
  rw [hchain] at hj
  refine hinherits j hj i hi q ?_
  rw [hrest] at hj
  rwa [hh.differs.others j (Nat.ne_of_lt (hbelow j hj))] at hq

end Relists

end Heap

/-! ## Actions -/

/-- A state with another heap. -/
def State.withHeap (s : State) (h : Heap) : State := ⟨s.control, { s.store with heap := h }⟩

@[simp] lemma State.heap_withHeap (s : State) (h : Heap) : (s.withHeap h).store.heap = h := rfl

/-- An action that turns the elements of an array into others. It may also change the length of the
array, but nothing else. -/
def Turns {α : Type} (serve : Service) (fuel : Nat) (s : State) (id : Nat) (p : Action α)
    (f : Nat → Option Value) (a : α) (g : Nat → Option Value) : Prop :=
  ∀ h n, s.store.heap.Relists h id n f → ∃ h' n',
    p.run serve fuel (s.withHeap h) = .done a (s.withHeap h') ∧ s.store.heap.Relists h' id n' g

section

variable {α β : Type} {serve : Service} {fuel : Nat} {s : State} {o : Ref} {id n m i : Nat}
  {f g k : Nat → Option Value} {h : Heap}

lemma Turns.pure (a : α) : Turns serve fuel s id (pure a) f a f :=
  fun h n hh => ⟨h, n, rfl, hh⟩

lemma Turns.bind {p : Action β} {q : β → Action α} {b : β} {a : α}
    (hp : Turns serve fuel s id p f b g) (hq : Turns serve fuel s id (q b) g a k) :
    Turns serve fuel s id (p >>= q) f a k := by
  intro h n hh
  obtain ⟨h', n', hrun, hh'⟩ := hp h n hh
  obtain ⟨h'', n'', hrun', hh''⟩ := hq h' n' hh'
  exact ⟨h'', n'', run_bind_done.2 ⟨b, _, hrun, hrun'⟩, hh''⟩

/-- What is done with each of several indices is done with the first ones and then with the
others. -/
lemma Turns.eachIndex_append {step : Nat → Action Unit} {is js : List Nat}
    (his : Turns serve fuel s id (eachIndex step is) f () g)
    (hjs : Turns serve fuel s id (eachIndex step js) g () k) :
    Turns serve fuel s id (eachIndex step (is ++ js)) f () k := by
  have hrun : ∀ (is : List Nat) (u : State), (eachIndex step (is ++ js)).run serve fuel u =
      (eachIndex step is >>= fun _ => eachIndex step js).run serve fuel u := by
    intro is
    induction is with
    | nil => exact fun _ => rfl
    | cons i is ih =>
      intro u
      rw [List.cons_append, eachIndex, eachIndex, run_bind, run_bind, run_bind]
      cases (step i).run serve fuel u with
      | done a t => exact (ih t).trans (run_bind ..)
      | failed => rfl
      | stuck => rfl
  intro h n hh
  rw [hrun]
  exact his.bind hjs h n hh

variable (hid : o.id < s.store.heap.size) (hplain : s.store.heap.Inherits o.id Property.Plain)
include hid

lemma turns_deleteOwn (hi : i < maxLength) :
    Turns serve fuel s o.id (deleteOwn o (indexName i)) f () (Function.update f i none) :=
  fun _ n hh => ⟨_, n, rfl, hh.update hid (hh.lists.sameRest_delete hi) (hh.lists.delete hi)⟩

include hplain

lemma turns_putProperty (hi : i < maxLength) (v : Value) :
    Turns serve fuel s o.id (putProperty o (indexName i) v) f ()
      (Function.update f i (some v)) := by
  intro h n hh
  have hlength : indexName i ≠ "length" := Object.ne_length_of_element (arrayIndex?_indexName hi)
  have hdata : ∀ found ∈ h.first? o.id (indexName i),
      found.2.isAccessor = false ∧ found.2.readOnly = false := fun found hfound => by
    rcases (hh.inherits hplain).first? hi hfound with hown | ⟨-, hinherited⟩
    · rw [hh.lists.own?_eq] at hown
      obtain ⟨hq, -⟩ := hh.lists.plain i hi _ hown
      exact ⟨hq.data, hq.writable⟩
    · exact ⟨hinherited.data, hinherited.writable⟩
  obtain ⟨g, hrun, hwritten⟩ := run_putProperty_written (s := s.withHeap h) serve fuel v
    (fun _ => hh.lists.counts) hdata fun hl => hlength hl.2
  exact ⟨_, _, hrun, hh.update hid (hh.lists.sameRest_of_written hi hwritten)
    (hh.lists.written hi hwritten)⟩

/-- Storing values from an index on. -/
lemma turns_putFrom (vs : List Value) (hi : i + vs.length ≤ maxLength) :
    Turns serve fuel s o.id (putFrom o i vs) f ()
      fun j => if i ≤ j ∧ j < i + vs.length then vs[j - i]? else f j := by
  induction vs generalizing i f with
  | nil =>
    have hsame : (fun j => if i ≤ j ∧ j < i + ([] : List Value).length
        then ([] : List Value)[j - i]? else f j) = f := funext fun j => if_neg (by simp)
    rw [hsame]
    exact Turns.pure ()
  | cons v vs ih =>
    rw [List.length_cons] at hi
    have hput : Turns serve fuel s o.id (putProperty o (indexName i) v) f ()
        (Function.update f i (some v)) := turns_putProperty hid hplain (by omega) v
    have hrest := hput.bind (q := fun _ => putFrom o (i + 1) vs) (ih (by omega))
    have hsame : (fun j => if i ≤ j ∧ j < i + (v :: vs).length then (v :: vs)[j - i]? else f j) =
        fun j => if i + 1 ≤ j ∧ j < i + 1 + vs.length then vs[j - (i + 1)]?
          else Function.update f i (some v) j := by
      funext j
      rw [List.length_cons]
      rcases lt_trichotomy j i with hlt | rfl | hgt
      · rw [if_neg (by omega), if_neg (by omega), Function.update_of_ne (by omega)]
      · rw [if_pos (by omega), if_neg (by omega), Function.update_self, Nat.sub_self]
        rfl
      · rw [Function.update_of_ne (by omega), show j - i = j - (i + 1) + 1 by omega,
          List.getElem?_cons_succ]
        congr 1
        exact propext (by omega)
    rw [hsame]
    exact hrest

/-- Moving an element, or a hole. -/
lemma turns_moveElement {source target : Nat} (hsource : source < maxLength)
    (htarget : target < maxLength) : Turns serve fuel s o.id (moveElement o source target) f ()
      (Function.update f target (f source)) := by
  intro h n hh
  have helement := hh.lists.elements source hsource
  unfold moveElement
  rw [run_bind, run_object, State.heap_withHeap]
  dsimp only
  rw [hh.lists.own?_eq]
  cases hq : Slots.find? (indexName source) (h.get o.id).slots with
  | none =>
    rw [hq] at helement
    rw [← helement]
    exact turns_deleteOwn hid htarget h n hh
  | some q =>
    rw [hq] at helement
    dsimp only
    rw [(hh.lists.plain source hsource q hq).1.data, ← helement]
    exact turns_putProperty hid hplain htarget q.value h n hh

/-- Moving elements down by one place, in ascending order. -/
lemma turns_moveDown {m : Nat} (hm : m < maxLength) :
    Turns serve fuel s o.id (eachIndex (fun i => moveElement o (i + 1) i) (List.range m)) f ()
      fun j => if j < m then f (j + 1) else f j := by
  induction m with
  | zero => exact Turns.pure ()
  | succ m ih =>
    have hmove : Turns serve fuel s o.id (moveElement o (m + 1) m)
        (fun j => if j < m then f (j + 1) else f j) () _ :=
      turns_moveElement hid hplain hm (Nat.lt_of_succ_lt hm)
    have hlast := hmove.bind (q := fun _ => Pure.pure ()) (Turns.pure ())
    have hsame : (fun j => if j < m + 1 then f (j + 1) else f j) =
        Function.update (fun j => if j < m then f (j + 1) else f j) m
          (if m + 1 < m then f (m + 1 + 1) else f (m + 1)) := by
      funext j
      rw [Function.update_apply]
      split_ifs <;> first | rfl | omega | (subst j; rfl)
    rw [List.range_succ, hsame]
    exact (ih (Nat.lt_of_succ_lt hm)).eachIndex_append hlast

/-- Moving elements up, in descending order. -/
lemma turns_moveUp {m k : Nat} (hm : m + k ≤ maxLength) :
    Turns serve fuel s o.id (eachIndex (fun i => moveElement o i (i + k)) (List.range m).reverse) f
      ()
      fun j => if k ≤ j ∧ j < m + k then f (j - k) else f j := by
  induction m generalizing f with
  | zero =>
    have hsame : (fun j => if k ≤ j ∧ j < 0 + k then f (j - k) else f j) = f :=
      funext fun j => if_neg (by omega)
    rw [hsame]
    exact Turns.pure ()
  | succ m ih =>
    have hfirst : Turns serve fuel s o.id (moveElement o m (m + k)) f () _ :=
      turns_moveElement hid hplain (by omega) (by omega)
    have hsame : (fun j => if k ≤ j ∧ j < m + 1 + k then f (j - k) else f j) =
        fun j => if k ≤ j ∧ j < m + k then Function.update f (m + k) (f m) (j - k)
          else Function.update f (m + k) (f m) j := by
      funext j
      -- an element that moves later on is still in its place
      by_cases hj : j = m + k
      · rw [hj, if_pos (by omega), if_neg (by omega), Function.update_self, Nat.add_sub_cancel]
      · rw [Function.update_of_ne hj]
        by_cases hin : k ≤ j ∧ j < m + k
        · rw [if_pos (by omega), if_pos hin, Function.update_of_ne (by omega)]
        · rw [if_neg (by omega), if_neg hin]
    rw [List.range_succ, List.reverse_append, hsame]
    exact hfirst.bind (ih (by omega))

omit hplain

/-- Deleting the elements between two indices. -/
lemma turns_deleteFrom {m k : Nat} (hm : m + k ≤ maxLength) :
    Turns serve fuel s o.id
      (eachIndex (fun i => deleteOwn o (indexName i)) ((List.range k).map (m + ·))) f ()
      fun j => if m ≤ j ∧ j < m + k then none else f j := by
  induction k with
  | zero =>
    have hsame : (fun j => if m ≤ j ∧ j < m + 0 then none else f j) = f :=
      funext fun j => if_neg (by omega)
    rw [hsame]
    exact Turns.pure ()
  | succ k ih =>
    have hdelete : Turns serve fuel s o.id (deleteOwn o (indexName (m + k)))
        (fun j => if m ≤ j ∧ j < m + k then none else f j) () _ := turns_deleteOwn hid (by omega)
    have hlast := hdelete.bind (q := fun _ => Pure.pure ()) (Turns.pure ())
    have hsame : (fun j => if m ≤ j ∧ j < m + (k + 1) then none else f j) =
        Function.update (fun j => if m ≤ j ∧ j < m + k then none else f j) (m + k) none := by
      funext j
      rw [Function.update_apply]
      split_ifs <;> first | rfl | omega
    rw [List.range_succ, List.map_append, hsame]
    exact (ih (by omega)).eachIndex_append hlast

/-- Setting the length of an array. -/
lemma run_putLength (hm : m ≤ maxLength) (hh : s.store.heap.Relists h o.id n f) : ∃ h',
    (putLength o m).run serve fuel (s.withHeap h) = .done () (s.withHeap h') ∧
      s.store.heap.Relists h' o.id m fun j => if j < m then f j else none := by
  obtain ⟨q, hq, hplain, -⟩ := hh.lists.length
  have hresized := Object.resized_resize m Label.none hq
  refine ⟨_, ?_, hh.update (g := (Heap.resize · m .none)) hid
    (Object.Lists.sameRest_of_resized hresized) (hh.lists.resized hm hresized)⟩
  unfold putLength
  rw [run_putProperty_slot hq hplain.data hplain.writable, if_pos ⟨hh.lists.cls, rfl⟩]
  exact run_setLength_converts (h.converts_ofNat hm)

end

/-! ## Loads -/

/-- What is found at an index, or undefined. -/
def Heap.elementAt (h : Heap) (id i : Nat) : Value :=
  match h.find? id (indexName i) with
  | some (_, p) => p.value
  | none => .undefined

/-- What is found at the indices below a length. -/
def Heap.elementsAt (h : Heap) (id n : Nat) : List Value := (List.range n).map (h.elementAt id)

/-- Reads that change nothing, one after the other: after some steps, the elements before the index
have been read. -/
lemma run_elementsOf_of_reads {serve : Service} {fuel : Nat} {s : State} {o : Ref} {n : Nat}
    {g : Nat → Value} (hlength : (lengthOf o).run serve fuel s = .done n s)
    (hread : ∀ j < n, (getProperty o (indexName j)).run serve fuel s = .done (g j) s)
    (hfuel : n < fuel) :
    (elementsOf o).run serve fuel s = .done ((List.range n).map g) s := by
  unfold elementsOf elementsFrom
  rw [run_bind, hlength]
  dsimp only
  rw [run_loop, Nat.zero_add]
  suffices hsteps : ∀ k j, j + k = n → ∀ fuel', k < fuel' →
      iterate (fun (x : Nat × List Value) u => (if x.1 < n then do
          return .inl (x.1 + 1, (← getProperty o (indexName x.1)) :: x.2)
        else return .inr x.2.reverse : Action ((Nat × List Value) ⊕ List Value)).run serve
          fuel u) fuel'
        (j, ((List.range j).map g).reverse) s = .done ((List.range n).map g) s from
    hsteps n 0 (Nat.zero_add n) fuel hfuel
  intro k
  induction k with
  | zero =>
    intro j hj fuel' hfuel'
    obtain ⟨fuel', rfl⟩ := Nat.exists_eq_add_one_of_ne_zero (Nat.ne_of_gt hfuel')
    obtain rfl : j = n := hj
    rw [iterate, if_neg (Nat.lt_irrefl j), run_pure, List.reverse_reverse]
  | succ k ih =>
    intro j hj fuel' hfuel'
    obtain ⟨fuel', rfl⟩ := Nat.exists_eq_add_one_of_ne_zero
      (Nat.ne_of_gt (Nat.zero_lt_of_lt hfuel'))
    have hnext := ih (j + 1) (by omega) fuel' (by omega)
    rw [List.range_succ, List.map_append, List.reverse_append] at hnext
    rw [iterate, if_pos (show j < n by omega), run_bind, hread j (by omega)]
    exact hnext

section

variable {serve : Service} {fuel : Nat} {s : State} {o : Ref} {n i : Nat} {f : Nat → Option Value}
  (hlists : (s.store.heap.get o.id).Lists n f)
include hlists

/-- The length of an array. -/
lemma run_lengthOf_lists : (lengthOf o).run serve fuel s = .done n s := by
  obtain ⟨q, hq, hplain, hraw⟩ := hlists.length
  unfold lengthOf
  rw [run_bind, run_getProperty_slot hq hplain.data]
  dsimp only
  rw [run_bind, run_look, hraw]
  dsimp only
  rw [s.store.heap.toNat_word_ofNat hlists.bound, run_pure]

/-- An element of an array, own or inherited. -/
lemma run_getProperty_elementAt (hplain : s.store.heap.Inherits o.id Property.Plain)
    (hi : i < maxLength) :
    (getProperty o (indexName i)).run serve fuel s = .done (s.store.heap.elementAt o.id i) s := by
  unfold getProperty Heap.elementAt
  rw [run_bind, run_look]
  dsimp only
  cases hfound : s.store.heap.find? o.id (indexName i) with
  | none => rfl
  | some found =>
    obtain ⟨owner, p⟩ := found
    have hdata : p.isAccessor = false := by
      rw [Heap.find?_eq_first?] at hfound
      rcases hplain.first? hi hfound with hown | ⟨-, hinherited⟩
      · rw [hlists.own?_eq] at hown
        exact (hlists.plain i hi p hown).1.data
      · exact hinherited.data
    simp [hdata]

/-- If nothing is inherited, an element is read as it is, and a hole as undefined. -/
lemma elementAt_of_bare (hbare : s.store.heap.Inherits o.id fun _ => False) (hi : i < maxLength) :
    s.store.heap.elementAt o.id i = (f i).getD .undefined := by
  have helement := hlists.elements i hi
  unfold Heap.elementAt
  cases hq : Slots.find? (indexName i) (s.store.heap.get o.id).slots with
  | some q =>
    rw [Heap.find?_of_own? (Object.own?_of_find? hq), ← helement, hq]
    rfl
  | none =>
    rw [hbare.find?_eq_none hi ((hlists.own?_eq _).trans hq), ← helement, hq]
    rfl

/-- Loads that change nothing, one after the other. -/
lemma run_elementsOf_elementsAt (hplain : s.store.heap.Inherits o.id Property.Plain)
    (hfuel : n < fuel) :
    (elementsOf o).run serve fuel s = .done (s.store.heap.elementsAt o.id n) s :=
  run_elementsOf_of_reads (run_lengthOf_lists hlists) (fun _ hj =>
    run_getProperty_elementAt hlists hplain (Nat.lt_of_lt_of_le hj hlists.bound)) hfuel

end

/-- If nothing is inherited, the elements are those of the list, with holes undefined. -/
lemma elementsAt_of_bare {s : State} {o : Ref} {xs : List (Option Value)}
    (hholds : (s.store.heap.get o.id).Holds xs)
    (hbare : s.store.heap.Inherits o.id fun _ => False) :
    s.store.heap.elementsAt o.id xs.length = xs.map (·.getD .undefined) := by
  refine List.ext_getElem (by simp [Heap.elementsAt]) fun i hi _ => ?_
  have hlt : i < xs.length := by simpa [Heap.elementsAt] using hi
  have helement := elementAt_of_bare hholds hbare (Nat.lt_of_lt_of_le hlt hholds.bound)
  simpa [Heap.elementsAt, List.getElem?_eq_getElem hlt] using helement

/-! ## Adapted functions -/

section

variable {serve : Service} {fuel : Nat} {s t : State} {α : Type} {p : Action α} {a : α}

/-- A conversion that succeeds is what it was. -/
lemma run_converted (name : String) (position : Nat) (h : p.run serve fuel s = .done a t) :
    (converted name position p).run serve fuel s = .done a t := by
  unfold converted
  rw [run_bind, run_attempt, h]
  rfl

lemma run_adaptedResult (name : String) (h : p.run serve fuel s = .done a t) :
    (adaptedResult name p).run serve fuel s = .done a t := by
  unfold adaptedResult
  rw [run_bind, run_attempt, h]
  rfl

lemma run_lift {f : RawFn} {this v : Value} {args : List Value}
    (h : (f this.raw (args.map Value.raw)).run serve fuel s = .done v t) :
    (lift f this args).run serve fuel s = .done (v.wrap (Value.joinLabels (this :: args))) t := by
  unfold lift
  rw [run_bind, h]
  rfl

end

end Clearance
