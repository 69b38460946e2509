/-
# Objects and heaps after a change

What a lookup finds after properties have been put or erased, and what the objects of a heap are
after one of them has been changed or a new one has been added. The lookup along the prototypes
only sees objects that are older than the one it starts from.
-/
import Clearance.Machine.State
import Mathlib.Tactic.Common

namespace Clearance

/-! ## Slots -/

namespace Slots

@[simp] lemma find?_put (name n : String) (p : Property) (slots : Slots) :
    find? n (put name p slots) = if n = name then some p else find? n slots := by
  induction slots with
  | nil => simp [put, find?, eq_comm]
  | cons slot rest ih =>
    obtain ⟨m, q⟩ := slot
    by_cases hm : m = name
    · subst hm
      by_cases hn : n = m
      · simp [put, find?, hn]
      · simp [put, find?, hn, Ne.symm hn]
    · by_cases hn : m = n
      · subst hn
        simp [put, find?, hm]
      · simp [put, find?, hm, hn, ih]

@[simp] lemma find?_erase (name n : String) (slots : Slots) :
    find? n (erase name slots) = if n = name then none else find? n slots := by
  induction slots with
  | nil => simp [erase, find?]
  | cons slot rest ih =>
    obtain ⟨m, q⟩ := slot
    by_cases hm : m = name
    · subst hm
      by_cases hn : n = m
      · subst hn
        simpa [erase] using ih
      · simp [erase, find?, ih, hn, Ne.symm hn]
    · by_cases hn : m = n
      · subst hn
        simp [erase, find?, hm]
      · simp [erase, find?, hm, hn, ih]

lemma mem_of_find? {name : String} {slots : Slots} {p : Property}
    (h : find? name slots = some p) : (name, p) ∈ slots := by
  induction slots with
  | nil => cases h
  | cons slot rest ih =>
    obtain ⟨m, q⟩ := slot
    unfold find? at h
    split_ifs at h with hm
    · cases h
      simp [hm]
    · exact List.mem_cons_of_mem _ (ih h)

lemma mem_put {name : String} {p : Property} {slots : Slots} {slot : String × Property}
    (h : slot ∈ slots.put name p) : slot = (name, p) ∨ slot ∈ slots := by
  induction slots with
  | nil => exact .inl (List.mem_singleton.1 h)
  | cons entry rest ih =>
    unfold put at h
    split_ifs at h with hn
    · rcases List.mem_cons.1 h with rfl | h
      · rw [← hn]
        exact .inl rfl
      · exact .inr (List.mem_cons_of_mem _ h)
    · rcases List.mem_cons.1 h with rfl | h
      · exact .inr List.mem_cons_self
      · exact (ih h).imp id (List.mem_cons_of_mem _)

lemma mem_erase {name : String} {slots : Slots} {slot : String × Property}
    (h : slot ∈ slots.erase name) : slot ∈ slots := by
  induction slots with
  | nil => exact h
  | cons entry rest ih =>
    unfold erase at h
    split_ifs at h
    · exact List.mem_cons_of_mem _ (ih h)
    · rcases List.mem_cons.1 h with rfl | h
      · exact List.mem_cons_self
      · exact List.mem_cons_of_mem _ (ih h)

lemma names_put (name : String) (p : Property) (slots : Slots) : names (put name p slots) =
    if (find? name slots).isSome then names slots else names slots ++ [name] := by
  induction slots with
  | nil => rfl
  | cons slot rest ih =>
    obtain ⟨n, q⟩ := slot
    by_cases hn : n = name
    · simp [put, find?, names, hn]
    · simp only [put, find?, hn, if_false]
      change n :: names (put name p rest) = _
      rw [ih]
      split_ifs <;> rfl

lemma erase_eq_filter (name : String) (slots : Slots) :
    erase name slots = slots.filter (·.1 ≠ name) := by
  induction slots with
  | nil => rfl
  | cons slot rest ih =>
    obtain ⟨n, q⟩ := slot
    by_cases hn : n = name <;> simp [erase, hn, ih]

/-- A filter that goes by the names keeps the properties of the names that pass. -/
lemma find?_filter (keep : String → Bool) (name : String) (slots : Slots) :
    find? name (slots.filter (keep ·.1)) = if keep name then find? name slots else none := by
  induction slots with
  | nil => simp [find?]
  | cons slot rest ih =>
    obtain ⟨n, q⟩ := slot
    by_cases hn : n = name
    · subst hn
      by_cases hkeep : keep n = true <;> simp_all [find?]
    · by_cases hkeep : keep n = true <;> simp_all [find?]

lemma names_filter (keep : String → Bool) (slots : Slots) :
    names (slots.filter (keep ·.1)) = (names slots).filter keep := by
  rw [names, names, List.filter_map]
  rfl

end Slots

/-! ## Objects -/

lemma arrayIndex?_length : arrayIndex? "length" = none := by decide +kernel

/-- The name of an index has digits only. -/
lemma indexName_ne_length (i : Nat) : indexName i ≠ "length" := by
  intro h
  have hmem : 'l' ∈ (indexName i).toList := by
    rw [h]
    decide
  rw [indexName, String.toList_ofList] at hmem
  exact absurd (Nat.isDigit_of_mem_toDigits (by omega) (by omega) hmem) (by decide)

namespace Object

@[simp] lemma find?_define (o : Object) (name n : String) (p : Property) :
    Slots.find? n (o.define name p).slots =
      if n = name then some p else Slots.find? n o.slots :=
  Slots.find?_put ..

lemma find?_define_ne {o : Object} {name n : String} (h : n ≠ name) (p : Property) :
    Slots.find? n (o.define name p).slots = Slots.find? n o.slots := by
  rw [find?_define, if_neg h]

/-- An assigned property has the value. -/
lemma find?_set_self (o : Object) (name : String) (v : Value) :
    ∃ q, Slots.find? name (o.set name v).slots = some q ∧ q.value = v := by
  unfold set
  split
  · split_ifs
    · exact ⟨.data v, (find?_define ..).trans (if_pos rfl), rfl⟩
    · exact ⟨_, (find?_define ..).trans (if_pos rfl), rfl⟩
  · exact ⟨.data v, (find?_define ..).trans (if_pos rfl), rfl⟩

lemma find?_set_ne (o : Object) {name n : String} (h : n ≠ name) (v : Value) :
    Slots.find? n (o.set name v).slots = Slots.find? n o.slots := by
  unfold set
  split
  · split_ifs <;> exact find?_define_ne h _
  · exact find?_define_ne h _

lemma keys_define (o : Object) (name : String) (p : Property) : (o.define name p).keys =
    if (Slots.find? name o.slots).isSome then o.keys else o.keys ++ [name] :=
  Slots.names_put ..

lemma find?_of_delete {o : Object} {name n : String} {p : Property}
    (h : Slots.find? n (o.delete name).2.slots = some p) : Slots.find? n o.slots = some p := by
  unfold delete at h
  split at h
  · exact h
  · split_ifs at h
    · exact h
    · replace h : Slots.find? n (Slots.erase name o.slots) = some p := h
      rw [Slots.find?_erase] at h
      split_ifs at h
      exact h

lemma mem_delete {o : Object} {name : String} {slot : String × Property}
    (h : slot ∈ (o.delete name).2.slots) : slot ∈ o.slots := by
  unfold delete at h
  split at h
  · exact h
  · split_ifs at h
    · exact h
    · exact Slots.mem_erase h

lemma find?_delete_ne (o : Object) {name n : String} (hn : n ≠ name) :
    Slots.find? n (o.delete name).2.slots = Slots.find? n o.slots := by
  unfold delete
  split
  · rfl
  · split_ifs
    · rfl
    · show Slots.find? n (Slots.erase name o.slots) = _
      rw [Slots.find?_erase, if_neg hn]

/-- What is left of an array when its end is removed was there before. -/
lemma find?_of_dropFrom {o : Object} {length : Nat} {n : String} {p : Property}
    (h : Slots.find? n (Heap.dropFrom o length).slots = some p) :
    Slots.find? n o.slots = some p := by
  unfold Heap.dropFrom at h
  generalize o.keys = names at h
  induction names generalizing o with
  | nil => exact h
  | cons name names ih =>
    rw [List.foldl_cons] at h
    have hnext := ih h
    split at hnext
    · split_ifs at hnext
      · exact find?_of_delete hnext
      · exact hnext
    · exact hnext

/-- Only elements are removed with the end of an array. -/
lemma find?_dropFrom (o : Object) (length : Nat) {n : String} (hn : arrayIndex? n = none) :
    Slots.find? n (Heap.dropFrom o length).slots = Slots.find? n o.slots := by
  unfold Heap.dropFrom
  generalize o.keys = names
  induction names generalizing o with
  | nil => rfl
  | cons name names ih =>
    rw [List.foldl_cons, ih]
    split
    · rename_i i hi
      have hne : n ≠ name := by
        rintro rfl
        rw [hn] at hi
        cases hi
      split_ifs
      · exact find?_delete_ne o hne
      · rfl
    · rfl

lemma own?_of_find? {o : Object} {name : String} {p : Property}
    (h : Slots.find? name o.slots = some p) : o.own? name = some p := by
  simp [own?, h]

/-- An object has no slot of a name that it does not own. -/
lemma slot_of_own?_eq_none {o : Object} {name : String} (h : o.own? name = none) :
    Slots.find? name o.slots = none := by
  cases hslot : Slots.find? name o.slots with
  | none => rfl
  | some p =>
    rw [own?_of_find? hslot] at h
    cases h

/-- The own properties are given by the slots and by the wrapped text. -/
lemma own?_congr {o o' : Object} {name : String} (hprimitive : o'.primitive = o.primitive)
    (hslots : Slots.find? name o'.slots = Slots.find? name o.slots) :
    o'.own? name = o.own? name := by
  have htext : o'.text? = o.text? := by simp [text?, hprimitive]
  unfold own?
  rw [hslots, htext]

/-- Without a wrapped text, the own properties are those of the slots. -/
lemma own?_of_primitive {o : Object} (h : o.primitive = none) (name : String) :
    o.own? name = Slots.find? name o.slots := by
  have ht : o.text? = none := by simp [text?, h]
  unfold own?
  cases Slots.find? name o.slots <;> simp [ht]

/-- What a wrapped text adds to an object is read-only and has no label. -/
lemma own?_cases {o : Object} {name : String} {p : Property} (h : o.own? name = some p) :
    Slots.find? name o.slots = some p ∨ p.readOnly = true ∧ p.value.label = .none := by
  unfold own? at h
  split at h
  · rename_i hq
    exact .inl (by rw [hq, h])
  · split at h
    · cases h
    · split at h
      · cases h
        exact .inr ⟨rfl, rfl⟩
      · split at h
        · obtain ⟨c, -, rfl⟩ := Option.map_eq_some_iff.1 h
          exact .inr ⟨rfl, rfl⟩
        · cases h

lemma find?_of_own? {o : Object} {name : String} {p : Property} (h : o.own? name = some p)
    (hp : p.readOnly = false) : Slots.find? name o.slots = some p := by
  rcases own?_cases h with hfind | ⟨hro, -⟩
  · exact hfind
  · rw [hp] at hro
    cases hro

end Object

/-! ## Heaps -/

namespace Heap

variable {h : Heap}

@[simp] lemma size_update (h : Heap) (id : Nat) (f : Object → Object) :
    (h.update id f).size = h.size := by
  simp [update]

/-- A change is seen at its number only, and only if there is such an object. -/
lemma get_update (h : Heap) (id : Nat) (f : Object → Object) (j : Nat) :
    (h.update id f).get j = if j = id ∧ id < h.size then f (h.get id) else h.get j := by
  unfold get update
  by_cases hj : j < h.size
  · by_cases hid : j = id
    · subst hid
      simp [Array.getD, hj, Array.getElem_modify]
    · simp [Array.getD, hj, hid, Array.getElem_modify, Ne.symm hid]
  · have hid : ¬(j = id ∧ id < h.size) := by omega
    simp [Array.getD, hj, hid]

lemma get_update_self {id : Nat} (hid : id < h.size) (f : Object → Object) :
    (h.update id f).get id = f (h.get id) := by
  rw [get_update, if_pos ⟨rfl, hid⟩]

lemma get_update_ne {id j : Nat} (hj : j ≠ id) (f : Object → Object) :
    (h.update id f).get j = h.get j := by
  rw [get_update, if_neg fun hc => hj hc.1]

/-- A change only matters at the object that is changed. -/
lemma update_congr {id : Nat} {f g : Object → Object} (hfg : f (h.get id) = g (h.get id)) :
    h.update id f = h.update id g := by
  unfold update
  refine Array.ext (by simp) fun j hj _ => ?_
  simp only [Array.getElem_modify]
  split_ifs with hid
  · subst hid
    have hsize : id < h.size := by simpa using hj
    simpa [get, Array.getD, hsize] using hfg
  · rfl

/-- A change that does not change the object, if there is one, changes nothing. -/
lemma update_eq_self {id : Nat} {f : Object → Object}
    (hf : id < h.size → f (h.get id) = h.get id) : h.update id f = h := by
  unfold update
  refine Array.ext (by simp) fun j hj _ => ?_
  rw [Array.getElem_modify]
  split_ifs with hid
  · subst hid
    have hsize : id < h.size := by simpa using hj
    simpa [get, Array.getD, hsize] using hf hsize
  · rfl

/-- Only arrays count, and only their indices. -/
lemma counts_of_cls {o : Object} (ho : o.cls ≠ "Array") (name : String) : counts o name = true := by
  simp [counts, ho]

lemma counts_of_length {o : Object} (name : String) {q : Property}
    (hq : Slots.find? "length" o.slots = some q) : counts o name = true := by
  simp [counts, hq]

/-- What an array lacks to count an index is its length. -/
lemma counts_eq_false_iff {o : Object} {name : String} : counts o name = false ↔
    o.cls = "Array" ∧ (arrayIndex? name).isSome = true ∧ Slots.find? "length" o.slots = none := by
  simp [counts, and_assoc]

/-- No length is recorded where there was none. -/
lemma isSome_length_recordLength (o : Object) (v : Value) :
    (Slots.find? "length" (recordLength o v).slots).isSome =
      (Slots.find? "length" o.slots).isSome := by
  unfold recordLength
  split
  · rename_i p hp
    simp [hp]
  · rfl

lemma cls_recordLength (o : Object) (v : Value) : (recordLength o v).cls = o.cls := by
  unfold recordLength
  split <;> rfl

/-- Whether an index counts was settled before an element is put there. -/
lemma counts_extend (o : Object) (name : String) (v : Value) :
    counts (extend o name v) name = counts o name := by
  cases hname : arrayIndex? name with
  | none => simp [counts, hname]
  | some i =>
    have hne : "length" ≠ name := fun h => by
      rw [← h, arrayIndex?_length] at hname
      cases hname
    have hcls : (extend o name v).cls = o.cls := by
      unfold extend
      simp only [hname]
      split_ifs
      · exact cls_recordLength ..
      · rfl
      · rfl
    have hlength : (Slots.find? "length" (extend o name v).slots).isSome =
        (Slots.find? "length" o.slots).isSome := by
      rw [← congrArg Option.isSome (Object.find?_define_ne (o := o) hne (.data v))]
      unfold extend
      simp only [hname]
      split_ifs
      · exact isSome_length_recordLength ..
      · rfl
      · rfl
    unfold counts
    rw [hcls, hlength]

/-- Adding an element to the heap does not settle whether it counts. -/
lemma counts_update_extend (id : Nat) (name : String) (v : Value) :
    counts ((h.update id (extend · name v)).get id) name = counts (h.get id) name := by
  rw [get_update]
  split_ifs
  · exact counts_extend ..
  · rfl

/-- There is nothing beyond the end of a heap. -/
lemma get_of_size_le {id : Nat} (hid : h.size ≤ id) : h.get id = default := by
  unfold get
  simp [Array.getD, Nat.not_lt_of_le hid]

lemma get_push_lt {id : Nat} (hid : id < h.size) (o : Object) :
    Heap.get (h.push o) id = h.get id := by
  unfold get
  simp [Array.getD, hid, Nat.lt_succ_of_lt hid, Array.getElem_push]

lemma get_push_ne {o : Object} {id : Nat} (hid : id ≠ h.size) :
    Heap.get (h.push o) id = h.get id := by
  by_cases hlt : id < h.size
  · exact get_push_lt hlt o
  · have hsize : (h.push o).size = h.size + 1 := by simp
    rw [get_of_size_le (by omega), get_of_size_le (by omega)]

lemma get_push_size {o : Object} : Heap.get (h.push o) h.size = o := by
  simp [Heap.get, Array.getD]

/-- Lookups only see the objects they pass, which are older and older. -/
lemma findWithin_congr {h' : Heap} (name : String) (fuel id : Nat)
    (hsame : ∀ j ≤ id, h'.get j = h.get j) :
    findWithin h' name fuel id = findWithin h name fuel id := by
  induction fuel generalizing id with
  | zero => rfl
  | succ fuel ih =>
    unfold findWithin
    rw [hsame id (Nat.le_refl id)]
    dsimp only
    split
    · rfl
    · split
      · split_ifs with hq
        · exact ih _ fun j hj => hsame j (Nat.le_trans hj (Nat.le_of_lt hq))
        · rfl
      · rfl

/-- What is found under a name depends on the own property, the prototype and the objects before. -/
lemma find?_congr {h' : Heap} {id : Nat} {name : String}
    (hown : (h'.get id).own? name = (h.get id).own? name)
    (hproto : (h'.get id).proto = (h.get id).proto) (hbefore : ∀ j < id, h'.get j = h.get j) :
    h'.find? id name = h.find? id name := by
  simp only [find?, findWithin, hown, hproto]
  cases (h.get id).own? name with
  | some p => rfl
  | none =>
    cases (h.get id).proto with
    | none => rfl
    | some q =>
      dsimp only
      split_ifs with hq
      · exact findWithin_congr name id q fun j hj => hbefore j (by omega)
      · rfl

/-- What is found is an own property, or one of an older object. -/
lemma find?_cases {id : Nat} {name : String} {owner : Nat} {p : Property}
    (hfound : h.find? id name = some (owner, p)) :
    (owner = id ∧ (h.get id).own? name = some p) ∨ (h.get id).own? name = none := by
  unfold find? findWithin at hfound
  dsimp only at hfound
  split at hfound
  · rename_i q hq
    cases hfound
    exact .inl ⟨rfl, hq⟩
  · rename_i hq
    exact .inr hq

/-- What is found belongs to its owner, which is the object itself or a prototype. -/
lemma find?_owner {id : Nat} {name : String} {owner : Nat} {p : Property}
    (hfound : h.find? id name = some (owner, p)) :
    (h.get owner).own? name = some p ∧ (owner = id ∨ ∃ j, (h.get j).proto = some owner) := by
  have hwithin : ∀ fuel id, findWithin h name fuel id = some (owner, p) →
      (h.get owner).own? name = some p ∧ (owner = id ∨ ∃ j, (h.get j).proto = some owner) := by
    intro fuel
    induction fuel with
    | zero => intro id hfound; cases hfound
    | succ fuel ih =>
      intro id hfound
      unfold findWithin at hfound
      dsimp only at hfound
      split at hfound
      · rename_i hq
        cases hfound
        exact ⟨hq, .inl rfl⟩
      · split at hfound
        · rename_i q hproto
          split_ifs at hfound
          obtain ⟨hown, rfl | hj⟩ := ih _ hfound
          · exact ⟨hown, .inr ⟨id, hproto⟩⟩
          · exact ⟨hown, .inr hj⟩
        · cases hfound
  exact hwithin _ _ hfound

lemma find?_of_own? {id : Nat} {name : String} {p : Property}
    (hown : (h.get id).own? name = some p) : h.find? id name = some (id, p) := by
  unfold find? findWithin
  simp [hown]

/-- An object has no slot of a name if it is not what a search for the name finds. -/
lemma slot_eq_none {id : Nat} {name : String}
    (hother : ∀ p, h.find? id name = some (id, p) → Slots.find? name (h.get id).slots ≠ some p) :
    Slots.find? name (h.get id).slots = none := by
  cases hslot : Slots.find? name (h.get id).slots with
  | none => rfl
  | some p => exact absurd hslot (hother p (find?_of_own? (Object.own?_of_find? hslot)))

end Heap

end Clearance
