/-
# Arrays that know their length

An array keeps its length as a property of its own, and the names of its elements stand for the
numbers below it (`Object.Measured`). This file shows which changes of an object leave arrays like
that: other names may be defined, elements may be removed, and an array may be cut, stretched and
extended. Only a definition of the length itself, or of an element that nobody has counted, does
not.

Lengths are doubles, and arrays compare them as doubles, which are ordered like the numbers
(`toFloat_le_iff`). The bounds are said to hold if something is granted, `B`: that no array is made
of more elements than it can count. So what is known without it is kept apart.
-/
import Clearance.Proofs.Double
import Clearance.Proofs.Heap
import Clearance.Proofs.Scripted

namespace Clearance

namespace Object

/-- An object that records a length, and whose elements are below it. -/
structure Measured (o : Object) (B : Prop) (n : Nat) : Prop where
  bound : B → n ≤ maxLength
  /-- The length is a number, no accessor gives it, and it cannot be deleted. -/
  length : ∃ p, Slots.find? "length" o.slots = some p ∧ p.isAccessor = false ∧
    p.permanent = true ∧ p.value.raw = Raw.ofNat n
  /-- Elements are below the length, and can be deleted. -/
  elements : ∀ name p i, Slots.find? name o.slots = some p → arrayIndex? name = some i →
    (B → i < n) ∧ p.permanent = false
  unwrapped : o.primitive = none

/-- If the object is an array, it records its length. -/
def Tidy (o : Object) (B : Prop) : Prop := o.cls = "Array" → ∃ n, o.Measured B n

variable {B : Prop} {o : Object} {n : Nat}

lemma tidy_of_cls (h : o.cls ≠ "Array") : o.Tidy B := fun h' => absurd h' h

lemma ne_length_of_element {name : String} {i : Nat} (h : arrayIndex? name = some i) :
    name ≠ "length" := by
  rintro rfl
  rw [arrayIndex?_length] at h
  cases h

/-- An element that is there may be redefined, and so may any other name but the length. -/
lemma Measured.define (h : o.Measured B n) {name : String} {p : Property} (hname : name ≠ "length")
    (helement : ∀ i, arrayIndex? name = some i → (B → i < n) ∧ p.permanent = false) :
    (o.define name p).Measured B n := by
  refine ⟨h.bound, ?_, fun name' p' i hfind hi => ?_, h.unwrapped⟩
  · rw [find?_define, if_neg hname.symm]
    exact h.length
  · rw [find?_define] at hfind
    split_ifs at hfind with heq
    · cases hfind
      exact helement i (heq ▸ hi)
    · exact h.elements name' p' i hfind hi

/-- A property that holds a length may be recorded, if it is above all elements. -/
lemma Measured.record (h : o.Measured B n) {m : Nat} (hm : B → m ≤ maxLength) {p : Property}
    (hacc : p.isAccessor = false) (hperm : p.permanent = true) (hraw : p.value.raw = Raw.ofNat m)
    (hbelow : ∀ name q i, Slots.find? name o.slots = some q → arrayIndex? name = some i →
      B → i < m) : (o.define "length" p).Measured B m := by
  refine ⟨hm, ⟨p, ?_, hacc, hperm, hraw⟩, fun name q i hfind hi => ?_, h.unwrapped⟩
  · rw [find?_define, if_pos rfl]
  · rw [find?_define, if_neg (ne_length_of_element hi)] at hfind
    exact ⟨hbelow name q i hfind hi, (h.elements name q i hfind hi).2⟩

/-- A name that is no element and not the length. -/
lemma Tidy.define (h : o.Tidy B) {name : String} (hname : name ≠ "length")
    (helement : arrayIndex? name = none) (p : Property) : (o.define name p).Tidy B := by
  intro hcls
  obtain ⟨n, hn⟩ := h hcls
  refine ⟨n, hn.define hname fun i hi => ?_⟩
  rw [helement] at hi
  cases hi

lemma Tidy.set (h : o.Tidy B) {name : String} (hname : name ≠ "length")
    (helement : arrayIndex? name = none) (v : Value) : (o.set name v).Tidy B := by
  unfold Object.set
  split
  · split_ifs <;> exact h.define hname helement _
  · exact h.define hname helement _

/-- A property that is there may be replaced by one that can be deleted if the old one could. The
length stays. -/
lemma Tidy.redefine (h : o.Tidy B) {name : String} {p q : Property}
    (hp : Slots.find? name o.slots = some p) (hperm : q.permanent = p.permanent)
    (hlength : name = "length" → q.isAccessor = p.isAccessor ∧ q.value.raw = p.value.raw) :
    (o.define name q).Tidy B := by
  intro hcls
  obtain ⟨n, hn⟩ := h hcls
  refine ⟨n, ?_⟩
  by_cases hname : name = "length"
  · subst hname
    obtain ⟨hacc, hraw⟩ := hlength rfl
    obtain ⟨p', hp', hacc', hperm', hraw'⟩ := hn.length
    obtain rfl := Option.some.inj (hp.symm.trans hp')
    exact hn.record hn.bound (hacc.trans hacc') (hperm.trans hperm') (hraw.trans hraw')
      fun name q i hfind hi => (hn.elements name q i hfind hi).1
  · refine hn.define hname fun i hi => ?_
    obtain ⟨hbelow, hloose⟩ := hn.elements name p i hp hi
    exact ⟨hbelow, hperm.trans hloose⟩

/-- A property may be made read-only. -/
lemma Tidy.freeze (h : o.Tidy B) {name : String} {p : Property} (hp : o.own? name = some p) :
    (o.define name { p with readOnly := true }).Tidy B := by
  intro hcls
  obtain ⟨n, hn⟩ := h hcls
  rw [own?_of_primitive hn.unwrapped] at hp
  exact h.redefine hp rfl (fun _ => ⟨rfl, rfl⟩) hcls

lemma find?_delete_permanent {name : String} {p : Property}
    (hp : Slots.find? name o.slots = some p) (hperm : p.permanent = true) :
    (o.delete name).2 = o := by
  unfold delete
  rw [hp]
  dsimp only
  rw [if_pos hperm]

/-- What can be deleted is gone after that. -/
lemma find?_delete_self {name : String}
    (hloose : ∀ p, Slots.find? name o.slots = some p → p.permanent = false) :
    Slots.find? name (o.delete name).2.slots = none := by
  unfold delete
  split
  · assumption
  · rename_i p hp
    rw [hloose p hp]
    show Slots.find? name (Slots.erase name o.slots) = none
    rw [Slots.find?_erase, if_pos rfl]

lemma Measured.delete (h : o.Measured B n) (name : String) : (o.delete name).2.Measured B n := by
  refine ⟨h.bound, ?_, fun name' p i hfind hi => h.elements name' p i (find?_of_delete hfind) hi,
    (sameShell_delete o name).primitive.trans h.unwrapped⟩
  obtain ⟨p, hp, hrest⟩ := h.length
  by_cases hname : name = "length"
  · subst hname
    rw [find?_delete_permanent hp hrest.2.1]
    exact ⟨p, hp, hrest⟩
  · rw [find?_delete_ne o (Ne.symm hname)]
    exact ⟨p, hp, hrest⟩

lemma Tidy.delete (h : o.Tidy B) (name : String) : (o.delete name).2.Tidy B := by
  intro hcls
  obtain ⟨n, hn⟩ := h ((sameShell_delete o name).cls ▸ hcls)
  exact ⟨n, hn.delete name⟩

end Object

namespace Heap

open Object

variable {o : Object} {n : Nat}

/-! ## Cutting and stretching -/

/-- One step of cutting an array. -/
def dropOne (length : Nat) (o : Object) (name : String) : Object :=
  match arrayIndex? name with
  | some i => if i ≥ length then (o.delete name).2 else o
  | none => o

lemma dropFrom_eq (o : Object) (length : Nat) :
    dropFrom o length = o.keys.foldl (dropOne length) o :=
  rfl

lemma dropOne_cases (length : Nat) (o : Object) (name : String) :
    dropOne length o name = o ∨ dropOne length o name = (o.delete name).2 := by
  unfold dropOne
  split
  · split_ifs
    · exact .inr rfl
    · exact .inl rfl
  · exact .inl rfl

lemma find?_of_dropOne {length : Nat} {name n : String} {p : Property}
    (h : Slots.find? n (dropOne length o name).slots = some p) :
    Slots.find? n o.slots = some p := by
  rcases dropOne_cases length o name with heq | heq <;> rw [heq] at h
  · exact h
  · exact find?_of_delete h

lemma find?_of_drop {length : Nat} {name : String} {p : Property} (names : List String) :
    ∀ {o : Object}, Slots.find? name (names.foldl (dropOne length) o).slots = some p →
      Slots.find? name o.slots = some p := by
  induction names with
  | nil => exact fun h => h
  | cons n names ih => exact fun h => find?_of_dropOne (ih h)

lemma measured_drop {length : Nat} (names : List String) : ∀ {o : Object}, o.Measured B n →
    (names.foldl (dropOne length) o).Measured B n := by
  induction names with
  | nil => exact fun h => h
  | cons name names ih =>
    intro o h
    refine ih ?_
    rcases dropOne_cases length o name with heq | heq <;> rw [heq]
    · exact h
    · exact h.delete name

/-- Elements that are listed and not below the new length are removed, by induction on the list. -/
lemma find?_drop {length i : Nat} {name : String} (hi : arrayIndex? name = some i)
    (hlength : length ≤ i) {names : List String} (hname : name ∈ names) : ∀ {o : Object},
      o.Measured B n → Slots.find? name (names.foldl (dropOne length) o).slots = none := by
  induction names with
  | nil => cases hname
  | cons first names ih =>
    intro o h
    rw [List.foldl_cons]
    by_cases hfirst : name = first
    · subst hfirst
      have hgone : Slots.find? name (dropOne length o name).slots = none := by
        unfold dropOne
        rw [hi]
        dsimp only
        rw [if_pos hlength]
        exact find?_delete_self fun p hp => (h.elements name p i hp hi).2
      cases hfind :
        Slots.find? name (names.foldl (dropOne length) (dropOne length o name)).slots with
      | none => rfl
      | some p =>
        rw [find?_of_drop names hfind] at hgone
        cases hgone
    · refine ih ((List.mem_cons.1 hname).resolve_left hfirst) ?_
      rcases dropOne_cases length o first with heq | heq <;> rw [heq]
      · exact h
      · exact h.delete first

lemma mem_keys_of_find? {name : String} {p : Property} (h : Slots.find? name o.slots = some p) :
    name ∈ o.keys := List.mem_map_of_mem (Slots.mem_of_find? h)

/-- A cut array has no elements beyond its new end. -/
lemma lt_of_dropFrom (h : o.Measured B n) {length i : Nat} {name : String} {p : Property}
    (hfind : Slots.find? name (dropFrom o length).slots = some p) (hi : arrayIndex? name = some i) :
    i < length := by
  by_contra hge
  rw [dropFrom_eq] at hfind
  have hname := mem_keys_of_find? (find?_of_drop o.keys hfind)
  rw [find?_drop hi (Nat.le_of_not_lt hge) hname h] at hfind
  cases hfind

/-- A recorded length that is above all elements. -/
lemma measured_recordLength (h : o.Measured B n) {m : Nat} (hm : B → m ≤ maxLength) {v : Value}
    (hv : v.raw = Raw.ofNat m)
    (hbelow : ∀ name q i, Slots.find? name o.slots = some q → arrayIndex? name = some i →
      B → i < m) : (recordLength o v).Measured B m := by
  obtain ⟨p, hp, hacc, hperm, -⟩ := h.length
  have hrecorded : recordLength o v = o.define "length" { p with value := v } := by
    unfold recordLength
    rw [hp]
  rw [hrecorded]
  exact h.record hm hacc hperm hv hbelow

lemma tidy_resize (h : o.Tidy B) {length : Nat} (hlength : length ≤ maxLength) (k : Label) :
    (resize o length k).Tidy B := by
  intro hcls
  obtain ⟨n, hn⟩ := h ((sameShell_resize o length k).cls ▸ hcls)
  have hdropped : (dropFrom o length).Measured B n := measured_drop o.keys hn
  exact ⟨length, measured_recordLength hdropped (fun _ => hlength) (by simp)
    fun name q i hfind hi _ => lt_of_dropFrom hn hfind hi⟩

/-! ## Extending -/

lemma arrayLength_of_measured (h : o.Measured B n) : arrayLength o = n.toUInt64.toFloat := by
  obtain ⟨p, hp, -, -, hraw⟩ := h.length
  unfold arrayLength
  rw [hp]
  dsimp only
  rw [hraw]
  rfl

lemma lt_of_arrayIndex? {name : String} {i : Nat} (h : arrayIndex? name = some i) :
    i < maxLength := by
  unfold arrayIndex? at h
  split at h
  · cases h
  · cases h
  · split at h
    · split_ifs at h with hlt
      cases h
      exact hlt
    · cases h

/-- Lengths are compared with elements as doubles. -/
lemma ranks_element (h : o.Measured B n) {name : String} {i : Nat}
    (hi : arrayIndex? name = some i) (granted : B) :
    Decimal.ofNat i ≥ n.toUInt64.toFloat ↔ n ≤ i := by
  have hlt := lt_of_arrayIndex? hi
  have hsmall : i < Nat.pow 2 53 := Nat.lt_trans hlt (by decide)
  unfold Decimal.ofNat
  rw [if_pos hsmall]
  exact toFloat_le_iff (Nat.lt_of_le_of_lt (h.bound granted) (by decide)) hsmall

/-- An array with a new element, which it has not counted yet. -/
lemma measured_count (h : o.Measured B n) {name : String} {i : Nat}
    (hi : arrayIndex? name = some i) (hge : Decimal.ofNat i ≥ n.toUInt64.toFloat) (v : Value) :
    (recordLength (o.define name (.data v)) (Raw.ofNat (i + 1))).Measured B (i + 1) := by
  obtain ⟨p, hp, hacc, hperm, -⟩ := h.length
  have hlt := lt_of_arrayIndex? hi
  have hlength : Slots.find? "length" (o.define name (.data v)).slots = some p := by
    rw [find?_define, if_neg (ne_length_of_element hi).symm, hp]
  unfold recordLength
  rw [hlength]
  refine ⟨fun _ => hlt, ⟨{ p with value := Raw.ofNat (i + 1) }, ?_, hacc, hperm, rfl⟩,
    fun name' q j hfind hj => ?_, h.unwrapped⟩
  · dsimp only
    rw [find?_define, if_pos rfl]
  · dsimp only at hfind
    rw [find?_define, if_neg (ne_length_of_element hj), find?_define] at hfind
    split_ifs at hfind with hname
    · subst hname
      cases hfind
      obtain rfl := Option.some.inj (hi.symm.trans hj)
      exact ⟨fun _ => Nat.lt_succ_self i, rfl⟩
    · obtain ⟨hbelow, hloose⟩ := h.elements name' q j hfind hj
      refine ⟨fun granted => ?_, hloose⟩
      have hn : n ≤ i := (ranks_element h hi granted).1 hge
      exact Nat.lt_succ_of_lt (Nat.lt_of_lt_of_le (hbelow granted) hn)

/-- An array counts its new elements. -/
lemma tidy_extend (h : o.Tidy B) {name : String} (hname : name ≠ "length") (v : Value) :
    (extend o name v).Tidy B := by
  intro hcls
  have harray : (o.define name (.data v)).cls = "Array" := (sameShell_extend o name v).cls ▸ hcls
  obtain ⟨n, hn⟩ := h harray
  have hlength : arrayLength (o.define name (.data v)) = n.toUInt64.toFloat := by
    rw [← arrayLength_of_measured hn]
    unfold arrayLength
    rw [find?_define, if_neg hname.symm]
  unfold extend
  dsimp only
  rw [if_pos harray, hlength]
  split
  · rename_i i hi
    split_ifs with hge
    · exact ⟨i + 1, measured_count hn hi hge v⟩
    · refine ⟨n, hn.define hname fun j hj => ⟨fun granted => ?_, rfl⟩⟩
      obtain rfl := Option.some.inj (hi.symm.trans hj)
      exact Nat.lt_of_not_le fun hle => hge ((ranks_element hn hi granted).2 hle)
  · rename_i hi
    refine ⟨n, hn.define hname fun j hj => ?_⟩
    rw [hi] at hj
    cases hj

/-! ## New arrays -/

/-- Digits are read as the number that they write. -/
lemma readDigits?_of_isDigit {cs : List Char} (hcs : cs ≠ []) (h : ∀ c ∈ cs, c.isDigit = true) :
    Decimal.readDigits? 10 cs = some (Nat.ofDigitChars 10 cs 0) := by
  have hdigit : ∀ c ∈ cs, (Decimal.radixValue? c).filter (· < 10) = some (c.toNat - 48) := by
    intro c hc
    have hisdigit := h c hc
    have hsmall : c.toNat - 48 < 10 := by
      have : c.toNat ≤ 57 := (Char.isDigit_iff_toNat.1 hisdigit).2
      omega
    simp [Decimal.radixValue?, hisdigit, hsmall]
  have hmap : cs.mapM (fun c => (Decimal.radixValue? c).filter (· < 10)) =
      some (cs.map fun c => c.toNat - 48) := by
    clear h hcs
    induction cs with
    | nil => rfl
    | cons c cs ih =>
      obtain ⟨hc, hrest⟩ := List.forall_mem_cons.1 hdigit
      rw [List.mapM_cons, hc, ih hrest]
      rfl
  unfold Decimal.readDigits?
  rw [if_neg (by simpa using hcs), hmap, Option.map_some, Decimal.valueOf, Nat.ofDigitChars,
    List.foldl_map]
  rfl

/-- The name of an index stands for this index only. -/
lemma eq_of_arrayIndex?_indexName {i j : Nat} (h : arrayIndex? (indexName i) = some j) : j = i := by
  have hdigits : Decimal.readDigits? 10 (Nat.toDigits 10 i) = some i := by
    rw [readDigits?_of_isDigit (List.ne_nil_of_length_pos Nat.length_toDigits_pos)
      fun c hc => Nat.isDigit_of_mem_toDigits (by decide) (by decide) hc,
      Nat.ofDigitChars_toDigits (by decide) (by decide)]
  unfold arrayIndex? indexName at h
  rw [String.toList_ofList] at h
  split at h
  · cases h
  · cases h
  · rw [hdigits] at h
    dsimp only at h
    split_ifs at h
    exact (Option.some.inj h).symm

lemma tidy_arrayOf (proto : Option Nat) (partition : Label) {elements : List Value}
    (h : B → elements.length ≤ maxLength) : (arrayOf proto partition elements).Tidy B := by
  intro _
  refine ⟨elements.length, h, ⟨_, rfl, rfl, rfl, rfl⟩, fun name p i hfind hi => ?_, rfl⟩
  have hmem := Slots.mem_of_find? hfind
  rcases List.mem_cons.1 hmem with heq | hmem
  · cases heq
    exact absurd rfl (ne_length_of_element hi)
  · obtain ⟨⟨v, k⟩, hk, heq⟩ := List.mem_filterMap.1 hmem
    dsimp only at heq
    split_ifs at heq
    cases heq
    obtain rfl := eq_of_arrayIndex?_indexName hi
    exact ⟨fun _ => (List.mem_zipIdx' hk).1, rfl⟩

end Heap

end Clearance
