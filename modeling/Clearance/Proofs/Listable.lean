/-
# Objects whose names can be listed

An object is listable when it has every name once, and hides nothing under the name of an index if
it wraps a text: the positions of a text are listed as shown. Changes of objects keep them listable,
unless they install a hidden property under the name of an index.
-/
import Clearance.Proofs.Tidy
import Mathlib.Data.List.Nodup

namespace Clearance

namespace Slots

lemma find?_eq_none_iff {name : String} {slots : Slots} :
    find? name slots = none ↔ name ∉ names slots := by
  induction slots with
  | nil => simp [find?, names]
  | cons slot rest ih =>
    obtain ⟨n, p⟩ := slot
    by_cases hn : n = name
    · simp [find?, names, hn]
    · simpa [find?, names, hn, Ne.symm hn] using ih

/-- A slot is found under its name, if no other one has it. -/
lemma find?_of_mem {name : String} {p : Property} {slots : Slots} (h : (names slots).Nodup)
    (hslot : (name, p) ∈ slots) : find? name slots = some p := by
  induction slots with
  | nil => cases hslot
  | cons slot rest ih =>
    obtain ⟨n, q⟩ := slot
    obtain ⟨hn, hrest⟩ := List.nodup_cons.1 h
    rcases List.mem_cons.1 hslot with heq | hslot
    · cases heq
      exact if_pos rfl
    · have hne : n ≠ name := fun heq => hn (heq ▸ List.mem_map.2 ⟨_, hslot, rfl⟩)
      exact (if_neg hne).trans (ih hrest hslot)

lemma nodup_names_put {name : String} {slots : Slots} (h : (names slots).Nodup) (p : Property) :
    (names (put name p slots)).Nodup := by
  rw [names_put]
  split_ifs with hname
  · exact h
  · rw [Option.isSome_iff_ne_none, ne_eq, not_not, find?_eq_none_iff] at hname
    exact List.nodup_append.2 ⟨h, List.nodup_singleton _, fun a ha b hb => by
      rintro rfl
      exact hname (List.mem_singleton.1 hb ▸ ha)⟩

lemma nodup_names_erase {slots : Slots} (h : (names slots).Nodup) (name : String) :
    (names (erase name slots)).Nodup := by
  rw [erase_eq_filter, names_filter (fun n => n ≠ name)]
  exact h.filter _

end Slots

namespace Object

/-- An object that has every name once and hides no positions of a text. -/
structure Listable (o : Object) : Prop where
  once : o.keys.Nodup
  shown : o.text? ≠ none → ∀ slot ∈ o.slots, slot.2.hidden = true → arrayIndex? slot.1 = none

lemma nodup_keys_define {o : Object} (h : o.keys.Nodup) {name : String} {p : Property} :
    (o.define name p).keys.Nodup := Slots.nodup_names_put h p

namespace Listable

variable {o : Object} {name : String} {p : Property}

lemma of_slots_eq_nil (h : o.slots = []) : o.Listable := by
  refine ⟨?_, fun _ slot hslot => ?_⟩
  · rw [keys, h]
    exact List.nodup_nil
  · rw [h] at hslot
    cases hslot

lemma blank (cls : String) (proto : Option Nat) (partition : Label) :
    (Object.blank cls proto partition).Listable := of_slots_eq_nil rfl

/-- A property that looks hidden in an object with a text has no index for a name. -/
lemma index_of_own? (h : o.Listable) (hp : o.own? name = some p) (htext : o.text? ≠ none)
    (hhidden : p.hidden = true) : arrayIndex? name = none := by
  unfold own? at hp
  split at hp
  · rename_i q hq
    cases hp
    exact h.shown htext _ (Slots.mem_of_find? hq) hhidden
  · split at hp
    · cases hp
    · split at hp
      · rename_i hname
        rw [hname]
        exact arrayIndex?_length
      · split at hp
        · obtain ⟨c, -, rfl⟩ := Option.map_eq_some_iff.1 hp
          cases hhidden
        · cases hp

lemma define (h : o.Listable) (hp : o.text? ≠ none → p.hidden = true → arrayIndex? name = none) :
    (o.define name p).Listable := by
  refine ⟨nodup_keys_define h.once, fun htext slot hslot hhidden => ?_⟩
  rcases Slots.mem_put hslot with rfl | hslot
  · exact hp htext hhidden
  · exact h.shown htext slot hslot hhidden

/-- A property can be installed under a name that is no index. -/
lemma defineNamed (h : o.Listable) (hname : arrayIndex? name = none) (p : Property) :
    (o.define name p).Listable := h.define fun _ _ => hname

/-- An object that wraps nothing hides no positions. -/
lemma of_unwrapped (honce : o.keys.Nodup) (hprimitive : o.primitive = none) : o.Listable := by
  refine ⟨honce, fun htext => absurd ?_ htext⟩
  unfold text?
  rw [hprimitive]

/-- Any property can be installed in an object that wraps nothing. -/
lemma defineUnwrapped (h : o.Listable) (hprimitive : o.primitive = none) (name : String)
    (p : Property) : (o.define name p).Listable :=
  of_unwrapped (nodup_keys_define h.once) hprimitive

/-- A property that is shown can be installed under any name. -/
lemma defineShown (h : o.Listable) (hp : p.hidden = false) : (o.define name p).Listable :=
  h.define fun _ hhidden => absurd (hp.symm.trans hhidden) (by decide)

/-- A property can be replaced by one that is hidden like it. -/
lemma redefine (h : o.Listable) {q : Property} (hq : o.own? name = some q)
    (hp : p.hidden = q.hidden) : (o.define name p).Listable :=
  h.define fun htext hhidden => h.index_of_own? hq htext (hp ▸ hhidden)

lemma set (h : o.Listable) (name : String) (v : Value) : (o.set name v).Listable := by
  unfold Object.set
  split
  · rename_i q hq
    split_ifs
    · exact h.defineShown rfl
    · exact h.redefine (own?_of_find? hq) rfl
  · exact h.defineShown rfl

lemma delete (h : o.Listable) (name : String) : (o.delete name).2.Listable := by
  unfold Object.delete
  split
  · exact h
  · split_ifs
    · exact h
    · exact ⟨Slots.nodup_names_erase h.once name,
        fun htext slot hslot => h.shown htext slot (Slots.mem_erase hslot)⟩

end Listable

end Object

namespace Heap

open Object

variable {o : Object}

lemma listable_recordLength (h : o.Listable) (v : Value) : (recordLength o v).Listable := by
  unfold recordLength
  split
  · rename_i q hq
    exact h.redefine (own?_of_find? hq) rfl
  · exact h

lemma listable_resize (h : o.Listable) (length : Nat) (k : Label) :
    (resize o length k).Listable := by
  have hdrop : ∀ (names : List String) {o : Object}, o.Listable →
      (names.foldl (dropOne length) o).Listable := by
    intro names
    induction names with
    | nil => exact fun h => h
    | cons name names ih =>
      intro o h
      rcases dropOne_cases length o name with heq | heq <;> rw [List.foldl_cons, heq]
      · exact ih h
      · exact ih (h.delete name)
  exact listable_recordLength (hdrop o.keys h) _

lemma listable_extend (h : o.Listable) (name : String) (v : Value) :
    (extend o name v).Listable := by
  have hdefined : (o.define name (.data v)).Listable := h.defineShown rfl
  unfold extend
  dsimp only
  split_ifs
  · split
    · split_ifs
      · exact listable_recordLength hdefined _
      · exact hdefined
    · exact hdefined
  · exact hdefined

/-- All objects of a heap are listable. -/
def Listable (h : Heap) : Prop := ∀ id, (h.get id).Listable

end Heap

end Clearance
