/-
# The enumerations of an object

A loop over an object goes through the names that the object and its prototypes show
(`Heap.enumerable`), `Object.keys` gives the names that the slots of the object show
(`Object.shownKeys`), and `propertyIsEnumerable` tells of a single name whether it is shown. For
objects without a text these are three views of the same: the loop goes through every name once
whose nearest property is shown, and its own names are the keys, in this order
(`enumerations_agree`).

A text lends an object properties that are no slots. The positions of the text are enumerated, but
`Object.keys` does not list them. The length of the text is hidden, but nothing lists it, so it does
not keep a loop from a length that a prototype shows.
-/
import Clearance.Proofs.Elements
import Clearance.Proofs.Listing

namespace Clearance

open Clearance.Action

/-! ## Lists of shown names -/

namespace Heap

variable {name : String} {seen seen' : List String} {l : List (String × Bool)}

/-- What is listed is the names that are shown where they are met first. -/
lemma mem_listShown : name ∈ listShown seen l ↔ name ∉ seen ∧ l.lookup name = some true := by
  induction l generalizing seen with
  | nil => simp [listShown]
  | cons e l ih =>
    obtain ⟨n, shown⟩ := e
    unfold listShown
    by_cases hname : name = n
    · subst hname
      by_cases hseen : name ∈ seen <;> cases shown <;> simp [hseen, ih, List.lookup]
    · by_cases hseen : n ∈ seen <;> cases shown <;>
        simp [hseen, ih, List.lookup, hname, beq_false_of_ne hname]

lemma nodup_listShown (seen : List String) (l : List (String × Bool)) :
    (listShown seen l).Nodup := by
  induction l generalizing seen with
  | nil => exact List.nodup_nil
  | cons e l ih =>
    obtain ⟨n, shown⟩ := e
    unfold listShown
    split_ifs
    · exact ih seen
    · refine List.nodup_cons.2 ⟨fun hmem => ?_, ih _⟩
      exact (mem_listShown.1 hmem).1 List.mem_cons_self
    · exact ih _

lemma listShown_congr (h : ∀ n, n ∈ seen ↔ n ∈ seen') (l : List (String × Bool)) :
    listShown seen l = listShown seen' l := by
  induction l generalizing seen seen' with
  | nil => rfl
  | cons e l ih =>
    obtain ⟨n, shown⟩ := e
    have hcons : ∀ m, m ∈ n :: seen ↔ m ∈ n :: seen' := fun m => by simp [h]
    simp only [listShown, List.contains_iff_mem, h n, ih h, ih hcons]

lemma listShown_append (seen : List String) (l l' : List (String × Bool)) :
    listShown seen (l ++ l') = listShown seen l ++ listShown (l.map Prod.fst ++ seen) l' := by
  induction l generalizing seen with
  | nil => rfl
  | cons e l ih =>
    obtain ⟨n, shown⟩ := e
    have hcons : ∀ m, m ∈ l.map Prod.fst ++ n :: seen ↔ m ∈ n :: (l.map Prod.fst ++ seen) := by
      simp [or_left_comm]
    have hskip : n ∈ seen → ∀ m, m ∈ l.map Prod.fst ++ seen ↔
        m ∈ n :: (l.map Prod.fst ++ seen) := by
      intro hn m
      simp only [List.mem_append, List.mem_cons]
      constructor
      · exact .inr
      · rintro (rfl | h)
        · exact .inr hn
        · exact h
    simp only [List.cons_append, listShown, List.map_cons]
    split_ifs with hseen
    · rw [ih, listShown_congr (hskip (List.contains_iff_mem.1 hseen))]
    · rw [ih, List.cons_append, listShown_congr hcons]
    · rw [ih, listShown_congr hcons]

/-- Names that are met once are listed unless they are hidden or seen. -/
lemma listShown_of_nodup (h : (l.map Prod.fst).Nodup) (seen : List String) :
    listShown seen l = (l.filter fun e => e.2 && !seen.contains e.1).map Prod.fst := by
  induction l generalizing seen with
  | nil => rfl
  | cons e l ih =>
    obtain ⟨n, shown⟩ := e
    obtain ⟨hn, hl⟩ := List.nodup_cons.1 h
    have hfilter : (l.filter fun e => e.2 && !(n :: seen).contains e.1) =
        l.filter fun e => e.2 && !seen.contains e.1 := by
      refine List.filter_congr fun e he => ?_
      have hne : e.1 ≠ n := fun heq => hn (List.mem_map.2 ⟨e, he, heq⟩)
      simp [hne]
    unfold listShown
    by_cases hseen : seen.contains n = true
    · rw [if_pos hseen, ih hl, List.filter_cons_of_neg (by simp [List.contains_iff_mem.1 hseen])]
    · rw [if_neg hseen, ih hl, hfilter]
      cases shown with
      | false => rw [List.filter_cons_of_neg (by simp)]; rfl
      | true =>
        have hnew : n ∉ seen := fun hmem => hseen (List.contains_iff_mem.2 hmem)
        rw [List.filter_cons_of_pos (by simp [hnew])]
        rfl

end Heap

/-! ## Properties that a text lends -/

namespace Object

/-- The names of the slots that are shown. -/
def shownKeys (o : Object) : List String :=
  (o.slots.filter fun slot => !slot.2.hidden).map Prod.fst

/-- The names of the positions of a wrapped text. -/
def positions (o : Object) : List String :=
  match o.text? with
  | some text => (List.range text.length).map indexName
  | none => []

/-- The name is that of the length of a text, and the object has no slot of this name. -/
def LendsLength (o : Object) (name : String) : Prop :=
  name = "length" ∧ o.text? ≠ none ∧ Slots.find? name o.slots = none

/-- The name is that of a position of a text, and the object has no slot of this name. -/
def LendsPosition (o : Object) (name : String) : Prop :=
  Slots.find? name o.slots = none ∧ ∃ text ∈ o.text?, ∃ i ∈ arrayIndex? name, i < text.length

/-- The name is that of a position of a text beyond what arrays can count. -/
def Overruns (o : Object) (name : String) : Prop :=
  ∃ text ∈ o.text?, ∃ i < text.length, maxLength ≤ i ∧ name = indexName i

/-- A property of the object, the lent length excepted. -/
def listed? (o : Object) (name : String) : Option Property :=
  if name = "length" then Slots.find? name o.slots else o.own? name

variable {o : Object} {name : String} {p : Property}

lemma mem_positions :
    name ∈ o.positions ↔ ∃ text ∈ o.text?, ∃ i < text.length, name = indexName i := by
  unfold positions
  cases o.text? with
  | none => simp
  | some text => simp [eq_comm]

lemma nodup_positions (o : Object) : o.positions.Nodup := by
  unfold positions
  split
  · exact List.nodup_range.map indexName_injective
  · exact List.nodup_nil

lemma ownListing_eq (o : Object) : Heap.ownListing o =
    o.positions.map (·, true) ++ o.slots.map fun slot => (slot.1, !slot.2.hidden) := by
  unfold Heap.ownListing positions
  cases o.text? with
  | none => rfl
  | some text => simp [Function.comp_def]

lemma lookup_slots (name : String) (slots : Slots) :
    (slots.map fun slot => (slot.1, !slot.2.hidden)).lookup name =
      (Slots.find? name slots).map (!·.hidden) := by
  induction slots with
  | nil => rfl
  | cons slot rest ih =>
    obtain ⟨n, p⟩ := slot
    by_cases hn : n = name
    · simp [Slots.find?, hn]
    · simp [Slots.find?, hn, List.lookup, beq_false_of_ne (Ne.symm hn), ih]

/-- What an object has for a name that is none of its slots. -/
lemma own?_of_find?_eq_none (h : Slots.find? name o.slots = none) (hname : name ≠ "length") :
    (∃ p, o.own? name = some p ∧ p.hidden = false ∧ o.LendsPosition name) ∨
      o.own? name = none ∧ ¬o.LendsPosition name := by
  unfold own? LendsPosition
  rw [h]
  cases htext : o.text? with
  | none => exact .inr ⟨rfl, by rintro ⟨-, text, ⟨⟩, -⟩⟩
  | some text =>
    dsimp only
    rw [if_neg hname]
    cases hindex : arrayIndex? name with
    | none => exact .inr ⟨rfl, by rintro ⟨-, _, -, i, ⟨⟩, -⟩⟩
    | some i =>
      dsimp only
      by_cases hi : i < text.length
      · rw [List.getElem?_eq_getElem (by rwa [String.length_toList])]
        exact .inl ⟨_, rfl, rfl, rfl, text, rfl, i, rfl, hi⟩
      · rw [List.getElem?_eq_none (by rw [String.length_toList]; omega)]
        refine .inr ⟨rfl, ?_⟩
        rintro ⟨-, _, ⟨⟩, _, ⟨⟩, hlt⟩
        exact hi hlt

lemma mem_positions_of_lends (h : o.LendsPosition name) : name ∈ o.positions := by
  obtain ⟨-, text, htext, i, hindex, hi⟩ := h
  exact mem_positions.2 ⟨text, htext, i, hi, (arrayIndex?_eq_some_iff.1 hindex).1⟩

/-- What is found at a position is not hidden, be it lent or a slot. -/
lemma shown_of_mem_positions (h : o.Listable) (hname : ¬o.Overruns name)
    (hposition : name ∈ o.positions) : ∃ p, o.own? name = some p ∧ p.hidden = false := by
  obtain ⟨text, htext, i, hi, rfl⟩ := mem_positions.1 hposition
  have hindex : arrayIndex? (indexName i) = some i :=
    arrayIndex?_indexName (Nat.lt_of_not_le fun hle => hname ⟨text, htext, i, hi, hle, rfl⟩)
  cases hslot : Slots.find? (indexName i) o.slots with
  | some p =>
    refine ⟨p, own?_of_find? hslot, ?_⟩
    by_contra hhidden
    have hwrapper : o.text? ≠ none := Option.ne_none_iff_exists'.2 ⟨text, htext⟩
    have hnone := h.shown hwrapper _ (Slots.mem_of_find? hslot) (by simpa using hhidden)
    cases hindex.symm.trans hnone
  | none =>
    rcases own?_of_find?_eq_none hslot (indexName_ne_length i) with ⟨p, hp, hshown, -⟩ | ⟨-, hlends⟩
    · exact ⟨p, hp, hshown⟩
    · exact absurd ⟨hslot, text, htext, i, hindex, hi⟩ hlends

/-- What an object lists are its own properties, the lent length excepted. -/
lemma lookup_ownListing (h : o.Listable) (hname : ¬o.Overruns name) :
    (Heap.ownListing o).lookup name = (o.listed? name).map (!·.hidden) := by
  rw [ownListing_eq, List.lookup_append, lookup_slots]
  by_cases hposition : name ∈ o.positions
  · have hlookup : (o.positions.map (·, true)).lookup name = some true :=
      List.lookup_graph (fun _ => true) hposition
    have hlength : name ≠ "length" := by
      obtain ⟨_, _, i, _, rfl⟩ := mem_positions.1 hposition
      exact indexName_ne_length i
    obtain ⟨p, hp, hshown⟩ := shown_of_mem_positions h hname hposition
    rw [hlookup, listed?, if_neg hlength, hp, Option.map_some, hshown]
    rfl
  · have hlookup : (o.positions.map (·, true)).lookup name = none := by
      refine List.lookup_eq_none_iff.2 fun e he => ?_
      obtain ⟨n, hn, rfl⟩ := List.mem_map.1 he
      refine bne_iff_ne.2 fun heq : name = n => hposition ?_
      rwa [heq]
    rw [hlookup, Option.none_or, listed?]
    split_ifs with hlength
    · rfl
    · cases hslot : Slots.find? name o.slots with
      | some p => rw [own?_of_find? hslot]
      | none =>
        rcases own?_of_find?_eq_none hslot hlength with ⟨p, -, -, hlends⟩ | ⟨hnone, -⟩
        · exact absurd (mem_positions_of_lends hlends) hposition
        · rw [hnone]

/-- A lent length is an own property. -/
lemma LendsLength.hasOwn (h : o.LendsLength name) : o.hasOwn name = true := by
  obtain ⟨rfl, htext, hslot⟩ := h
  obtain ⟨text, htext⟩ := Option.ne_none_iff_exists'.1 htext
  simp [Object.hasOwn, own?, hslot, htext]

/-- The names that an object lists are its positions and its slots. -/
lemma names_ownListing (o : Object) :
    (Heap.ownListing o).map Prod.fst = o.positions ++ o.keys := by
  simp [ownListing_eq, keys, Slots.names, Function.comp_def]

lemma mem_shownKeys (h : o.Listable) :
    name ∈ o.shownKeys ↔ ∃ p, Slots.find? name o.slots = some p ∧ p.hidden = false := by
  constructor
  · intro hname
    obtain ⟨⟨n, p⟩, hslot, rfl⟩ := List.mem_map.1 hname
    obtain ⟨hslot, hshown⟩ := List.mem_filter.1 hslot
    exact ⟨p, Slots.find?_of_mem h.once hslot, by simpa using hshown⟩
  · rintro ⟨p, hslot, hshown⟩
    have hmem : (name, p) ∈ o.slots.filter fun slot => !slot.2.hidden :=
      List.mem_filter.2 ⟨Slots.mem_of_find? hslot, by simp [hshown]⟩
    exact List.mem_map.2 ⟨(name, p), hmem, rfl⟩

/-- The object has a slot of each name that it shows. -/
lemma mem_keys_of_shownKeys (h : name ∈ o.shownKeys) : name ∈ o.keys := by
  obtain ⟨slot, hslot, rfl⟩ := List.mem_map.1 h
  exact List.mem_map_of_mem (List.mem_of_mem_filter hslot)

lemma hasOwn_of_mem_keys (h : name ∈ o.keys) : o.hasOwn name = true := by
  rw [hasOwn, Option.isSome_iff_ne_none]
  cases hslot : Slots.find? name o.slots with
  | some p =>
    rw [own?_of_find? hslot]
    rintro ⟨⟩
  | none => exact absurd h (Slots.find?_eq_none_iff.1 hslot)

/-- The positions of a text that is no longer than arrays are own properties. -/
lemma hasOwn_of_mem_positions (h : o.Listable) (hbound : ∀ text ∈ o.text?, text.length ≤ maxLength)
    (hposition : name ∈ o.positions) : o.hasOwn name = true := by
  have hname : ¬o.Overruns name := by
    rintro ⟨text, htext, i, hi, hle, -⟩
    have := hbound text htext
    omega
  obtain ⟨p, hp, -⟩ := shown_of_mem_positions h hname hposition
  rw [hasOwn, hp]
  rfl

/-- The object has a property of its own under the name, and it is not hidden. -/
def shows (o : Object) (name : String) : Bool :=
  match o.own? name with
  | some p => !p.hidden
  | none => false

/-- What is shown are slots and positions. -/
lemma shows_iff (h : o.Listable) :
    o.shows name = true ↔ name ∈ o.shownKeys ∨ o.LendsPosition name := by
  rw [mem_shownKeys h, shows]
  cases hslot : Slots.find? name o.slots with
  | some p =>
    have hlends : ¬o.LendsPosition name := fun hlends => by
      rw [hlends.1] at hslot
      cases hslot
    simp [own?_of_find? hslot, hlends]
  | none =>
    by_cases hname : name = "length"
    · subst hname
      have hlends : ¬o.LendsPosition "length" := by
        rintro ⟨-, text, -, i, hindex, -⟩
        rw [arrayIndex?_length] at hindex
        cases hindex
      cases htext : o.text? <;> simp [own?, hslot, htext, hlends, Property.constant]
    · rcases own?_of_find?_eq_none hslot hname with ⟨p, hp, hshown, hlends⟩ | ⟨hnone, hlends⟩
      · simp [hp, hshown, hlends]
      · simp [hnone, hlends]

/-- Every own property is listed but for a lent length. -/
lemma LendsLength.of_hasOwn (hown : o.hasOwn name = true) (hposition : name ∉ o.positions)
    (hkey : name ∉ o.keys) : o.LendsLength name := by
  have hslot := Slots.find?_eq_none_iff.2 hkey
  by_cases hname : name = "length"
  · refine ⟨hname, fun htext => ?_, hslot⟩
    simp [Object.hasOwn, own?, hslot, htext] at hown
  · rcases own?_of_find?_eq_none hslot hname with ⟨-, -, -, hlends⟩ | ⟨hnone, -⟩
    · exact absurd (mem_positions_of_lends hlends) hposition
    · rw [Object.hasOwn, hnone] at hown
      cases hown

lemma listed?_eq_own? (h : ¬o.LendsLength name) : o.listed? name = o.own? name := by
  unfold listed?
  split_ifs with hname
  · cases hslot : Slots.find? name o.slots with
    | some p => exact (own?_of_find? hslot).symm
    | none =>
      have htext : o.text? = none := by
        by_contra htext
        exact h ⟨hname, htext, hslot⟩
      simp [own?, hslot, htext]
  · rfl

lemma listed?_of_own?_eq_none (h : o.own? name = none) : o.listed? name = none := by
  rw [listed?_eq_own? fun hlends => ?_, h]
  have hown := hlends.hasOwn
  rw [hasOwn, h] at hown
  cases hown

/-- An object lists the positions of its text, and then the slots that are shown and no
positions. -/
lemma listShown_ownListing (h : o.Listable) : Heap.listShown [] (Heap.ownListing o) =
    o.positions ++ o.shownKeys.filter (· ∉ o.positions) := by
  have hpositions : (o.positions.map (·, true)).map Prod.fst = o.positions := by
    simp [Function.comp_def]
  have hslots : (o.slots.map fun slot => (slot.1, !slot.2.hidden)).map Prod.fst = o.keys := by
    simp [Function.comp_def, keys, Slots.names]
  rw [ownListing_eq, Heap.listShown_append, hpositions, List.append_nil,
    Heap.listShown_of_nodup (by rw [hpositions]; exact o.nodup_positions),
    Heap.listShown_of_nodup (by rw [hslots]; exact h.once)]
  congr 1
  · simp [List.filter_map, Function.comp_def]
  · simp [shownKeys, List.filter_map, List.filter_filter, Function.comp_def, Bool.and_comm]

end Object

/-! ## What a loop goes through -/

namespace Heap

open Object

variable {h : Heap} {id : Nat} {name : String}

/-- The first property along the prototypes that is listed, and its owner. -/
def listed? (h : Heap) (id : Nat) (name : String) : Option (Nat × Property) :=
  (h.chain id).findSome? fun j => ((h.get j).listed? name).map (j, ·)

lemma lookup_flatMap (hh : h.Listable) {js : List Nat}
    (hname : ∀ j ∈ js, ¬(h.get j).Overruns name) :
    (js.flatMap fun j => ownListing (h.get j)).lookup name =
      (js.findSome? fun j => ((h.get j).listed? name).map (j, ·)).map (!·.2.hidden) := by
  induction js with
  | nil => rfl
  | cons j js ih =>
    obtain ⟨hj, hjs⟩ := List.forall_mem_cons.1 hname
    rw [List.flatMap_cons, List.lookup_append, lookup_ownListing (hh j) hj, ih hjs,
      List.findSome?_cons]
    cases (h.get j).listed? name <;> rfl

/-- A loop goes through the names whose first listed property is shown. -/
lemma mem_enumerable (hh : h.Listable) (hname : ∀ j ∈ h.chain id, ¬(h.get j).Overruns name) :
    name ∈ h.enumerable id ↔ ∃ found ∈ h.listed? id name, found.2.hidden = false := by
  rw [enumerable, mem_listShown, lookup_flatMap hh hname, and_iff_right List.not_mem_nil,
    Option.map_eq_some_iff]
  simp only [Bool.not_eq_true', listed?, Option.mem_def]

/-- The nearest property is listed, unless it is a lent length. -/
lemma listed?_eq_find? (hlent : ∀ found ∈ h.find? id name, ¬(h.get found.1).LendsLength name) :
    h.listed? id name = h.find? id name := by
  rw [find?_eq_first?, first?] at *
  unfold listed?
  generalize h.chain id = js at *
  induction js with
  | nil => rfl
  | cons j js ih =>
    rw [List.findSome?_cons] at hlent ⊢
    rw [List.findSome?_cons]
    cases hown : (h.get j).own? name with
    | some p =>
      rw [hown] at hlent
      rw [listed?_eq_own? (hlent (j, p) rfl), hown]
      rfl
    | none =>
      rw [hown] at hlent
      rw [listed?_of_own?_eq_none hown]
      exact ih hlent

/-- The own names that a loop goes through. -/
lemma filter_hasOwn_enumerable (hh : h.Listable)
    (hbound : ∀ text ∈ (h.get id).text?, text.length ≤ maxLength)
    (hlength : (h.get id).LendsLength "length" → "length" ∉ h.enumerable id) :
    (h.enumerable id).filter (h.get id).hasOwn =
      (h.get id).positions ++ (h.get id).shownKeys.filter (· ∉ (h.get id).positions) := by
  obtain ⟨rest, hchain, -⟩ := exists_chain_eq h id
  obtain ⟨others, hothers⟩ : ∃ others, others = listShown ((ownListing (h.get id)).map Prod.fst)
    (rest.flatMap fun j => ownListing (h.get j)) := ⟨_, rfl⟩
  have henumerable : h.enumerable id = listShown [] (ownListing (h.get id)) ++ others := by
    rw [enumerable, hchain, List.flatMap_cons, listShown_append, List.append_nil, hothers]
  -- the names of the prototypes are not met in the object before
  have hinherited : others.filter (h.get id).hasOwn = [] := by
    refine List.filter_eq_nil_iff.2 fun name hname hown => ?_
    have hnew := (mem_listShown.1 (hothers ▸ hname)).1
    rw [names_ownListing, List.mem_append, not_or] at hnew
    have hlends := LendsLength.of_hasOwn hown hnew.1 hnew.2
    obtain rfl := hlends.1
    exact hlength hlends (henumerable ▸ List.mem_append_right _ hname)
  rw [henumerable, List.filter_append, hinherited, List.append_nil, listShown_ownListing (hh id),
    List.filter_eq_self]
  intro name hname
  rcases List.mem_append.1 hname with hposition | hkey
  · exact hasOwn_of_mem_positions (hh id) hbound hposition
  · exact hasOwn_of_mem_keys (mem_keys_of_shownKeys (List.mem_of_mem_filter hkey))

end Heap

/-! ## What scripts are told -/

/-- A built-in function that is called on the object with a name answers with a truth value, and
nothing changes. -/
def State.Answers (s : State) (serve : Service) (fuel : Nat) (b : Builtin) (o : Ref) (name : String)
    (answer : Bool) : Prop :=
  ∀ this v : Value, this.raw = .object o → v.raw = .string name →
    ∃ k, (Library.run b this [v]).run serve fuel s = .done ((Raw.bool answer).labeled k) s

/-- `Object.keys` of the object is a new array of the names. -/
def State.GivesKeys (s : State) (serve : Service) (fuel : Nat) (o : Ref) (names : List String) :
    Prop :=
  ∀ this v : Value, v.raw = .object o →
    ∃ k, (Library.run .keys this [v]).run serve fuel s =
      .done ((Raw.object ⟨s.store.heap.size, .plain⟩).labeled k) (s.withHeap (s.store.heap.push
        (Heap.arrayOf (some s.control.realm.arrayProto) s.control.pc
          (names.map fun name => Raw.string name))))

section

variable (s : State) (serve : Service) (fuel : Nat) (o : Ref)

lemma State.givesKeys_shownKeys :
    s.GivesKeys serve fuel o (s.store.heap.get o.id).shownKeys := by
  rintro this ⟨raw, label⟩ rfl
  exact ⟨_, rfl⟩

lemma State.answers_hasOwn (name : String) :
    s.Answers serve fuel .hasOwnProperty o name ((s.store.heap.get o.id).hasOwn name) := by
  rintro ⟨raw, label⟩ ⟨raw', label'⟩ rfl rfl
  exact ⟨_, rfl⟩

lemma State.answers_shows (name : String) :
    s.Answers serve fuel .propertyIsEnumerable o name ((s.store.heap.get o.id).shows name) := by
  rintro ⟨raw, label⟩ ⟨raw', label'⟩ rfl rfl
  have hown : (Library.ownNamed (.object o) [.string name]).run serve fuel s =
      .done ((s.store.heap.get o.id).own? name) s := rfl
  have hshown : (Library.isShown (.object o) [.string name]).run serve fuel s =
      .done (Raw.bool ((s.store.heap.get o.id).shows name)) s := by
    unfold Library.isShown Object.shows
    rw [run_bind_of_done hown]
    cases (s.store.heap.get o.id).own? name <;> rfl
  exact ⟨_, (run_bind_of_done hshown _).trans rfl⟩

end

/-! ## The enumerations of an object -/

/-- How the enumerations of an object are related. -/
structure State.Enumerates (s : State) (serve : Service) (fuel : Nat) (o : Ref) : Prop where
  /-- A loop goes through no name twice. -/
  once : (s.store.heap.enumerable o.id).Nodup
  /-- It goes through the names whose nearest property is shown, if this is no lent length. -/
  nearest : ∀ name, (∀ j ∈ s.store.heap.chain o.id, ¬(s.store.heap.get j).Overruns name) →
    (∀ found ∈ s.store.heap.find? o.id name, ¬(s.store.heap.get found.1).LendsLength name) →
      (name ∈ s.store.heap.enumerable o.id ↔
        ∃ found ∈ s.store.heap.find? o.id name, found.2.hidden = false)
  /-- A lent length is passed over. -/
  listed : ∀ name, (∀ j ∈ s.store.heap.chain o.id, ¬(s.store.heap.get j).Overruns name) →
    (name ∈ s.store.heap.enumerable o.id ↔
      ∃ found ∈ s.store.heap.listed? o.id name, found.2.hidden = false)
  /-- The keys are the slots that are shown. -/
  keys : s.GivesKeys serve fuel o (s.store.heap.get o.id).shownKeys
  owned : ∀ name, s.Answers serve fuel .hasOwnProperty o name ((s.store.heap.get o.id).hasOwn name)
  /-- What `propertyIsEnumerable` tells of is a key, or else the position of a text. -/
  shown : ∀ name, ∃ answer, s.Answers serve fuel .propertyIsEnumerable o name answer ∧
    (answer = true ↔ name ∈ (s.store.heap.get o.id).shownKeys ∨
      (s.store.heap.get o.id).LendsPosition name)
  /-- The own names of a loop are the keys, in order, if the object wraps no text. -/
  own : (s.store.heap.get o.id).text? = none →
    (s.store.heap.enumerable o.id).filter (s.store.heap.get o.id).hasOwn =
      (s.store.heap.get o.id).shownKeys
  /-- The positions of a text come before the keys. -/
  wrapped : ∀ text ∈ (s.store.heap.get o.id).text?, text.length ≤ maxLength →
    ((s.store.heap.get o.id).LendsLength "length" → "length" ∉ s.store.heap.enumerable o.id) →
      (s.store.heap.enumerable o.id).filter (s.store.heap.get o.id).hasOwn =
        (s.store.heap.get o.id).positions ++ (s.store.heap.get o.id).shownKeys.filter
          (· ∉ (s.store.heap.get o.id).positions)

/-- **Enumerations agree.** In all states of a session, those in the middle of a run included, a
loop over an object goes through every name once, and through a name if and only if its nearest
property is shown; lent lengths are passed over. What `propertyIsEnumerable` tells of are the keys
and the positions of a text, and the own names that a loop goes through are these positions and the
keys, in this order. -/
theorem enumerations_agree {hosts : Hosts} (hhosts : hosts.Formed) {s : State}
    (h : Session.Reaches hosts s) (serve : Service) (fuel : Nat) (o : Ref) :
    s.Enumerates serve fuel o := by
  have hlist := h.listable hhosts
  refine ⟨Heap.nodup_listShown _ _, fun name hname hlent => ?_,
    fun name hname => Heap.mem_enumerable hlist hname, s.givesKeys_shownKeys serve fuel o,
    s.answers_hasOwn serve fuel o,
    fun name => ⟨_, s.answers_shows serve fuel o name, Object.shows_iff (hlist o.id)⟩,
    fun htext => ?_, fun text htext hbound hlength => ?_⟩
  · rw [← Heap.listed?_eq_find? hlent]
    exact Heap.mem_enumerable hlist hname
  · have hnone : (s.store.heap.get o.id).positions = [] := by
      rw [Object.positions, htext]
    rw [Heap.filter_hasOwn_enumerable hlist]
    · simp [hnone]
    · rw [htext]
      rintro _ ⟨⟩
    · exact fun hlends => absurd htext hlends.2.1
  · refine Heap.filter_hasOwn_enumerable hlist (fun text' htext' => ?_) hlength
    rwa [Option.mem_unique htext' htext]

/-- A script that wraps a text, and lets all objects inherit a length that is shown. -/
def wrapping : Action Value :=
  evaluate "Object.prototype.length = 1; var s = new String('a');" "" 1

/-- The session after the script. -/
def wrappingSession : State :=
  (wrapping.run (machine .none 50 50) 50 (Session.fresh .standard)).state

lemma reaches_wrappingSession : Session.Reaches .none wrappingSession :=
  .between (.run 50 50 (.fresh .standard) (.enter (.evaluate ..)))

/-- The number is that of a wrapper whose position is shown but no key, and whose hidden length is
enumerated all the same. -/
def Heap.disagreesOn (h : Heap) (id : Nat) : Bool :=
  (h.get id).text? = some "a" && (h.get id).shows "0" && (h.get id).shownKeys = [] &&
    h.enumerable id = ["0", "length"] && (h.find? id "length").any (·.2.hidden)

set_option maxRecDepth 100000 in
lemma exists_disagreesOn : ∃ id, wrappingSession.store.heap.disagreesOn id = true :=
  ⟨108, by rw [wrappingSession, wrapping, evaluate_ofList]; decide +kernel⟩

/-- There is a wrapper in the session. -/
theorem enumerations_agree_on_wrapper : ∃ o : Ref,
    (wrappingSession.store.heap.get o.id).text? = some "a" ∧
      wrappingSession.Enumerates (machine .none 50 50) 50 o := by
  obtain ⟨id, hid⟩ := exists_disagreesOn
  simp only [Heap.disagreesOn, Bool.and_eq_true, decide_eq_true_eq] at hid
  exact ⟨⟨id, .plain⟩, hid.1.1.1.1, enumerations_agree formed_none reaches_wrappingSession _ _ _⟩

/-- **Wrappers are not enumerated alike.** The position of the text is shown, but it is no key, and
a loop goes through `length` although the nearest property of this name is hidden. -/
theorem wrapper_enumerations_disagree : ∃ s o, Session.Reaches .none s ∧
    s.Answers (machine .none 50 50) 50 .propertyIsEnumerable o "0" true ∧
    s.GivesKeys (machine .none 50 50) 50 o [] ∧ s.store.heap.enumerable o.id = ["0", "length"] ∧
    ∃ found ∈ s.store.heap.find? o.id "length", found.2.hidden = true := by
  obtain ⟨id, hid⟩ := exists_disagreesOn
  simp only [Heap.disagreesOn, Bool.and_eq_true, decide_eq_true_eq] at hid
  obtain ⟨⟨⟨⟨-, hshows⟩, hkeys⟩, hnames⟩, hhidden⟩ := hid
  obtain ⟨found, hfound, hhidden⟩ := (Option.any_eq_true _ _).1 hhidden
  refine ⟨wrappingSession, ⟨id, .plain⟩, reaches_wrappingSession, ?_, ?_, hnames, found, hfound,
    hhidden⟩
  · rw [← hshows]
    exact wrappingSession.answers_shows _ _ ⟨id, .plain⟩ _
  · rw [← hkeys]
    exact wrappingSession.givesKeys_shownKeys _ _ ⟨id, .plain⟩

end Clearance
