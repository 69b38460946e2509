/-
# Where lexical paths lead

A path is known by its cleaned components (`parts`) and by whether it starts at the root. Cleaned
components name something, and those that lead up come first (`Normal`), so the text made of them
has the same components and cleaning changes nothing more. Joining a path to another one adds its
components one by one, and it does not matter whether they have been cleaned before
(`foldl_addComponent_clean`): a path stays inside every directory that it is joined to exactly if
its cleaned components never lead up.
-/
import Clearance.Path
import Mathlib.Data.List.Induction
import Mathlib.Tactic.Common

namespace Clearance.Path

/-! ## Components -/

section Split

variable (piece cs ds : List Char)

lemma splitFrom_slash (c : Char) : Text.splitFrom ['/'] 0 piece (c :: cs) =
    if c = '/' then piece.reverse :: Text.splitFrom ['/'] 0 [] cs
    else Text.splitFrom ['/'] 0 (c :: piece) cs := by
  have hprefix : ['/'].isPrefixOf (c :: cs) = decide (c = '/') := by
    rw [Bool.eq_iff_iff, List.isPrefixOf_iff_prefix]
    simp [eq_comm]
  rw [Text.splitFrom, hprefix]
  simp

lemma splitFrom_append : Text.splitFrom ['/'] 0 piece (cs ++ '/' :: ds) =
    Text.splitFrom ['/'] 0 piece cs ++ Text.splitFrom ['/'] 0 [] ds := by
  induction cs generalizing piece with
  | nil => rw [List.nil_append, splitFrom_slash, if_pos rfl]; rfl
  | cons c cs ih =>
    rw [List.cons_append, splitFrom_slash, splitFrom_slash]
    split_ifs
    · rw [ih, List.cons_append]
    · exact ih _

variable {cs}

lemma splitFrom_of_not_mem (h : '/' ∉ cs) :
    Text.splitFrom ['/'] 0 piece cs = [piece.reverse ++ cs] := by
  induction cs generalizing piece with
  | nil => simp [Text.splitFrom]
  | cons c cs ih =>
    obtain ⟨hc, hcs⟩ := not_or.1 (mt List.mem_cons.2 h)
    rw [splitFrom_slash, if_neg (Ne.symm hc), ih _ hcs]
    simp

variable {piece} in
lemma not_mem_of_mem_splitFrom (h : '/' ∉ piece) :
    ∀ l ∈ Text.splitFrom ['/'] 0 piece cs, '/' ∉ l := by
  induction cs generalizing piece with
  | nil => simpa [Text.splitFrom] using h
  | cons c cs ih =>
    rw [splitFrom_slash]
    split_ifs with hc
    · exact List.forall_mem_cons.2 ⟨by simpa using h, ih (List.not_mem_nil)⟩
    · exact ih (List.not_mem_cons_of_ne_of_not_mem (Ne.symm hc) h)

end Split

variable {p q c : String} {cs ds : List String} {rooted : Bool}

lemma components_append (p q : String) :
    components (p ++ "/" ++ q) = components p ++ components q := by
  simp only [components, Text.split, String.toList_append, List.append_assoc]
  exact (congrArg _ (splitFrom_append [] p.toList q.toList)).trans (List.map_append ..)

lemma components_of_not_mem (h : '/' ∉ c.toList) : components c = [c] := by
  simp only [components, Text.split]
  rw [splitFrom_of_not_mem [] h]
  simp

lemma slash_not_mem_of_mem_components (h : c ∈ components p) : '/' ∉ c.toList := by
  obtain ⟨l, hl, rfl⟩ := List.mem_map.1 h
  rw [String.toList_ofList]
  exact not_mem_of_mem_splitFrom (List.not_mem_nil) l hl

lemma components_intercalate (hne : cs ≠ []) (h : ∀ c ∈ cs, '/' ∉ c.toList) :
    components ("/".intercalate cs) = cs := by
  induction cs with
  | nil => exact absurd rfl hne
  | cons c cs ih =>
    obtain ⟨hc, hcs⟩ := List.forall_mem_cons.1 h
    cases cs with
    | nil => rw [String.intercalate_singleton, components_of_not_mem hc]
    | cons d ds =>
      rw [String.intercalate_cons_cons, components_append, components_of_not_mem hc,
        ih (List.cons_ne_nil _ _) hcs]
      rfl

/-! ## Cleaned components -/

/-- Components as cleaning leaves them. -/
structure Normal (rooted : Bool) (cs : List String) : Prop where
  named : ∀ c ∈ cs, c ≠ "" ∧ c ≠ here ∧ '/' ∉ c.toList
  /-- Those that lead up come first. -/
  up_first : cs.Pairwise fun a b => b = parent → a = parent
  /-- Nothing leads above the root. -/
  below_root : rooted = true → parent ∉ cs

lemma normal_nil : Normal rooted [] := ⟨nofun, .nil, nofun⟩

lemma normal_append_singleton : Normal rooted (cs ++ [c]) ↔ Normal rooted cs ∧
    (c ≠ "" ∧ c ≠ here ∧ '/' ∉ c.toList) ∧
    (c = parent → rooted = false ∧ ∀ a ∈ cs, a = parent) := by
  constructor
  · rintro ⟨hnamed, hup, hroot⟩
    obtain ⟨hcs, -, hlast⟩ := List.pairwise_append.1 hup
    refine ⟨⟨fun a ha => hnamed a (List.mem_append_left _ ha), hcs,
      fun h ha => hroot h (List.mem_append_left _ ha)⟩, hnamed c (by simp), ?_⟩
    rintro rfl
    refine ⟨?_, fun a ha => hlast a ha _ (List.mem_singleton_self _) rfl⟩
    simpa using mt hroot (by simp)
  · rintro ⟨⟨hnamed, hup, hroot⟩, hc, hparent⟩
    refine ⟨fun a ha => ?_, List.pairwise_append.2 ⟨hup, List.pairwise_singleton .., ?_⟩,
      fun h ha => ?_⟩
    · rcases List.mem_append.1 ha with ha | ha
      · exact hnamed a ha
      · exact List.mem_singleton.1 ha ▸ hc
    · rintro a ha b hb rfl
      exact (hparent (List.mem_singleton.1 hb).symm).2 a ha
    · rcases List.mem_append.1 ha with ha | ha
      · exact hroot h ha
      · rw [(hparent (List.mem_singleton.1 ha).symm).1] at h
        cases h

/-- If any component leads up, then the first one does. -/
lemma Normal.parent_not_mem (h : Normal rooted cs) (hhead : cs.head? ≠ some parent) :
    parent ∉ cs := by
  cases cs with
  | nil => exact List.not_mem_nil
  | cons c cs =>
    intro hmem
    rcases List.mem_cons.1 hmem with hc | hmem
    · exact hhead (congrArg some hc.symm)
    · exact hhead (congrArg some ((List.pairwise_cons.1 h.up_first).1 _ hmem rfl))

lemma addComponent_blank (done : List String) (h : c = "" ∨ c = here) :
    addComponent rooted done c = done := if_pos h

lemma addComponent_name (done : List String) (h : ¬(c = "" ∨ c = here)) (hc : c ≠ parent) :
    addComponent rooted done c = c :: done := by
  unfold addComponent
  rw [if_neg h, if_neg hc]

lemma addComponent_parent (done : List String) : addComponent rooted done parent =
    match done with
    | [] => if rooted then [] else [parent]
    | top :: rest => if top = parent then parent :: done else rest := by
  unfold addComponent
  exact (if_neg (by decide)).trans (if_pos rfl)

/-- Adding a component keeps the components normal. They are kept last one first. -/
lemma Normal.add {done : List String} (h : Normal rooted done.reverse) (hc : '/' ∉ c.toList) :
    Normal rooted (addComponent rooted done c).reverse := by
  by_cases hblank : c = "" ∨ c = here
  · rwa [addComponent_blank done hblank]
  by_cases hparent : c = parent
  · subst hparent
    rw [addComponent_parent]
    cases done with
    | nil =>
      cases rooted
      · exact normal_append_singleton.2 ⟨normal_nil, ⟨by decide, by decide, hc⟩, fun _ =>
          ⟨rfl, nofun⟩⟩
      · exact normal_nil
    | cons top rest =>
      rw [List.reverse_cons] at h
      obtain ⟨hrest, htop, hup⟩ := normal_append_singleton.1 h
      dsimp only
      split_ifs with htop'
      · obtain ⟨hroot, hall⟩ := hup htop'
        rw [List.reverse_cons, List.reverse_cons]
        refine normal_append_singleton.2 ⟨h, ⟨by decide, by decide, hc⟩, fun _ => ⟨hroot, ?_⟩⟩
        intro a ha
        rcases List.mem_append.1 ha with ha | ha
        · exact hall a ha
        · exact (List.mem_singleton.1 ha).trans htop'
      · exact hrest
  · rw [addComponent_name done hblank hparent, List.reverse_cons]
    exact normal_append_singleton.2 ⟨h, ⟨fun h => hblank (.inl h), fun h => hblank (.inr h), hc⟩,
      fun h => absurd h hparent⟩

lemma normal_foldl {done : List String} (h : Normal rooted done.reverse)
    (hcs : ∀ c ∈ cs, '/' ∉ c.toList) :
    Normal rooted (cs.foldl (addComponent rooted) done).reverse := by
  induction cs generalizing done with
  | nil => exact h
  | cons c cs ih =>
    obtain ⟨hc, hcs⟩ := List.forall_mem_cons.1 hcs
    exact ih (h.add hc) hcs

lemma normal_cleanComponents (hcs : ∀ c ∈ cs, '/' ∉ c.toList) :
    Normal rooted (cleanComponents rooted cs) :=
  have hnil : Normal rooted ([] : List String).reverse := normal_nil
  normal_foldl hnil hcs

/-- There is nothing to clean. -/
lemma Normal.foldl_eq (h : Normal rooted cs) : cs.foldl (addComponent rooted) [] = cs.reverse := by
  induction cs using List.reverseRecOn with
  | nil => rfl
  | append_singleton cs c ih =>
    obtain ⟨hcs, hc, hup⟩ := normal_append_singleton.1 h
    have hblank : ¬(c = "" ∨ c = here) := not_or.2 ⟨hc.1, hc.2.1⟩
    rw [List.foldl_append, ih hcs, List.reverse_append]
    show addComponent rooted cs.reverse c = c :: cs.reverse
    by_cases hparent : c = parent
    · obtain ⟨hroot, hall⟩ := hup hparent
      subst hparent
      rw [addComponent_parent]
      cases hrev : cs.reverse with
      | nil => simp [hroot]
      | cons top rest =>
        have htop : top = parent := hall top (List.mem_reverse.1 (hrev ▸ List.mem_cons_self))
        simp [htop]
    · exact addComponent_name _ hblank hparent

lemma Normal.cleanComponents_eq (h : Normal rooted cs) : cleanComponents rooted cs = cs := by
  rw [cleanComponents, h.foldl_eq, List.reverse_reverse]

/-- Components that do not lead up are added as they are. -/
lemma foldl_addComponent_of_named (done : List String) (h : Normal false cs) (hup : parent ∉ cs) :
    cs.foldl (addComponent rooted) done = cs.reverse ++ done := by
  induction cs using List.reverseRecOn with
  | nil => rfl
  | append_singleton cs c ih =>
    obtain ⟨hcs, hc, -⟩ := normal_append_singleton.1 h
    rw [List.mem_append, not_or, List.mem_singleton] at hup
    rw [List.foldl_append, ih hcs hup.1, List.reverse_append]
    exact addComponent_name _ (not_or.2 ⟨hc.1, hc.2.1⟩) (Ne.symm hup.2)

/-- Whether components are cleaned before they are added makes no difference, by induction from the
last one. -/
lemma foldl_addComponent_clean (done : List String) (hcs : ∀ c ∈ cs, '/' ∉ c.toList) :
    cs.foldl (addComponent rooted) done =
      (cleanComponents false cs).foldl (addComponent rooted) done := by
  induction cs using List.reverseRecOn with
  | nil => rfl
  | append_singleton cs c ih =>
    rw [List.forall_mem_append] at hcs
    have hnormal : Normal false (cleanComponents false cs) := normal_cleanComponents hcs.1
    unfold cleanComponents at ih hnormal ⊢
    rw [List.foldl_append, List.foldl_append, ih hcs.1]
    generalize cs.foldl (addComponent false) [] = kept at hnormal ⊢
    show addComponent rooted _ c = (addComponent false kept c).reverse.foldl _ done
    by_cases hblank : c = "" ∨ c = here
    · rw [addComponent_blank _ hblank, addComponent_blank _ hblank]
    by_cases hparent : c = parent
    · subst hparent
      rw [addComponent_parent kept]
      cases kept with
      | nil => rfl
      | cons top rest =>
        dsimp only
        split_ifs with htop
        · rw [List.reverse_cons (a := parent), List.foldl_append]
          rfl
        · -- what leads up takes back the component before it
          obtain ⟨-, hnamed, -⟩ := normal_append_singleton.1 (List.reverse_cons ▸ hnormal)
          have hadd : ∀ done', addComponent rooted done' top = top :: done' := fun done' =>
            addComponent_name done' (not_or.2 ⟨hnamed.1, hnamed.2.1⟩) htop
          rw [List.reverse_cons, List.foldl_append]
          show addComponent rooted (addComponent rooted _ top) parent = _
          rw [hadd, addComponent_parent]
          exact if_neg htop
    · rw [addComponent_name kept hblank hparent, List.reverse_cons, List.foldl_append]
      rfl

/-! ## Texts of components -/

/-- The cleaned components of a path. -/
def parts (p : String) : List String := cleanComponents (isAbsolute p) (components p)

lemma slash_not_mem_components (p : String) : ∀ c ∈ components p, '/' ∉ c.toList :=
  fun _ => slash_not_mem_of_mem_components

lemma normal_parts (p : String) : Normal (isAbsolute p) (parts p) :=
  normal_cleanComponents (slash_not_mem_components p)

lemma reverse_parts (p : String) :
    (parts p).reverse = (components p).foldl (addComponent (isAbsolute p)) [] := by
  rw [parts, cleanComponents, List.reverse_reverse]

lemma isAbsolute_append (hp : p ≠ "") : isAbsolute (p ++ q) = isAbsolute p := by
  obtain ⟨c, cs, hcs⟩ := List.exists_cons_of_ne_nil (mt String.toList_eq_nil_iff.1 hp)
  simp [isAbsolute, hcs]

lemma isAbsolute_of_not_mem (h : '/' ∉ p.toList) : isAbsolute p = false := by
  unfold isAbsolute
  cases hp : p.toList with
  | nil => rfl
  | cons c cs =>
    rw [hp] at h
    have hc : c ≠ '/' := fun hc => h (hc ▸ List.mem_cons_self)
    simpa using hc

lemma intercalate_ne_empty (h : Normal rooted cs) (hne : cs ≠ []) : "/".intercalate cs ≠ "" := by
  cases cs with
  | nil => exact absurd rfl hne
  | cons c cs =>
    have hc := (h.named c List.mem_cons_self).1
    cases cs with
    | nil => rwa [String.intercalate_singleton]
    | cons d ds =>
      rw [String.intercalate_cons_cons]
      simp [hc]

lemma isAbsolute_ofComponents (h : Normal rooted cs) :
    isAbsolute (ofComponents rooted cs) = rooted := by
  cases rooted
  · cases cs with
    | nil => rfl
    | cons c cs =>
      obtain ⟨hc, -, hslash⟩ := h.named c List.mem_cons_self
      show isAbsolute ("/".intercalate (c :: cs)) = false
      cases cs with
      | nil => rw [String.intercalate_singleton, isAbsolute_of_not_mem hslash]
      | cons d ds =>
        rw [String.intercalate_cons_cons, String.append_assoc, isAbsolute_append hc,
          isAbsolute_of_not_mem hslash]
  · exact isAbsolute_append (by decide)

/-- The components of a text made of components. -/
lemma parts_ofComponents (h : Normal rooted cs) : parts (ofComponents rooted cs) = cs := by
  have hslash : ∀ c ∈ cs, '/' ∉ c.toList := fun c hc => (h.named c hc).2.2
  rw [parts, isAbsolute_ofComponents h]
  cases rooted
  · cases cs with
    | nil => decide
    | cons c cs =>
      show cleanComponents false (components ("/".intercalate (c :: cs))) = c :: cs
      rw [components_intercalate (List.cons_ne_nil _ _) hslash, h.cleanComponents_eq]
  · have hroot : components ("/" ++ "/".intercalate cs) = "" :: components ("/".intercalate cs) :=
      components_append "" _
    show cleanComponents true (components ("/" ++ "/".intercalate cs)) = cs
    rw [hroot]
    by_cases hne : cs = []
    · subst hne
      decide
    · rw [components_intercalate hne hslash]
      exact h.cleanComponents_eq

lemma isAbsolute_clean (p : String) : isAbsolute (clean p) = isAbsolute p :=
  isAbsolute_ofComponents (normal_parts p)

lemma parts_clean (p : String) : parts (clean p) = parts p := parts_ofComponents (normal_parts p)

lemma clean_ne_empty (p : String) : clean p ≠ "" := by
  show ofComponents (isAbsolute p) (parts p) ≠ ""
  have hnormal := normal_parts p
  unfold ofComponents
  split_ifs with habs hnil
  · simp
  · decide
  · exact intercalate_ne_empty hnormal (by simpa using hnil)

lemma directory_ne_empty (p : String) : directory p ≠ "" := by
  unfold directory
  exact clean_ne_empty _

/-! ## Joining -/

section Join

variable (hp : p ≠ "")
include hp

lemma join_eq : join p q = clean (if q = "" then p else p ++ "/" ++ q) := by
  rw [join, if_neg hp]
  split_ifs <;> rfl

lemma join_ne_empty : join p q ≠ "" := join_eq (q := q) hp ▸ clean_ne_empty _

lemma isAbsolute_join : isAbsolute (join p q) = isAbsolute p := by
  rw [join_eq hp, isAbsolute_clean]
  split_ifs
  · rfl
  · rw [String.append_assoc, isAbsolute_append hp]

/-- The components of the path that is joined are added one by one. -/
lemma parts_join : parts (join p q) =
    ((components q).foldl (addComponent (isAbsolute p)) (parts p).reverse).reverse := by
  rw [join_eq hp, parts_clean]
  split_ifs with hq
  · rw [hq]
    exact (List.reverse_reverse _).symm
  · rw [reverse_parts, ← List.foldl_append, ← components_append, parts, String.append_assoc,
      isAbsolute_append hp]
    rfl

end Join

/-! ## Inside directories -/

/-- A path is a directory itself or below it. -/
def Within (d p : String) : Prop :=
  isAbsolute p = isAbsolute d ∧ parts d <+: parts p ∧ parent ∉ (parts p).drop (parts d).length

instance (d p : String) : Decidable (Within d p) := inferInstanceAs (Decidable (_ ∧ _ ∧ _))

/-- A path is directly below a directory, under a name. -/
def IsChild (d name p : String) : Prop :=
  isAbsolute p = isAbsolute d ∧ parts p = parts d ++ [name] ∧ name ≠ parent

instance (d name p : String) : Decidable (IsChild d name p) :=
  inferInstanceAs (Decidable (_ ∧ _ ∧ _))

variable {d e name : String}

lemma within_iff : Within d p ↔
    isAbsolute p = isAbsolute d ∧ ∃ rest, parts p = parts d ++ rest ∧ parent ∉ rest := by
  refine and_congr_right fun _ => ⟨?_, ?_⟩
  · rintro ⟨⟨rest, hrest⟩, hup⟩
    rw [← hrest, List.drop_left] at hup
    exact ⟨rest, hrest.symm, hup⟩
  · rintro ⟨rest, hrest, hup⟩
    rw [hrest, List.drop_left]
    exact ⟨List.prefix_append .., hup⟩

lemma Within.trans (h : Within d e) (h' : Within e p) : Within d p := by
  obtain ⟨habs, rest, hrest, hup⟩ := within_iff.1 h
  obtain ⟨habs', rest', hrest', hup'⟩ := within_iff.1 h'
  refine within_iff.2 ⟨habs'.trans habs, rest ++ rest', ?_, ?_⟩
  · rw [hrest', hrest, List.append_assoc]
  · simp [hup, hup']

lemma IsChild.within (h : IsChild d name p) : Within d p :=
  within_iff.2 ⟨h.1, [name], h.2.1, by simpa using Ne.symm h.2.2⟩

/-- Where a path leads from the directory that it is joined to. -/
def lead (p : String) : List String := cleanComponents false (components p)

lemma normal_lead (p : String) : Normal false (lead p) :=
  normal_cleanComponents (slash_not_mem_components p)

lemma lead_eq_parts (h : isAbsolute p = false) : lead p = parts p := by rw [parts, h, lead]

lemma parts_join_lead (hd : d ≠ "") (p : String) : parts (join d p) =
    ((lead p).foldl (addComponent (isAbsolute d)) (parts d).reverse).reverse := by
  rw [parts_join hd, foldl_addComponent_clean _ (slash_not_mem_components p), lead]

/-- A path that does not lead up stays inside all directories. -/
lemma within_join (hd : d ≠ "") (h : parent ∉ lead p) : Within d (join d p) := by
  refine within_iff.2 ⟨isAbsolute_join hd, lead p, ?_, h⟩
  rw [parts_join_lead hd, foldl_addComponent_of_named _ (normal_lead p) h]
  simp

/-- A path that leads up leaves one of two directories: from both of them it leads to the same
place. -/
lemma not_within_join (h : parent ∈ lead p) : ∃ d, isAbsolute d = true ∧ ¬Within d (join d p) := by
  have hhead : (lead p).head? = some parent := by
    by_contra hhead
    exact (normal_lead p).parent_not_mem hhead h
  obtain ⟨more, hmore⟩ := List.head?_eq_some_iff.1 hhead
  have hsame : ∀ d, d ≠ "" → isAbsolute d = true → (∃ c, parts d = [c] ∧ c ≠ parent) →
      parts (join d p) = (more.foldl (addComponent true) []).reverse := by
    rintro d hd habs ⟨c, hparts, hc⟩
    rw [parts_join_lead hd, hmore, habs, hparts, List.foldl_cons, List.reverse_singleton,
      addComponent_parent]
    dsimp only
    rw [if_neg hc]
  by_contra hall
  have hwithin : ∀ d, isAbsolute d = true → Within d (join d p) := fun d habs => by
    by_contra hnot
    exact hall ⟨d, habs, hnot⟩
  obtain ⟨-, ⟨rest, hrest⟩, -⟩ := hwithin "/a" (by decide)
  obtain ⟨-, ⟨rest', hrest'⟩, -⟩ := hwithin "/b" (by decide)
  have ha : parts "/a" = ["a"] := by decide
  have hb : parts "/b" = ["b"] := by decide
  rw [hsame "/a" (by decide) (by decide) ⟨"a", ha, by decide⟩, ha] at hrest
  rw [hsame "/b" (by decide) (by decide) ⟨"b", hb, by decide⟩, hb, ← hrest] at hrest'
  exact absurd (List.cons.inj hrest').1 (by decide)

/-- A single component leads to a child, unless it stands for the directory or the one above. -/
lemma isChild_join_iff (hd : d ≠ "") (hne : name ≠ "") (hslash : '/' ∉ name.toList) :
    (∃ c, IsChild d c (join d name)) ↔ name ≠ here ∧ name ≠ parent := by
  have hparts : parts (join d name) =
      (addComponent (isAbsolute d) (parts d).reverse name).reverse := by
    rw [parts_join hd, components_of_not_mem hslash]
    rfl
  constructor
  · rintro ⟨c, -, hc, hup⟩
    rw [hparts] at hc
    constructor
    · rintro rfl
      rw [addComponent_blank _ (.inr rfl), List.reverse_reverse] at hc
      simp at hc
    · rintro rfl
      have hrev := congrArg List.reverse hc
      rw [List.reverse_reverse, List.reverse_append, addComponent_parent] at hrev
      -- either nothing more is there, or what is there leads up
      cases hd' : (parts d).reverse with
      | nil =>
        rw [hd'] at hrev
        dsimp only at hrev
        split_ifs at hrev
        · exact absurd hrev (by simp)
        · exact hup (List.cons.inj hrev).1.symm
      | cons top rest =>
        rw [hd'] at hrev
        dsimp only at hrev
        split_ifs at hrev
        · exact hup (List.cons.inj hrev).1.symm
        · exact absurd (congrArg List.length hrev) (by simp; omega)
  · rintro ⟨hhere, hparent⟩
    refine ⟨name, isAbsolute_join hd, ?_, hparent⟩
    rw [hparts, addComponent_name _ (not_or.2 ⟨hne, hhere⟩) hparent, List.reverse_cons,
      List.reverse_reverse]

end Clearance.Path
