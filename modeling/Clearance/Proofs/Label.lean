/-
# The order of labels, and lattices

Comparisons of labels only look at heights, where the absence of a label ranks with the
least one, while joins look at ranks. This file moves both to the arithmetic of heights and ranks.

A list of names makes a lattice exactly if there is a name, none is blank, and none is repeated
(`Lattice.Usable`); white space around names does not count. Otherwise one issue is reported for
each position that is at fault (`Lattice.faults`), which is found out by going through the names
once. The lattice has the names of the list, and the label of a name has the rank of its position.
Among the labels of one lattice the rank determines the label, so joins and comparisons fit
together: joins are least upper bounds, and comparisons tell labels apart, but for the absence of a
label and the least label (`Lattice.Lawful`).
-/
import Clearance.Value
import Mathlib.Data.List.Nodup
import Mathlib.Tactic.Common

namespace Clearance
namespace Label

lemma leq_iff {a b : Label} : a.leq b = true ↔ a.height ≤ b.height := by
  simp [leq]

lemma less_iff {a b : Label} : a.less b = true ↔ a.height < b.height := by
  simp [less]

lemma order_eq_iff {a b : Label} : a.order b = .eq ↔ a.height = b.height := by
  simp [order]

/-- Heights turn joins into maxima. -/
@[simp] lemma height_join (a b : Label) : (a.join b).height = max a.height b.height := by
  unfold join height
  split_ifs <;> omega

/-- Ranks turn joins into maxima. -/
lemma rank_join (a b : Label) : (a.join b).rank = max a.rank b.rank := by
  unfold join
  split_ifs <;> omega

lemma leq_refl (a : Label) : a.leq a = true := leq_iff.2 (Nat.le_refl _)

lemma leq_trans {a b c : Label} (h : a.leq b = true) (h' : b.leq c = true) : a.leq c = true :=
  leq_iff.2 (Nat.le_trans (leq_iff.1 h) (leq_iff.1 h'))

/-- The absence of a label is below every label. -/
lemma none_leq (a : Label) : none.leq a = true := leq_iff.2 (one_le_height a)

lemma leq_join_left {a b : Label} (c : Label) (h : a.leq b = true) : a.leq (b.join c) = true := by
  rw [leq_iff, height_join]
  exact Nat.le_trans (leq_iff.1 h) (Nat.le_max_left _ _)

lemma leq_of_not_less {a b : Label} (h : ¬a.less b = true) : b.leq a = true := by
  rw [less_iff] at h
  rw [leq_iff]
  omega

lemma not_less_of_leq {a b : Label} (h : a.leq b = true) : ¬b.less a = true := by
  rw [leq_iff] at h
  rw [less_iff]
  omega

lemma less_of_less_of_leq {a b c : Label} (h : a.less b = true) (h' : b.leq c = true) :
    a.less c = true :=
  less_iff.2 (Nat.lt_of_lt_of_le (less_iff.1 h) (leq_iff.1 h'))

lemma height_of_isNone {a : Label} (h : a.isNone = true) : a.height = 1 := by
  have hr : a.rank = 0 := by simpa [isNone] using h
  simp [height, hr]

end Label

namespace Value

/-- A value that is labeled carries at least the label and what it carried before. -/
@[simp] lemma height_wrap (v : Value) (k : Label) :
    (v.wrap k).label.height = max v.label.height k.height := by
  unfold wrap
  simp only []
  split_ifs with h
  · exact Label.height_join v.label k
  · have hk := Label.height_join v.label k
    have h1 := Label.one_le_height v.label
    rw [Label.less_iff, Label.height_none] at h
    show Label.none.height = _
    rw [Label.height_none]
    omega

@[simp] lemma height_labeled (r : Raw) (k : Label) : (r.labeled k).label.height = k.height := by
  have h := height_wrap (Value.plain r) k
  have h1 := Label.one_le_height k
  have h2 : (Value.plain r).label.height = 1 := rfl
  unfold Raw.labeled
  omega

@[simp] lemma labeled_raw (r : Raw) (k : Label) : (r.labeled k).raw = r := wrap_raw _ _

end Value

namespace Lattice

/-! ## Names of lattices -/

/-- The name at a position is blank, or repeats an earlier one. -/
def AtFault (names : List String) (i : Nat) : Prop :=
  ∃ name ∈ names[i]?, name = "" ∨ name ∈ names.take i

instance (names : List String) (i : Nat) : Decidable (AtFault names i) :=
  inferInstanceAs (Decidable (∃ _ ∈ _, _))

/-- What is said of a position that is at fault. -/
def fault (names : List String) (i : Nat) : String :=
  if names.getD i "" = "" then s!"labels[{i}] must be a non-empty string"
  else s!"labels[{i}] duplicates " ++ Text.quote (names.getD i "")

/-- One issue for each position that is at fault, in order. -/
def faults (names : List String) : List String :=
  ((List.range names.length).filter (AtFault names ·)).map (fault names)

/-- Names that can be those of a lattice. -/
structure Usable (names : List String) : Prop where
  some_name : names ≠ []
  not_blank : ∀ name ∈ names, name ≠ ""
  distinct : names.Nodup

lemma atFault_iff {names : List String} {i : Nat} (h : i < names.length) :
    AtFault names i ↔ names[i] = "" ∨ names[i] ∈ names.take i := by
  simp [AtFault, List.getElem?_eq_getElem h]

/-- The names of a list are distinct and not blank exactly if no position is at fault. -/
lemma forall_not_atFault_iff {names : List String} :
    (∀ i < names.length, ¬AtFault names i) ↔ (∀ name ∈ names, name ≠ "") ∧ names.Nodup := by
  constructor
  · refine fun h => ⟨fun name hname => ?_, ?_⟩
    · obtain ⟨i, hi, rfl⟩ := List.getElem_of_mem hname
      exact fun hblank => h i hi ((atFault_iff hi).2 (.inl hblank))
    · refine List.pairwise_iff_getElem.2 fun i j hi hj hij heq =>
        h j hj ((atFault_iff hj).2 (.inr ?_))
      exact List.mem_take_iff_getElem.2 ⟨i, by omega, heq⟩
  · rintro ⟨hblank, hdistinct⟩ i hi hfault
    rcases (atFault_iff hi).1 hfault with hfault | hfault
    · exact hblank _ (List.getElem_mem hi) hfault
    · obtain ⟨j, hj, heq⟩ := List.mem_take_iff_getElem.1 hfault
      have := (List.Nodup.getElem_inj_iff hdistinct).1 heq
      omega

lemma faults_eq_nil_iff {names : List String} :
    faults names = [] ↔ (∀ name ∈ names, name ≠ "") ∧ names.Nodup := by
  rw [← forall_not_atFault_iff, faults, List.map_eq_nil_iff, List.filter_eq_nil_iff]
  simp

/-- Going through the rest of the names finds the faults among them, by induction on the rest. The
names that count as seen are the earlier ones, up to blank names, which are reported for being
blank. -/
lemma issuesFrom_eq (rest done seen : List String)
    (hseen : ∀ name, name ≠ "" → (name ∈ seen ↔ name ∈ done)) :
    issuesFrom done.length seen rest =
      ((List.range' done.length rest.length).filter (AtFault (done ++ rest) ·)).map
        (fault (done ++ rest)) := by
  induction rest generalizing done seen with
  | nil => rfl
  | cons name rest ih =>
    have hname : (done ++ name :: rest)[done.length]? = some name := by simp
    have hfault : AtFault (done ++ name :: rest) done.length ↔ name = "" ∨ name ∈ done := by
      simp [AtFault]
    have hnext := fun seen' h => ih (done ++ [name]) seen' h
    simp only [List.length_append, List.length_singleton, List.append_assoc, List.singleton_append]
      at hnext
    rw [List.length_cons, List.range'_succ, List.filter_cons, issuesFrom, issue?]
    simp only [decide_eq_true_eq, hfault]
    by_cases hblank : name = ""
    · -- a blank name is not seen
      have hsame : ∀ n, n ≠ "" → (n ∈ seen ↔ n ∈ done ++ [name]) := fun n hn => by
        rw [hseen n hn]
        simp [hblank, hn]
      simp only [hblank, if_true, true_or]
      rw [hblank] at hnext hsame
      rw [hnext seen hsame, List.map_cons, fault, List.getD_eq_getElem?_getD]
      simp
    · simp only [hblank, if_false, false_or, hseen name hblank]
      by_cases hdone : name ∈ done
      · have hsame : ∀ n, n ≠ "" → (n ∈ seen ↔ n ∈ done ++ [name]) := fun n hn => by
          rw [hseen n hn, List.mem_append, List.mem_singleton]
          exact ⟨.inl, fun h => h.elim id fun h => h ▸ hdone⟩
        simp only [hdone, if_true]
        rw [hnext seen hsame, List.map_cons, fault, List.getD_eq_getElem?_getD, hname,
          Option.getD_some, if_neg hblank]
      · have hsame : ∀ n, n ≠ "" → (n ∈ name :: seen ↔ n ∈ done ++ [name]) := fun n hn => by
          rw [List.mem_cons, hseen n hn, List.mem_append, List.mem_singleton, or_comm]
        simp only [hdone, if_false]
        exact hnext (name :: seen) hsame

/-- Exactly the positions at fault are reported. -/
lemma issuesFrom_nil (names : List String) : issuesFrom 0 [] names = faults names := by
  rw [faults, List.range_eq_range']
  exact issuesFrom_eq names [] [] fun _ _ => Iff.rfl

lemma ofNames_eq (names : List String) (hne : names ≠ []) :
    ofNames names = if faults (names.map Text.trim) = [] then
        .ok ⟨(names.map Text.trim).headD "", (names.map Text.trim).tail⟩
      else .error (.invalid (faults (names.map Text.trim))) := by
  obtain ⟨name, rest, rfl⟩ := List.exists_cons_of_ne_nil hne
  unfold ofNames
  rw [List.map_cons]
  dsimp only
  rw [issuesFrom_nil]
  split
  · rename_i hnil
    rw [hnil]
    rfl
  · rename_i hnil
    rw [if_neg hnil]

/-- The names of a lattice are those of the list, trimmed. -/
lemma ofNames_eq_ok_iff {names : List String} {l : Lattice} :
    ofNames names = .ok l ↔ Usable (names.map Text.trim) ∧ l.names = names.map Text.trim := by
  by_cases hne : names = []
  · subst hne
    exact ⟨nofun, fun h => absurd rfl h.1.some_name⟩
  · have hmap : names.map Text.trim ≠ [] := by simpa using hne
    obtain ⟨least, above, htrim⟩ := List.exists_cons_of_ne_nil hmap
    rw [ofNames_eq names hne, htrim]
    split_ifs with hfaults
    · obtain ⟨hblank, hdistinct⟩ := faults_eq_nil_iff.1 hfaults
      refine ⟨?_, fun h => ?_⟩
      · rintro ⟨⟩
        exact ⟨⟨List.cons_ne_nil _ _, hblank, hdistinct⟩, rfl⟩
      · obtain ⟨hleast, habove⟩ := List.cons.inj h.2
        cases l
        cases hleast
        cases habove
        rfl
    · exact ⟨nofun, fun h =>
        absurd (faults_eq_nil_iff.2 ⟨h.1.not_blank, h.1.distinct⟩) hfaults⟩

/-! ## Labels -/

/-- The absence of a label, or a label of the lattice. -/
def Holds (l : Lattice) (k : Label) : Prop := k = .none ∨ k ∈ l.labels

variable {l : Lattice} {a b c k : Label}

lemma mem_labelsFrom_iff {names : List String} {rank : Nat} :
    k ∈ labelsFrom rank names ↔ ∃ i, names[i]? = some k.name ∧ k.rank = rank + i := by
  induction names generalizing rank with
  | nil => simp [labelsFrom]
  | cons name names ih =>
    rw [labelsFrom, List.mem_cons, ih]
    constructor
    · rintro (rfl | ⟨i, hi, hrank⟩)
      · exact ⟨0, rfl, rfl⟩
      · exact ⟨i + 1, hi, by omega⟩
    · rintro ⟨_ | i, hi, hrank⟩
      · exact .inl (by cases k; cases hi; cases hrank; rfl)
      · exact .inr ⟨i, hi, by omega⟩

lemma mem_labels_iff : k ∈ l.labels ↔ ∃ i, l.names[i]? = some k.name ∧ k.rank = 1 + i :=
  mem_labelsFrom_iff

lemma bottom_mem_labels (l : Lattice) : l.bottom ∈ l.labels := mem_labels_iff.2 ⟨0, rfl, rfl⟩

namespace Holds

/-- Within a lattice, the rank tells labels apart. -/
lemma eq_of_rank (ha : l.Holds a) (hb : l.Holds b) (h : a.rank = b.rank) : a = b := by
  rcases ha with rfl | ha <;> rcases hb with rfl | hb
  · rfl
  · obtain ⟨i, -, hrank⟩ := mem_labels_iff.1 hb
    exact absurd (h.trans hrank) (by show 0 ≠ 1 + i; omega)
  · obtain ⟨i, -, hrank⟩ := mem_labels_iff.1 ha
    exact absurd (h.symm.trans hrank) (by show 0 ≠ 1 + i; omega)
  · obtain ⟨i, hi, hrank⟩ := mem_labels_iff.1 ha
    obtain ⟨j, hj, hrank'⟩ := mem_labels_iff.1 hb
    obtain rfl : i = j := by omega
    cases a
    cases b
    cases h
    exact congrArg _ (Option.some.inj (hi.symm.trans hj))

lemma none (l : Lattice) : l.Holds .none := .inl rfl

lemma bottom (l : Lattice) : l.Holds l.bottom := .inr (bottom_mem_labels l)

lemma join (ha : l.Holds a) (hb : l.Holds b) : l.Holds (a.join b) := by
  unfold Label.join
  split_ifs
  · exact ha
  · exact hb

/-- Joins go by ranks, so an equation of joins holds if it does for maxima. -/
lemma join_congr {d : Label} (ha : l.Holds a) (hb : l.Holds b) (hc : l.Holds c) (hd : l.Holds d)
    (h : max a.rank b.rank = max c.rank d.rank) : a.join b = c.join d :=
  (ha.join hb).eq_of_rank (hc.join hd) (by rw [Label.rank_join, Label.rank_join, h])

lemma joinAll {ks : List Label} (hks : ∀ k ∈ ks, l.Holds k) : l.Holds (Label.joinAll ks) := by
  unfold Label.joinAll
  suffices h : ∀ k, l.Holds k → l.Holds (ks.foldl Label.join k) from h _ (none l)
  induction ks with
  | nil => exact fun k hk => hk
  | cons k ks ih =>
    obtain ⟨hk, hks⟩ := List.forall_mem_cons.1 hks
    exact fun k' hk' => ih hks _ (hk'.join hk)

/-- Labels that comparisons do not tell apart are the same, but for the absence of a label, which is
like the least label. -/
lemma eq_of_height (ha : l.Holds a) (hb : l.Holds b) (h : a.height = b.height) :
    a = b ∨ a = .none ∧ b = l.bottom ∨ a = l.bottom ∧ b = .none := by
  have hcases : a.rank = b.rank ∨ a.rank = 0 ∧ b.rank = 1 ∨ a.rank = 1 ∧ b.rank = 0 := by
    unfold Label.height at h
    split_ifs at h <;> omega
  rcases hcases with hrank | ⟨ha', hb'⟩ | ⟨ha', hb'⟩
  · exact .inl (ha.eq_of_rank hb hrank)
  · exact .inr (.inl ⟨ha.eq_of_rank (none l) ha', hb.eq_of_rank (bottom l) hb'⟩)
  · exact .inr (.inr ⟨ha.eq_of_rank (bottom l) ha', hb.eq_of_rank (none l) hb'⟩)

end Holds

lemma height_bottom (l : Lattice) : l.bottom.height = 1 := rfl

/-- A label is found by its name, which no other one has. -/
lemma lookup?_eq_some {name : String} {i : Nat} (hdistinct : l.names.Nodup)
    (hi : l.names[i]? = some name) : l.lookup? name = some ⟨1 + i, name⟩ := by
  have hmem : (⟨1 + i, name⟩ : Label) ∈ l.labels := mem_labels_iff.2 ⟨i, hi, rfl⟩
  obtain ⟨k, hk⟩ : ∃ k, l.lookup? name = some k := by
    refine Option.isSome_iff_exists.1 (List.find?_isSome.2 ⟨_, hmem, ?_⟩)
    exact beq_self_eq_true name
  have hname : k.name = name := by simpa using List.find?_some hk
  obtain ⟨j, hj, hrank⟩ := mem_labels_iff.1 (List.mem_of_find?_eq_some hk)
  rw [hname] at hj
  obtain rfl : i = j :=
    (List.getElem?_inj (List.getElem?_eq_some_iff.1 hi).1 hdistinct).1 (hi.trans hj.symm)
  rw [hk]
  cases k
  cases hname
  cases hrank
  rfl

lemma lookup?_eq_none {name : String} (h : name ∉ l.names) : l.lookup? name = none := by
  refine List.find?_eq_none.2 fun k hk heq => h ?_
  obtain ⟨i, hi, -⟩ := mem_labels_iff.1 hk
  exact (beq_iff_eq.1 heq) ▸ List.mem_of_getElem? hi

/-! ## Laws -/

/-- The laws of joins and comparisons, for the absence of a label and the labels of a lattice. -/
structure Lawful (l : Lattice) : Prop where
  join_comm : ∀ {a b}, l.Holds a → l.Holds b → a.join b = b.join a
  join_assoc : ∀ {a b c}, l.Holds a → l.Holds b → l.Holds c →
    (a.join b).join c = a.join (b.join c)
  join_self : ∀ {a}, l.Holds a → a.join a = a
  none_join : ∀ {a}, l.Holds a → Label.none.join a = a
  join_none : ∀ {a}, l.Holds a → a.join .none = a
  /-- Joins are labels of the lattice, and upper bounds, … -/
  holds_join : ∀ {a b}, l.Holds a → l.Holds b → l.Holds (a.join b)
  leq_join : ∀ {a b}, l.Holds a → l.Holds b →
    a.leq (a.join b) = true ∧ b.leq (a.join b) = true
  /-- … in fact the least ones. -/
  join_leq : ∀ {a b c}, l.Holds a → l.Holds b → l.Holds c →
    a.leq c = true → b.leq c = true → (a.join b).leq c = true
  leq_refl : ∀ {a}, l.Holds a → a.leq a = true
  leq_trans : ∀ {a b c}, l.Holds a → l.Holds b → l.Holds c →
    a.leq b = true → b.leq c = true → a.leq c = true
  leq_total : ∀ {a b}, l.Holds a → l.Holds b → a.leq b = true ∨ b.leq a = true
  /-- Two labels are below each other if they are the same, or one is the least label and the other
  one the absence of a label. -/
  leq_antisymm_iff : ∀ {a b}, l.Holds a → l.Holds b → (a.leq b = true ∧ b.leq a = true ↔
    a = b ∨ a = .none ∧ b = l.bottom ∨ a = l.bottom ∧ b = .none)
  none_ne_bottom : Label.none ≠ l.bottom
  less_iff : ∀ {a b}, l.Holds a → l.Holds b →
    (a.less b = true ↔ a.leq b = true ∧ ¬b.leq a = true)
  order_lt_iff : ∀ {a b}, l.Holds a → l.Holds b → (a.order b = .lt ↔ a.less b = true)
  order_eq_iff : ∀ {a b}, l.Holds a → l.Holds b →
    (a.order b = .eq ↔ a.leq b = true ∧ b.leq a = true)
  order_gt_iff : ∀ {a b}, l.Holds a → l.Holds b → (a.order b = .gt ↔ b.less a = true)
  joinAll_nil : Label.joinAll [] = .none
  joinAll_cons : ∀ {a ks}, l.Holds a → (∀ k ∈ ks, l.Holds k) →
    Label.joinAll (a :: ks) = a.join (Label.joinAll ks)
  /-- The join of a list is its least upper bound. -/
  joinAll_leq_iff : ∀ {ks c}, (∀ k ∈ ks, l.Holds k) → l.Holds c →
    ((Label.joinAll ks).leq c = true ↔ ∀ k ∈ ks, k.leq c = true)
  isBottom_iff : ∀ {a}, l.Holds a → (a.isBottom = true ↔ a.leq l.bottom = true)

lemma joinAll_cons {ks : List Label} (ha : l.Holds a) (hks : ∀ k ∈ ks, l.Holds k) :
    Label.joinAll (a :: ks) = a.join (Label.joinAll ks) := by
  -- a fold from any label is the join of that label and of the fold from none
  have hfold : ∀ k, l.Holds k → ks.foldl Label.join k = k.join (Label.joinAll ks) := by
    unfold Label.joinAll
    induction ks with
    | nil => exact fun k _ => (Label.join_none k).symm
    | cons b ks ih =>
      obtain ⟨hb, hks⟩ := List.forall_mem_cons.1 hks
      have hall : l.Holds (Label.joinAll ks) := .joinAll hks
      intro k hk
      rw [List.foldl_cons, List.foldl_cons, ih hks _ (hk.join hb),
        ih hks _ ((Holds.none l).join hb)]
      refine (hk.join hb).join_congr hall hk (((Holds.none l).join hb).join hall) ?_
      simp only [Label.rank_join]
      show max (max _ _) _ = max _ (max (max 0 _) _)
      omega
  unfold Label.joinAll at hfold ⊢
  rw [List.foldl_cons, hfold _ ((Holds.none l).join ha)]
  have hall : l.Holds (Label.joinAll ks) := .joinAll hks
  refine ((Holds.none l).join ha).join_congr hall ha hall ?_
  rw [Label.rank_join]
  show max (max 0 _) _ = _
  omega

lemma lawful (l : Lattice) : l.Lawful where
  join_comm ha hb := ha.join_congr hb hb ha (Nat.max_comm ..)
  join_assoc ha hb hc := (ha.join hb).join_congr hc ha (hb.join hc) (by
    rw [Label.rank_join, Label.rank_join, Nat.max_assoc])
  join_self _ := if_pos (Nat.le_refl _)
  none_join ha := ((Holds.none l).join ha).eq_of_rank ha (by
    rw [Label.rank_join]
    exact Nat.zero_max _)
  join_none _ := Label.join_none _
  holds_join ha hb := ha.join hb
  leq_join _ _ := by
    simp only [Label.leq_iff, Label.height_join]
    exact ⟨Nat.le_max_left .., Nat.le_max_right ..⟩
  join_leq _ _ _ ha hb := by
    rw [Label.leq_iff] at ha hb ⊢
    exact Label.height_join _ _ ▸ Nat.max_le.2 ⟨ha, hb⟩
  leq_refl _ := Label.leq_refl _
  leq_trans _ _ _ := Label.leq_trans
  leq_total _ _ := by simpa only [Label.leq_iff] using Nat.le_total _ _
  leq_antisymm_iff ha hb := by
    simp only [Label.leq_iff]
    constructor
    · exact fun h => ha.eq_of_height hb (Nat.le_antisymm h.1 h.2)
    · rintro (rfl | ⟨rfl, rfl⟩ | ⟨rfl, rfl⟩) <;> simp [height_bottom]
  none_ne_bottom h := absurd (congrArg Label.rank h) Nat.zero_ne_one
  less_iff _ _ := by
    simp only [Label.leq_iff, Label.less_iff]
    omega
  order_lt_iff _ _ := by simp [Label.order, Label.less_iff, Nat.compare_eq_lt]
  order_eq_iff _ _ := by
    rw [Label.order_eq_iff, Label.leq_iff, Label.leq_iff]
    omega
  order_gt_iff _ _ := by simp [Label.order, Label.less_iff, Nat.compare_eq_gt]
  joinAll_nil := rfl
  joinAll_cons := joinAll_cons
  joinAll_leq_iff {ks c} hks _ := by
    induction ks with
    | nil => exact iff_of_true (Label.none_leq c) (List.forall_mem_nil _)
    | cons k ks ih =>
      obtain ⟨hk, hks⟩ := List.forall_mem_cons.1 hks
      rw [joinAll_cons hk hks, List.forall_mem_cons, ← ih hks]
      simp only [Label.leq_iff, Label.height_join, Nat.max_le]
  isBottom_iff {a} _ := by
    have := Label.one_le_height a
    simp only [Label.isBottom, beq_iff_eq, Label.leq_iff, height_bottom]
    omega

/-! ## Making lattices -/

/-- What comes of a list of names. -/
structure Construction (names : List String) : Prop where
  /-- There is a lattice exactly if there are names, and they are distinct and not blank. -/
  succeeds : (∃ l, ofNames names = .ok l) ↔ Usable (names.map Text.trim)
  empty : names = [] → ofNames names = .error .empty
  /-- One issue is reported for each position that is at fault, in order. -/
  refuses : names ≠ [] → ¬Usable (names.map Text.trim) →
    ofNames names = .error (.invalid (faults (names.map Text.trim)))
  names_eq : ∀ l, ofNames names = .ok l → l.names = names.map Text.trim
  /-- The label of the name at a position has the rank of the position, counted from one. -/
  found : ∀ l, ofNames names = .ok l → ∀ i name, (names.map Text.trim)[i]? = some name →
    l.lookup? name = some ⟨1 + i, name⟩
  /-- Other names have no label. -/
  missed : ∀ l, ofNames names = .ok l → ∀ name, name ∉ names.map Text.trim → l.lookup? name = none
  lawful : ∀ l, ofNames names = .ok l → l.Lawful

/-- **Lattices are made of distinct names and obey the laws of a chain**, for every list of
names. -/
theorem construction_of_names (names : List String) : Construction names where
  succeeds := by
    constructor
    · rintro ⟨l, hl⟩
      exact (ofNames_eq_ok_iff.1 hl).1
    · intro h
      obtain ⟨least, above, htrim⟩ := List.exists_cons_of_ne_nil h.some_name
      exact ⟨⟨least, above⟩, ofNames_eq_ok_iff.2 ⟨h, htrim.symm⟩⟩
  empty h := h ▸ rfl
  refuses hne h := by
    rw [ofNames_eq names hne, if_neg]
    intro hfaults
    obtain ⟨hblank, hdistinct⟩ := faults_eq_nil_iff.1 hfaults
    exact h ⟨by simpa using hne, hblank, hdistinct⟩
  names_eq l hl := (ofNames_eq_ok_iff.1 hl).2
  found l hl i name hi := by
    obtain ⟨hnames, heq⟩ := ofNames_eq_ok_iff.1 hl
    exact lookup?_eq_some (heq ▸ hnames.distinct) (heq ▸ hi)
  missed l hl name hname := lookup?_eq_none ((ofNames_eq_ok_iff.1 hl).2 ▸ hname)
  lawful l _ := lawful l

/-- A blank name and a repeated one are reported where they stand. -/
example : faults ["L", "", "L"] =
    ["labels[1] must be a non-empty string", "labels[2] duplicates \x22L\x22"] := by decide +kernel

end Lattice

end Clearance
