/-
# Suites and their directories

Two checks keep the scripts of a suite in its directory. A manifest must not name files that lead
out of it, and names and revisions of fetched suites become single path components of plain
characters.

Files are refused by the text of their cleaned path. That text begins with a pair of dots if the
path leads up (`leaves_iff`), but also if its first component is a name that begins in this way
(`escapes_iff`): such a file is refused although it is inside every directory. No other file is
refused or accepted wrongly, so the scripts of a suite without issues are below its directory
(`issues_exact`).

A path component for a name is a single one, which only a dot and a pair of dots turn into something
that is not below the directory (`segment_named`). Both stay what they are. All other names and
revisions have their own directories, directly below the cache and directly below the directory of
the suite (`sources_inside_cache`); a suite that is called by a pair of dots takes its scripts from
next to the cache (`sources_beside_cache`). Whatever a remote service brings, the directory that is
found is that of the revision the source names or of a commit, the text of which is a component of
its own (`Commit.segment_text`).
-/
import Clearance.Proofs.Label
import Clearance.Proofs.Path
import Clearance.Suite.Cache
import Clearance.Suite.Run

namespace Clearance.Suite

open Clearance.Path

/-! ## Files that lead out -/

/-- A file is not inside the directories of suites: its path starts at the root, or its cleaned path
leads out of some directory that it is joined to. -/
def Leaves (file : String) : Prop :=
  isAbsolute file = true ∨ ∃ d, d ≠ "" ∧ ¬Within d (join d (clean file))

/-- The first component of the cleaned path is a name that begins with a pair of dots. -/
def BeginsWithDots (file : String) : Prop :=
  ∃ c ∈ (parts file).head?, parent.toList <+: c.toList ∧ c ≠ parent

instance (file : String) : Decidable (BeginsWithDots file) :=
  inferInstanceAs (Decidable (∃ _ ∈ _, _ ∧ _))

variable {file : String}

lemma leaves_iff (h : isAbsolute file = false) :
    Leaves file ↔ (parts file).head? = some parent := by
  have hclean : isAbsolute (clean file) = false := (isAbsolute_clean file).trans h
  have hlead : lead (clean file) = parts file := (lead_eq_parts hclean).trans (parts_clean file)
  constructor
  · rintro (habs | ⟨d, hd, hnot⟩)
    · exact absurd (habs.symm.trans h) (by decide)
    · by_contra hhead
      exact hnot (within_join hd (hlead ▸ (normal_parts file).parent_not_mem hhead))
  · intro hhead
    obtain ⟨d, hd, hnot⟩ := not_within_join (p := clean file) (hlead ▸ List.mem_of_mem_head? hhead)
    refine .inr ⟨d, ?_, hnot⟩
    rintro rfl
    exact absurd hd (by decide)

/-- What a path begins with before the first slash is what its first component begins with. -/
lemma prefix_append_slash_iff {xs ys zs : List Char} (h : '/' ∉ xs) :
    xs <+: ys ++ '/' :: zs ↔ xs <+: ys := by
  refine ⟨fun hprefix => ?_, fun hprefix => hprefix.trans (List.prefix_append ..)⟩
  rcases List.prefix_or_prefix_of_prefix hprefix (List.prefix_append ys ('/' :: zs)) with hle | hle
  · exact hle
  · obtain ⟨more, rfl⟩ := hle
    rw [List.prefix_append_right_inj] at hprefix
    cases more with
    | nil => simp
    | cons c more =>
      obtain rfl := (List.cons_prefix_cons.1 hprefix).1
      exact absurd (List.mem_append_right _ List.mem_cons_self) h

/-- The cleaned path begins with a pair of dots exactly if its first component does. -/
lemma prefix_clean_iff (h : isAbsolute file = false) : parent.toList <+: (clean file).toList ↔
    ∃ c ∈ (parts file).head?, parent.toList <+: c.toList := by
  have hclean : clean file = ofComponents false (parts file) := by rw [clean, h, parts, h]
  rw [hclean]
  cases parts file with
  | nil => exact iff_of_false (by decide) (by simp)
  | cons c cs =>
    have htext : ofComponents false (c :: cs) = "/".intercalate (c :: cs) := rfl
    rw [htext, List.head?_cons]
    simp only [Option.mem_def, Option.some.injEq, exists_eq_left']
    cases cs with
    | nil => rw [String.intercalate_singleton]
    | cons d ds =>
      rw [String.intercalate_cons_cons, String.append_assoc, String.toList_append,
        String.toList_append]
      exact prefix_append_slash_iff (by decide)

/-- The files that are refused. -/
lemma escapes_iff (file : String) :
    Manifest.escapes file = true ↔ Leaves file ∨ isAbsolute file = false ∧ BeginsWithDots file := by
  rw [Manifest.escapes, Bool.or_eq_true, List.isPrefixOf_iff_prefix]
  cases habs : isAbsolute file with
  | true => simp [Leaves, habs]
  | false =>
    rw [prefix_clean_iff habs, leaves_iff habs]
    simp only [Bool.false_eq_true, false_or, true_and, BeginsWithDots]
    cases (parts file).head? with
    | none => simp
    | some c =>
      simp only [Option.mem_def, Option.some.injEq, exists_eq_left']
      by_cases hc : c = parent
      · simp [hc]
      · simp [hc]

/-! ## Issues of manifests -/

/-- A case that makes sense after others with the given files. -/
structure Case.Sensible (earlier : List String) (c : Case) : Prop where
  named : c.file ≠ ""
  inside : ¬Leaves c.file
  without_dots : ¬(isAbsolute c.file = false ∧ BeginsWithDots c.file)
  fresh : c.file ∉ earlier
  expected : c.expect = .pass ∨ c.expect = .violation

namespace Manifest

/-- What is said of a case whose file is refused for its place. -/
def outside (i : Nat) (file : String) : String :=
  s!"cases[{i}] file " ++ Text.quote file ++ " must stay inside the suite"

/-- A manifest that makes sense. -/
structure Sensible (m : Manifest) : Prop where
  named : m.name ≠ ""
  ordered : m.labels = [] ∨ Lattice.Usable (m.labels.map Text.trim)
  found : ∀ source ∈ m.source, source.git ≠ ""
  some_case : m.cases ≠ []
  cases : ∀ i c, m.cases[i]? = some c → Case.Sensible ((m.cases.take i).map Case.file) c

variable {m : Manifest} {i : Nat} {seen : List String} {c : Case} {cs : List Case} {text : String}

lemma isValid_iff {e : Expectation} : e.isValid = true ↔ e = .pass ∨ e = .violation := by
  cases e <;> simp [Expectation.isValid]

lemma caseIssues_eq_nil_iff : caseIssues i seen c = [] ↔ Case.Sensible seen c := by
  have hinside := not_congr (escapes_iff c.file)
  rw [not_or] at hinside
  constructor
  · intro h
    rw [caseIssues] at h
    by_cases hfile : c.file = ""
    · rw [if_pos hfile] at h
      cases h
    · rw [if_neg hfile, List.append_eq_nil_iff, List.append_eq_nil_iff] at h
      obtain ⟨⟨hplace, hfresh⟩, hexpect⟩ := h
      obtain ⟨hin, hdots⟩ := hinside.1 (by simpa using hplace)
      exact ⟨hfile, hin, hdots, by simpa using hfresh, isValid_iff.1 (by simpa using hexpect)⟩
  · rintro ⟨hfile, hin, hdots, hfresh, hexpect⟩
    rw [caseIssues, if_neg hfile, if_neg (hinside.2 ⟨hin, hdots⟩), if_neg hfresh,
      if_pos (isValid_iff.2 hexpect)]
    rfl

/-- The issues of the cases, each with the files before it, by induction on the cases. -/
lemma mem_casesIssues_iff : text ∈ casesIssues i seen cs ↔ ∃ j c, cs[j]? = some c ∧
    text ∈ caseIssues (i + j) (((cs.take j).map Case.file).reverse ++ seen) c := by
  induction cs generalizing i seen with
  | nil => simp [casesIssues]
  | cons c cs ih =>
    have hnext :
        ∀ j, caseIssues (i + 1 + j) (((cs.take j).map Case.file).reverse ++ c.file :: seen) =
        caseIssues (i + (j + 1)) ((((c :: cs).take (j + 1)).map Case.file).reverse ++ seen) :=
      fun j => by rw [Nat.add_right_comm, Nat.add_assoc]; simp
    rw [casesIssues, List.mem_append, ih]
    simp only [hnext]
    constructor
    · rintro (h | ⟨j, c', hc', h⟩)
      · exact ⟨0, c, rfl, h⟩
      · exact ⟨j + 1, c', hc', h⟩
    · rintro ⟨_ | j, c', hc', h⟩
      · cases hc'
        exact .inl h
      · exact .inr ⟨j, c', hc', h⟩

lemma casesIssues_eq_nil_iff : casesIssues 0 [] cs = [] ↔
    ∀ i c, cs[i]? = some c → Case.Sensible ((cs.take i).map Case.file) c := by
  have hseen : ∀ i c, Case.Sensible ((cs.take i).map Case.file) c ↔
      ∀ text, text ∉ caseIssues (0 + i) (((cs.take i).map Case.file).reverse ++ []) c := by
    intro i c
    rw [← List.eq_nil_iff_forall_not_mem, caseIssues_eq_nil_iff, List.append_nil]
    exact ⟨fun h => { h with fresh := mt List.mem_reverse.1 h.fresh },
      fun h => { h with fresh := mt List.mem_reverse.2 h.fresh }⟩
  simp only [List.eq_nil_iff_forall_not_mem, mem_casesIssues_iff, hseen]
  exact ⟨fun h i c hc text htext => h text ⟨i, c, hc, htext⟩,
    fun h text ⟨i, c, hc, htext⟩ => h i c hc text htext⟩

lemma lattice_eq_ok_iff :
    (∃ l, m.lattice = .ok l) ↔ m.labels = [] ∨ Lattice.Usable (m.labels.map Text.trim) := by
  rw [lattice]
  by_cases hnil : m.labels = []
  · simp [hnil]
  · rw [if_neg (by simpa using hnil)]
    simp only [Lattice.ofNames_eq_ok_iff, hnil, false_or]
    refine ⟨fun ⟨_, h⟩ => h.1, fun h => ?_⟩
    obtain ⟨least, above, htrim⟩ := List.exists_cons_of_ne_nil h.some_name
    exact ⟨⟨least, above⟩, h, htrim.symm⟩

/-- The manifests without issues. -/
lemma issues_eq_nil_iff (m : Manifest) : m.issues = [] ↔ m.Sensible := by
  have hsource : m.source.any (·.git = "") = true ↔ ¬∀ source ∈ m.source, source.git ≠ "" := by
    cases m.source <;> simp
  rw [issues]
  simp only [List.append_eq_nil_iff, casesIssues_eq_nil_iff]
  constructor
  · rintro ⟨⟨⟨⟨hname, hlattice⟩, hgit⟩, hcases⟩, hall⟩
    refine ⟨by simpa using hname, lattice_eq_ok_iff.1 ?_, ?_, by simpa using hcases, hall⟩
    · cases hl : m.lattice with
      | ok l => exact ⟨l, rfl⟩
      | error e => rw [hl] at hlattice; cases hlattice
    · by_contra hnone
      rw [if_pos (hsource.2 hnone)] at hgit
      cases hgit
  · rintro ⟨hname, hlattice, hgit, hcases, hall⟩
    obtain ⟨l, hl⟩ := lattice_eq_ok_iff.2 hlattice
    rw [hl, if_neg hname, if_neg fun h => hsource.1 h hgit, if_neg (by simpa using hcases)]
    exact ⟨⟨⟨⟨rfl, rfl⟩, rfl⟩, rfl⟩, hall⟩

/-! ## What is said of files -/

/-- The text before the first bracket and the text behind it. -/
lemma append_bracket_inj {xs ys as bs : List Char} (hxs : ']' ∉ xs) (has : ']' ∉ as)
    (h : xs ++ ']' :: ys = as ++ ']' :: bs) : xs = as ∧ ys = bs := by
  rcases List.append_eq_append_iff.1 h with ⟨more, rfl, hmore⟩ | ⟨more, rfl, hmore⟩ <;>
    rcases more with _ | ⟨c, more⟩
  · simpa using hmore
  · obtain rfl := (List.cons.inj hmore).1
    exact absurd (List.mem_append_right _ List.mem_cons_self) has
  · simpa [eq_comm] using hmore
  · obtain rfl := (List.cons.inj hmore).1
    exact absurd (List.mem_append_right _ List.mem_cons_self) hxs

/-- A text about the case of a number. -/
def about (i : Nat) (text : String) : String := "cases[" ++ toString i ++ "]" ++ text

/-- It tells the number, and what is said of the case. -/
lemma about_inj {i j : Nat} {a b : String} (h : about i a = about j b) : i = j ∧ a = b := by
  have hdigits : ∀ n : Nat, ']' ∉ Nat.toDigits 10 n := fun n hmem =>
    absurd (Nat.isDigit_of_mem_toDigits (by decide) (by decide) hmem) (by decide)
  have hread : ∀ n : Nat, Nat.ofDigitChars 10 (Nat.toDigits 10 n) 0 = n := fun n =>
    Nat.ofDigitChars_toDigits (by decide) (by decide)
  have hlist := congrArg String.toList h
  simp only [about, String.toList_append, Nat.toString_eq_repr, Nat.toList_repr,
    List.append_assoc] at hlist
  obtain ⟨hi, ha⟩ := append_bracket_inj (hdigits i) (hdigits j) (List.append_cancel_left hlist)
  exact ⟨by rw [← hread i, hi, hread j], String.toList_inj.1 ha⟩

lemma about_eq (i : Nat) (a : String) : about i a = "cases[" ++ toString i ++ ("]" ++ a) :=
  String.append_assoc

lemma about_append (i : Nat) (a b : String) : about i (a ++ b) = about i a ++ b :=
  String.append_assoc.symm

lemma outside_eq (i : Nat) (file : String) :
    outside i file = about i (" file " ++ (Text.quote file ++ " must stay inside the suite")) := by
  rw [about_append, ← String.append_assoc, about_eq]
  rfl

/-- What is said of the place of a file is not what is said of anything else. -/
lemma outside_ne_about {j : Nat} {text : String} (h : text.toList[1]? ≠ some 'f') :
    outside i file ≠ about j text := by
  intro heq
  rw [outside_eq] at heq
  rw [← (about_inj heq).2] at h
  exact h (by simp [String.toList_append])

lemma outside_ne {text : String} (h : text.toList[5]? ≠ some '[') : outside i file ≠ text := by
  rintro rfl
  rw [outside_eq, about] at h
  exact h (by simp [String.toList_append])

lemma outside_mem_caseIssues {j : Nat} (h : outside i file ∈ caseIssues j seen c) :
    i = j ∧ escapes c.file = true := by
  have hmissing : s!"cases[{j}] missing file" = about j " missing file" :=
    (about_eq j " missing file").symm
  have hduplicate : ∀ q, s!"cases[{j}] duplicates " ++ q = about j (" duplicates " ++ q) :=
    fun q => by rw [about_append, about_eq]; rfl
  rw [caseIssues, hmissing, hduplicate] at h
  by_cases hfile : c.file = ""
  · rw [if_pos hfile, List.mem_singleton] at h
    exact absurd h (outside_ne_about (by decide))
  · rw [if_neg hfile, List.mem_append, List.mem_append, List.mem_ite_nil_right,
      List.mem_ite_nil_right, List.mem_ite_nil_left, List.mem_singleton, List.mem_singleton,
      List.mem_singleton] at h
    rcases h with (⟨hplace, h⟩ | ⟨-, h⟩) | ⟨-, h⟩
    · have hsame : outside i file = outside j c.file := h
      rw [outside_eq, outside_eq] at hsame
      exact ⟨(about_inj hsame).1, hplace⟩
    · refine absurd h (outside_ne_about ?_)
      simp [String.toList_append]
    · refine absurd h (outside_ne ?_)
      simp [String.toList_append, Text.quote]

/-- A case is reported for the place of its file exactly if the file is refused. -/
lemma outside_mem_issues_iff (hc : m.cases[i]? = some c) : outside i c.file ∈ m.issues ↔
    Leaves c.file ∨ isAbsolute c.file = false ∧ BeginsWithDots c.file := by
  rw [← escapes_iff]
  constructor
  · intro h
    rw [issues] at h
    simp only [List.mem_append] at h
    rcases h with (((h | h) | h) | h) | h
    · rw [List.mem_ite_nil_right, List.mem_singleton] at h
      exact absurd h.2 (outside_ne (by decide))
    · cases hl : m.lattice with
      | ok l => rw [hl] at h; cases h
      | error e =>
        rw [hl, List.mem_singleton] at h
        exact absurd h (outside_ne (by simp [String.toList_append]))
    · rw [List.mem_ite_nil_right, List.mem_singleton] at h
      exact absurd h.2 (outside_ne (by decide))
    · rw [List.mem_ite_nil_right, List.mem_singleton] at h
      exact absurd h.2 (outside_ne (by decide))
    · obtain ⟨j, c', hc', h⟩ := mem_casesIssues_iff.1 h
      obtain ⟨rfl, hplace⟩ := outside_mem_caseIssues h
      rw [Nat.zero_add, hc'] at hc
      rwa [← Option.some.inj hc]
  · intro h
    have hfile : c.file ≠ "" := by
      intro hfile
      rw [hfile] at h
      exact absurd h (by decide)
    refine List.mem_append_right _ (mem_casesIssues_iff.2 ⟨i, c, hc, ?_⟩)
    rw [Nat.zero_add, caseIssues, if_neg hfile, if_pos h]
    exact List.mem_append_left _ (List.mem_append_left _ (List.mem_singleton_self _))

end Manifest

/-! ## Path components for names -/

/-- The character that stands for another one in a path component. -/
def plainChar (c : Char) : Char := if isPlainChar c then c else '_'

lemma isPlainChar_plainChar (c : Char) : isPlainChar (plainChar c) = true := by
  unfold plainChar
  split_ifs with h
  · exact h
  · decide

lemma plainChar_eq_dot_iff {c : Char} : plainChar c = '.' ↔ c = '.' := by
  unfold plainChar
  split_ifs with h
  · rfl
  · refine ⟨fun h' => absurd h' (by decide), ?_⟩
    rintro rfl
    exact absurd h (by decide)

lemma segment_eq (name : String) : segment name =
    if Text.trim name = "" then "_" else String.ofList ((Text.trim name).toList.map plainChar) := by
  unfold segment
  split
  · rename_i hnil
    rw [if_pos (String.toList_eq_nil_iff.1 hnil)]
  · rename_i hcons
    rw [if_neg fun h => hcons (String.toList_eq_nil_iff.2 h)]
    rfl

lemma segment_ne_empty (name : String) : segment name ≠ "" := by
  rw [segment_eq]
  split_ifs with h
  · decide
  · intro hempty
    have hnil := String.toList_eq_nil_iff.2 hempty
    rw [String.toList_ofList, List.map_eq_nil_iff, String.toList_eq_nil_iff] at hnil
    exact h hnil

lemma isPlainChar_of_mem_segment {name : String} {c : Char} (h : c ∈ (segment name).toList) :
    isPlainChar c = true := by
  rw [segment_eq] at h
  split_ifs at h
  · rw [List.mem_singleton.1 h]
    decide
  · rw [String.toList_ofList] at h
    obtain ⟨d, -, rfl⟩ := List.mem_map.1 h
    exact isPlainChar_plainChar d

lemma slash_not_mem_segment (name : String) : '/' ∉ (segment name).toList := fun h =>
  absurd (isPlainChar_of_mem_segment h) (by decide)

/-- Only dots become dots. -/
lemma segment_eq_iff {name dots : String} (hne : dots ≠ "") (hdots : ∀ c ∈ dots.toList, c = '.') :
    segment name = dots ↔ Text.trim name = dots := by
  have hmap : ∀ cs ds : List Char, (∀ c ∈ ds, c = '.') → (cs.map plainChar = ds ↔ cs = ds) := by
    intro cs
    induction cs with
    | nil => exact fun ds _ => by simp
    | cons c cs ih =>
      rintro (_ | ⟨d, ds⟩) hds
      · simp
      · obtain ⟨hd, hds⟩ := List.forall_mem_cons.1 hds
        rw [hd, List.map_cons, List.cons.injEq, List.cons.injEq, ih ds hds, plainChar_eq_dot_iff]
  rw [segment_eq]
  split_ifs with h
  · rw [h]
    refine iff_of_false (fun h' => ?_) (Ne.symm hne)
    subst h'
    exact absurd (hdots '_' (List.mem_singleton_self _)) (by decide)
  · rw [← String.toList_inj, String.toList_ofList, hmap _ _ hdots, String.toList_inj]

/-- The component for a name is a single one of plain characters. It stands for the directory itself
or for the one above only if the name does. -/
lemma segment_named (name : String) : segment name ≠ "" ∧
    (∀ c ∈ (segment name).toList, isPlainChar c = true) ∧
    components (segment name) = [segment name] ∧
    (segment name = here ↔ Text.trim name = here) ∧
    (segment name = parent ↔ Text.trim name = parent) :=
  ⟨segment_ne_empty name, fun _ => isPlainChar_of_mem_segment,
    components_of_not_mem (slash_not_mem_segment name),
    segment_eq_iff (by decide) (by simp [here]), segment_eq_iff (by decide) (by simp [parent])⟩

/-! ## Directories of sources -/

/-- A name that stands for neither a directory itself nor the one above. -/
def IsProper (name : String) : Prop := Text.trim name ≠ here ∧ Text.trim name ≠ parent

instance (name : String) : Decidable (IsProper name) := inferInstanceAs (Decidable (_ ∧ _))

variable {cache name rev : String}

/-- The directory for a proper name is directly below the one that it is made in. -/
lemma isChild_segment_iff {d : String} (hd : d ≠ "") (name : String) :
    (∃ c, IsChild d c (join d (segment name))) ↔ IsProper name := by
  obtain ⟨hne, -, -, hhere, hparent⟩ := segment_named name
  rw [isChild_join_iff hd hne (slash_not_mem_segment name), Ne, hhere, Ne, hparent, IsProper]

lemma baseDirectory_ne_empty (hcache : cache ≠ "") (name : String) :
    baseDirectory cache name ≠ "" :=
  join_ne_empty hcache

/-! ### Commits -/

/-- The texts of commits are made of digits and letters. -/
lemma Commit.mem_text {commit : Commit} {c : Char} (h : c ∈ commit.text.toList) :
    isPlainChar c = true ∧ Text.isBlank c = false ∧ c ≠ '.' := by
  have hdigit : ∀ d < 16, isPlainChar (Text.hexDigit d) = true ∧
      Text.isBlank (Text.hexDigit d) = false ∧ Text.hexDigit d ≠ '.' := by decide
  have hdigits : ∀ width n, ∀ c ∈ Text.hexDigits width n, ∃ d < 16, c = Text.hexDigit d := by
    intro width
    induction width with
    | zero => exact fun n c hc => nomatch hc
    | succ width ih =>
      intro n c hc
      rcases List.mem_append.1 hc with hc | hc
      · exact ih _ c hc
      · exact ⟨n % 16, Nat.mod_lt _ (by decide), List.mem_singleton.1 hc⟩
  rw [text, String.toList_ofList] at h
  obtain ⟨d, hd, rfl⟩ := hdigits _ _ c h
  exact hdigit d hd

lemma Commit.trim_text (commit : Commit) : Text.trim commit.text = commit.text := by
  rw [Text.trim, Text.trimList_eq_self fun c hc => (mem_text hc).2.1, String.ofList_toList]

lemma Commit.length_text (commit : Commit) : commit.text.toList.length = 40 := by
  have hlength : ∀ width n, (Text.hexDigits width n).length = width := by
    intro width
    induction width with
    | zero => exact fun _ => rfl
    | succ width ih => exact fun n => by rw [Text.hexDigits, List.length_append, ih]; rfl
  rw [text, String.toList_ofList, hlength]

/-- The text of a commit is its own path component, and a proper one. -/
lemma Commit.segment_text (commit : Commit) : segment commit.text = commit.text ∧
    IsProper commit.text := by
  have hne : ∀ text : String, text.toList.length ≠ 40 → commit.text ≠ text := by
    rintro _ hlength rfl
    exact hlength commit.length_text
  rw [IsProper, trim_text]
  refine ⟨?_, hne here (by decide), hne parent (by decide)⟩
  have hplain : commit.text.toList.map plainChar = commit.text.toList :=
    (List.map_congr_left fun c hc => if_pos (mem_text hc).1).trans (List.map_id _)
  rw [segment_eq, trim_text, if_neg (hne "" (by decide)), hplain, String.ofList_toList]

/-! ### What is found -/

/-- A revision of a source: the one that it names, or a commit. -/
def Source.Names (source : Source) (revision : String) : Prop :=
  source.rev ≠ "" ∧ revision = source.rev ∨ ∃ commit : Commit, revision = commit.text

lemma Source.Names.isProper {source : Source} {revision : String} (h : source.Names revision)
    (hrev : IsProper source.rev) : IsProper revision := by
  rcases h with ⟨-, rfl⟩ | ⟨commit, rfl⟩
  · exact hrev
  · exact commit.segment_text.2

/-- Scripts that have been brought are in the directory for a commit. -/
lemma Remote.checkOut_eq_ok {remote : Remote} {disk : Disk} {base : String} {source : Source}
    {c : Checkout} (h : remote.checkOut disk base source = .ok (.ok c)) :
    ∃ commit : Commit, c = ⟨checkoutDirectory base commit.text, commit.text⟩ := by
  unfold checkOut at h
  generalize remote.bring base source = brought at h
  rcases brought with e | ⟨directory, clone, commit⟩
  · cases h
  · refine ⟨commit, ?_⟩
    dsimp only [bind, Except.bind] at h
    generalize isThere disk base (checkoutDirectory base commit.text) = there at h
    rcases there with p | _ | _
    · cases h
    · generalize remote.install source directory clone commit _ = installed at h
      rcases installed with e | _
      · cases h
      · exact (Except.ok.inj (Except.ok.inj h)).symm
    · exact (Except.ok.inj (Except.ok.inj h)).symm

/-- Scripts that have been found are in the directory for their revision. -/
lemma Remote.fetch_eq_ok {remote : Remote} {disk : Disk} {m : Manifest} {source : Source}
    {c : Checkout} (hsource : m.source = some source)
    (h : remote.fetch disk m cache = .ok (.ok c)) :
    cache ≠ "" ∧ source.Names c.revision ∧
      c.directory = checkoutDirectory (baseDirectory cache m.name) c.revision := by
  have hbrought : remote.checkOut disk (baseDirectory cache m.name) source = .ok (.ok c) →
      source.Names c.revision ∧
        c.directory = checkoutDirectory (baseDirectory cache m.name) c.revision := by
    intro h
    obtain ⟨commit, rfl⟩ := checkOut_eq_ok h
    exact ⟨.inr ⟨commit, rfl⟩, rfl⟩
  unfold fetch at h
  rw [hsource] at h
  dsimp only [bind, Except.bind] at h
  by_cases hcache : cache = ""
  · rw [if_pos hcache] at h
    cases h
  · rw [if_neg hcache] at h
    refine ⟨hcache, ?_⟩
    generalize obstacle? disk (ancestry (baseDirectory cache m.name)) = o at h
    rcases o with p | _ | ⟨p, reason⟩
    · cases h
    · by_cases hrev : source.rev = ""
      · rw [if_pos hrev] at h
        exact hbrought h
      · rw [if_neg hrev] at h
        generalize isThere disk (baseDirectory cache m.name) _ = there at h
        rcases there with p | _ | _
        · cases h
        · exact hbrought h
        · obtain rfl := Except.ok.inj (Except.ok.inj h)
          exact ⟨.inl ⟨hrev, rfl⟩, rfl⟩
    · cases h

/-- Scripts are always found somewhere. -/
lemma Remote.fetched_directory_ne_empty {remote : Remote} {disk : Disk} {m : Manifest}
    {c : Checkout} (h : remote.fetch disk m cache = .ok (.ok c)) : c.directory ≠ "" := by
  cases hsource : m.source with
  | none =>
    unfold fetch at h
    rw [hsource] at h
    have hfound : ⟨m.directory, ""⟩ = c := Except.ok.inj (Except.ok.inj h)
    rw [← hfound]
    dsimp only [Manifest.directory]
    exact Path.directory_ne_empty m.path
  | some source =>
    obtain ⟨hcache, -, hdirectory⟩ := fetch_eq_ok hsource h
    rw [hdirectory]
    exact join_ne_empty (baseDirectory_ne_empty hcache _)

/-- The script of a case that makes sense is inside every directory. -/
lemma within_casePath {d : String} {m : Manifest} {c : Case} (h : m.Sensible) (hc : c ∈ m.cases)
    (hd : d ≠ "") : Within d (casePath d c) := by
  obtain ⟨i, hi⟩ := List.mem_iff_getElem?.1 hc
  have hinside := (h.cases i c hi).inside
  have habs : isAbsolute c.file = false := by
    by_contra habs
    exact hinside (.inl (by simpa using habs))
  refine within_join hd ?_
  rw [lead_eq_parts habs]
  exact (normal_parts c.file).parent_not_mem (mt (leaves_iff habs).2 hinside)

/-- A suite that has been loaded makes sense. -/
lemma Manifest.sensible_of_load {path : String} {e : Entry} {m : Manifest}
    (h : load path e = .ok m) :
    m.Sensible := by
  rw [← Manifest.issues_eq_nil_iff]
  cases e with
  | absent reason => cases h
  | directory => cases h
  | file s =>
    change ofText path s = .ok m at h
    unfold ofText at h
    generalize Yaml.read s = reading at h
    rcases reading with _ | _ | d
    · cases h
    · cases h
    · dsimp only at h
      generalize Manifest.readManifest path d = written at h
      rcases written with _ | w
      · cases h
      · dsimp only at h
        generalize w.trimmed = t at h
        cases hissues : t.issues with
        | nil =>
          rw [hissues] at h
          obtain rfl : t = m := Except.ok.inj h
          exact hissues
        | cons issue issues =>
          rw [hissues] at h
          cases h

/-! ## Accepted manifests -/

/-- Which files are reported for their place, which manifests are accepted, and where the scripts of
accepted ones are. -/
theorem issues_exact (m : Manifest) :
    (∀ i c, m.cases[i]? = some c → (Manifest.outside i c.file ∈ m.issues ↔
      Leaves c.file ∨ isAbsolute c.file = false ∧ BeginsWithDots c.file)) ∧
    (m.issues = [] ↔ m.Sensible) ∧
    (∀ path e, load path e = .ok m → m.issues = []) ∧
    (m.issues = [] → ∀ d, d ≠ "" → ∀ c ∈ m.cases, Within d (casePath d c)) ∧
    ∀ (remote : Remote) disk cache found, m.issues = [] →
      remote.fetch disk m cache = .ok (.ok found) →
      ∀ c ∈ m.cases, Within found.directory (casePath found.directory c) := by
  have hsensible := Manifest.issues_eq_nil_iff m
  refine ⟨fun i c => Manifest.outside_mem_issues_iff, hsensible, fun path e h => ?_, ?_, ?_⟩
  · exact hsensible.2 (Manifest.sensible_of_load h)
  · exact fun h d hd c hc => within_casePath (hsensible.1 h) hc hd
  · exact fun _ disk cache found h hfound c hc =>
      within_casePath (hsensible.1 h) hc (Remote.fetched_directory_ne_empty hfound)

/-- A manifest with scripts next to it and further down. -/
def sample : Manifest :=
  ⟨"/s/suite.yml", "s", ["L", "H"], none, [⟨"a.js", .pass⟩, ⟨"x/../b/./c.js", .violation⟩]⟩

theorem issues_exact_sample : sample.issues = [] ∧
    Within "/s" (casePath "/s" ⟨"x/../b/./c.js", .violation⟩) :=
  have hnone : sample.issues = [] := by decide +kernel
  ⟨hnone, (issues_exact sample).2.2.2.1 hnone "/s" (by decide) _ (by simp [sample])⟩

/-- A file whose name begins with a pair of dots is refused, although it is inside every
directory. -/
theorem dotted_name_refused :
    Manifest.outside 0 "..ok.js" ∈
      (⟨"/s/suite.yml", "s", [], none, [⟨"..ok.js", .pass⟩]⟩ : Manifest).issues ∧
    ¬Leaves "..ok.js" ∧ ∀ d, d ≠ "" → Within d (casePath d ⟨"..ok.js", .pass⟩) :=
  ⟨by decide +kernel, mt (leaves_iff (by decide)).1 (by decide),
    fun _ hd => within_join hd (by decide)⟩

/-! ## Scripts in the cache -/

/-- Where the scripts of a fetched suite are, whatever brings sources. The directories of the suite
and of the revision are directly below the ones that they are made in, and so the scripts of all
suites whose names and revisions are proper are in the cache, below the directory of the suite. -/
theorem sources_inside_cache (cache : String) (hcache : cache ≠ "") :
    (∀ text, segment text ≠ "" ∧ (∀ c ∈ (segment text).toList, isPlainChar c = true) ∧
      components (segment text) = [segment text] ∧
      (segment text = here ↔ Text.trim text = here) ∧
      (segment text = parent ↔ Text.trim text = parent)) ∧
    (∀ name, (∃ c, IsChild cache c (baseDirectory cache name)) ↔ IsProper name) ∧
    (∀ name rev, (∃ c, IsChild (baseDirectory cache name) c
      (checkoutDirectory (baseDirectory cache name) rev)) ↔ IsProper rev) ∧
    (∀ commit : Commit, segment commit.text = commit.text ∧ IsProper commit.text) ∧
    ∀ (remote : Remote) disk m source found, m.source = some source →
      remote.fetch disk m cache = .ok (.ok found) →
      source.Names found.revision ∧
      found.directory = checkoutDirectory (baseDirectory cache m.name) found.revision ∧
      (m.issues = [] → IsProper m.name → IsProper source.rev → ∀ c ∈ m.cases,
        Within cache (casePath found.directory c) ∧
        Within (baseDirectory cache m.name) (casePath found.directory c)) := by
  have hbase : ∀ name, (∃ c, IsChild cache c (baseDirectory cache name)) ↔ IsProper name :=
    isChild_segment_iff hcache
  have hcheckout : ∀ name rev, (∃ c, IsChild (baseDirectory cache name) c
      (checkoutDirectory (baseDirectory cache name) rev)) ↔ IsProper rev :=
    fun name => isChild_segment_iff (baseDirectory_ne_empty hcache name)
  refine ⟨segment_named, hbase, hcheckout, Commit.segment_text,
    fun remote disk m source found hsource hfound => ?_⟩
  obtain ⟨-, hrevision, hdirectory⟩ := Remote.fetch_eq_ok hsource hfound
  refine ⟨hrevision, hdirectory, fun hissues hname hrev c hc => ?_⟩
  obtain ⟨_, hname⟩ := (hbase m.name).2 hname
  obtain ⟨_, hrev⟩ := (hcheckout m.name found.revision).2 (hrevision.isProper hrev)
  have hsensible := (Manifest.issues_eq_nil_iff m).1 hissues
  have hscript : Within (baseDirectory cache m.name) (casePath found.directory c) :=
    (hdirectory ▸ hrev.within).trans
      (within_casePath hsensible hc (Remote.fetched_directory_ne_empty hfound))
  exact ⟨hname.within.trans hscript, hscript⟩

/-- A disk with the directory of a revision, and nothing else. -/
def diskOf (directory : String) : Disk := fun p =>
  some (if p = directory then .directory else .missing)

/-- What brings one repository, the newest commit of which is the given one. -/
def Remote.sample (address : String) (commit : Commit) : Remote where
  temporary base := .ok (join base "git-fetch-1")
  clone a _ :=
    if a = address then
      .ok ⟨fun revision => if revision = "HEAD" then .ok commit else .error "reference not found",
        .ok fun _ => .ok ()⟩
    else .error "repository not found"
  rename _ _ := .ok ()

theorem sources_inside_cache_sample :
    ("c" ≠ "" ∧ (Remote.sample "./cases" ⟨0x2a⟩).fetch (diskOf "c")
      { sample with source := some ⟨"./cases", ""⟩ } "c" =
        .ok (.ok ⟨"c/s/000000000000000000000000000000000000002a",
          "000000000000000000000000000000000000002a"⟩)) ∧
    Within "c/s" (casePath "c/s/000000000000000000000000000000000000002a" ⟨"a.js", .pass⟩) :=
  have hfetch : (Remote.sample "./cases" ⟨0x2a⟩).fetch (diskOf "c")
      { sample with source := some ⟨"./cases", ""⟩ } "c" =
        .ok (.ok ⟨"c/s/000000000000000000000000000000000000002a",
          "000000000000000000000000000000000000002a"⟩) := by decide +kernel
  ⟨⟨by decide, hfetch⟩, (((sources_inside_cache "c" (by decide)).2.2.2.2 _ _ _ _ _ rfl hfetch).2.2
    (by decide +kernel) (by decide +kernel) (by decide +kernel) _ (by simp [sample])).2⟩

/-- The scripts of a suite that is called by a pair of dots are looked for next to the cache. -/
theorem sources_beside_cache :
    (⟨"/s/suite.yml", "..", [], some ⟨"./none", "v1"⟩, [⟨"ok.js", .pass⟩]⟩ : Manifest).issues = [] ∧
    fetch (diskOf "v1") ⟨"/s/suite.yml", "..", [], some ⟨"./none", "v1"⟩, [⟨"ok.js", .pass⟩]⟩ "c" =
      .ok (.ok ⟨"v1", "v1"⟩) ∧
    (¬∃ c, IsChild "c" c (baseDirectory "c" "..")) ∧ ¬Within "c" (casePath "v1" ⟨"ok.js", .pass⟩) :=
  ⟨by decide +kernel, by decide +kernel,
    mt (isChild_segment_iff (by decide) _).1 (by decide +kernel), by decide +kernel⟩

end Clearance.Suite
