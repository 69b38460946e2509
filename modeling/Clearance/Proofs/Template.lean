/-
# Templates of replacements

A template is expanded byte by byte. A step looks at the byte at an index, and behind a dollar sign
at up to two more; it looks up the offsets of a match, and reads what is there in the text
(`step?`). Every read is checked: an expansion has a result only if nothing is read that is not
there, and if each of its steps gets further.

A step only looks at what is left of the template (`step?_append`), and what is left begins in one
of seven ways (`Front`). By these cases nothing is read outside, whatever the template is; and what
comes behind a template does not matter unless it ends with a dollar sign or with one and a digit
(`Closed`).

The expansion of a template that is a text is that of its bytes (`Template.agrees`): no byte of a
longer character is taken for a dollar sign or a digit, and the captures of a match lie between
characters.
-/
import Clearance.Proofs.Searching

namespace Clearance

namespace Template

/-! ## Bytes of templates -/

/-- The byte of a dollar sign. -/
def dollar : Nat := 0x24

/-- The byte of the sign that stands for the match. -/
def ampersand : Nat := 0x26

/-- The byte of a digit. -/
def isDigit (b : Nat) : Bool := 0x30 ≤ b && b ≤ 0x39

/-- The number that digits say. -/
def number (digits : List Nat) : Nat := digits.foldl (fun n d => 10 * n + (d - 0x30)) 0

/-- The bytes between two offsets, which must be in order and must not be outside. -/
def slice? (bytes : List Nat) (start stop : Int) : Option (List Nat) :=
  if 0 ≤ start ∧ start ≤ stop ∧ stop ≤ bytes.length then
    some ((bytes.take stop.toNat).drop start.toNat)
  else none

/-- Where the number of a capture ends that begins in front of an index. A second digit belongs to
it. -/
def stop? (template : List Nat) (i : Nat) : Option Nat :=
  if i < template.length then do
    if isDigit (← template[i]?) then return i + 1 else return i
  else return i

/-- The bytes of a capture. One that took no part has none. -/
def capture? (text : List Nat) (locations : List Int) (group : Nat) : Option (List Nat) := do
  let start ← locations[2 * group]?
  if 0 ≤ start then slice? text start (← locations[2 * group + 1]?) else return []

/-- One step of an expansion: what is written for the bytes at an index, and the index where the
next step starts. There is no result if something is read that is not there. -/
def step? (template text : List Nat) (locations : List Int) (i : Nat) :
    Option (List Nat × Nat) := do
  let b ← template[i]?
  if b ≠ dollar ∨ i + 1 ≥ template.length then return ([b], i + 1)
  else
    let next ← template[i + 1]?
    if next = dollar then return ([dollar], i + 2)
    else if next = ampersand then
      return (← slice? text (← locations[0]?) (← locations[1]?), i + 2)
    else if isDigit next then
      let stop ← stop? template (i + 2)
      let group := number (← slice? template (i + 1 : Nat) stop)
      if group = 0 ∨ 2 * group + 1 ≥ locations.length then return ([dollar], i + 1)
      else return (← capture? text locations group, stop)
    else return ([dollar], i + 1)

/-- Expands a template from an index on, step by step. There is no result if a step has none, or if
it does not get any further. -/
def expandFrom? (template text : List Nat) (locations : List Int) (i : Nat) : Option (List Nat) :=
  if i < template.length then do
    let (piece, j) ← step? template text locations i
    if i < j then return piece ++ (← expandFrom? template text locations j) else none
  else some []
termination_by template.length - i

/-- The offsets of a match in a text of some size: that of the match are in order and inside, and
those of each capture are, or it took no part. -/
structure Locates (locations : List Int) (size : Nat) : Prop where
  even : locations.length % 2 = 0
  whole : ∃ a b : Int, locations[0]? = some a ∧ locations[1]? = some b ∧ 0 ≤ a ∧ a ≤ b ∧ b ≤ size
  capture : ∀ (group : Nat) (a b : Int), locations[2 * group]? = some a →
    locations[2 * group + 1]? = some b →
    a < 0 ∨ 0 ≤ a ∧ a ≤ b ∧ b ≤ size

section

variable {template text done rest : List Nat} {locations : List Int} {i j : Nat}

/-! ## Steps in what is left -/

lemma getElem?_append_add (done rest : List Nat) (i : Nat) :
    (done ++ rest)[done.length + i]? = rest[i]? := by
  rw [List.getElem?_append_right (Nat.le_add_right ..), Nat.add_sub_cancel_left]

lemma slice?_append (done rest : List Nat) (a b : Nat) :
    slice? (done ++ rest) (done.length + a : Nat) (done.length + b : Nat) = slice? rest a b := by
  unfold slice?
  have hcond : (0 ≤ ((done.length + a : Nat) : Int) ∧
      ((done.length + a : Nat) : Int) ≤ (done.length + b : Nat) ∧
      ((done.length + b : Nat) : Int) ≤ (done ++ rest).length) ↔
      (0 ≤ (a : Int) ∧ (a : Int) ≤ b ∧ (b : Int) ≤ rest.length) := by
    rw [List.length_append]
    omega
  simp only [hcond, Int.toNat_natCast]
  have hnil : (done.take (done.length + b)).drop (done.length + a) = [] := by
    rw [List.drop_eq_nil_iff, List.length_take]
    omega
  rw [List.take_append, List.drop_append, hnil]
  simp

lemma stop?_append (done rest : List Nat) (i : Nat) :
    stop? (done ++ rest) (done.length + i) = (stop? rest i).map (done.length + ·) := by
  unfold stop?
  simp only [List.length_append, Nat.add_lt_add_iff_left, getElem?_append_add]
  split_ifs with hlt
  · rw [List.getElem?_eq_getElem hlt]
    simp only [Option.bind_eq_bind, Option.bind_some]
    split_ifs <;> rfl
  · rfl

variable (text locations) in
/-- What has been passed does not matter. -/
lemma step?_append (done rest : List Nat) (i : Nat) :
    step? (done ++ rest) text locations (done.length + i) =
      (step? rest text locations i).map fun r => (r.1, done.length + r.2) := by
  unfold step?
  simp only [Nat.add_assoc, getElem?_append_add, stop?_append, List.length_append,
    ge_iff_le, Nat.add_le_add_iff_left]
  cases rest[i]? with
  | none => rfl
  | some b =>
    simp only [Option.bind_eq_bind, Option.bind_some]
    split_ifs with hb
    · rfl
    cases rest[i + 1]? with
    | none => rfl
    | some next =>
      simp only [Option.bind_some]
      split_ifs with hd hm hn
      · rfl
      · simp only [Option.map_bind, Function.comp_def]
        rfl
      · cases stop? rest (i + 2) with
        | none => rfl
        | some stop =>
          simp only [Option.map_some, Option.bind_some, slice?_append]
          cases slice? rest (i + 1 : Nat) stop with
          | none => rfl
          | some digits =>
            simp only [Option.bind_some]
            split_ifs
            · rfl
            · simp only [Option.map_bind, Function.comp_def]
              rfl
      · rfl

variable (text locations) in
lemma expandFrom?_append (done rest : List Nat) (i : Nat) :
    expandFrom? (done ++ rest) text locations (done.length + i) =
      expandFrom? rest text locations i := by
  induction hn : rest.length - i using Nat.strongRecOn generalizing i with
  | ind n ih =>
    unfold expandFrom?
    simp only [List.length_append, Nat.add_lt_add_iff_left, step?_append]
    split_ifs with hi
    · cases step? rest text locations i with
      | none => rfl
      | some r =>
        obtain ⟨piece, j⟩ := r
        simp only [Option.map_some, Option.bind_eq_bind, Option.bind_some, Nat.add_lt_add_iff_left]
        split_ifs with hj
        · rw [ih (rest.length - j) (by omega) j rfl]
        · rfl
    · rfl

/-- The expansion of a whole template. -/
def expand? (template text : List Nat) (locations : List Int) : Option (List Nat) :=
  expandFrom? template text locations 0

lemma expand?_nil : expand? [] text locations = some [] := by
  rw [expand?, expandFrom?]
  rfl

/-- After a step, what is left is expanded. -/
lemma expand?_of_step {piece : List Nat} (hstep : step? rest text locations 0 = some (piece, j))
    (hpos : 0 < j) (hj : j ≤ rest.length) :
    expand? rest text locations = (expand? (rest.drop j) text locations).map (piece ++ ·) := by
  have htail := expandFrom?_append text locations (rest.take j) (rest.drop j) 0
  rw [List.take_append_drop, List.length_take, Nat.min_eq_left hj, Nat.add_zero] at htail
  rw [expand?, expandFrom?, if_pos (by omega), hstep]
  simp only [Option.bind_eq_bind, Option.bind_some, if_pos hpos, htail, expand?]
  cases expandFrom? (rest.drop j) text locations 0 <;> rfl

/-! ## The forms of a step -/

/-- What a template begins with. -/
inductive Front : List Nat → Prop where
  | copy {b : Nat} (hb : b ≠ dollar) (rest : List Nat) : Front (b :: rest)
  | last : Front [dollar]
  | sign (rest : List Nat) : Front (dollar :: dollar :: rest)
  | whole (rest : List Nat) : Front (dollar :: ampersand :: rest)
  | two {d e : Nat} (hd : isDigit d = true) (he : isDigit e = true) (rest : List Nat) :
    Front (dollar :: d :: e :: rest)
  | one {d : Nat} (hd : isDigit d = true) {rest : List Nat}
    (hrest : ∀ e, rest.head? = some e → isDigit e = false) : Front (dollar :: d :: rest)
  | other {d : Nat} (hdollar : d ≠ dollar) (hampersand : d ≠ ampersand)
    (hd : isDigit d = false) (rest : List Nat) : Front (dollar :: d :: rest)

lemma front (hne : rest ≠ []) : Front rest := by
  obtain ⟨b, rest, rfl⟩ := List.exists_cons_of_ne_nil hne
  by_cases hb : b = dollar
  · subst hb
    cases rest with
    | nil => exact .last
    | cons d rest =>
      by_cases hdollar : d = dollar
      · subst hdollar
        exact .sign rest
      by_cases hampersand : d = ampersand
      · subst hampersand
        exact .whole rest
      cases hd : isDigit d with
      | false => exact .other hdollar hampersand hd rest
      | true =>
        cases rest with
        | nil => exact .one hd (by simp)
        | cons e rest =>
          cases he : isDigit e with
          | false => exact .one hd (by simpa using he)
          | true => exact .two hd he rest
  · exact .copy hb rest

lemma isDigit_ne {d : Nat} (hd : isDigit d = true) : d ≠ dollar ∧ d ≠ ampersand := by
  constructor <;> rintro rfl <;> exact absurd hd (by decide)

/-- What is written for the number of a capture that ends at an index. -/
def group? (text : List Nat) (locations : List Int) (group stop : Nat) : Option (List Nat × Nat) :=
  if group = 0 ∨ 2 * group + 1 ≥ locations.length then some ([dollar], 1)
  else (capture? text locations group).map (·, stop)

section

variable (text locations rest)

lemma step?_copy {b : Nat} (hb : b ≠ dollar) :
    step? (b :: rest) text locations 0 = some ([b], 1) := by
  simp [step?, hb]

lemma step?_last : step? [dollar] text locations 0 = some ([dollar], 1) := rfl

lemma step?_sign : step? (dollar :: dollar :: rest) text locations 0 = some ([dollar], 2) := by
  simp [step?]

lemma step?_whole : step? (dollar :: ampersand :: rest) text locations 0 =
    (do slice? text (← locations[0]?) (← locations[1]?)).map (·, 2) := by
  have hne : ampersand ≠ dollar := by decide
  simp only [step?, List.getElem?_cons_zero, Nat.zero_add, List.getElem?_cons_succ,
    Option.bind_eq_bind, Option.bind_some, hne, if_true, if_false]
  rw [if_neg (by simp)]
  cases locations[0]? with
  | none => rfl
  | some a =>
    cases locations[1]? with
    | none => rfl
    | some b =>
      simp only [Option.bind_some]
      cases slice? text a b <;> rfl

lemma step?_digits {d stop : Nat} {digits : List Nat} (hd : isDigit d = true)
    (hstop : stop? (dollar :: d :: rest) 2 = some stop)
    (hdigits : slice? (dollar :: d :: rest) (1 : Nat) stop = some digits) :
    step? (dollar :: d :: rest) text locations 0 = group? text locations (number digits) stop := by
  obtain ⟨hdollar, hampersand⟩ := isDigit_ne hd
  simp only [step?, List.getElem?_cons_zero, Nat.zero_add, List.getElem?_cons_succ,
    Option.bind_eq_bind, Option.bind_some, hd, hdollar, hampersand, if_true, if_false, hstop]
  rw [if_neg (by simp), hdigits, Option.bind_some, group?]
  split_ifs
  · rfl
  · cases capture? text locations (number digits) <;> rfl

lemma step?_two {d e : Nat} (hd : isDigit d = true) (he : isDigit e = true) :
    step? (dollar :: d :: e :: rest) text locations 0 =
      group? text locations (10 * (d - 0x30) + (e - 0x30)) 3 := by
  have hstop : stop? (dollar :: d :: e :: rest) 2 = some 3 := by simp [stop?, he]
  have hdigits : slice? (dollar :: d :: e :: rest) (1 : Nat) (3 : Nat) = some [d, e] :=
    if_pos (by simp; omega)
  rw [step?_digits text _ locations hd hstop hdigits]
  simp [number]

lemma step?_one {d : Nat} (hd : isDigit d = true) {rest : List Nat}
    (hrest : ∀ e, rest.head? = some e → isDigit e = false) :
    step? (dollar :: d :: rest) text locations 0 = group? text locations (d - 0x30) 2 := by
  have hstop : stop? (dollar :: d :: rest) 2 = some 2 := by
    cases rest with
    | nil => rfl
    | cons e rest => simp [stop?, hrest e rfl]
  have hdigits : slice? (dollar :: d :: rest) (1 : Nat) (2 : Nat) = some [d] :=
    if_pos (by simp; omega)
  rw [step?_digits text _ locations hd hstop hdigits]
  simp [number]

lemma step?_other {d : Nat} (hdollar : d ≠ dollar) (hampersand : d ≠ ampersand)
    (hd : isDigit d = false) : step? (dollar :: d :: rest) text locations 0 = some
    ([dollar], 1) := by
  simp [step?, hdollar, hampersand, hd]

end

/-! ## Nothing is read outside -/

lemma slice?_of_le {a b : Int} (ha : 0 ≤ a) (hab : a ≤ b) (hb : b ≤ text.length) :
    ∃ piece, slice? text a b = some piece := ⟨_, if_pos ⟨ha, hab, hb⟩⟩

section

variable (h : Locates locations text.length)
include h

lemma exists_capture? {group : Nat} (hgroup : 2 * group + 1 < locations.length) :
    ∃ piece, capture? text locations group = some piece := by
  have hstart := List.getElem?_eq_getElem (Nat.lt_of_succ_lt hgroup)
  have hstop := List.getElem?_eq_getElem hgroup
  simp only [capture?, hstart, hstop, Option.bind_eq_bind, Option.bind_some]
  split_ifs with hpos
  · rcases h.capture group _ _ hstart hstop with hneg | ⟨ha, hab, hb⟩
    · omega
    · exact slice?_of_le ha hab hb
  · exact ⟨[], rfl⟩

lemma exists_group? (group stop : Nat) :
    ∃ piece j, group? text locations group stop = some (piece, j) ∧ (j = 1 ∨ j = stop) := by
  unfold group?
  split_ifs with hnone
  · exact ⟨_, 1, rfl, .inl rfl⟩
  · obtain ⟨piece, hpiece⟩ := exists_capture? h (show 2 * group + 1 < locations.length by omega)
    exact ⟨piece, stop, by rw [hpiece, Option.map_some], .inr rfl⟩

/-- The first step, by what the template begins with. -/
lemma exists_step?_zero (hne : rest ≠ []) :
    ∃ piece j, step? rest text locations 0 = some (piece, j) ∧ 0 < j ∧ j ≤ rest.length := by
  cases front hne with
  | copy hb rest => exact ⟨_, _, step?_copy _ _ _ hb, by simp⟩
  | last => exact ⟨_, _, step?_last _ _, by simp⟩
  | sign rest => exact ⟨_, _, step?_sign _ _ _, by simp⟩
  | whole rest =>
    obtain ⟨a, b, hstart, hstop, ha, hab, hb⟩ := h.whole
    obtain ⟨piece, hpiece⟩ := slice?_of_le ha hab hb
    refine ⟨piece, 2, ?_, by simp⟩
    rw [step?_whole, hstart, hstop]
    simp [hpiece]
  | two hd he rest =>
    obtain ⟨piece, j, hgroup, hj⟩ := exists_group? h _ 3
    refine ⟨piece, j, (step?_two _ _ _ hd he).trans hgroup, ?_⟩
    simp only [List.length_cons]
    omega
  | one hd hrest =>
    obtain ⟨piece, j, hgroup, hj⟩ := exists_group? h _ 2
    refine ⟨piece, j, (step?_one _ _ hd hrest).trans hgroup, ?_⟩
    simp only [List.length_cons]
    omega
  | other hdollar hampersand hd rest =>
    exact ⟨_, _, step?_other _ _ _ hdollar hampersand hd, by simp⟩

lemma exists_step? (hi : i < template.length) :
    ∃ piece j, step? template text locations i = some (piece, j) ∧ i < j ∧ j ≤ template.length := by
  have hne : template.drop i ≠ [] := by
    rw [Ne, List.drop_eq_nil_iff]
    omega
  obtain ⟨piece, j, hstep, hpos, hj⟩ := exists_step?_zero h hne
  have hshift := step?_append text locations (template.take i) (template.drop i) 0
  rw [List.take_append_drop, List.length_take, Nat.min_eq_left (Nat.le_of_lt hi), hstep] at hshift
  rw [List.length_drop] at hj
  exact ⟨piece, i + j, hshift, by omega, by omega⟩

/-- By induction on what is left of the template. -/
lemma exists_expand? (template : List Nat) : ∃ out, expand? template text locations = some out := by
  induction hn : template.length using Nat.strongRecOn generalizing template with
  | ind n ih =>
    by_cases hne : template = []
    · subst hne
      exact ⟨[], expand?_nil⟩
    · obtain ⟨piece, j, hstep, hpos, hj⟩ := exists_step?_zero h hne
      obtain ⟨out, hout⟩ := ih (template.drop j).length (by rw [List.length_drop]; omega) _ rfl
      exact ⟨piece ++ out, by rw [expand?_of_step hstep hpos hj, hout, Option.map_some]⟩

end

/-! ## Escaped templates -/

/-- Every dollar sign is doubled. -/
def escape (bytes : List Nat) : List Nat :=
  bytes.flatMap fun b => if b = dollar then [dollar, dollar] else [b]

lemma expand?_escape (bytes : List Nat) : expand? (escape bytes) text locations = some bytes := by
  induction bytes with
  | nil => exact expand?_nil
  | cons b bytes ih =>
    by_cases hb : b = dollar
    · subst hb
      have hstep := step?_sign text (escape bytes) locations
      rw [show escape (dollar :: bytes) = dollar :: dollar :: escape bytes from rfl,
        expand?_of_step hstep (by omega) (by simp), List.drop_succ_cons, List.drop_succ_cons,
        List.drop_zero, ih]
      rfl
    · have hstep := step?_copy text (escape bytes) locations hb
      rw [show escape (b :: bytes) = b :: escape bytes by simp [escape, hb],
        expand?_of_step hstep (by omega) (by simp), List.drop_succ_cons, List.drop_zero, ih]
      rfl

/-! ## Templates one after the other -/

/-- What comes behind a template is not looked at: it neither ends with a dollar sign nor with a
dollar sign and one digit. -/
structure Closed (template : List Nat) : Prop where
  sign : ¬[dollar] <:+ template
  digit : ∀ d, isDigit d = true → ¬[dollar, d] <:+ template

lemma Closed.of_suffix (h : Closed template) (hrest : rest <:+ template) : Closed rest where
  sign hsign := h.sign (hsign.trans hrest)
  digit d hd hdigit := h.digit d hd (hdigit.trans hrest)

lemma Closed.step?_append (h : Closed rest) (hne : rest ≠ []) (more : List Nat) :
    step? (rest ++ more) text locations 0 = step? rest text locations 0 := by
  cases front hne with
  | copy hb rest => exact (step?_copy _ _ _ hb).trans (step?_copy _ _ _ hb).symm
  | last => exact absurd (List.suffix_refl _) h.sign
  | sign rest => exact (step?_sign ..).trans (step?_sign ..).symm
  | whole rest => exact (step?_whole ..).trans (step?_whole ..).symm
  | two hd he rest => exact (step?_two _ _ _ hd he).trans (step?_two _ _ _ hd he).symm
  | @one d hd rest hrest =>
    have hmore : ∀ e, (rest ++ more).head? = some e → isDigit e = false := by
      cases rest with
      | nil => exact absurd (List.suffix_refl _) (h.digit d hd)
      | cons e rest => exact hrest
    exact (step?_one _ _ hd hmore).trans (step?_one _ _ hd hrest).symm
  | other hdollar hampersand hd rest =>
    exact (step?_other _ _ _ hdollar hampersand hd).trans
      (step?_other _ _ _ hdollar hampersand hd).symm

/-- By induction on the length of the first template. -/
lemma expand?_append (h : Locates locations text.length) (hclosed : Closed template)
    (more : List Nat) : expand? (template ++ more) text locations =
      (do return (← expand? template text locations) ++ (← expand? more text locations)) := by
  induction hn : template.length using Nat.strongRecOn generalizing template with
  | ind n ih =>
    by_cases hne : template = []
    · subst hne
      rw [expand?_nil]
      simp
    · obtain ⟨piece, j, hstep, hpos, hj⟩ := exists_step?_zero h hne
      have hshort : (template.drop j).length < n := by
        rw [List.length_drop]
        omega
      have hlong : j ≤ (template ++ more).length := by
        rw [List.length_append]
        omega
      have hrest := ih _ hshort (hclosed.of_suffix (List.drop_suffix j template)) rfl
      rw [expand?_of_step hstep hpos hj,
        expand?_of_step ((hclosed.step?_append hne more).trans hstep) hpos hlong,
        List.drop_append_of_le_length hj, hrest]
      cases expand? (template.drop j) text locations with
      | none => rfl
      | some out =>
        cases expand? more text locations <;> simp

end

end Template

open Clearance.Library

/-! ## Bytes of characters -/

namespace Text

lemma encodeBytes_cons (c : Char) (cs : List Char) :
    encodeBytes (c :: cs) = (String.utf8EncodeChar c).map UInt8.toNat ++ encodeBytes cs :=
  List.flatMap_cons

lemma encodeBytes_append (xs ys : List Char) :
    encodeBytes (xs ++ ys) = encodeBytes xs ++ encodeBytes ys :=
  List.flatMap_append

lemma length_encodeBytes (cs : List Char) : (encodeBytes cs).length = byteSize cs := by
  induction cs with
  | nil => rfl
  | cons c cs ih =>
    rw [encodeBytes_cons, List.length_append, List.length_map, String.length_utf8EncodeChar,
      ih, byteSize]

/-- A character below `0x80` is one byte. -/
lemma encodeChar_low {c : Char} (hc : c.toNat < 0x80) :
    (String.utf8EncodeChar c).map UInt8.toNat = [c.toNat] := by
  have hcode : c.val.toNat ≤ 0x7f := Nat.le_of_lt_succ hc
  have hbyte : (UInt8.ofNat c.toNat).toNat = c.toNat :=
    UInt8.toNat_ofNat_of_lt (Nat.lt_trans hc (by decide))
  rw [String.utf8EncodeChar, if_pos hcode]
  exact congrArg (· :: []) hbyte

lemma encodeBytes_cons_low {c : Char} (hc : c.toNat < 0x80) (cs : List Char) :
    encodeBytes (c :: cs) = c.toNat :: encodeBytes cs := by
  rw [encodeBytes_cons, encodeChar_low hc, List.singleton_append]

/-- The bytes of all others are not below it. -/
lemma le_of_mem_encodeChar {c : Char} (hc : 0x80 ≤ c.toNat) :
    ∀ b ∈ (String.utf8EncodeChar c).map UInt8.toNat, 0x80 ≤ b := by
  have hcode : ¬c.val.toNat ≤ 0x7f := Nat.not_le_of_lt hc
  rw [String.utf8EncodeChar, if_neg hcode]
  split_ifs <;> simp [UInt8.toNat_ofNat'] <;> omega

lemma encodeBytes_injective {xs ys : List Char} (h : encodeBytes xs = encodeBytes ys) :
    xs = ys := by
  unfold encodeBytes at h
  rw [← List.map_flatMap, ← List.map_flatMap] at h
  have hbytes := (List.map_inj_right fun _ _ => UInt8.toNat_inj.1).1 h
  have hencode : xs.utf8Encode = ys.utf8Encode := congrArg List.toByteArray hbytes
  have htext : String.ofList xs = String.ofList ys := by
    rw [← String.toByteArray_inj, String.toByteArray_ofList, String.toByteArray_ofList, hencode]
  exact String.ofList_injective htext

end Text

/-! ## Templates in texts -/

namespace Pattern.Slots

/-- The offsets that are remembered. A slot that remembers none has a negative one. -/
def locations (m : Slots) : List Int := m.toList.map fun o => o.elim (-1) fun n => (n : Int)

/-- The slots of a match in a text: the match is there, and each capture is, or took no part. -/
structure Marks (m : Slots) (s : List Char) : Prop where
  even : m.size % 2 = 0
  whole : ∃ before matched after, m.Cuts 0 before matched after s
  capture : ∀ i, 2 * i + 1 < m.size → m[2 * i]? = some none ∨ ∃ before matched after,
    s = before ++ matched ++ after ∧ m[2 * i]? = some (some (Text.byteSize before)) ∧
      m[2 * i + 1]? = some (some (Text.byteSize (before ++ matched)))

end Pattern.Slots

namespace Template

open Text

lemma isDigit_toNat (c : Char) : isDigit c.toNat = c.isDigit := by
  rw [Bool.eq_iff_iff, isDigit, Char.isDigit, Bool.and_eq_true, Bool.and_eq_true,
    decide_eq_true_iff, decide_eq_true_iff, decide_eq_true_iff, decide_eq_true_iff]
  rfl

section

variable {s : List Char} {m : Pattern.Slots}

lemma getElem?_locations (i : Nat) :
    m.locations[i]? = m[i]?.map fun o => o.elim (-1) fun n => (n : Int) := by
  rw [Pattern.Slots.locations, List.getElem?_map, Array.getElem?_toList]

lemma length_locations : m.locations.length = m.size := by
  rw [Pattern.Slots.locations, List.length_map, Array.length_toList]

lemma slice?_encodeBytes (before matched after : List Char) :
    slice? (encodeBytes (before ++ matched ++ after)) (byteSize before : Nat)
      (byteSize (before ++ matched) : Nat) = some (encodeBytes matched) := by
  rw [← length_encodeBytes, ← length_encodeBytes, encodeBytes_append, encodeBytes_append,
    slice?, if_pos]
  · rw [Int.toNat_natCast, Int.toNat_natCast, List.take_left, List.drop_left]
  · simp only [List.length_append]
    omega

lemma locates (h : m.Marks s) : Locates m.locations (encodeBytes s).length := by
  -- a range of the text is one of its bytes
  have hrange : ∀ before matched after : List Char, s = before ++ matched ++ after →
      (0 : Int) ≤ (byteSize before : Nat) ∧
        ((byteSize before : Nat) : Int) ≤ (byteSize (before ++ matched) : Nat) ∧
        ((byteSize (before ++ matched) : Nat) : Int) ≤ (encodeBytes s).length := by
    rintro before matched after rfl
    rw [length_encodeBytes, byteSize_append _ after, byteSize_append]
    omega
  refine ⟨length_locations.symm ▸ h.even, ?_, fun i a b ha hb => ?_⟩
  · obtain ⟨before, matched, after, hcuts⟩ := h.whole
    refine ⟨byteSize before, byteSize (before ++ matched), ?_, ?_, hrange _ _ _ hcuts.whole⟩
    · rw [getElem?_locations, hcuts.start]
      simp
    · rw [getElem?_locations, hcuts.stop]
      simp
  · have hi : 2 * i + 1 < m.size := length_locations ▸ (List.getElem?_eq_some_iff.1 hb).1
    rw [getElem?_locations] at ha hb
    rcases h.capture i hi with hnone | ⟨before, matched, after, htext, hstart, hstop⟩
    · rw [hnone] at ha
      obtain rfl : (-1 : Int) = a := Option.some.inj ha
      exact .inl (by decide)
    · rw [hstart] at ha
      rw [hstop] at hb
      obtain rfl : ((byteSize before : Nat) : Int) = a := Option.some.inj ha
      obtain rfl : ((byteSize (before ++ matched) : Nat) : Int) = b := Option.some.inj hb
      exact .inr (hrange _ _ _ htext)

/-- The bytes of a capture are those of its text. -/
lemma capture?_locations (h : m.Marks s) {i : Nat} (hi : 2 * i + 1 < m.size) :
    capture? (encodeBytes s) m.locations i = some (encodeBytes (captureText s m i)) := by
  unfold capture? captureText
  rw [getElem?_locations, getElem?_locations]
  rcases h.capture i hi with hnone | ⟨before, matched, after, rfl, hstart, hstop⟩
  · rw [hnone]
    rfl
  · rw [hstart, hstop]
    have hslice := slice?_encodeBytes before matched after
    have htext := sliceBytes_byteSize before matched after
    simp [-List.append_assoc, htext, hslice]

lemma slice?_whole (h : m.Marks s) :
    (do slice? (encodeBytes s) (← m.locations[0]?) (← m.locations[1]?)) =
      some (encodeBytes (captureText s m 0)) := by
  unfold captureText
  rw [getElem?_locations, getElem?_locations]
  obtain ⟨before, matched, after, rfl, hstart, hstop⟩ := h.whole
  have hslice := slice?_encodeBytes before matched after
  have htext := sliceBytes_byteSize before matched after
  simp only [Nat.zero_add] at hstart hstop
  simp [-List.append_assoc, hstart, hstop, htext, hslice]

end

/-! ## Expansions of texts -/

lemma eq_of_toNat_eq {c : Char} (c' : Char) (h : c.toNat = c'.toNat) : c = c' :=
  Char.ext (UInt32.toNat_inj.1 h)

/-- A step looks at the first byte of a text as at its first character. -/
lemma exists_encodeBytes_cons (c : Char) (cs : List Char) : ∃ b bytes,
    encodeBytes (c :: cs) = b :: bytes ∧ (b = dollar → c = '$') ∧ (b = ampersand → c = '&') ∧
      isDigit b = c.isDigit := by
  by_cases hc : c.toNat < 0x80
  · exact ⟨_, _, encodeBytes_cons_low hc cs, eq_of_toNat_eq '$', eq_of_toNat_eq '&',
      isDigit_toNat c⟩
  · have hhigh := le_of_mem_encodeChar (Nat.le_of_not_lt hc)
    have hne : (String.utf8EncodeChar c).map UInt8.toNat ≠ [] := by
      simp [String.utf8EncodeChar_ne_nil]
    obtain ⟨b, bytes, hbytes⟩ := List.exists_cons_of_ne_nil hne
    have hb : 0x80 ≤ b := hhigh b (hbytes ▸ List.mem_cons_self)
    refine ⟨b, bytes ++ encodeBytes cs, ?_, ?_, ?_, ?_⟩
    · rw [encodeBytes_cons, hbytes, List.cons_append]
    · rintro rfl
      exact absurd hb (by decide)
    · rintro rfl
      exact absurd hb (by decide)
    · rw [← isDigit_toNat, Bool.eq_iff_iff]
      simp only [isDigit, Bool.and_eq_true, decide_eq_true_eq]
      omega

lemma encodeChar_ne_dollar {c : Char} (hc : c ≠ '$') :
    ∀ b ∈ (String.utf8EncodeChar c).map UInt8.toNat, b ≠ dollar := by
  rintro b hb rfl
  by_cases hlow : c.toNat < 0x80
  · rw [encodeChar_low hlow, List.mem_singleton] at hb
    exact hc (eq_of_toNat_eq '$' hb.symm)
  · exact absurd (le_of_mem_encodeChar (Nat.le_of_not_lt hlow) _ hb) (by decide)

lemma expand?_copies {bs : List Nat} (hbs : ∀ b ∈ bs, b ≠ dollar) (rest text : List Nat)
    (locations : List Int) : expand? (bs ++ rest) text locations =
      (expand? rest text locations).map (bs ++ ·) := by
  induction bs with
  | nil => simp
  | cons b bs ih =>
    have hstep := step?_copy text (bs ++ rest) locations (hbs b List.mem_cons_self)
    rw [List.cons_append, expand?_of_step hstep (by omega) (by simp), List.drop_succ_cons,
      List.drop_zero, ih fun b hb => hbs b (List.mem_cons_of_mem _ hb), Option.map_map]
    rfl

section

variable {s : List Char} {m : Pattern.Slots}

lemma expand_of_ne {c : Char} (hc : c ≠ '$') (rest : List Char) :
    expand s m (c :: rest) = c :: expand s m rest := by
  rw [expand, if_neg hc]
  · rintro _ rfl
    exact absurd rfl hc
  · rintro _ rfl
    exact absurd rfl hc

/-- A dollar sign in front of what is neither another one nor the sign for the match. -/
lemma expand_group {rest : List Char} (hsign : rest.head? ≠ some '$')
    (hwhole : rest.head? ≠ some '&') :
    expand s m ('$' :: rest) = match groupNumber? rest with
      | some (i, after) => if i = 0 ∨ 2 * i + 1 ≥ m.size then '$' :: expand s m rest
        else captureText s m i ++ expand s m after
      | none => '$' :: expand s m rest := by
  rw [expand, if_pos rfl]
  · split
    · next hnumber => simp only [hnumber]
    · next hnumber => simp only [hnumber]
  · rintro _ - rfl
    exact absurd rfl hsign
  · rintro _ - rfl
    exact absurd rfl hwhole

/-- The bytes of a template are expanded as the template is. -/
def Agrees (s : List Char) (m : Pattern.Slots) (template : List Char) : Prop :=
  expand? (encodeBytes template) (encodeBytes s) m.locations =
    some (encodeBytes (expand s m template))

lemma encodeBytes_dollar (rest : List Char) :
    encodeBytes ('$' :: rest) = dollar :: encodeBytes rest :=
  encodeBytes_cons_low (by decide) rest

/-- A dollar sign that stands for itself. -/
lemma Agrees.single {rest : List Char} (hrest : Agrees s m rest)
    (hstep : step? (dollar :: encodeBytes rest) (encodeBytes s) m.locations 0 = some ([dollar], 1))
    (hexpand : expand s m ('$' :: rest) = '$' :: expand s m rest) : Agrees s m ('$' :: rest) := by
  rw [Agrees, encodeBytes_dollar, expand?_of_step hstep (by omega) (by simp), List.drop_succ_cons,
    List.drop_zero, hrest, hexpand, encodeBytes_dollar]
  rfl

/-- A dollar sign and the number of a capture. -/
lemma Agrees.group (h : m.Marks s) {rest after : List Char} {i stop : Nat}
    (hrest : Agrees s m rest) (hafter : Agrees s m after)
    (hnumber : groupNumber? rest = some (i, after))
    (hstep : step? (dollar :: encodeBytes rest) (encodeBytes s) m.locations 0 =
      group? (encodeBytes s) m.locations i stop) (hstop : stop ≤ (encodeBytes rest).length + 1)
    (hpos : 0 < stop) (hdrop : (dollar :: encodeBytes rest).drop stop = encodeBytes after)
    (hsign : rest.head? ≠ some '$') (hwhole : rest.head? ≠ some '&') :
    Agrees s m ('$' :: rest) := by
  have hexpand := expand_group (m := m) (s := s) hsign hwhole
  rw [hnumber] at hexpand
  rw [group?, length_locations] at hstep
  dsimp only at hexpand
  split_ifs at hstep hexpand with hnone
  · exact hrest.single hstep hexpand
  · rw [capture?_locations h (by omega), Option.map_some] at hstep
    rw [Agrees, encodeBytes_dollar, expand?_of_step hstep hpos hstop, hdrop, hafter, hexpand,
      encodeBytes_append]
    rfl

/-- A digit is one byte. -/
lemma encodeBytes_digit {d : Char} (hd : d.isDigit = true) (rest : List Char) :
    encodeBytes (d :: rest) = d.toNat :: encodeBytes rest := by
  rw [← isDigit_toNat] at hd
  simp only [isDigit, Bool.and_eq_true, decide_eq_true_eq] at hd
  exact encodeBytes_cons_low (by omega) rest

/-- What stands behind a dollar sign decides what it means. -/
lemma agrees_dollar (h : m.Marks s) {rest : List Char}
    (ih : ∀ template : List Char, template.length ≤ rest.length → Agrees s m template) :
    Agrees s m ('$' :: rest) := by
  have hrest := ih rest (Nat.le_refl _)
  rcases rest with _ | ⟨d, rest⟩
  · exact hrest.single (step?_last ..) (expand_group (by simp) (by simp))
  have hsmall := ih rest (Nat.le_succ _)
  -- the character behind the sign decides: a sign, the whole match, a group or nothing of this
  by_cases hsign : d = '$'
  · subst hsign
    rw [Agrees, encodeBytes_dollar, encodeBytes_dollar,
      expand?_of_step (step?_sign ..) (by omega) (by simp), List.drop_succ_cons,
        List.drop_succ_cons, List.drop_zero, hsmall, expand, encodeBytes_dollar]
    rfl
  by_cases hwhole : d = '&'
  · subst hwhole
    have hbytes : encodeBytes ('&' :: rest) = ampersand :: encodeBytes rest :=
      encodeBytes_cons_low (by decide) rest
    have hstep := step?_whole (encodeBytes s) (encodeBytes rest) m.locations
    rw [slice?_whole h, Option.map_some] at hstep
    rw [Agrees, encodeBytes_dollar, hbytes, expand?_of_step hstep (by omega) (by simp),
      List.drop_succ_cons, List.drop_succ_cons, List.drop_zero, hsmall, expand, encodeBytes_append]
    rfl
  have hheads : (d :: rest).head? ≠ some '$' ∧ (d :: rest).head? ≠ some '&' := by
    simp [hsign, hwhole]
  cases hd : d.isDigit with
  | false =>
    obtain ⟨b, bytes, hbytes, hb, hb', hdigit⟩ := exists_encodeBytes_cons d rest
    have hnumber : groupNumber? (d :: rest) = none := by cases rest <;> simp [groupNumber?, hd]
    have hexpand := expand_group (s := s) (m := m) hheads.1 hheads.2
    rw [hnumber] at hexpand
    refine hrest.single ?_ hexpand
    rw [hbytes]
    exact step?_other _ _ _ (mt hb hsign) (mt hb' hwhole) (hdigit.trans hd)
  | true =>
    have hdigit : isDigit d.toNat = true := (isDigit_toNat d).trans hd
    -- two digits are read if there are two
    by_cases htwo : ∃ e more, rest = e :: more ∧ e.isDigit = true
    · obtain ⟨e, more, rfl, he⟩ := htwo
      have hnumber : groupNumber? (d :: e :: more) =
          some (10 * Decimal.digitValue d + Decimal.digitValue e, more) := by
        simp [groupNumber?, hd, he]
      refine .group h hrest (ih more (by simp; omega)) hnumber ?_ ?_
        (Nat.succ_pos 2) ?_ hheads.1 hheads.2
      · rw [encodeBytes_digit hd, encodeBytes_digit he]
        exact step?_two _ _ _ hdigit ((isDigit_toNat e).trans he)
      · simp [encodeBytes_digit hd, encodeBytes_digit he]
      · simp [encodeBytes_digit hd, encodeBytes_digit he]
    · have hnumber : groupNumber? (d :: rest) = some (Decimal.digitValue d, rest) := by
        cases rest with
        | nil => simp [groupNumber?, hd]
        | cons e more =>
          have he : ¬e.isDigit = true := fun he => htwo ⟨e, more, rfl, he⟩
          simp [groupNumber?, hd, he]
      refine .group h hrest hsmall hnumber ?_ ?_ (Nat.succ_pos 1) ?_ hheads.1 hheads.2
      · rw [encodeBytes_digit hd]
        refine step?_one _ _ hdigit fun b hb => ?_
        cases rest with
        | nil => cases hb
        | cons e more =>
          obtain ⟨b', bytes, hbytes, -, -, hdigit'⟩ := exists_encodeBytes_cons e more
          rw [hbytes] at hb
          obtain rfl : b' = b := Option.some.inj hb
          exact hdigit'.trans (Bool.eq_false_iff.2 fun he => htwo ⟨e, more, rfl, he⟩)
      · simp [encodeBytes_digit hd]
      · simp [encodeBytes_digit hd]

/-- By induction on the length of the template. -/
lemma agrees (h : m.Marks s) (template : List Char) : Agrees s m template := by
  induction hn : template.length using Nat.strongRecOn generalizing template with
  | ind n ih =>
    rcases template with _ | ⟨c, rest⟩
    · rw [Agrees, expand]
      exact expand?_nil
    have hrest : ∀ u : List Char, u.length ≤ rest.length → Agrees s m u := fun u hu =>
      ih u.length (hn ▸ Nat.lt_succ_of_le hu) u rfl
    by_cases hc : c = '$'
    · subst hc
      exact agrees_dollar h hrest
    · rw [Agrees, encodeBytes_cons, expand?_copies (encodeChar_ne_dollar hc),
        hrest rest (Nat.le_refl _), expand_of_ne hc, encodeBytes_cons]
      rfl

/-! ## Escaped texts, and texts one after the other -/

/-- Every dollar sign is doubled. -/
def escapeText (cs : List Char) : List Char :=
  cs.flatMap fun c => if c = '$' then ['$', '$'] else [c]

lemma expand_escapeText (cs : List Char) : expand s m (escapeText cs) = cs := by
  induction cs with
  | nil => rw [escapeText, List.flatMap_nil, expand]
  | cons c cs ih =>
    by_cases hc : c = '$'
    · subst hc
      rw [show escapeText ('$' :: cs) = '$' :: '$' :: escapeText cs from rfl, expand, ih]
    · rw [show escapeText (c :: cs) = c :: escapeText cs by simp [escapeText, hc],
        expand_of_ne hc, ih]

/-- The last byte of a text is that of its last character, if it is one of a single byte. -/
lemma exists_of_encodeBytes_eq {cs : List Char} {bytes : List Nat} {b : Nat} (hb : b < 0x80)
    (h : encodeBytes cs = bytes ++ [b]) :
    ∃ more c, cs = more ++ [c] ∧ c.toNat = b ∧ encodeBytes more = bytes := by
  rcases List.eq_nil_or_concat cs with rfl | ⟨more, c, rfl⟩
  · simp [encodeBytes] at h
  have hlast : encodeBytes [c] = (String.utf8EncodeChar c).map UInt8.toNat := by
    rw [encodeBytes_cons]
    exact List.append_nil _
  rw [List.concat_eq_append, encodeBytes_append, hlast] at h
  by_cases hc : c.toNat < 0x80
  · rw [encodeChar_low hc] at h
    obtain ⟨hmore, hbyte⟩ := List.append_inj' h rfl
    exact ⟨more, c, List.concat_eq_append, (List.cons.inj hbyte).1, hmore⟩
  · have hhigh := le_of_mem_encodeChar (Nat.le_of_not_lt hc)
    have hmem : b ∈ (String.utf8EncodeChar c).map UInt8.toNat := by
      have hne : (String.utf8EncodeChar c).map UInt8.toNat ≠ [] := by
        simp [String.utf8EncodeChar_ne_nil]
      have hsame := congrArg List.getLast? h
      rw [List.getLast?_append, List.getLast?_eq_some_getLast hne, Option.some_or,
        List.getLast?_concat]
        at hsame
      exact Option.some.inj hsame ▸ List.getLast_mem hne
    exact absurd (hhigh b hmem) (Nat.not_le_of_lt hb)

/-- What comes behind a text is not looked at if its bytes are closed. -/
lemma closed_encodeBytes {cs : List Char} (hsign : ¬['$'] <:+ cs)
    (hdigit : ∀ d : Char, d.isDigit = true → ¬['$', d] <:+ cs) : Closed (encodeBytes cs) where
  sign := by
    rintro ⟨bytes, hbytes⟩
    obtain ⟨more, c, rfl, hc, -⟩ := exists_of_encodeBytes_eq (by decide) hbytes.symm
    obtain rfl : c = '$' := eq_of_toNat_eq '$' hc
    exact hsign ⟨more, rfl⟩
  digit d hd := by
    rintro ⟨bytes, hbytes⟩
    have hlow : d < 0x80 := by
      simp only [isDigit, Bool.and_eq_true, decide_eq_true_eq] at hd
      omega
    rw [List.append_cons] at hbytes
    obtain ⟨more, c, rfl, hc, hmore⟩ := exists_of_encodeBytes_eq hlow hbytes.symm
    obtain ⟨more, c', rfl, hc', -⟩ := exists_of_encodeBytes_eq (by decide) hmore
    obtain rfl : c' = '$' := eq_of_toNat_eq '$' hc'
    refine hdigit c ?_ ⟨more, (List.append_cons ..)⟩
    rw [← isDigit_toNat, hc, hd]

lemma expand_append (h : m.Marks s) {cs : List Char} (hsign : ¬['$'] <:+ cs)
    (hdigit : ∀ d : Char, d.isDigit = true → ¬['$', d] <:+ cs) (more : List Char) :
    expand s m (cs ++ more) = expand s m cs ++ expand s m more := by
  have happend := expand?_append (locates h) (closed_encodeBytes hsign hdigit) (encodeBytes more)
  rw [← encodeBytes_append, agrees h, agrees h, agrees h] at happend
  refine encodeBytes_injective ((Option.some.inj happend).trans ?_)
  rw [encodeBytes_append]

/-! ## The contract -/

end

/-- What holds of the expansions of templates, byte by byte, for a text and the offsets of a match
in it. -/
structure Expands (text : List Nat) (locations : List Int) : Prop where
  /-- A step reads nothing that is not there, and takes at least one byte of the template. -/
  steps : ∀ (template : List Nat), ∀ i < template.length, ∃ piece j,
    step? template text locations i = some (piece, j) ∧ i < j ∧ j ≤ template.length
  /-- The steps come to the end of the template. -/
  ends : ∀ template : List Nat, ∃ out, expand? template text locations = some out
  escaped : ∀ bytes : List Nat, expand? (escape bytes) text locations = some bytes
  append : ∀ template more : List Nat, Closed template → expand? (template ++ more) text locations =
    (do return (← expand? template text locations) ++ (← expand? more text locations))

/-- What holds of the expansions of templates that are texts. -/
structure ExpandsTexts (s : List Char) (m : Pattern.Slots) : Prop where
  /-- They are those of the bytes. -/
  agrees : ∀ template : List Char, expand? (encodeBytes template) (encodeBytes s) m.locations =
    some (encodeBytes (expand s m template))
  escaped : ∀ cs : List Char, expand s m (escapeText cs) = cs
  append : ∀ cs more : List Char, ¬['$'] <:+ cs →
    (∀ d : Char, d.isDigit = true → ¬['$', d] <:+ cs) →
    expand s m (cs ++ more) = expand s m cs ++ expand s m more

end Template

/-- **Templates are safe and can be escaped.** An expansion goes through its template step by step
and reads nothing outside of the template, the offsets and the text; a template whose dollar signs
are doubled expands to what it was; and templates one after the other expand to their expansions, if
the first one does not end with a dollar sign or with a dollar sign and a digit. -/
theorem templates_safe_and_escapable :
    (∀ (text : List Nat) (locations : List Int), Template.Locates locations text.length →
      Template.Expands text locations) ∧
      ∀ (s : List Char) (m : Pattern.Slots), m.Marks s → Template.ExpandsTexts s m := by
  refine ⟨fun text locations h => ?_, fun s m h => ?_⟩
  · exact ⟨fun _ _ hi => Template.exists_step? h hi, Template.exists_expand? h,
      Template.expand?_escape,
      fun _ more hclosed => Template.expand?_append h hclosed more⟩
  · exact ⟨Template.agrees h, Template.expand_escapeText,
      fun _ more hsign hdigit => Template.expand_append h hsign hdigit more⟩

/-- The slots of the match of `(é)|(x)` in `aé`. -/
def accentSlots : Pattern.Slots := #[some 1, some 3, some 1, some 3, none, none]

/-- A capture of two bytes, one that took no part, and a dollar sign at the end. -/
theorem templates_expanded_behind_accent :
    (Pattern.compile "(é)|(x)").toOption.bind (fun code => code.find ['a', 'é']) =
      some accentSlots ∧
      accentSlots.Marks ['a', 'é'] ∧
      Template.Expands (Text.encodeBytes ['a', 'é']) accentSlots.locations ∧
      Template.ExpandsTexts ['a', 'é'] accentSlots ∧
      expand ['a', 'é'] accentSlots ['$', '0', '1', '$', '2', '$'] = ['é', '$'] := by
  have hmarks : accentSlots.Marks ['a', 'é'] := by
    refine ⟨rfl, ⟨['a'], ['é'], [], rfl, rfl, rfl⟩, fun i hi => ?_⟩
    have hsize : accentSlots.size = 6 := rfl
    obtain rfl | rfl | rfl : i = 0 ∨ i = 1 ∨ i = 2 := by omega
    · exact .inr ⟨['a'], ['é'], [], rfl, rfl, rfl⟩
    · exact .inr ⟨['a'], ['é'], [], rfl, rfl, rfl⟩
    · exact .inl rfl
  refine ⟨by decide +kernel, hmarks, templates_safe_and_escapable.1 _ _ (Template.locates hmarks),
    templates_safe_and_escapable.2 _ _ hmarks, by decide +kernel⟩

end Clearance
