/-
# Numerals

A decimal numeral has a sign, a whole part, an optional fraction and an optional exponent, and
denotes a rational number (`Numeral.value`). The reader of numerals takes the text of each for the
double nearest to the number that it denotes (`Numeral.ofText_text`).
-/
import Clearance.Proofs.Index
import Mathlib.Algebra.Order.Field.Power
import Mathlib.Algebra.Order.Ring.Rat
import Mathlib.Tactic.FieldSimp
import Mathlib.Tactic.NormNum

namespace Clearance.Decimal

/-! ## Numerals -/

/-- Decimal digits, at least one. -/
structure Digits where
  chars : List Char
  ne_nil : chars ≠ []
  isDigit : ∀ c ∈ chars, c.isDigit = true

namespace Digits

/-- The natural number that the digits write. -/
def value (ds : Digits) : ℕ := Nat.ofDigitChars 10 ds.chars 0

/-- No zero is in front of another digit. -/
def Plain (ds : Digits) : Prop := ∀ cs, ds.chars = '0' :: cs → cs = []

/-- Digits that do not begin with zero are plain. -/
lemma plain_of_head? {ds : Digits} {c : Char} (h : ds.chars.head? = some c) (hc : c ≠ '0') :
    ds.Plain := by
  intro cs hcs
  rw [hcs, List.head?_cons] at h
  exact absurd (Option.some.inj h).symm hc

/-- The digits of a number. -/
def ofNat (k : ℕ) : Digits where
  chars := digitsOf k
  ne_nil := List.ne_nil_of_length_pos Nat.length_toDigits_pos
  isDigit := fun _ hc => Nat.isDigit_of_mem_toDigits (by decide) (by decide) hc

lemma value_ofNat (k : ℕ) : (ofNat k).value = k :=
  Nat.ofDigitChars_toDigits (by decide) (by decide)

lemma plain_ofNat {k : ℕ} (hk : 0 < k) : (ofNat k).Plain :=
  fun cs hcs => absurd hcs (toDigits_ne_zero_cons hk cs)

end Digits

/-- A decimal numeral: a sign, a whole part, an optional fraction and an optional exponent, which
is negative if its first component says so. -/
structure Numeral where
  negative : Bool
  whole : Digits
  fraction : Option Digits
  exponent : Option (Bool × Digits)

/-- A number with a sign. -/
def signed (negative : Bool) (q : ℚ) : ℚ := if negative then -q else q

/-- The sign in front of a numeral. -/
def signText (negative : Bool) : List Char := if negative then ['-'] else []

namespace Numeral

/-- The digits behind the point. -/
def fractionChars (n : Numeral) : List Char := n.fraction.elim [] (·.chars)

/-- The fraction with its point. -/
def fractionText (n : Numeral) : List Char := n.fraction.elim [] ('.' :: ·.chars)

/-- The exponent with its mark and its sign. -/
def exponentText (n : Numeral) : List Char :=
  n.exponent.elim [] fun e => 'e' :: (if e.1 then '-' else '+') :: e.2.chars

/-- The text of a numeral. -/
def text (n : Numeral) : List Char :=
  signText n.negative ++ (n.whole.chars ++ (n.fractionText ++ n.exponentText))

/-- The power of ten that the exponent names. -/
def power (n : Numeral) : ℤ :=
  n.exponent.elim 0 fun e => if e.1 then -(e.2.value : ℤ) else e.2.value

/-- The number that a numeral denotes. -/
def value (n : Numeral) : ℚ :=
  signed n.negative ((n.whole.value +
    n.fraction.elim 0 fun f => (f.value : ℚ) / 10 ^ f.chars.length) * 10 ^ n.power)

/-- Neither the whole part nor the exponent has a superfluous zero in front. -/
structure Plain (n : Numeral) : Prop where
  whole : n.whole.Plain
  exponent : ∀ e ∈ n.exponent, e.2.Plain

end Numeral

/-! ## What numerals stand for -/

lemma ofDigitChars_append (as bs : List Char) :
    Nat.ofDigitChars 10 (as ++ bs) 0 =
      10 ^ bs.length * Nat.ofDigitChars 10 as 0 + Nat.ofDigitChars 10 bs 0 := by
  rw [Nat.ofDigitChars_append, Nat.ofDigitChars_eq_ofDigitChars_zero]

lemma ofDigitChars_zeros (k : ℕ) : Nat.ofDigitChars 10 (List.replicate k '0') 0 = 0 := by
  rw [Nat.ofDigitChars_replicate_zero, Nat.mul_zero]

namespace Numeral

/-- The number that all digits of the whole part and the fraction write together. -/
def coefficient (n : Numeral) : ℕ := Nat.ofDigitChars 10 (n.whole.chars ++ n.fractionChars) 0

/-- The power of ten in the last place of the fraction. -/
def scale (n : Numeral) : ℤ := n.power - n.fractionChars.length

/-- A numeral denotes its digits, without the point, in units of its last place. -/
lemma value_eq (n : Numeral) :
    n.value = signed n.negative ((n.coefficient : ℚ) * 10 ^ n.scale) := by
  unfold value coefficient scale fractionChars Digits.value
  rw [ofDigitChars_append, zpow_sub₀ (by norm_num)]
  congr 1
  cases n.fraction with
  | none => simp
  | some f =>
    simp only [Option.elim_some, zpow_natCast]
    push_cast
    field_simp

end Numeral

/-! ## Numerals as they are read -/

/-- The characters of numerals. -/
def numeralChars : List Char :=
  ['0', '1', '2', '3', '4', '5', '6', '7', '8', '9', '+', '-', '.', 'e', 'E']

lemma mem_numeralChars_of_isDigit {c : Char} (h : c.isDigit = true) : c ∈ numeralChars := by
  have hall : ∀ k < 58, 48 ≤ k → Char.ofNat k ∈ numeralChars := by decide
  obtain ⟨hlow, hhigh⟩ := Char.isDigit_iff_toNat.1 h
  have hmem := hall c.toNat (by simpa using Nat.lt_succ_of_le hhigh) (by simpa using hlow)
  rwa [Char.ofNat_toNat] at hmem

namespace Digits

variable (ds : Digits) {rest : List Char}

lemma ne_of_mem {c d : Char} (hc : c ∈ ds.chars) (hd : d.isDigit = false) : c ≠ d := by
  rintro rfl
  rw [ds.isDigit c hc] at hd
  cases hd

/-- The digits in front of something else are what is read. -/
lemma takeWhile_append (h : ∀ c ∈ rest.head?, c.isDigit = false) :
    (ds.chars ++ rest).takeWhile Char.isDigit = ds.chars := by
  rw [List.takeWhile_append_of_pos ds.isDigit]
  cases rest with
  | nil => simp
  | cons c cs => simp [h c rfl]

lemma dropWhile_append (h : ∀ c ∈ rest.head?, c.isDigit = false) :
    (ds.chars ++ rest).dropWhile Char.isDigit = rest := by
  rw [List.dropWhile_append_of_pos ds.isDigit]
  cases rest with
  | nil => rfl
  | cons c cs => simp [h c rfl]

lemma exists_cons : ∃ c cs, ds.chars = c :: cs ∧ c.isDigit = true := by
  rcases hcs : ds.chars with _ | ⟨c, cs⟩
  · exact absurd hcs ds.ne_nil
  · exact ⟨c, cs, rfl, ds.isDigit c (by simp [hcs])⟩

/-- Digits have no sign in front. -/
lemma takeSign_append : takeSign (ds.chars ++ rest) = (false, ds.chars ++ rest) := by
  obtain ⟨c, cs, hcs, hdigit⟩ := ds.exists_cons
  rw [hcs, List.cons_append]
  unfold takeSign
  split <;> simp_all

end Digits

namespace Numeral

variable (n : Numeral)

lemma mem_numeralChars_of_mem_text {c : Char} (hc : c ∈ n.text) : c ∈ numeralChars := by
  simp only [text, List.mem_append] at hc
  rcases hc with hc | hc | hc | hc
  · unfold signText at hc
    split_ifs at hc
    · obtain rfl := List.mem_singleton.1 hc
      decide
    · cases hc
  · exact mem_numeralChars_of_isDigit (n.whole.isDigit c hc)
  · unfold fractionText at hc
    rcases hf : n.fraction with _ | f
    · simp [hf] at hc
    · rw [hf] at hc
      rcases List.mem_cons.1 hc with rfl | hc
      · decide
      · exact mem_numeralChars_of_isDigit (f.isDigit c hc)
  · unfold exponentText at hc
    rcases he : n.exponent with _ | ⟨down, ds⟩
    · simp [he] at hc
    · rw [he] at hc
      rcases List.mem_cons.1 hc with rfl | hc
      · decide
      · rcases List.mem_cons.1 hc with rfl | hc
        · rcases down with _ | _
          · exact (by decide : '+' ∈ numeralChars)
          · exact (by decide : '-' ∈ numeralChars)
        · exact mem_numeralChars_of_isDigit (ds.isDigit c hc)

/-- The mark of the exponent is in a numeral with an exponent only. -/
lemma mark_mem_text_iff : 'e' ∈ n.text ↔ n.exponent.isSome := by
  have hsign : 'e' ∉ signText n.negative := by cases n.negative <;> decide
  have hwhole : 'e' ∉ n.whole.chars := fun h => n.whole.ne_of_mem h (by decide) rfl
  have hfraction : 'e' ∉ n.fractionText := by
    unfold fractionText
    rcases n.fraction with _ | f
    · simp
    · have : 'e' ∉ f.chars := fun h => f.ne_of_mem h (by decide) rfl
      simpa using this
  have hexponent : 'e' ∈ n.exponentText ↔ n.exponent.isSome := by
    unfold exponentText
    rcases n.exponent with _ | ⟨down, ds⟩ <;> simp
  simp only [text, List.mem_append, hsign, hwhole, hfraction, false_or, hexponent]

lemma takeSign_text :
    takeSign n.text = (n.negative, n.whole.chars ++ (n.fractionText ++ n.exponentText)) := by
  unfold text signText
  cases n.negative with
  | false => exact n.whole.takeSign_append
  | true => rfl

lemma readExponent?_exponentText : readExponent? n.exponentText = some n.power := by
  unfold exponentText power
  rcases n.exponent with _ | ⟨down, ds⟩
  · rfl
  · have hread := Heap.readDigits?_of_isDigit ds.ne_nil ds.isDigit
    cases down <;> simp [readExponent?, takeSign, hread, Digits.value]

lemma isDigit_of_head?_exponentText {c : Char} (hc : c ∈ n.exponentText.head?) :
    c.isDigit = false := by
  unfold exponentText at hc
  rcases he : n.exponent with _ | e
  · simp [he] at hc
  · rw [he] at hc
    obtain rfl := Option.some.inj hc
    decide

lemma isDigit_of_head?_tail {c : Char} (hc : c ∈ (n.fractionText ++ n.exponentText).head?) :
    c.isDigit = false := by
  unfold fractionText at hc
  rcases hf : n.fraction with _ | f
  · rw [hf] at hc
    exact n.isDigit_of_head?_exponentText hc
  · rw [hf] at hc
    obtain rfl := Option.some.inj hc
    decide

/-- A numeral is read as its digits in units of its last place. -/
lemma readNumeral?_text :
    readNumeral? n.text = some (scaled n.negative n.coefficient n.scale) := by
  have hwhole : n.whole.chars.isEmpty = false := by simpa using n.whole.ne_nil
  have hvalue : ∀ cs : List Char, valueOf 10 (cs.map digitValue) = Nat.ofDigitChars 10 cs 0 := by
    intro cs
    rw [valueOf, List.foldl_map]
    rfl
  have htail := fun c => @isDigit_of_head?_tail n c
  have hexponent := fun c => @isDigit_of_head?_exponentText n c
  unfold readNumeral?
  simp only [takeSign_text, n.whole.takeWhile_append htail, n.whole.dropWhile_append htail, hwhole,
    Bool.false_and, Bool.false_eq_true, if_false, hvalue]
  unfold coefficient scale fractionChars fractionText
  rcases n.fraction with _ | f
  · have hmark : ∀ more, n.exponentText ≠ '.' :: more := by
      intro more hmore
      have hdigit := n.isDigit_of_head?_exponentText (c := '.')
      unfold exponentText at hmore
      rcases he : n.exponent with _ | e <;> simp [he] at hmore
    simp only [Option.elim_none, List.nil_append, readExponent?_exponentText]
    rfl
  · simp only [Option.elim_some, List.cons_append, f.takeWhile_append hexponent,
      f.dropWhile_append hexponent, readExponent?_exponentText]
    rfl

/-- The texts of numerals are neither infinities nor hexadecimal, and no white space is around
them, so that they are read as numerals. -/
lemma ofText_text :
    ofText (String.ofList n.text) = scaled n.negative n.coefficient n.scale := by
  have hchars := fun c => @mem_numeralChars_of_mem_text n c
  -- nothing is trimmed, and none of the names of infinity is made of characters of numerals
  have hblank : ∀ c ∈ n.text, Text.isBlank c = false := by
    intro c hc
    have hrange : ∀ c ∈ numeralChars, 43 ≤ c.toNat ∧ c.toNat ≤ 101 := by
      simp [numeralChars]
    have := hrange c (hchars c hc)
    simp only [Text.isBlank, Bool.or_eq_false_iff, Bool.and_eq_false_iff, decide_eq_false_iff_not,
      beq_eq_false_iff_ne]
    omega
  have htrim : Text.trimList Text.isBlank n.text = n.text := Text.trimList_eq_self hblank
  have hne : ∀ (c : Char) (s : String), c ∈ s.toList → c ∉ numeralChars →
      String.ofList n.text ≠ s := by
    rintro c s hc hnot rfl
    rw [String.toList_ofList] at hc
    exact hnot (hchars c hc)
  have hinfinity := hne 'I' "Infinity" (by decide) (by decide)
  have hplus := hne 'I' "+Infinity" (by decide) (by decide)
  have hminus := hne 'I' "-Infinity" (by decide) (by decide)
  have hread := n.readNumeral?_text
  unfold ofText
  rw [String.toList_ofList, htrim]
  rcases htext : n.text with _ | ⟨c, cs⟩
  · unfold text at htext
    exact absurd (List.append_eq_nil_iff.1 (List.append_eq_nil_iff.1 htext).2).1 n.whole.ne_nil
  · rw [htext] at hinfinity hplus hminus hread hchars
    dsimp only
    rw [decide_eq_false hinfinity, decide_eq_false hplus, if_neg (by decide), if_neg hminus]
    split
    · rename_i x d ds hshape
      have hx : ∀ x ∈ numeralChars, (x == 'x' || x == 'X') = false := by
        simp [numeralChars]
      rw [hx x (hchars x (by simp [hshape])), if_neg (by decide), hread, Option.getD_some]
    · rw [hread, Option.getD_some]

end Numeral

end Clearance.Decimal
