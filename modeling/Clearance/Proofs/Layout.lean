/-
# Layouts of numbers

A number is laid out in one of four ways, and each is the text of a numeral that denotes exactly
the number its digits stand for (`Scientific.Normal.exists_writes`), with an exponent for the
magnitudes that are large or small. The digits that are laid out for a double do not begin with zero
(`normal_shortest`).
-/
import Clearance.Decimal.Layout
import Clearance.Proofs.Numeral
import Mathlib.Tactic.Linarith
import Mathlib.Tactic.Positivity
import Mathlib.Tactic.Ring

namespace Clearance.Decimal

/-! ## Digits and exponents -/

namespace Scientific

/-- Digits as they stand for a number other than zero: the first one is not zero. -/
structure Normal (s : Scientific) : Prop where
  isDigit : ∀ c ∈ s.digits, c.isDigit = true
  head : ∃ c ∈ s.digits.head?, c ≠ '0'

/-- The number `d₁.d₂d₃… · 10 ^ e`. -/
def value (s : Scientific) : ℚ :=
  (Nat.ofDigitChars 10 s.digits 0 : ℚ) / 10 ^ (s.digits.length - 1) * 10 ^ s.exponent

end Scientific

/-- A numeral lays out the digits of a number: its text is the layout and it denotes the number,
with no superfluous zero, and with an exponent for large and for small magnitudes only. -/
structure Numeral.Writes (n : Numeral) (negative : Bool) (s : Scientific) : Prop where
  text : n.text = signText negative ++ layout s.digits s.exponent
  value : n.value = signed negative s.value
  exponent : n.exponent.isSome ↔ 10 ^ 21 ≤ s.value ∨ s.value < 10 ^ (-6 : ℤ)
  plain : n.Plain

namespace Scientific

variable {s : Scientific}

lemma Normal.exists_cons (h : s.Normal) : ∃ c cs, s.digits = c :: cs ∧ c ≠ '0' := by
  obtain ⟨c, hc, hne⟩ := h.head
  obtain ⟨cs, hcs⟩ := List.head?_eq_some_iff.1 hc
  exact ⟨c, cs, hcs, hne⟩

lemma Normal.length_pos (h : s.Normal) : 0 < s.digits.length := by
  obtain ⟨c, cs, hcs, -⟩ := h.exists_cons
  simp [hcs]

/-- The number of digits bounds what they write, from both sides. -/
lemma Normal.bounds (h : s.Normal) :
    10 ^ (s.digits.length - 1) ≤ Nat.ofDigitChars 10 s.digits 0 ∧
      Nat.ofDigitChars 10 s.digits 0 < 10 ^ s.digits.length := by
  obtain ⟨c, cs, hcs, hne⟩ := h.exists_cons
  obtain ⟨hpos, hdigits⟩ := toDigits_ofDigitChars (hcs ▸ h.isDigit) hne
  rw [← hcs] at hpos hdigits
  constructor
  · by_contra hlt
    rcases Nat.eq_zero_or_pos (s.digits.length - 1) with hzero | hlong
    · rw [hzero] at hlt
      omega
    · have := (Nat.length_toDigits_le_iff (by decide) hlong).2 (Nat.lt_of_not_le hlt)
      rw [hdigits] at this
      omega
  · exact (Nat.length_toDigits_le_iff (by decide) h.length_pos).1 (by rw [hdigits])

/-- In units of the last digit. -/
lemma Normal.value_eq (h : s.Normal) :
    s.value = (Nat.ofDigitChars 10 s.digits 0 : ℚ) * 10 ^ (s.exponent + 1 - s.digits.length) := by
  have hexponent : s.exponent + 1 - s.digits.length = s.exponent - (s.digits.length - 1 : ℕ) := by
    have := h.length_pos
    omega
  rw [value, hexponent, zpow_sub₀ (by norm_num), zpow_natCast]
  ring

/-- The exponent is the one of the magnitude. -/
lemma Normal.le_value_iff (h : s.Normal) (a : ℤ) : 10 ^ a ≤ s.value ↔ a ≤ s.exponent := by
  have hlower : (10 : ℚ) ^ s.exponent ≤ s.value := by
    refine le_mul_of_one_le_left (by positivity) ((one_le_div₀ (by positivity)).2 ?_)
    exact_mod_cast h.bounds.1
  have hupper : s.value < 10 ^ (s.exponent + 1) := by
    have hdigits : (Nat.ofDigitChars 10 s.digits 0 : ℚ) < 10 ^ (s.digits.length : ℤ) := by
      exact_mod_cast h.bounds.2
    calc s.value = _ := h.value_eq
      _ < 10 ^ (s.digits.length : ℤ) * 10 ^ (s.exponent + 1 - s.digits.length) :=
          mul_lt_mul_of_pos_right hdigits (by positivity)
      _ = 10 ^ (s.exponent + 1) := by rw [← zpow_add₀ (by norm_num)]; congr 1; ring
  constructor
  · intro hle
    have := (zpow_lt_zpow_iff_right₀ (a := (10 : ℚ)) (by norm_num)).1 (hle.trans_lt hupper)
    omega
  · exact fun hle => (zpow_le_zpow_right₀ (by norm_num) hle).trans hlower

/-- The magnitudes that are written with an exponent. -/
lemma Normal.extreme_iff (h : s.Normal) :
    (10 ^ 21 ≤ s.value ∨ s.value < 10 ^ (-6 : ℤ)) ↔ 21 ≤ s.exponent ∨ s.exponent < -6 := by
  have hlarge : (10 : ℚ) ^ 21 ≤ s.value ↔ 21 ≤ s.exponent := by exact_mod_cast h.le_value_iff 21
  rw [hlarge, ← not_le (b := s.value), h.le_value_iff, not_le]

end Scientific

/-! ## The four layouts -/

section Layouts

variable {ds : List Char} {e : ℤ}

lemma layout_padded (hlength : ds.length ≤ e + 1) (hbound : e < 21) :
    layout ds e = ds ++ List.replicate (e + 1 - ds.length).toNat '0' := by
  have hlt : e + 1 ≤ 21 := by omega
  simp [layout, hlength, hlt]

lemma layout_pointed (hlength : e + 1 < ds.length) (hpos : 0 ≤ e) (hbound : e < 21) :
    layout ds e = ds.take (e + 1).toNat ++ '.' :: ds.drop (e + 1).toNat := by
  have hlt : e + 1 ≤ 21 := by omega
  have hlong : ¬ (ds.length : ℤ) ≤ e + 1 := by omega
  have hzero : 0 < e + 1 := by omega
  simp [layout, hlong, hlt, hzero]

lemma layout_small (hds : 0 < ds.length) (hneg : e < 0) (hbound : -6 ≤ e) :
    layout ds e = '0' :: '.' :: (List.replicate (-(e + 1)).toNat '0' ++ ds) := by
  have hlong : ¬ (ds.length : ℤ) ≤ e + 1 := by omega
  have hzero : ¬ 0 < e + 1 := by omega
  have hle : e + 1 ≤ 0 := by omega
  have hlt : -6 < e + 1 := by omega
  unfold layout
  simp [hlong, hzero, hle, hlt]

lemma layout_scientific {c : Char} {cs : List Char} (hextreme : 21 ≤ e ∨ e < -6) :
    layout (c :: cs) e = c :: ((if cs = [] then [] else '.' :: cs) ++
      'e' :: (if e < 0 then '-' else '+') :: digitsOf e.natAbs) := by
  have hpadded : ¬ (((c :: cs).length : ℤ) ≤ e + 1 ∧ e + 1 ≤ 21) := by
    rw [List.length_cons]
    omega
  have hpointed : ¬ (0 < e + 1 ∧ e + 1 ≤ 21) := by omega
  have hsmall : ¬ (-6 < e + 1 ∧ e + 1 ≤ 0) := by omega
  have hfraction : (if ((c :: cs).length : ℤ) > 1 then '.' :: List.drop 1 (c :: cs) else []) =
      if cs = [] then [] else '.' :: cs := by
    cases cs <;> simp
  have hexponent : (if e + 1 - 1 ≥ 0 then ['+'] else []) ++ intText (e + 1 - 1) =
      (if e < 0 then '-' else '+') :: digitsOf e.natAbs := by
    rw [Int.add_sub_cancel]
    cases e with
    | ofNat k => simp [intText]
    | negSucc k => simp [intText]
  unfold layout
  simp only [Bool.and_eq_true, decide_eq_true_eq]
  rw [if_neg hpadded, if_neg hpointed, if_neg hsmall, hfraction, ← hexponent]
  simp

end Layouts

namespace Numeral

variable {n : Numeral} {negative : Bool} {s : Scientific}

/-- What is left to show of a numeral with the text of a layout: that its digits are those laid
out, in the right units, and that its exponent and its zeros are as they should be. -/
lemma writes_of (h : s.Normal) (hsign : n.negative = negative)
    (htext : n.whole.chars ++ (n.fractionText ++ n.exponentText) = layout s.digits s.exponent)
    (hcoefficient : (n.coefficient : ℚ) * 10 ^ n.scale =
      Nat.ofDigitChars 10 s.digits 0 * 10 ^ (s.exponent + 1 - s.digits.length))
    (hexponent : n.exponent.isSome ↔ 21 ≤ s.exponent ∨ s.exponent < -6) (hplain : n.Plain) :
    n.Writes negative s where
  text := by rw [text, htext, hsign]
  value := by rw [value_eq, hcoefficient, hsign, h.value_eq]
  exponent := by rw [hexponent, h.extreme_iff]
  plain := hplain

end Numeral

namespace Scientific

open Numeral

variable {s : Scientific} (h : s.Normal) (negative : Bool)
include h

lemma Normal.isDigit_take (k : ℕ) : ∀ c ∈ s.digits.take k, c.isDigit = true :=
  fun c hc => h.isDigit c (List.mem_of_mem_take hc)

lemma Normal.isDigit_drop (k : ℕ) : ∀ c ∈ s.digits.drop k, c.isDigit = true :=
  fun c hc => h.isDigit c (List.mem_of_mem_drop hc)

/-- All digits are in front of the point, with zeros behind them. -/
lemma Normal.exists_padded (hlength : s.digits.length ≤ s.exponent + 1) (hbound : s.exponent < 21) :
    ∃ n : Numeral, n.Writes negative s := by
  obtain ⟨c, cs, hcs, hne⟩ := h.exists_cons
  obtain ⟨k, hk⟩ := Int.eq_ofNat_of_zero_le (show 0 ≤ s.exponent + 1 - s.digits.length by omega)
  have hpos := h.length_pos
  let whole : Digits := {
    chars := s.digits ++ List.replicate k '0'
    ne_nil := by simp [hcs]
    isDigit := by
      intro d hd
      rcases List.mem_append.1 hd with hd | hd
      · exact h.isDigit d hd
      · rw [List.eq_of_mem_replicate hd]
        decide }
  refine ⟨⟨negative, whole, none, none⟩, writes_of h rfl ?_ ?_ ?_ ?_⟩
  · rw [layout_padded hlength hbound, hk]
    simp [whole, fractionText, exponentText]
  · have hall : Nat.ofDigitChars 10 (s.digits ++ List.replicate k '0') 0 =
        10 ^ k * Nat.ofDigitChars 10 s.digits 0 := by
      rw [ofDigitChars_append, ofDigitChars_zeros, List.length_replicate, Nat.add_zero]
    rw [hk]
    simp [coefficient, scale, power, fractionChars, whole, hall, mul_comm]
  · simp
    omega
  · exact ⟨Digits.plain_of_head? (by simp [whole, hcs]) hne, by simp⟩

/-- The point is between the digits. -/
lemma Normal.exists_pointed (hlength : s.exponent + 1 < s.digits.length) (hpos : 0 ≤ s.exponent)
    (hbound : s.exponent < 21) : ∃ n : Numeral, n.Writes negative s := by
  obtain ⟨c, cs, hcs, hne⟩ := h.exists_cons
  obtain ⟨k, hk⟩ := Int.eq_ofNat_of_zero_le hpos
  have hn : (s.exponent + 1).toNat = k + 1 := by omega
  have hlt : k + 1 < s.digits.length := by omega
  let whole : Digits := ⟨s.digits.take (k + 1), by simp [hcs], h.isDigit_take _⟩
  let fraction : Digits := ⟨s.digits.drop (k + 1), by simpa using hlt, h.isDigit_drop _⟩
  refine ⟨⟨negative, whole, some fraction, none⟩, writes_of h rfl ?_ ?_ ?_ ?_⟩
  · rw [layout_pointed hlength hpos hbound, hn]
    simp [whole, fraction, fractionText, exponentText]
  · have hscale : -(((s.digits.length - (k + 1) : ℕ)) : ℤ) = s.exponent + 1 - s.digits.length := by
      omega
    simp [coefficient, scale, power, fractionChars, whole, fraction, hscale]
  · simp
    omega
  · exact ⟨Digits.plain_of_head? (by simp [whole, hcs]) hne, by simp⟩

/-- The digits are behind the point, after zeros. -/
lemma Normal.exists_small (hneg : s.exponent < 0) (hbound : -6 ≤ s.exponent) :
    ∃ n : Numeral, n.Writes negative s := by
  obtain ⟨c, cs, hcs, hne⟩ := h.exists_cons
  obtain ⟨k, hk⟩ := Int.eq_ofNat_of_zero_le (show 0 ≤ -(s.exponent + 1) by omega)
  let whole : Digits := ⟨['0'], by simp, by simp⟩
  let fraction : Digits := {
    chars := List.replicate k '0' ++ s.digits
    ne_nil := by simp [hcs]
    isDigit := by
      intro d hd
      rcases List.mem_append.1 hd with hd | hd
      · rw [List.eq_of_mem_replicate hd]
        decide
      · exact h.isDigit d hd }
  refine ⟨⟨negative, whole, some fraction, none⟩, writes_of h rfl ?_ ?_ ?_ ?_⟩
  · rw [layout_small h.length_pos hneg hbound, hk]
    simp [whole, fraction, fractionText, exponentText]
  · have hall : Nat.ofDigitChars 10 ('0' :: (List.replicate k '0' ++ s.digits)) 0 =
        Nat.ofDigitChars 10 s.digits 0 := by
      rw [← List.cons_append, ← List.replicate_succ, ofDigitChars_append, ofDigitChars_zeros,
        Nat.mul_zero, Nat.zero_add]
    have hscale : -((k + s.digits.length : ℕ) : ℤ) = s.exponent + 1 - s.digits.length := by omega
    rw [← hscale]
    simp [coefficient, scale, power, fractionChars, whole, fraction, hall]
  · simp
    omega
  · exact ⟨fun _ hrest => (List.cons.inj hrest).2.symm, by simp⟩

/-- One digit is in front of the point, and an exponent follows. -/
lemma Normal.exists_scientific (hextreme : 21 ≤ s.exponent ∨ s.exponent < -6) :
    ∃ n : Numeral, n.Writes negative s := by
  obtain ⟨c, cs, hcs, hne⟩ := h.exists_cons
  have hdigits : ∀ d ∈ c :: cs, d.isDigit = true := hcs ▸ h.isDigit
  let whole : Digits := ⟨[c], by simp, by simpa using hdigits c List.mem_cons_self⟩
  let exponent : Option (Bool × Digits) := some (s.exponent < 0, .ofNat s.exponent.natAbs)
  have hpower : ∀ f, power ⟨negative, whole, f, exponent⟩ = s.exponent := by
    intro f
    simp only [power, exponent, Option.elim_some, Digits.value_ofNat, decide_eq_true_eq]
    split <;> omega
  have hplain : (Digits.ofNat s.exponent.natAbs).Plain := Digits.plain_ofNat (by omega)
  by_cases hsingle : cs = []
  · refine ⟨⟨negative, whole, none, exponent⟩, writes_of h rfl ?_ ?_ ?_ ?_⟩
    · rw [hcs, layout_scientific hextreme]
      simp [whole, exponent, fractionText, exponentText, hsingle, Digits.ofNat]
    · simp [coefficient, scale, hpower, fractionChars, whole, hcs, hsingle]
    · simpa [exponent] using hextreme
    · exact ⟨Digits.plain_of_head? rfl hne, by simpa [exponent] using hplain⟩
  · let fraction : Digits := ⟨cs, hsingle, fun d hd => hdigits d (List.mem_cons_of_mem _ hd)⟩
    refine ⟨⟨negative, whole, some fraction, exponent⟩, writes_of h rfl ?_ ?_ ?_ ?_⟩
    · rw [hcs, layout_scientific hextreme]
      simp [whole, exponent, fraction, fractionText, exponentText, hsingle, Digits.ofNat]
    · simp [coefficient, scale, hpower, fractionChars, whole, fraction, hcs]
    · simpa [exponent] using hextreme
    · exact ⟨Digits.plain_of_head? rfl hne, by simpa [exponent] using hplain⟩

/-- Every layout is the text of a numeral that denotes what is laid out. -/
lemma Normal.exists_writes : ∃ n : Numeral, n.Writes negative s := by
  have hpos := h.length_pos
  by_cases hextreme : 21 ≤ s.exponent ∨ s.exponent < -6
  · exact h.exists_scientific negative hextreme
  by_cases hneg : s.exponent < 0
  · exact h.exists_small negative hneg (by omega)
  by_cases hlength : s.digits.length ≤ s.exponent + 1
  · exact h.exists_padded negative hlength (by omega)
  · exact h.exists_pointed negative (by omega) (by omega) (by omega)

end Scientific

/-! ## The digits of doubles -/

section Magnitude

variable {num den : ℕ}

lemma belowPower_iff (hden : 0 < den) (e : ℤ) :
    belowPower num den e = true ↔ (num / den : ℚ) < 10 ^ e := by
  have hpos : (0 : ℚ) < den := by exact_mod_cast hden
  unfold belowPower
  cases e with
  | ofNat k =>
    rw [decide_eq_true_iff, div_lt_iff₀ hpos, Int.ofNat_eq_natCast, zpow_natCast, mul_comm]
    exact_mod_cast Iff.rfl
  | negSucc k =>
    rw [decide_eq_true_iff, zpow_negSucc, div_lt_iff₀ hpos, inv_mul_eq_div,
      lt_div_iff₀ (by positivity)]
    exact_mod_cast Iff.rfl

lemma belowPower_eq_false_iff (hden : 0 < den) (e : ℤ) :
    belowPower num den e = false ↔ (10 : ℚ) ^ e ≤ num / den := by
  rw [← Bool.not_eq_true, belowPower_iff hden, not_lt]

/-- A number is at least as large as its bits say. -/
lemma two_zpow_le_div (hnum : num ≠ 0) (hden : den ≠ 0) :
    (2 : ℚ) ^ ((num.log2 : ℤ) - den.log2 - 1) ≤ num / den := by
  have hlower : (2 : ℚ) ^ num.log2 ≤ num := by exact_mod_cast Nat.log2_self_le hnum
  have hupper : (den : ℚ) ≤ 2 ^ (den.log2 + 1) := by exact_mod_cast Nat.lt_log2_self.le
  have hpos : (0 : ℚ) < den := by exact_mod_cast Nat.pos_of_ne_zero hden
  calc (2 : ℚ) ^ ((num.log2 : ℤ) - den.log2 - 1) = 2 ^ num.log2 / 2 ^ (den.log2 + 1) := by
        rw [sub_sub, zpow_sub₀ (by norm_num), ← Int.natCast_succ, zpow_natCast, zpow_natCast]
    _ ≤ num / den := by gcongr

/-- The decimal exponent is found on the way up, if it is not the lower bound of the search. -/
lemma decimalExponentFrom_cases (fuel : ℕ) (e : ℤ) :
    decimalExponentFrom num den fuel e = e ∨
      belowPower num den (decimalExponentFrom num den fuel e) = false := by
  induction fuel generalizing e with
  | zero => exact .inl rfl
  | succ fuel ih =>
    unfold decimalExponentFrom
    split
    · exact .inl rfl
    · rename_i hbelow
      rcases ih (e + 1) with h | h
      · rw [h]
        exact .inr (Bool.eq_false_iff.2 hbelow)
      · exact .inr h

/-- Powers of ten and of two with the ratio of exponents that the search starts from. -/
lemma ten_zpow_le_two_zpow {b : ℤ} (hlow : -1100 ≤ b) (hhigh : b ≤ 1100) :
    (10 : ℚ) ^ (b * 30103 / 100000 - 20) ≤ 2 ^ (b - 1) := by
  rcases le_or_gt 0 b with hpos | hneg
  · -- three decimal places for ten binary ones
    calc (10 : ℚ) ^ (b * 30103 / 100000 - 20) ≤ 10 ^ (3 * (b / 10) - 1) :=
          zpow_le_zpow_right₀ (by norm_num) (by omega)
      _ = (10 ^ (3 : ℤ)) ^ (b / 10) * 10⁻¹ := by rw [zpow_sub_one₀ (by norm_num), zpow_mul]
      _ ≤ (2 ^ (10 : ℤ)) ^ (b / 10) * 2⁻¹ := by
          gcongr
          · exact zpow_le_zpow_left₀ (by omega) (by norm_num) (by norm_num)
          · norm_num
      _ = 2 ^ (10 * (b / 10) - 1) := by rw [zpow_sub_one₀ (by norm_num), zpow_mul]
      _ ≤ 2 ^ (b - 1) := zpow_le_zpow_right₀ (by norm_num) (by omega)
  · -- twenty-eight decimal places for ninety-three binary ones
    have hq : 0 ≤ -b / 93 := by omega
    have hr : 0 ≤ (-b % 93 + 3) / 3 := by omega
    have hpowers : (2 : ℚ) ^ (1 - b) ≤ 10 ^ (20 - b * 30103 / 100000) :=
      calc (2 : ℚ) ^ (1 - b) ≤ 2 ^ (93 * (-b / 93) + 3 * ((-b % 93 + 3) / 3)) :=
            zpow_le_zpow_right₀ (by norm_num) (by omega)
        _ = (2 ^ (93 : ℤ)) ^ (-b / 93) * (2 ^ (3 : ℤ)) ^ ((-b % 93 + 3) / 3) := by
            rw [zpow_add₀ (by norm_num), zpow_mul, zpow_mul]
        _ ≤ (10 ^ (28 : ℤ)) ^ (-b / 93) * 10 ^ ((-b % 93 + 3) / 3) := by
            gcongr
            · exact zpow_le_zpow_left₀ hq (by positivity) (by norm_num)
            · exact zpow_le_zpow_left₀ hr (by positivity) (by norm_num)
        _ = 10 ^ (28 * (-b / 93) + (-b % 93 + 3) / 3) := by
            rw [zpow_add₀ (by norm_num), zpow_mul]
        _ ≤ 10 ^ (20 - b * 30103 / 100000) := zpow_le_zpow_right₀ (by norm_num) (by omega)
    rw [← neg_sub 1 b, ← neg_sub 20, zpow_neg, zpow_neg]
    exact inv_anti₀ (by positivity) hpowers

/-- Seventeen digits do not reach beyond the first digit of a number. -/
lemma belowPower_decimalExponent (hnum : num ≠ 0) (hden : den ≠ 0)
    (hlow : -1100 ≤ (num.log2 : ℤ) - den.log2) (hhigh : (num.log2 : ℤ) - den.log2 ≤ 1100) :
    belowPower num den (decimalExponent num den - 17) = false := by
  have hpos := Nat.pos_of_ne_zero hden
  rw [belowPower_eq_false_iff hpos]
  have hcases : ∀ e, decimalExponentFrom num den 8 e = e ∨
      belowPower num den (decimalExponentFrom num den 8 e) = false := decimalExponentFrom_cases 8
  rcases hcases (((num.log2 : ℤ) - den.log2) * 30103 / 100000 - 3) with hstart | hfound
  · have hexponent : decimalExponent num den - 17 =
        ((num.log2 : ℤ) - den.log2) * 30103 / 100000 - 20 := by
      rw [show decimalExponent num den = _ from hstart]
      ring
    rw [hexponent]
    exact (ten_zpow_le_two_zpow hlow hhigh).trans (two_zpow_le_div hnum hden)
  · have hle := (belowPower_eq_false_iff hpos _).1 hfound
    exact (zpow_le_zpow_right₀ (by norm_num) (sub_le_self _ (by norm_num))).trans hle

end Magnitude

/-- The candidates are positive. -/
lemma Interval.pick_pos {i : Interval} {num den d : ℕ} {g : ℤ} (h : i.pick num den g = some d) :
    0 < d := by
  unfold pick at h
  dsimp only at h
  split_ifs at h with hboth hround hlower hupper <;> cases h
  · have := ((Bool.and_eq_true_iff.1 (Bool.and_eq_true_iff.1 hboth).1).2)
    exact Nat.pos_of_ne_zero (by simpa using this)
  · exact Nat.succ_pos _
  · have := (Bool.and_eq_true_iff.1 hlower).2
    exact Nat.pos_of_ne_zero (by simpa using this)
  · exact Nat.succ_pos _

lemma inUnits_div_pos {num den : ℕ} (hden : 0 < den) {g : ℤ} (h : belowPower num den g = false) :
    0 < (inUnits num den g).1 / (inUnits num den g).2 := by
  unfold belowPower at h
  unfold inUnits
  cases g with
  | ofNat k =>
    have hle : den * Nat.pow 10 k ≤ num := by simpa using h
    exact Nat.div_pos hle (Nat.mul_pos hden (Nat.pow_pos (by decide)))
  | negSucc k =>
    have hle : den ≤ num * Nat.pow 10 (k + 1) := by simpa using h
    exact Nat.div_pos hle hden

/-- The search for digits finds a positive number of units, by induction on the grids that are
left: only the last grid takes what is there. -/
lemma shortestFrom_pos {i : Interval} {num den : ℕ} {e : ℤ} (hden : 0 < den) (fuel n : ℕ)
    (h : belowPower num den (e - (n + fuel : ℕ)) = false) :
    0 < (shortestFrom i num den e fuel n).1 := by
  induction fuel generalizing n with
  | zero => exact inUnits_div_pos hden h
  | succ fuel ih =>
    unfold shortestFrom
    split
    · rename_i hpick
      exact Interval.pick_pos hpick
    · exact ih (n + 1) (by rwa [Nat.add_right_comm n 1 fuel])

/-- Digits of a positive number are normal, also without the zeros behind them. -/
lemma normal_stripZeros {d : ℕ} (hd : 0 < d) (e : ℤ) :
    (⟨stripZeros (digitsOf d), e⟩ : Scientific).Normal := by
  have hstart : stripZeros (digitsOf d) <+: digitsOf d := by
    rw [stripZeros, ← List.reverse_suffix, List.reverse_reverse]
    exact List.dropWhile_suffix _
  obtain ⟨c, cs, hcs, -⟩ := (Digits.ofNat d).exists_cons
  have hc : c ≠ '0' := by
    rintro rfl
    exact toDigits_ne_zero_cons hd cs hcs
  have hkept : (stripZeros (digitsOf d)).head? = some c := by
    rw [show digitsOf d = c :: cs from hcs] at hstart ⊢
    rcases hstrip : stripZeros (c :: cs) with _ | ⟨first, rest⟩
    · -- all digits would be zeros
      have hzero := List.rdropWhile_eq_nil_iff.1 hstrip c List.mem_cons_self
      exact absurd (eq_of_beq hzero) hc
    · rw [hstrip] at hstart
      rw [(List.cons_prefix_cons.1 hstart).1, List.head?_cons]
  exact ⟨fun x hx => (Digits.ofNat d).isDigit x (hstart.subset hx), c, hkept, hc⟩

/-- The fractions of doubles are within the range that the search is made for. -/
lemma ratio_bounds {m : ℕ} {e : ℤ} (hm : m ≠ 0) (hbound : m < 2 ^ 53) (hlow : -1074 ≤ e)
    (hhigh : e ≤ 971) : (ratio m e).1 ≠ 0 ∧ (ratio m e).2 ≠ 0 ∧
      -1100 ≤ ((ratio m e).1.log2 : ℤ) - (ratio m e).2.log2 ∧
      ((ratio m e).1.log2 : ℤ) - (ratio m e).2.log2 ≤ 1100 := by
  have hlog : m.log2 < 53 := (Nat.log2_lt hm).2 hbound
  cases e with
  | ofNat k =>
    have hne : m * 2 ^ k ≠ 0 := Nat.mul_ne_zero hm (Nat.two_pow_pos k).ne'
    have hlt : m * 2 ^ k < 2 ^ (53 + k) := by
      rw [Nat.pow_add]
      exact Nat.mul_lt_mul_of_pos_right hbound (Nat.two_pow_pos k)
    have hmul : (m * 2 ^ k).log2 < 53 + k := (Nat.log2_lt hne).2 hlt
    rw [Int.ofNat_eq_natCast] at hhigh
    have hone : Nat.log2 1 = 0 := rfl
    refine ⟨hne, Nat.one_ne_zero, ?_, ?_⟩
    · show -1100 ≤ ((m * 2 ^ k).log2 : ℤ) - Nat.log2 1
      omega
    · show ((m * 2 ^ k).log2 : ℤ) - Nat.log2 1 ≤ 1100
      omega
  | negSucc k =>
    have hpow : (Nat.pow 2 (k + 1)).log2 = k + 1 := Nat.log2_two_pow
    refine ⟨hm, Nat.pos_iff_ne_zero.1 (Nat.two_pow_pos _), ?_, ?_⟩ <;>
      simp only [ratio, hpow] <;> omega

/-- The mantissas and exponents of doubles. The highest bit of a mantissa is only missing where the
exponent is the least one. -/
lemma Binary.bounds {x : Float} {negative : Bool} {m : ℕ} {e : ℤ}
    (h : Binary.ofFloat x = .finite negative m e) :
    m < 2 ^ 53 ∧ -1074 ≤ e ∧ e ≤ 971 ∧ (2 ^ 52 ≤ m ∨ e = -1074) := by
  unfold Binary.ofFloat at h
  dsimp only at h
  split_ifs at h with hspecial hfraction hsmall
  · cases h
    have := Nat.mod_lt x.toBits.toNat (show 0 < Nat.pow 2 52 by decide)
    exact ⟨this.trans (by decide), by decide, by decide, .inr rfl⟩
  · cases h
    have hfraction := Nat.mod_lt x.toBits.toNat (show 0 < Nat.pow 2 52 by decide)
    have hfield := Nat.mod_lt (x.toBits.toNat / Nat.pow 2 52) (show 0 < Nat.pow 2 11 by decide)
    have h11 : Nat.pow 2 11 = 2048 := rfl
    have h52 : 2 ^ 53 = Nat.pow 2 52 + Nat.pow 2 52 := rfl
    simp only [Int.ofNat_eq_natCast]
    exact ⟨by omega, by omega, by omega, .inl (Nat.le_add_left ..)⟩

/-- The digits of a double other than zero do not begin with zero. -/
lemma normal_shortest {x : Float} {negative : Bool} {m : ℕ} {e : ℤ}
    (h : Binary.ofFloat x = .finite negative m e) (hm : m ≠ 0) : (shortest m e).Normal := by
  obtain ⟨hbound, hlow, hhigh, -⟩ := Binary.bounds h
  obtain ⟨hnum, hden, hbits⟩ := ratio_bounds hm hbound hlow hhigh
  exact normal_stripZeros (shortestFrom_pos (Nat.pos_of_ne_zero hden) 17 0
    (belowPower_decimalExponent hnum hden hbits.1 hbits.2)) _

/-! ## Layouts -/

/-- **Number layout is exact.** Whatever the sign, the digits and the exponent, the text that is
laid out is the text of a numeral that denotes exactly the number `± d₁.d₂d₃… · 10 ^ e`, without
superfluous zeros in front; it has an exponent for the magnitudes from `10 ^ 21` and below
`10 ^ (-6)`, it consists of the characters of numerals, and the reader takes it for the double
nearest to the number. The text of a double other than zero is laid out in this way. -/
theorem number_layout_exact :
    (∀ (negative : Bool) (s : Scientific), s.Normal → ∃ n : Numeral, n.Writes negative s ∧
      ('e' ∈ n.text ↔ 10 ^ 21 ≤ s.value ∨ s.value < 10 ^ (-6 : ℤ)) ∧
      (∀ c ∈ n.text, c ∈ numeralChars) ∧
      n.value = signed n.negative (n.coefficient * 10 ^ n.scale) ∧
      ofText (String.ofList n.text) = scaled n.negative n.coefficient n.scale) ∧
    ∀ (x : Float) (negative : Bool) (m : ℕ) (e : ℤ),
      Binary.ofFloat x = .finite negative m e → m ≠ 0 → (shortest m e).Normal ∧
        text x = String.ofList (signText negative ++
          layout (shortest m e).digits (shortest m e).exponent) := by
  constructor
  · intro negative s hs
    obtain ⟨n, hn⟩ := hs.exists_writes negative
    exact ⟨n, hn, n.mark_mem_text_iff.trans hn.exponent, fun _ => n.mem_numeralChars_of_mem_text,
      n.value_eq, n.ofText_text⟩
  · intro x negative m e hx hm
    refine ⟨normal_shortest hx hm, ?_⟩
    unfold text
    rw [hx]
    exact if_neg hm

/-- An eighth of a ten-millionth is written with an exponent, and a half without. -/
theorem number_layout_exact_eighth :
    (∃ n : Numeral, n.Writes true ⟨['1', '2', '5'], -8⟩) ∧
      text (Float.ofBits 0x3FE0000000000000) = String.ofList (signText false ++
        layout (shortest (2 ^ 52) (-53)).digits (shortest (2 ^ 52) (-53)).exponent) := by
  obtain ⟨hdigits, hdoubles⟩ := number_layout_exact
  obtain ⟨n, hn, -⟩ := hdigits true ⟨['1', '2', '5'], -8⟩ ⟨by simp, '1', rfl, by decide⟩
  exact ⟨⟨n, hn⟩, (hdoubles (Float.ofBits 0x3FE0000000000000) false (2 ^ 52) (-53)
    (by decide +kernel) (by decide)).2⟩

end Clearance.Decimal
