/-
# Integers in a radix

A double whose value is an integer is the double of this integer (`Decimal.Represents.ofInt_beq`),
so that the method which writes numbers in a radix takes it for one. The method writes it digit by
digit as long as it fits in 64 bits; of all other integers it writes the least one that does
(`radix_text_of_integer`).
-/
import Clearance.Library.Global
import Clearance.Proofs.Double
import Clearance.Proofs.Elements
import Clearance.Proofs.Layout
import Clearance.Session

namespace Clearance

namespace Decimal

/-! ## Numerals in a radix -/

/-- The digits of radices up to 36. -/
def lowerDigits : List Char :=
  ['0', '1', '2', '3', '4', '5', '6', '7', '8', '9', 'a', 'b', 'c', 'd', 'e', 'f', 'g',
    'h', 'i', 'j', 'k', 'l', 'm', 'n', 'o', 'p', 'q', 'r', 's', 't', 'u', 'v', 'w', 'x', 'y', 'z']

/-- The numeral of a natural number in a radix: its digits, the highest first. -/
def radixNumeral (radix n : ℕ) : List Char :=
  if n = 0 then ['0'] else (radix.digits n).reverse.map fun d => lowerDigits.getD d '0'

/-- The numeral of an integer in a radix. -/
def signedNumeral (radix : ℕ) (z : ℤ) : List Char := signText (z < 0) ++ radixNumeral radix z.natAbs

lemma radixDigit_eq {d : ℕ} (hd : d < 36) : radixDigit d = lowerDigits.getD d '0' :=
  (show ∀ d < 36, radixDigit d = lowerDigits.getD d '0' by decide) d hd

section

variable {radix : ℕ} (hlow : 2 ≤ radix) (hhigh : radix ≤ 36)
include hlow hhigh

/-- Digits are written one by one, by induction on the digits there is fuel for. -/
lemma radixDigits_eq (fuel n : ℕ) (hn : n < 2 ^ fuel) (hpos : 0 < fuel) :
    radixDigits radix fuel n = radixNumeral radix n := by
  induction fuel generalizing n with
  | zero => exact absurd hpos (Nat.lt_irrefl 0)
  | succ fuel ih =>
    unfold radixDigits
    split_ifs with hsmall
    · rw [radixDigit_eq (Nat.lt_of_lt_of_le hsmall hhigh)]
      unfold radixNumeral
      split_ifs with hzero
      · rw [hzero]
        rfl
      · rw [Nat.digits_of_lt radix n hzero hsmall]
        rfl
    · have hquotient : 0 < n / radix := Nat.div_pos (Nat.le_of_not_lt hsmall) (by omega)
      have hhalf : n / radix < 2 ^ fuel := by
        rw [Nat.div_lt_iff_lt_mul (by omega)]
        calc n < 2 ^ (fuel + 1) := hn
          _ = 2 ^ fuel * 2 := Nat.pow_succ ..
          _ ≤ 2 ^ fuel * radix := Nat.mul_le_mul_left _ hlow
      have hfuel : 0 < fuel := by
        by_contra hzero
        obtain rfl := Nat.eq_zero_of_not_pos hzero
        omega
      have hmod : n % radix < 36 := Nat.lt_of_lt_of_le (Nat.mod_lt _ (by omega)) hhigh
      rw [ih (n / radix) hhalf hfuel, radixDigit_eq hmod]
      unfold radixNumeral
      rw [if_neg hquotient.ne', if_neg (by omega),
        Nat.digits_def' (by omega) (show 0 < n by omega), List.reverse_cons, List.map_append]
      rfl

/-- An integer is written with its numeral. -/
lemma radixText_eq (z : ℤ) : radixText radix z = String.ofList (signedNumeral radix z) := by
  unfold radixText signedNumeral signText
  rw [radixDigits_eq hlow hhigh _ _ Nat.lt_log2_self (Nat.succ_pos _)]
  by_cases hz : z < 0 <;> simp [hz]

/-- The numeral of a number is read as this number. -/
lemma readDigits?_radixNumeral (n : ℕ) : readDigits? radix (radixNumeral radix n) = some n := by
  have hdigit : ∀ d < 36, radixValue? (lowerDigits.getD d '0') = some d := by decide
  have hread : ∀ ds : List ℕ, (∀ d ∈ ds, d < radix) →
      (ds.map fun d => lowerDigits.getD d '0').mapM
        (fun c => (radixValue? c).filter (· < radix)) = some ds := by
    intro ds hds
    induction ds with
    | nil => rfl
    | cons d ds ih =>
      obtain ⟨hd, hds⟩ := List.forall_mem_cons.1 hds
      rw [List.map_cons, List.mapM_cons, hdigit d (by omega), ih hds]
      simp [Option.filter, hd]
  unfold radixNumeral
  split_ifs with hzero
  · rw [hzero]
    have := hread [0] (by simp; omega)
    unfold readDigits?
    rw [if_neg (by decide), show ['0'] = [0].map fun d => lowerDigits.getD d '0' from rfl, this]
    rfl
  · have hds : ∀ d ∈ (radix.digits n).reverse, d < radix := fun d hd =>
      Nat.digits_lt_base (by omega) (List.mem_reverse.1 hd)
    have hne : ((radix.digits n).reverse.map fun d => lowerDigits.getD d '0') ≠ [] := by
      simpa [Nat.digits_eq_nil_iff_eq_zero] using hzero
    unfold readDigits?
    rw [if_neg (by simpa using hne), hread _ hds, Option.map_some]
    unfold valueOf
    have hvalue := Nat.ofDigits_digits radix n
    rw [Nat.ofDigits_eq_foldr] at hvalue
    rw [List.foldl_reverse]
    simpa [Nat.add_comm] using hvalue

end

/-! ## Doubles of integers -/

/-- A double is finite and stands for a number. -/
def Represents (x : Float) (q : ℚ) : Prop :=
  ∃ negative m e, Binary.ofFloat x = .finite negative m e ∧ q = signed negative (m * 2 ^ e)

lemma log2_mul_two_pow {n : ℕ} (hn : n ≠ 0) (k : ℕ) : (n * 2 ^ k).log2 = n.log2 + k := by
  have hpos := Nat.two_pow_pos k
  refine (Nat.log2_eq_iff (Nat.mul_ne_zero hn hpos.ne')).2 ⟨?_, ?_⟩
  · rw [Nat.pow_add]
    exact Nat.mul_le_mul_right _ (Nat.log2_self_le hn)
  · rw [Nat.add_right_comm, Nat.pow_add]
    exact Nat.mul_lt_mul_of_pos_right Nat.lt_log2_self hpos

/-- A whole number, as a fraction, is a multiple of the denominator. -/
lemma ratio_of_whole {m n : ℕ} {e : ℤ} (h : (m : ℚ) * 2 ^ e = n) :
    (ratio m e).1 = n * (ratio m e).2 := by
  cases e with
  | ofNat k =>
    rw [Int.ofNat_eq_natCast, zpow_natCast] at h
    rw [ratio, Nat.mul_one]
    exact_mod_cast h
  | negSucc k =>
    rw [zpow_negSucc, ← div_eq_mul_inv, div_eq_iff (by positivity)] at h
    exact_mod_cast h

lemma ratio_pos {m : ℕ} (e : ℤ) : 0 < (ratio m e).2 := by
  cases e with
  | ofNat k => exact Nat.one_pos
  | negSucc k => exact Nat.two_pow_pos _

/-- The unit in the last place of a mantissa of 53 bits is the exponent. -/
lemma unitExponent_of_whole {m n : ℕ} {e : ℤ} (hlow : 2 ^ 52 ≤ m) (hhigh : m < 2 ^ 53)
    (he : -1074 ≤ e) (h : (m : ℚ) * 2 ^ e = n) : unitExponent n 1 = e := by
  have hlog : m.log2 = 52 := (Nat.log2_eq_iff (by omega)).2 ⟨hlow, hhigh⟩
  have hwhole := ratio_of_whole h
  have hone : Nat.log2 1 = 0 := rfl
  cases e with
  | ofNat k =>
    have hn : m * 2 ^ k = n := by simpa [ratio] using hwhole
    have hexponent : Int.ofNat n.log2 - Int.ofNat (Nat.log2 1) - 52 = Int.ofNat k := by
      rw [← hn, log2_mul_two_pow (by omega), hlog, hone]
      simp
    have hsmall : ¬n < Nat.pow 2 52 * (1 * Nat.pow 2 k) := by
      rw [Nat.one_mul, ← hn]
      exact Nat.not_lt.2 (Nat.mul_le_mul_right _ hlow)
    unfold unitExponent
    dsimp only
    rw [hexponent]
    simp only [hsmall, decide_false, Bool.false_eq_true, if_false]
    exact max_eq_left he
  | negSucc k =>
    have hn : n * 2 ^ (k + 1) = m := hwhole.symm
    have hne : n ≠ 0 := by
      rintro rfl
      omega
    have hexponent : Int.ofNat n.log2 - Int.ofNat (Nat.log2 1) - 52 = Int.negSucc k := by
      rw [← hn, log2_mul_two_pow hne] at hlog
      rw [hone]
      simp only [Int.ofNat_eq_natCast]
      omega
    have hsmall : ¬n * Nat.pow 2 (k + 1) < Nat.pow 2 52 * 1 := Nat.not_lt.2 (hn.symm ▸ hlow)
    unfold unitExponent
    dsimp only
    rw [hexponent]
    simp only [hsmall, decide_false, Bool.false_eq_true, if_false]
    exact max_eq_left he

lemma roundDiv_mul (n : ℕ) {d : ℕ} (hd : 0 < d) : roundDiv (n * d) d = n := by
  unfold roundDiv
  dsimp only
  rw [Nat.mul_div_cancel n hd, Nat.mul_mod_left, if_neg]
  simp
  omega

/-- Nothing is rounded: the bits are those of the mantissa and the exponent. -/
lemma nearestBits_of_whole {m n : ℕ} {e : ℤ} (hlow : 2 ^ 52 ≤ m) (hhigh : m < 2 ^ 53)
    (he : -1074 ≤ e) (he' : e ≤ 971) (h : (m : ℚ) * 2 ^ e = n) :
    nearestBits n 1 = (e + 1074).toNat * 2 ^ 52 + m := by
  have hwhole := ratio_of_whole h
  have hne : n ≠ 0 := by
    rintro rfl
    have hzero : (m : ℚ) = 0 := by simpa [zpow_ne_zero] using h
    have : m = 0 := by exact_mod_cast hzero
    omega
  have hbound : (e + 1074).toNat * 2 ^ 52 + m ≤ 2047 * 2 ^ 52 := by omega
  unfold nearestBits
  rw [if_neg hne, unitExponent_of_whole hlow hhigh he h]
  cases e with
  | ofNat k =>
    have hn : n = m * (1 * 2 ^ k) := by simpa [ratio] using hwhole.symm
    have hround : roundDiv n (1 * Nat.pow 2 k) = m :=
      hn ▸ roundDiv_mul m (Nat.mul_pos Nat.one_pos (Nat.two_pow_pos k))
    dsimp only
    rw [hround]
    exact min_eq_left hbound
  | negSucc k =>
    have hn : n * Nat.pow 2 (k + 1) = m * 1 := hwhole.symm.trans (Nat.mul_one m).symm
    dsimp only
    rw [hn, roundDiv_mul m Nat.one_pos]
    exact min_eq_left hbound

/-- The bits of a double, from its parts. -/
lemma toNat_toBits {x : Float} {negative : Bool} {m : ℕ} {e : ℤ}
    (h : Binary.ofFloat x = .finite negative m e) : x.toBits.toNat =
      (if negative then 2 ^ 63 else 0) + ((e + 1074).toNat * 2 ^ 52 + m) := by
  have hbits : x.toBits.toNat < 2 ^ 64 := x.toBits.toNat_lt
  have h52 : Nat.pow 2 52 = 4503599627370496 := rfl
  have h63 : Nat.pow 2 63 = 9223372036854775808 := rfl
  have h11 : Nat.pow 2 11 = 2048 := rfl
  unfold Binary.ofFloat at h
  rw [h52, h63, h11] at h
  dsimp only at h
  rw [Int.ofNat_eq_natCast] at h
  split_ifs at h with hspecial hfraction hsmall
  all_goals
    obtain ⟨rfl, rfl, rfl⟩ := Binary.finite.inj h
    rcases Nat.lt_or_ge x.toBits.toNat 9223372036854775808 with hpositive | hnegative
    · rw [if_neg (by rw [beq_iff_eq]; omega)]
      omega
    · rw [if_pos (by rw [beq_iff_eq]; omega)]
      omega

/-- A finite double equals itself. -/
lemma beq_self_of_finite {x : Float} {negative : Bool} {m : ℕ} {e : ℤ}
    (h : Binary.ofFloat x = .finite negative m e) : (x == x) = true := by
  rw [Binary.ofFloat_eq] at h
  rw [beq_iff]
  generalize x.toModel.unpack = u at h
  rcases u with s | _ | s | ⟨s, m', e', hm'⟩
  · cases h
  · cases h
  · cases s <;> rfl
  · have hthen : (compare e' e').then (compare m' m') = .eq := by simp
    cases s
    · exact congrArg (some ∘ Ordering.swap) hthen
    · exact congrArg some hthen

namespace Represents

variable {x : Float} {z : ℤ} (h : Represents x z)
include h

/-- The parts of the double are those of the magnitude of the integer. -/
lemma exists_parts : ∃ negative m e, Binary.ofFloat x = .finite negative m e ∧
    (m : ℚ) * 2 ^ e = z.natAbs ∧ (if negative then -(z.natAbs : ℤ) else z.natAbs) = z := by
  obtain ⟨negative, m, e, hx, hz⟩ := h
  have hpos : (0 : ℚ) ≤ m * 2 ^ e := by positivity
  unfold signed at hz
  cases negative with
  | false =>
    have hmagnitude : (z : ℚ) = m * 2 ^ e := hz
    have hsign : 0 ≤ z := by
      rw [← hmagnitude] at hpos
      exact_mod_cast hpos
    refine ⟨false, m, e, hx, ?_, Int.natAbs_of_nonneg hsign⟩
    rw [← hmagnitude, Nat.cast_natAbs, abs_of_nonneg hsign]
  | true =>
    have hmagnitude : (z : ℚ) = -(m * 2 ^ e) := hz
    have hsign : z ≤ 0 := by
      have : (z : ℚ) ≤ 0 := by rw [hmagnitude]; exact neg_nonpos.2 hpos
      exact_mod_cast this
    refine ⟨true, m, e, hx, ?_, ?_⟩
    · rw [Nat.cast_natAbs, abs_of_nonpos hsign]
      push_cast
      rw [hmagnitude, neg_neg]
    · simp only [if_true]
      omega

/-- An integer has no fraction. -/
lemma truncate? : truncate? x = some z := by
  obtain ⟨negative, m, e, hx, hm, hz⟩ := h.exists_parts
  unfold Decimal.truncate?
  rw [hx]
  dsimp only
  rw [ratio_of_whole hm, Nat.mul_div_cancel _ (ratio_pos e)]
  exact congrArg some hz

/-- Zero is one of two doubles. -/
lemma ofInt_beq_of_zero (hz : z = 0) : (ofInt z == x) = true := by
  obtain ⟨negative, m, e, hx, hm, -⟩ := h.exists_parts
  have hmantissa : m = 0 := by simpa [hz, zpow_ne_zero] using hm
  obtain ⟨-, -, -, hnormal⟩ := Binary.bounds hx
  have hexponent : e = -1074 := hnormal.resolve_left (by omega)
  have hbits := toNat_toBits hx
  rw [hmantissa, hexponent] at hbits
  have heq : x = Float.ofBits (if negative then 0x8000000000000000 else 0) := by
    rw [← Float.ofBits_toBits x]
    congr 1
    refine UInt64.toNat_inj.1 ?_
    rw [hbits]
    cases negative <;> rfl
  rw [hz, heq]
  cases negative <;> decide +kernel

/-- The double nearest to an integer that a double denotes is this double. -/
lemma ofInt_eq (hz : z ≠ 0) : ofInt z = x := by
  obtain ⟨negative, m, e, hx, hm, hsign⟩ := h.exists_parts
  obtain ⟨hhigh, he, he', hnormal⟩ := Binary.bounds hx
  have hlow : 2 ^ 52 ≤ m := by
    -- a number below `2 ^ 53` in the least of all units is below one
    refine hnormal.resolve_right fun hleast => ?_
    have hmantissa : (m : ℚ) < 2 ^ (53 : ℤ) := by exact_mod_cast hhigh
    have hunit : (2 : ℚ) ^ e ≤ 2 ^ (-53 : ℤ) := zpow_le_zpow_right₀ (by norm_num) (by omega)
    have hbelow : (z.natAbs : ℚ) < 1 :=
      calc (z.natAbs : ℚ) = m * 2 ^ e := hm.symm
        _ ≤ m * 2 ^ (-53 : ℤ) := by gcongr
        _ < 2 ^ (53 : ℤ) * 2 ^ (-53 : ℤ) := by gcongr
        _ = 1 := by norm_num
    have : z.natAbs < 1 := by exact_mod_cast hbelow
    omega
  have hnegative : decide (z < 0) = negative := by
    cases negative with
    | false =>
      have : (z.natAbs : ℤ) = z := hsign
      exact decide_eq_false (by omega)
    | true =>
      have : -(z.natAbs : ℤ) = z := hsign
      exact decide_eq_true (by omega)
  unfold ofInt nearest
  rw [hnegative, nearestBits_of_whole hlow hhigh he he' hm, ← Float.ofBits_toBits x]
  congr 1
  refine UInt64.toNat_inj.1 ?_
  rw [toNat_toBits hx, Nat.toUInt64, UInt64.toNat_ofNat']
  exact Nat.mod_eq_of_lt ((toNat_toBits hx).symm.trans_lt x.toBits.toNat_lt)

/-- A double that denotes an integer is the double of this integer. -/
lemma ofInt_beq : (ofInt z == x) = true := by
  by_cases hz : z = 0
  · exact h.ofInt_beq_of_zero hz
  · obtain ⟨negative, m, e, hx, -⟩ := h.exists_parts
    rw [h.ofInt_eq hz]
    exact beq_self_of_finite hx

end Represents

end Decimal

/-! ## The method of numbers -/

open Clearance.Action Decimal Library

section

variable {serve : Service} {fuel : Nat} {s t u : State}

lemma run_numberOf_number (x : Float) :
    (numberOf (.number x)).run serve fuel s = .done x s := rfl

/-- Integers are written in the radix, after the conversion to 64 bits. -/
lemma run_numberInRadix {v : Raw} {x y : Float} {z : ℤ} (hz : Represents x z)
    (hv : (numberOf v).run serve fuel s = .done y t) (hdefined : v.isUndefined = false)
    (hlow : 2 ≤ toIndex y) (hhigh : toIndex y ≤ 36) (hten : toIndex y ≠ 10) :
    (numberInRadix x v).run serve fuel s =
      .done (Raw.string (radixText (toIndex y).toNat (toInt64 z))) t := by
  have hindex : (optionalIndex v 10).run serve fuel s = .done (toIndex y) t := by
    unfold optionalIndex
    rw [hdefined, if_neg (by decide), run_bind, hv]
    rfl
  have hrange : ¬(toIndex y < 2 || toIndex y > 36) = true := by
    simp
    omega
  have hinteger : ¬(toIndex y == 10 || ofInt z != x) = true := by
    simp [hten, bne, hz.ofInt_beq]
  unfold numberInRadix
  rw [run_bind, hindex]
  dsimp only
  rw [if_neg hrange, hz.truncate?]
  dsimp only
  rw [if_neg hinteger]
  rfl

end

/-- **Integers in a radix.** A double that denotes an integer, and a radix other than ten: the
method writes the numeral of exactly this integer, if it fits in 64 bits, and the numeral of the
least integer that does for all others. The digits of a numeral are read as the number that they
write. -/
theorem radix_text_of_integer (serve : Service) (fuel : Nat) {s t u : State} {this v : Value}
    {args : List Value} {x y : Float} {z : ℤ}
    (hthis : (numberOf this.raw).run serve fuel s = .done x t)
    (hv : (numberOf v.raw).run serve fuel t = .done y u) (hdefined : v.raw.isUndefined = false)
    (hlow : 2 ≤ toIndex y) (hhigh : toIndex y ≤ 36) (hten : toIndex y ≠ 10) (hz : Represents x z) :
    ∃ text : String, (Library.run .numberToString this (v :: args)).run serve fuel s =
        .done ((Raw.string text : Value).wrap (Value.joinLabels (this :: v :: args))) u ∧
      (-2 ^ 63 ≤ z → z < 2 ^ 63 → text.toList = signedNumeral (toIndex y).toNat z) ∧
      (z < -2 ^ 63 ∨ 2 ^ 63 ≤ z → text.toList = signedNumeral (toIndex y).toNat (-2 ^ 63)) ∧
      ∀ n, readDigits? (toIndex y).toNat (radixNumeral (toIndex y).toNat n) = some n := by
  have hradix : 2 ≤ (toIndex y).toNat ∧ (toIndex y).toNat ≤ 36 := by omega
  have htext := radixText_eq hradix.1 hradix.2 (toInt64 z)
  refine ⟨radixText (toIndex y).toNat (toInt64 z), ?_, fun hlower hupper => ?_, fun hout => ?_,
    readDigits?_radixNumeral hradix.1 hradix.2⟩
  · refine run_lift ?_
    refine (run_bind_of_done (run_converted "toString" 1 hthis) _).trans ?_
    exact run_adaptedResult _ (run_numberInRadix hz hv hdefined hlow hhigh hten)
  · rw [htext, String.toList_ofList, toInt64, if_pos (by omega)]
  · rw [htext, String.toList_ofList, toInt64, if_neg (by omega)]
    norm_num

/-- In radix 16, the number 255 is written with two digits. -/
theorem radix_text_of_integer_byte : ∃ text : String,
    (Library.run .numberToString (Raw.number (Float.ofBits 0x406FE00000000000))
        [Raw.number (Float.ofBits 0x4030000000000000)]).run (machine .none 50 50) 50
        (Session.fresh .standard) = .done (Raw.string text) (Session.fresh .standard) ∧
      text.toList = ['f', 'f'] := by
  have hindex : toIndex (Float.ofBits 0x4030000000000000) = 16 := by decide +kernel
  have hdenotes : Represents (Float.ofBits 0x406FE00000000000) (255 : ℤ) :=
    ⟨false, 255 * 2 ^ 45, -45, by decide +kernel, by norm_num [signed]⟩
  let number : Value := Raw.number (Float.ofBits 0x406FE00000000000)
  have hnumber : (numberOf number.raw).run (machine .none 50 50) 50 (Session.fresh .standard) =
      .done (Float.ofBits 0x406FE00000000000) (Session.fresh .standard) := run_numberOf_number _
  obtain ⟨text, hrun, hwithin, -⟩ := radix_text_of_integer (machine .none 50 50) 50
    (v := Raw.number (Float.ofBits 0x4030000000000000)) hnumber (run_numberOf_number _) rfl
    (by rw [hindex]; decide) (by rw [hindex]; decide) (by rw [hindex]; decide) hdenotes
  have htext := hwithin (by decide) (by decide)
  rw [hindex] at htext
  exact ⟨text, hrun, htext.trans (by decide +kernel)⟩

/-- Writes a power of two in radix 16. -/
def powerScript : Action Value := evaluate "(18446744073709551616).toString(16)" "" 1

/-- A text is the value that a run ends with. -/
def Outcome.isText (text : String) : Outcome Value → Bool
  | .done ⟨.string w, _⟩ _ => w == text
  | _ => false

set_option maxRecDepth 100000 in
/-- The power has seventeen digits, and is denoted by a double, but it does not fit in 64 bits. -/
theorem power_written_as_least_integer :
    (powerScript.run (machine .none 50 50) 50 (Session.fresh .standard)).isText
        "-8000000000000000" = true ∧
      Represents (Float.ofBits 0x43F0000000000000) (2 ^ 64 : ℤ) ∧
      String.ofList (signedNumeral 16 (2 ^ 64)) = "10000000000000000" := by
  refine ⟨by decide +kernel, ⟨false, 2 ^ 52, 12, by decide +kernel, by norm_num [signed]⟩, ?_⟩
  decide +kernel

end Clearance
