/-
# Doubles of small numbers

The lengths of arrays are doubles. This file connects the double of a number below `2 ^ 53` with the
number: a double that equals it has the number as its word (`toWord_of_beq`). Doubles are taken
apart in the same way as the machine takes them apart to compare them (`Binary.ofFloat_eq`), and so
the doubles of small numbers are ordered like the numbers (`toFloat_le_iff`).
-/
import Clearance.Decimal.Binary
import Mathlib

namespace Clearance.Decimal

open Float.Model Float.Model.UnpackedFloat

/-! ## Taking doubles apart -/

/-- The parts of a double as the machine has them. -/
def Binary.ofUnpacked : UnpackedFloat → Binary
  | .notANumber => .nan
  | .infinity s => .infinite (s == .negative)
  | .zero s => .finite (s == .negative) 0 (-1074)
  | .finite s m e _ => .finite (s == .negative) m e

section

variable (b : BitVec Format.binary64.numBits)

lemma toNat_unpackMantissa : (unpackMantissa b).toNat = b.toNat % 2 ^ 52 := by
  simp [unpackMantissa]

lemma toNat_unpackExponent : (unpackExponent b).toNat = b.toNat / 2 ^ 52 % 2 ^ 11 := by
  simp [unpackExponent, Nat.shiftRight_eq_div_pow]

lemma toNat_unpackSign : (unpackSign b).toNat = b.toNat / 2 ^ 63 := by
  have hb : b.toNat < 2 ^ 64 := b.isLt
  simp [unpackSign, Nat.shiftRight_eq_div_pow]
  omega

lemma unpackSign_negative :
    (Sign.ofBitVec (unpackSign b) == .negative) = (b.toNat / 2 ^ 63 == 1) := by
  have hb : b.toNat < 2 ^ 64 := b.isLt
  have hsign := toNat_unpackSign b
  unfold Sign.ofBitVec
  by_cases hzero : unpackSign b = 0#1
  · rw [hzero] at hsign
    rw [if_pos hzero, ← hsign]
    rfl
  · have hne : b.toNat / 2 ^ 63 ≠ 0 := fun h => hzero (BitVec.eq_of_toNat_eq (hsign.trans h))
    have hone : b.toNat / 2 ^ 63 = 1 := by omega
    rw [if_neg hzero, hone]
    rfl

/-- The hidden bit of a mantissa. -/
lemma toNat_hidden (m : BitVec 52) : (1#1 ++ m).toNat = m.toNat + 2 ^ 52 := by
  rw [BitVec.toNat_append, ← Nat.shiftLeft_add_eq_or_of_lt m.isLt, Nat.add_comm]
  rfl

/-- The parts of a double, from its bits. -/
lemma Binary.ofUnpacked_unpack : Binary.ofUnpacked (unpack Format.binary64 b) =
    if b.toNat / 2 ^ 52 % 2 ^ 11 = 2047 then
      (if b.toNat % 2 ^ 52 = 0 then .infinite (b.toNat / 2 ^ 63 == 1) else .nan)
    else if b.toNat / 2 ^ 52 % 2 ^ 11 = 0 then
      .finite (b.toNat / 2 ^ 63 == 1) (b.toNat % 2 ^ 52) (-1074)
    else .finite (b.toNat / 2 ^ 63 == 1) (b.toNat % 2 ^ 52 + 2 ^ 52)
      ((b.toNat / 2 ^ 52 % 2 ^ 11 : Nat) - 1075) := by
  have hbias : ((Format.binary64.exponentBias : Nat) + (52 : Nat) : Int) = 1075 := rfl
  have hfull : unpackExponent b = -1#_ ↔ b.toNat / 2 ^ 52 % 2 ^ 11 = 2047 := by
    rw [← toNat_unpackExponent, ← BitVec.toNat_inj]
    rfl
  have hempty : unpackExponent b = 0#_ ↔ b.toNat / 2 ^ 52 % 2 ^ 11 = 0 := by
    rw [← toNat_unpackExponent, ← BitVec.toNat_inj]
    rfl
  have hzero : unpackMantissa b = 0#_ ↔ b.toNat % 2 ^ 52 = 0 := by
    rw [← toNat_unpackMantissa, ← BitVec.toNat_inj]
    rfl
  unfold UnpackedFloat.unpack
  simp only [hfull, hempty, hzero, hbias]
  split_ifs with _ _ hsmall hfraction
  · rw [ofUnpacked, unpackSign_negative]
  · rfl
  · rw [ofUnpacked, unpackSign_negative, hfraction]
  · rw [ofUnpacked, unpackSign_negative, toNat_unpackMantissa, toNat_unpackExponent, hsmall]
    rfl
  · rw [ofUnpacked, unpackSign_negative, toNat_hidden, toNat_unpackMantissa, toNat_unpackExponent]

end

/-- The parts of a double are those that the machine sees. -/
lemma Binary.ofFloat_eq (x : Float) : Binary.ofFloat x = .ofUnpacked x.toModel.unpack :=
  (ofUnpacked_unpack x.toModel.toBits.toBitVec).symm

/-! ## Comparing doubles -/

lemma compare_swap (a b : UnpackedFloat) : b.compare a = (a.compare b).map Ordering.swap := by
  have hthen : ∀ (e e' : Int) (m m' : Nat), (compare e' e).then (compare m' m) =
      ((compare e e').then (compare m m')).swap := by
    intro e e' m m'
    rw [Ordering.swap_then, Int.compare_swap, Nat.compare_swap]
  rcases a with s | _ | s | ⟨s, m, e, hm⟩ <;> rcases b with s' | _ | s' | ⟨s', m', e', hm'⟩
  all_goals try cases s
  all_goals try cases s'
  all_goals first
    | rfl
    | exact congrArg some (hthen ..)
    | exact congrArg some (congrArg Ordering.swap (hthen ..))

lemma lt_iff {x y : Float} : x < y ↔ x.toModel.unpack.compare y.toModel.unpack = some .lt := by
  change decide (x.toModel < y.toModel) = true ↔ _
  rw [decide_eq_true_iff]
  exact beq_iff_eq

lemma le_iff {x y : Float} :
    x ≤ y ↔ (x.toModel.unpack.compare y.toModel.unpack).any (·.isLE) = true := by
  change decide (x.toModel ≤ y.toModel) = true ↔ _
  rw [decide_eq_true_iff]
  exact Iff.rfl

lemma beq_iff {x y : Float} :
    (x == y) = true ↔ x.toModel.unpack.compare y.toModel.unpack = some .eq := by
  change (x.toModel.unpack.compare y.toModel.unpack == some .eq) = true ↔ _
  exact beq_iff_eq

lemma beq_symm {x y : Float} (h : (x == y) = true) : (y == x) = true := by
  rw [beq_iff, compare_swap, beq_iff.1 h]
  rfl

/-- What is no number equals nothing. -/
lemma isNaN_of_beq {x y : Float} (h : (x == y) = true) : x.isNaN = false := by
  rw [beq_iff] at h
  change x.toModel.unpack.isNaN = false
  cases hx : x.toModel.unpack <;> rw [hx] at h <;> first | rfl | cases h

/-- A double is not at or above one that is above it. -/
lemma not_ge_of_lt {x y : Float} (h : x < y) : ¬x ≥ y := by
  rw [ge_iff_le, le_iff, compare_swap x.toModel.unpack, lt_iff.1 h]
  decide

/-! ## Doubles of small numbers -/

/-- The machine's double of a number below `2 ^ 53`: the mantissa is shifted up to 53 bits. -/
def unpackedOfNat (n : Nat) (hn : 0 < n) : UnpackedFloat :=
  .finite .positive (n <<< (52 - n.log2)) (n.log2 - 52) (Nat.shiftLeft_pos_iff.2 hn)

section

variable {n : Nat} (hn : 0 < n) (hbound : n < 2 ^ 53)
include hn hbound

lemma log2_lt_53 : n.log2 < 53 := (Nat.log2_lt (Nat.ne_of_gt hn)).2 hbound

/-- All 53 bits of the mantissa are used. -/
lemma mantissa_bounds : 2 ^ 52 ≤ n <<< (52 - n.log2) ∧ n <<< (52 - n.log2) < 2 ^ 53 := by
  have hlog := log2_lt_53 hn hbound
  have hle : 2 ^ n.log2 ≤ n := Nat.log2_self_le (Nat.ne_of_gt hn)
  have hlt : n < 2 ^ (n.log2 + 1) := Nat.lt_log2_self
  have hlow : 2 ^ 52 = 2 ^ n.log2 * 2 ^ (52 - n.log2) := by
    rw [← Nat.pow_add]
    congr 1
    omega
  have hhigh : 2 ^ 53 = 2 ^ (n.log2 + 1) * 2 ^ (52 - n.log2) := by
    rw [← Nat.pow_add]
    congr 1
    omega
  rw [Nat.shiftLeft_eq, hlow, hhigh]
  exact ⟨Nat.mul_le_mul_right _ hle, Nat.mul_lt_mul_of_pos_right hlt (Nat.two_pow_pos _)⟩

lemma log2_mantissa : (n <<< (52 - n.log2)).log2 = 52 := by
  obtain ⟨hlow, hhigh⟩ := mantissa_bounds hn hbound
  exact (Nat.log2_eq_iff (by omega)).2 ⟨hlow, hhigh⟩

end

lemma unpackSign_packComponents (e : BitVec 11) (m : BitVec 52) :
    Sign.ofBitVec (unpackSign (packComponents Format.binary64 .positive e m)) = .positive := by
  have hsign : unpackSign (packComponents Format.binary64 .positive e m) = 0#1 := by
    simp only [unpackSign, packComponents, BitVec.extractLsb]
    rw [BitVec.extractLsb'_append_eq_of_le (by decide),
      BitVec.extractLsb'_append_eq_of_le (by decide)]
    rfl
  rw [hsign]
  rfl

/-- A mantissa of 53 bits stays where it is. -/
lemma shiftToTargetExponent_exact {m : Nat} {e : Int} (hm : m.log2 = 52) (he : -1074 ≤ e) :
    shiftToTargetExponent Format.binary64 m e .exact = (⟨m, false, false⟩, e) := by
  have htarget : Format.binary64.targetExponent (totalExponent m e) = e := by
    simp only [Format.targetExponent, totalExponent, hm, Format.mantissaBits, Format.minExponent]
    omega
  rw [shiftToTargetExponent, htarget, shiftToExponent, Int.sub_self]
  exact congrArg (Prod.mk _) (Int.add_zero e)

lemma roundWithAccuracy_exact {m : Nat} {e : Int} (hm : m.log2 = 52) (he : -1074 ≤ e)
    (hpos : 0 < m) :
    roundWithAccuracy Format.binary64 .positive m e .exact = .finite .positive m e hpos := by
  have hround : (ExtendedMantissa.mk m false false).roundedMantissa = m := rfl
  rw [roundWithAccuracy, shiftToTargetExponent_exact hm he]
  dsimp only
  rw [hround, shiftToTargetExponent_exact hm he]
  exact dif_neg (Nat.ne_of_gt hpos)

section

variable {n : Nat} (hn : 0 < n) (hbound : n < 2 ^ 53)
include hn hbound

/-- Nothing is rounded. -/
lemma round_ofNat : UnpackedFloat.round Format.binary64 .positive n 0 = unpackedOfNat n hn := by
  have hlog := log2_lt_53 hn hbound
  have htarget : Format.binary64.targetExponent (totalExponent n 0) = n.log2 - 52 := by
    simp only [Format.targetExponent, totalExponent, Format.mantissaBits, Format.minExponent]
    omega
  have hshift : ((0 : Int) - (n.log2 - 52)).toNat = 52 - n.log2 := by omega
  have hexponent : (0 : Int) - (52 - n.log2 : Nat) = n.log2 - 52 := by omega
  rw [UnpackedFloat.round, htarget, decreaseExponent, hshift]
  dsimp only
  rw [hexponent]
  exact roundWithAccuracy_exact (log2_mantissa hn hbound) (by omega) _

lemma pack_ofNat : UnpackedFloat.pack Format.binary64 (unpackedOfNat n hn) =
    packComponents Format.binary64 .positive (BitVec.ofNat 11 (n.log2 + 1023))
      (BitVec.ofNat 52 (n <<< (52 - n.log2))) := by
  have hlog := log2_lt_53 hn hbound
  have hbiased : ((n.log2 : Int) - 52 + (Format.binary64.exponentBias : Nat) + (52 : Nat)).toNat =
      n.log2 + 1023 := by
    have hbias : (Format.binary64.exponentBias : Nat) = 1023 := rfl
    rw [hbias]
    omega
  unfold unpackedOfNat UnpackedFloat.pack
  dsimp only
  rw [hbiased, log2_mantissa hn hbound, if_neg (by omega)]
  exact if_pos rfl

lemma unpack_pack_ofNat :
    UnpackedFloat.unpack Format.binary64 (UnpackedFloat.pack Format.binary64 (unpackedOfNat n hn)) =
      unpackedOfNat n hn := by
  have hlog := log2_lt_53 hn hbound
  obtain ⟨hlow, hhigh⟩ := mantissa_bounds hn hbound
  have hexponent : (BitVec.ofNat 11 (n.log2 + 1023)).toNat = n.log2 + 1023 :=
    (BitVec.toNat_ofNat ..).trans (Nat.mod_eq_of_lt (by omega))
  have hfull : BitVec.ofNat 11 (n.log2 + 1023) ≠ -1#_ := fun h => by
    have h2047 := hexponent.symm.trans (congrArg BitVec.toNat h)
    have : (-1#11 : BitVec 11).toNat = 2047 := rfl
    omega
  have hempty : BitVec.ofNat 11 (n.log2 + 1023) ≠ 0#_ := fun h => by
    have h0 := hexponent.symm.trans (congrArg BitVec.toNat h)
    have : (0#11 : BitVec 11).toNat = 0 := rfl
    omega
  have hmantissa : (1#1 ++ BitVec.ofNat 52 (n <<< (52 - n.log2))).toNat = n <<< (52 - n.log2) := by
    rw [toNat_hidden, BitVec.toNat_ofNat]
    omega
  rw [pack_ofNat hn hbound, UnpackedFloat.unpack]
  simp only [unpackMantissa_packComponents, unpackExponent_packComponents, hfull, hempty, if_false,
    hmantissa, hexponent, unpackedOfNat, unpackSign_packComponents]
  have hbias : ((n.log2 + 1023 : Nat) : Int) - ((Format.binary64.exponentBias : Nat) + (52 : Nat)) =
      n.log2 - 52 := by
    have h1023 : (Format.binary64.exponentBias : Nat) = 1023 := rfl
    rw [h1023]
    omega
  simp only [hbias]

lemma unpack_toFloat : n.toUInt64.toFloat.toModel.unpack = unpackedOfNat n hn := by
  have hnat : n.toUInt64.toNat = n := by
    rw [Nat.toUInt64, UInt64.toNat_ofNat']
    omega
  change UnpackedFloat.unpack Format.binary64 (UnpackedFloat.pack Format.binary64
    (UnpackedFloat.normalize Format.binary64 (n.toUInt64.toNat : Int) 0 .positive)) = _
  rw [hnat, UnpackedFloat.normalize, Int.compare_eq_gt.2 (by omega)]
  dsimp only
  rw [Int.toNat_natCast, round_ofNat hn hbound, unpack_pack_ofNat hn hbound]

end

lemma eq_of_compare_finite {u : UnpackedFloat} {m : Nat} {e : Int} {hm : 0 < m}
    (h : u.compare (.finite .positive m e hm) = some .eq) : u = .finite .positive m e hm := by
  rcases u with s | _ | s | ⟨s, m', e', hm'⟩ <;> try cases s
  all_goals try cases h
  obtain ⟨he, hm⟩ := Ordering.then_eq_eq.1 (Option.some.inj h)
  obtain rfl := Int.compare_eq_eq.1 he
  obtain rfl := Nat.compare_eq_eq.1 hm
  rfl

lemma eq_of_compare_zero {u : UnpackedFloat} (h : u.compare (.zero .positive) = some .eq) :
    ∃ s, u = .zero s := by
  rcases u with s | _ | s | ⟨s, m', e', hm'⟩ <;> try cases s
  all_goals first
    | exact ⟨_, rfl⟩
    | cases h

lemma truncate?_of_parts {x : Float} {negative : Bool} {m k n : Nat}
    (h : Binary.ofFloat x = .finite negative m (Int.negSucc k)) (hn : m / 2 ^ (k + 1) = n) :
    truncate? x = some (if negative then -(n : Int) else n) := by
  subst hn
  rw [truncate?, h]
  rfl

lemma toWord_of_truncate? {x : Float} {n : Nat} (hn : n < 2 ^ 32)
    (h : truncate? x = some (n : Int)) :
    (toWord x).toNat = n := by
  have hmod : ((n : Int) % 4294967296).toNat = n := by omega
  rw [toWord, h]
  dsimp only
  rw [hmod]
  exact Nat.mod_eq_of_lt hn

/-- A double that equals the one of a word is whole. -/
lemma truncate?_of_beq {x : Float} {n : Nat} (hn : n < 2 ^ 32) (h : (x == ofNat n) = true) :
    truncate? x = some (n : Int) := by
  have hsmall : ofNat n = n.toUInt64.toFloat := if_pos (Nat.lt_trans hn (by decide))
  rw [beq_iff, hsmall] at h
  rcases Nat.eq_zero_or_pos n with rfl | hpos
  · obtain ⟨s, hs⟩ := eq_of_compare_zero h
    obtain ⟨k, hparts⟩ : ∃ k, Binary.ofFloat x = .finite (s == .negative) 0 (Int.negSucc k) := by
      rw [Binary.ofFloat_eq, hs]
      exact ⟨1073, rfl⟩
    rw [truncate?_of_parts hparts (Nat.zero_div _)]
    cases s <;> rfl
  · have hlog : n.log2 < 32 := (Nat.log2_lt (Nat.ne_of_gt hpos)).2 hn
    rw [unpack_toFloat hpos (Nat.lt_trans hn (by decide))] at h
    have hexponent : (n.log2 : Int) - 52 = Int.negSucc (51 - n.log2) := by omega
    have hparts : Binary.ofFloat x =
        .finite false (n <<< (52 - n.log2)) (Int.negSucc (51 - n.log2)) := by
      rw [Binary.ofFloat_eq, eq_of_compare_finite h, Binary.ofUnpacked, hexponent]
      rfl
    have hshift : n <<< (52 - n.log2) / 2 ^ (51 - n.log2 + 1) = n := by
      have hplaces : 51 - n.log2 + 1 = 52 - n.log2 := by omega
      rw [Nat.shiftLeft_eq, hplaces]
      exact Nat.mul_div_cancel n (Nat.two_pow_pos _)
    rw [truncate?_of_parts hparts hshift]
    rfl

/-- A double that equals the one of a word has this word. -/
lemma toWord_of_beq {x : Float} {n : Nat} (hn : n < 2 ^ 32) (h : (x == ofNat n) = true) :
    (toWord x).toNat = n := toWord_of_truncate? hn (truncate?_of_beq hn h)

end Clearance.Decimal

/-! ## The order -/

namespace Clearance

open Float.Model Float.Model.UnpackedFloat Decimal

/-- The parts of the doubles of small numbers are ordered like the numbers: first by the place of
the highest bit, then by the bits that follow. -/
lemma compare_unpackedOfNat {n i : Nat} (hn : 0 < n) (hi : 0 < i) :
    (unpackedOfNat n hn).compare (unpackedOfNat i hi) = some ((compare (n.log2 : Int) i.log2).then
      (compare (n <<< (52 - n.log2)) (i <<< (52 - i.log2)))) := by
  have hexponent : compare ((n.log2 : Int) - 52) ((i.log2 : Int) - 52) =
      compare (n.log2 : Int) i.log2 := by
    rcases lt_trichotomy n.log2 i.log2 with h | h | h
    · rw [Int.compare_eq_lt.2 (by omega), Int.compare_eq_lt.2 (by omega)]
    · rw [h]
      simp
    · rw [Int.compare_eq_gt.2 (by omega), Int.compare_eq_gt.2 (by omega)]
  unfold unpackedOfNat
  rw [← hexponent]
  rfl

/-- The doubles of small numbers compare like the numbers. -/
lemma compare_toFloat {n i : Nat} (hn : n < 2 ^ 53) (hi : i < 2 ^ 53) :
    n.toUInt64.toFloat.toModel.unpack.compare i.toUInt64.toFloat.toModel.unpack =
      some (compare n i) := by
  rcases Nat.eq_zero_or_pos n with rfl | hnpos
  · rcases Nat.eq_zero_or_pos i with rfl | hipos
    · rfl
    · rw [unpack_toFloat hipos hi, Nat.compare_eq_lt.2 hipos]
      rfl
  rcases Nat.eq_zero_or_pos i with rfl | hipos
  · rw [unpack_toFloat hnpos hn, Nat.compare_eq_gt.2 hnpos]
    rfl
  rw [unpack_toFloat hnpos hn, unpack_toFloat hipos hi, compare_unpackedOfNat]
  have hbelow : ∀ {a b : Nat}, a ≠ 0 → a.log2 < b.log2 → a < b := fun ha h =>
    ((Nat.log2_lt ha).1 h).trans_le (Nat.log2_self_le fun h0 => by simp [h0] at h)
  rcases lt_trichotomy n.log2 i.log2 with h | h | h
  · rw [Nat.compare_eq_lt.2 (hbelow (Nat.ne_of_gt hnpos) h), Int.compare_eq_lt.2 (by omega)]
    rfl
  · have hpow : 0 < 2 ^ (52 - i.log2) := Nat.two_pow_pos _
    rw [h, Int.compare_eq_eq.2 rfl, Nat.shiftLeft_eq, Nat.shiftLeft_eq]
    congr 1
    rcases lt_trichotomy n i with hlt | rfl | hlt
    · rw [Nat.compare_eq_lt.2 hlt, Nat.compare_eq_lt.2 (Nat.mul_lt_mul_of_pos_right hlt hpow)]
      rfl
    · simp
    · rw [Nat.compare_eq_gt.2 hlt, Nat.compare_eq_gt.2 (Nat.mul_lt_mul_of_pos_right hlt hpow)]
      rfl
  · rw [Nat.compare_eq_gt.2 (hbelow (Nat.ne_of_gt hipos) h), Int.compare_eq_gt.2 (by omega)]
    rfl

lemma toFloat_lt_iff {n i : Nat} (hn : n < 2 ^ 53) (hi : i < 2 ^ 53) :
    n.toUInt64.toFloat < i.toUInt64.toFloat ↔ n < i := by
  rw [lt_iff, compare_toFloat hn hi, Option.some.injEq, Nat.compare_eq_lt]

lemma toFloat_le_iff {n i : Nat} (hn : n < 2 ^ 53) (hi : i < 2 ^ 53) :
    n.toUInt64.toFloat ≤ i.toUInt64.toFloat ↔ n ≤ i := by
  rw [le_iff, compare_toFloat hn hi]
  exact Nat.isLE_compare

lemma toFloat_beq {n : Nat} (hn : n < 2 ^ 53) :
    (n.toUInt64.toFloat == n.toUInt64.toFloat) = true := by
  rw [beq_iff, compare_toFloat hn hn, Nat.compare_eq_eq.2 rfl]

end Clearance
