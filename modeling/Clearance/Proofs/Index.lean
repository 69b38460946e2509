/-
# Indices and lengths

What arrays count with. A name stands for an index exactly if it is the name of the index
(`arrayIndex?_eq_some_iff`): decimal digits without a superfluous zero have one reading, and the
number that is read is written with these digits. All other names are no indices
(`index_names_canonical`). The value of a number that can be a length converts to this number.
-/
import Clearance.Proofs.Write

namespace Clearance

/-! ## Names of indices -/

namespace Decimal

lemma isDigit_of_radixValue? {c : Char} {d : Nat}
    (h : (radixValue? c).filter (· < 10) = some d) : c.isDigit = true := by
  obtain ⟨hvalue, hlt⟩ := Option.filter_eq_some_iff.1 h
  replace hlt : d < 10 := by simpa using hlt
  unfold radixValue? at hvalue
  split_ifs at hvalue with hdigit hlower hupper
  · exact hdigit
  · have hle : 97 ≤ c.toNat := (Bool.and_eq_true_iff.1 hlower).1 |> of_decide_eq_true
    cases hvalue
    omega
  · have hle : 65 ≤ c.toNat := (Bool.and_eq_true_iff.1 hupper).1 |> of_decide_eq_true
    cases hvalue
    omega

/-- Only digits are read. -/
lemma isDigit_of_readDigits? {cs : List Char} {n : Nat} (h : readDigits? 10 cs = some n) :
    ∀ c ∈ cs, c.isDigit = true := by
  unfold readDigits? at h
  split_ifs at h
  obtain ⟨ds, hds, -⟩ := Option.map_eq_some_iff.1 h
  clear h
  induction cs generalizing ds with
  | nil => exact fun c hc => absurd hc (List.not_mem_nil)
  | cons c cs ih =>
    rw [List.mapM_cons] at hds
    obtain ⟨d, hd, hds⟩ := Option.bind_eq_some_iff.1 hds
    obtain ⟨rest, hrest, -⟩ := Option.bind_eq_some_iff.1 hds
    have hfirst := isDigit_of_radixValue? hd
    by_cases hcs : cs.isEmpty = true
    · rw [List.isEmpty_iff.1 hcs]
      simpa using hfirst
    · exact List.forall_mem_cons.2 ⟨hfirst, ih hcs rest hrest⟩

/-- A digit is the digit of its value. -/
lemma toDigits_of_isDigit {c : Char} (h : c.isDigit = true) :
    Nat.toDigits 10 (c.toNat - 48) = [c] := by
  have hbounds : 48 ≤ c.toNat ∧ c.toNat ≤ 57 := by
    simpa [Char.isDigit, UInt32.le_iff_toNat_le] using h
  rw [Nat.toDigits_of_lt_base (by omega)]
  have hdigit : ∀ d < 10, (Nat.digitChar d).toNat = d + 48 := by decide
  congr 1
  refine Char.toNat_inj.1 ?_
  rw [hdigit _ (by omega)]
  omega

/-- Digits that do not begin with zero are the digits of the number that they make, which is not
zero, by induction from the end. -/
lemma toDigits_ofDigitChars {c : Char} {cs : List Char} (hdigits : ∀ d ∈ c :: cs, d.isDigit = true)
    (hc : c ≠ '0') :
    0 < Nat.ofDigitChars 10 (c :: cs) 0 ∧
      Nat.toDigits 10 (Nat.ofDigitChars 10 (c :: cs) 0) = c :: cs := by
  induction cs using List.reverseRecOn with
  | nil =>
    have hdigit := hdigits c List.mem_cons_self
    have hne : c.toNat ≠ 48 := fun h => hc (Char.toNat_inj.1 h)
    have hbounds : 48 ≤ c.toNat ∧ c.toNat ≤ 57 := by
      simpa [Char.isDigit, UInt32.le_iff_toNat_le] using hdigit
    have hvalue : Nat.ofDigitChars 10 [c] 0 = c.toNat - 48 := by simp [Nat.ofDigitChars]
    rw [hvalue]
    exact ⟨by omega, toDigits_of_isDigit hdigit⟩
  | append_singleton cs last ih =>
    rw [← List.cons_append] at hdigits ⊢
    obtain ⟨hpos, hrest⟩ := ih fun d hd => hdigits d (List.mem_append_left _ hd)
    have hlast : last.isDigit = true := hdigits last (by simp)
    have hbounds : 48 ≤ last.toNat ∧ last.toNat ≤ 57 := by
      simpa [Char.isDigit, UInt32.le_iff_toNat_le] using hlast
    have hvalue : Nat.ofDigitChars 10 (c :: cs ++ [last]) 0 =
        10 * Nat.ofDigitChars 10 (c :: cs) 0 + (last.toNat - 48) := by
      rw [Nat.ofDigitChars_append]
      rfl
    rw [hvalue]
    refine ⟨by omega, ?_⟩
    rw [← Nat.toDigits_append_toDigits (by decide) hpos (by omega), hrest,
      toDigits_of_isDigit hlast]

end Decimal

/-- Only the name of an index stands for it. -/
lemma eq_indexName_of_arrayIndex? {name : String} {i : Nat} (h : arrayIndex? name = some i) :
    name = indexName i := by
  suffices hdigits : Nat.toDigits 10 i = name.toList by
    rw [indexName, hdigits, String.ofList_toList]
  unfold arrayIndex? at h
  split at h
  · cases h
  · cases h
  · rename_i cs hnil hzero
    split at h <;> try cases h
    rename_i n hread
    split_ifs at h
    cases h
    have hall := Decimal.isDigit_of_readDigits? hread
    rcases hcs : name.toList with _ | ⟨c, rest⟩
    · exact absurd hcs hnil
    rw [hcs] at hread hall
    rw [Heap.readDigits?_of_isDigit (List.cons_ne_nil _ _) hall] at hread
    obtain rfl := Option.some.inj hread
    by_cases hc : c = '0'
    · -- a zero that is not superfluous is the only digit
      subst hc
      rcases rest with _ | ⟨d, rest⟩
      · rfl
      · exact absurd hcs (hzero d rest)
    · exact (Decimal.toDigits_ofDigitChars hall hc).2

/-- Numbers other than zero do not begin with the digit zero. -/
lemma toDigits_ne_zero_cons {i : Nat} (hi : 0 < i) (cs : List Char) :
    Nat.toDigits 10 i ≠ '0' :: cs := by
  induction i using Nat.strong_induction_on generalizing cs with
  | _ i ih =>
    intro h
    by_cases hsmall : i < 10
    · have hfirst : ∀ d < 10, 0 < d → Nat.digitChar d ≠ '0' := by decide
      rw [Nat.toDigits_of_lt_base hsmall] at h
      exact hfirst i hsmall hi (List.cons.inj h).1
    · rw [← Nat.div_add_mod i 10,
        ← Nat.toDigits_append_toDigits (by decide) (by omega) (by omega)] at h
      rcases hq : Nat.toDigits 10 (i / 10) with _ | ⟨c, rest⟩
      · exact List.ne_nil_of_length_pos Nat.length_toDigits_pos hq
      · rw [hq] at h
        obtain rfl := (List.cons.inj h).1
        exact ih (i / 10) (by omega) (by omega) rest hq

/-- The name of an index that arrays count stands for it. -/
lemma arrayIndex?_indexName {i : Nat} (hi : i < maxLength) :
    arrayIndex? (indexName i) = some i := by
  have hread : Decimal.readDigits? 10 (Nat.toDigits 10 i) = some i := by
    rw [Heap.readDigits?_of_isDigit (List.ne_nil_of_length_pos Nat.length_toDigits_pos)
      fun c hc => Nat.isDigit_of_mem_toDigits (by decide) (by decide) hc,
      Nat.ofDigitChars_toDigits (by decide) (by decide)]
  unfold arrayIndex? indexName
  rw [String.toList_ofList]
  split
  · rename_i hnil
    exact absurd hnil (List.ne_nil_of_length_pos Nat.length_toDigits_pos)
  · rename_i d rest hzero
    rcases Nat.eq_zero_or_pos i with rfl | hpos
    · cases hzero
    · exact absurd hzero (toDigits_ne_zero_cons hpos _)
  · rw [hread]
    exact if_pos hi

/-- The names of the indices are what stands for indices. -/
lemma arrayIndex?_eq_some_iff {name : String} {i : Nat} :
    arrayIndex? name = some i ↔ name = indexName i ∧ i < maxLength := by
  constructor
  · exact fun h => ⟨eq_indexName_of_arrayIndex? h, Heap.lt_of_arrayIndex? h⟩
  · rintro ⟨rfl, hi⟩
    exact arrayIndex?_indexName hi

lemma indexName_injective : Function.Injective indexName := by
  intro i j h
  have hdigits : Nat.toDigits 10 i = Nat.toDigits 10 j := String.ofList_injective h
  rw [← Nat.ofDigitChars_toDigits (b := 10) (n := i) (by decide) (by decide), hdigits,
    Nat.ofDigitChars_toDigits (by decide) (by decide)]

/-! ## Names that are no indices -/

/-- A name that is not written like an index, or like one that arrays do not count. -/
inductive NoIndex : String → Prop
  | empty : NoIndex ""
  /-- A sign, a blank, or whatever else is no digit. -/
  | foreign {name : String} {c : Char} : c ∈ name.toList → c.isDigit = false → NoIndex name
  /-- A zero in front of something. -/
  | padded {rest : List Char} : rest ≠ [] → NoIndex (String.ofList ('0' :: rest))
  | overflowing {i : Nat} : 2 ^ 32 - 1 ≤ i → NoIndex (toString i)

/-- Digits without a superfluous zero are the name of a number. -/
lemma exists_indexName {name : String} (h : ¬NoIndex name) : ∃ i, name = indexName i := by
  have hdigits : ∀ c ∈ name.toList, c.isDigit = true := fun c hc => by
    by_contra hother
    exact h (.foreign hc (by simpa using hother))
  rw [← String.ofList_toList (s := name)] at h ⊢
  generalize name.toList = cs at h hdigits ⊢
  rcases cs with _ | ⟨c, rest⟩
  · exact absurd .empty h
  by_cases hc : c = '0'
  · subst hc
    rcases rest with _ | ⟨d, rest⟩
    · exact ⟨0, rfl⟩
    · exact absurd (.padded (List.cons_ne_nil d rest)) h
  · exact ⟨_, congrArg String.ofList (Decimal.toDigits_ofDigitChars hdigits hc).2.symm⟩

/-- The names of numbers are written like indices. -/
lemma NoIndex.overflows {i : Nat} (h : NoIndex (indexName i)) : 2 ^ 32 - 1 ≤ i := by
  generalize hname : indexName i = name at h
  have hdigits : Nat.toDigits 10 i = name.toList := by rw [← hname, indexName, String.toList_ofList]
  cases h with
  | empty => exact absurd hdigits (List.ne_nil_of_length_pos Nat.length_toDigits_pos)
  | foreign hc hother =>
    rw [← hdigits] at hc
    rw [Nat.isDigit_of_mem_toDigits (by decide) (by decide) hc] at hother
    cases hother
  | @padded rest hrest =>
    rw [String.toList_ofList] at hdigits
    rcases Nat.eq_zero_or_pos i with rfl | hpos
    · exact absurd (List.cons.inj hdigits).2.symm hrest
    · exact absurd hdigits (toDigits_ne_zero_cons hpos rest)
  | overflowing hi => rwa [indexName_injective hname]

/-- **The names of indices are canonical.** A name stands for an index exactly if the index is at
most `2 ^ 32 - 2` and the name is the index in decimal, so that different names stand for different
indices. No other name stands for one: neither the empty name nor one with a sign, a blank or
anything else that is no digit, nor one with a superfluous zero, nor one of a number that is too
large. -/
theorem index_names_canonical :
    (∀ name i, arrayIndex? name = some i ↔ i ≤ 2 ^ 32 - 2 ∧ name = toString i) ∧
    (∀ name name' i, arrayIndex? name = some i → arrayIndex? name' = some i → name = name') ∧
    ∀ name, arrayIndex? name = none ↔ NoIndex name := by
  have hcounts : ∀ i, i < maxLength ↔ i ≤ 2 ^ 32 - 2 := fun i => by
    rw [show maxLength = 2 ^ 32 - 1 from rfl]
    omega
  refine ⟨fun name i => ?_, fun name name' i hname hname' => ?_,
    fun name => ⟨fun hnone => ?_, fun h => ?_⟩⟩
  · rw [arrayIndex?_eq_some_iff, hcounts, and_comm]
    rfl
  · rw [eq_indexName_of_arrayIndex? hname, eq_indexName_of_arrayIndex? hname']
  · by_contra h
    obtain ⟨i, rfl⟩ := exists_indexName h
    have hle : maxLength ≤ i := Nat.le_of_not_lt fun hi => by
      rw [arrayIndex?_indexName hi] at hnone
      cases hnone
    exact h (.overflowing hle)
  · rw [Option.eq_none_iff_forall_ne_some]
    intro i hi
    obtain ⟨rfl, hlt⟩ := arrayIndex?_eq_some_iff.1 hi
    exact absurd h.overflows (Nat.not_le_of_lt hlt)

/-! ## Lengths -/

variable {n : Nat}

lemma ofNat_eq_toFloat (hn : n ≤ maxLength) : Decimal.ofNat n = n.toUInt64.toFloat :=
  if_pos (Nat.lt_of_le_of_lt hn (by decide))

/-- The value of a number converts to this number. -/
lemma Heap.converts_ofNat (h : Heap) (hn : n ≤ maxLength) : h.Converts (Raw.ofNat n) n := by
  have hsmall : n < 2 ^ 32 := Nat.lt_of_le_of_lt hn (by decide)
  refine ⟨hsmall, ?_⟩
  rw [ofNat_eq_toFloat hn]
  exact toFloat_beq (Nat.lt_trans hsmall (by decide))

/-- The word of the value of a number is this number. -/
lemma Heap.toNat_word_ofNat (h : Heap) (hn : n ≤ maxLength) : (h.word (Raw.ofNat n)).toNat = n :=
  have hconverts := h.converts_ofNat hn
  Decimal.toWord_of_beq hconverts.1 hconverts.2

end Clearance
