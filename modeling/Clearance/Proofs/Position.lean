/-
# Characters and bytes

A place in a text has a position, which counts characters, and an offset, which counts bytes. Both
conversions between them agree on every boundary between two characters (`Text.Positions`).

`exec` goes through both: its position is read from `lastIndex`, the search starts at its offset,
and the offset behind the match is written back as a position. It is the place behind the match that
is written, or the one behind the next character if the match is empty (`Pattern.Hit.Leaves`).
-/
import Clearance.Proofs.Exec

namespace Clearance

open Clearance.Action Clearance.Library

/-! ## Boundaries -/

namespace Text

lemma byteSize_toList (s : String) : byteSize s.toList = s.utf8ByteSize := by
  suffices h : ∀ cs : List Char, byteSize cs = (String.ofList cs).utf8ByteSize by
    rw [h, String.ofList_toList]
  intro cs
  induction cs with
  | nil => rfl
  | cons c cs ih =>
    have hcons : String.ofList (c :: cs) = String.singleton c ++ String.ofList cs :=
      @String.ofList_append [c] cs
    rw [hcons, String.utf8ByteSize_append, String.utf8ByteSize_singleton, byteSize, ih]

/-- A boundary is the end of a prefix. -/
lemma isValid_iff {s : String} {o : Nat} : (⟨o⟩ : String.Pos.Raw).IsValid s ↔
    ∃ before after : String, s = before ++ after ∧ o = before.utf8ByteSize := by
  rw [String.Pos.Raw.isValid_iff_exists_append]
  simp [String.Pos.Raw.ext_iff]

/-- Positions and offsets in a text name the same places. -/
structure Positions (s : String) : Prop where
  /-- The characters before an offset are those of the prefix that ends there. -/
  counts : ∀ before after : String, s = before ++ after →
    charsBefore before.utf8ByteSize s.toList = before.length
  /-- Every boundary is the offset of its position. -/
  boundary : ∀ o : Nat, (⟨o⟩ : String.Pos.Raw).IsValid s →
    byteOffset s.toList (charsBefore o s.toList) = o
  /-- A position in the text has a boundary as its offset, with so many characters before it. -/
  position : ∀ p ≤ s.length, (⟨byteOffset s.toList p⟩ : String.Pos.Raw).IsValid s ∧
    charsBefore (byteOffset s.toList p) s.toList = p
  /-- The positions in front of the text count as its start, and those behind it as its end. -/
  below : ∀ p : Int, p < 0 → byteOffset s.toList p = 0
  above : ∀ p : Int, (s.length : Int) < p → byteOffset s.toList p = s.utf8ByteSize

lemma charsBefore_utf8ByteSize (before after : String) :
    charsBefore before.utf8ByteSize (before ++ after).toList = before.length := by
  rw [← byteSize_toList, String.toList_append, charsBefore_byteSize, String.length_toList]

lemma byteOffset_string_length (before after : String) :
    byteOffset (before ++ after).toList before.length = before.utf8ByteSize := by
  rw [← String.length_toList, String.toList_append, byteOffset_length, byteSize_toList]

/-- The text in front of a position and the one behind it. -/
lemma exists_split {s : String} {p : Nat} (hp : p ≤ s.length) :
    ∃ before after : String, s = before ++ after ∧ before.length = p := by
  refine ⟨String.ofList (s.toList.take p), String.ofList (s.toList.drop p), ?_, ?_⟩
  · rw [← String.ofList_append, List.take_append_drop, String.ofList_toList]
  · rw [← String.length_toList, String.toList_ofList, List.length_take, String.length_toList,
      Nat.min_eq_left hp]

lemma positions (s : String) : Positions s where
  counts before after hs := hs ▸ charsBefore_utf8ByteSize before after
  boundary o ho := by
    obtain ⟨before, after, rfl, rfl⟩ := isValid_iff.1 ho
    rw [charsBefore_utf8ByteSize, byteOffset_string_length]
  position p hp := by
    obtain ⟨before, after, rfl, rfl⟩ := exists_split hp
    rw [byteOffset_string_length, charsBefore_utf8ByteSize]
    exact ⟨isValid_iff.2 ⟨before, after, rfl, rfl⟩, rfl⟩
  below p hp := by
    rw [byteOffset, Int.toNat_of_nonpos (Int.le_of_lt hp)]
    rfl
  above p hp := by
    have hlong : s.toList.length ≤ p.toNat := by
      rw [String.length_toList]
      omega
    rw [byteOffset, List.take_of_length_le hlong, byteSize_toList]

end Text

/-! ## Where searches go on -/

/-- What comes before the place where the next search starts: the search goes on behind the match,
and over one character if the match is empty and not at the end of the text. -/
inductive Pattern.Hit.Leaves : Pattern.Hit → List Char → Prop where
  | behind {before matched after : List Char} (hne : matched ≠ []) :
    Leaves ⟨before, matched, after⟩ (before ++ matched)
  | further {before : List Char} {c : Char} {after : List Char} :
    Leaves ⟨before, [], c :: after⟩ (before ++ [c])
  | atEnd {before : List Char} : Leaves ⟨before, [], []⟩ before

section

variable {serve : Service} {fuel : Nat} {s s₁ t : State} {o : Ref} {code : Pattern.Code}
  {text : String} {p : Int} {n : Nat}

/-- What a pattern object does whose `lastIndex` can be assigned: a position within 32 bits is read
as it has been written. -/
structure State.Remembers (s : State) (serve : Service) (fuel : Nat) (o : Ref) (code : Pattern.Code)
    (n : Nat) : Prop where
  flag : (patternFlag o "global").run serve fuel s = .done true s
  reads : n < 2 ^ 31 → (position o).run serve fuel s = .done (n : Int) s
  writes : ∀ (k : Nat) (r : Raw), ∃ t, (finishAt o k r).run serve fuel s = .done r t ∧
    t.Resumes o.id code k

end

end Clearance
