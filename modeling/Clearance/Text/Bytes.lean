/-
# Bytes and text

Bytes are read as text in the usual encoding of one to four bytes a character. Every byte that
belongs to no character becomes a replacement character, so that any bytes are some text. The
other direction is a plain encoding of bytes in characters, six bits each.
-/

namespace Clearance.Text

/-- The first byte of a character of several bytes: how many bytes follow, its share of the
code, and the bounds of the byte after it. -/
structure Lead where
  following : Nat
  share : Nat
  low : Nat
  high : Nat

/-- What a byte opens, if it can open a character of several bytes. -/
def lead? (b : Nat) : Option Lead :=
  if 0xC2 ≤ b ∧ b ≤ 0xDF then some ⟨1, b - 0xC0, 0x80, 0xBF⟩
  else if b = 0xE0 then some ⟨2, 0, 0xA0, 0xBF⟩
  else if b = 0xED then some ⟨2, 13, 0x80, 0x9F⟩
  else if 0xE1 ≤ b ∧ b ≤ 0xEF then some ⟨2, b - 0xE0, 0x80, 0xBF⟩
  else if b = 0xF0 then some ⟨3, 0, 0x90, 0xBF⟩
  else if b = 0xF4 then some ⟨3, 4, 0x80, 0x8F⟩
  else if 0xF1 ≤ b ∧ b ≤ 0xF3 then some ⟨3, b - 0xF0, 0x80, 0xBF⟩
  else none

/-- The bytes that follow the first one fit it. -/
def Lead.fits (l : Lead) (tail : List Nat) : Bool :=
  tail.length == l.following &&
    (tail.zipIdx.all fun (b, i) =>
      if i = 0 then l.low ≤ b && b ≤ l.high else 0x80 ≤ b && b ≤ 0xBF)

/-- The character that a byte opens, and how many of the bytes after it belong to it. -/
def decodeChar (b : Nat) (rest : List Nat) : Char × Nat :=
  if b < 0x80 then (Char.ofNat b, 0)
  else match lead? b with
    | none => ('\ufffd', 0)
    | some l =>
      let tail := rest.take l.following
      if l.fits tail then
        (Char.ofNat (tail.foldl (fun n t => 64 * n + (t - 0x80)) l.share), l.following)
      else ('\ufffd', 0)

/-- The text of bytes. -/
def decodeBytes : List Nat → List Char
  | [] => []
  | b :: rest => (decodeChar b rest).1 :: decodeBytes (rest.drop (decodeChar b rest).2)
termination_by bs => bs.length
decreasing_by simp only [List.length_drop, List.length_cons]; omega

/-- The bytes of a text. -/
def encodeBytes (cs : List Char) : List Nat :=
  cs.flatMap fun c => (String.utf8EncodeChar c).map UInt8.toNat

/-- The six bits that a character stands for. -/
def sixBits? (c : Char) : Option Nat :=
  if 'A' ≤ c && c ≤ 'Z' then some (c.toNat - 65)
  else if 'a' ≤ c && c ≤ 'z' then some (c.toNat - 71)
  else if c.isDigit then some (c.toNat + 4)
  else if c == '+' then some 62
  else if c == '/' then some 63
  else none

/-- The bytes of characters in groups of four. The last group may be filled up with one or two
equals signs, and must be complete. -/
def decodeGroups : List Char → Option (List Nat)
  | [] => some []
  | [a, b, '=', '='] => do
    let n := 64 * (← sixBits? a) + (← sixBits? b)
    return [n / 16]
  | [a, b, c, '='] => do
    let n := 64 * (64 * (← sixBits? a) + (← sixBits? b)) + (← sixBits? c)
    return [n / 1024, n / 4 % 256]
  | a :: b :: c :: d :: rest => do
    let n := 64 * (64 * (64 * (← sixBits? a) + (← sixBits? b)) + (← sixBits? c)) + (← sixBits? d)
    return n / 65536 :: n / 256 % 256 :: n % 256 :: (← decodeGroups rest)
  | _ => none

/-- The bytes written in characters of six bits each; line ends do not count. -/
def decodeSixBits? (cs : List Char) : Option (List Nat) :=
  decodeGroups (cs.filter fun c => c != '\n' && c != '\r')

end Clearance.Text
