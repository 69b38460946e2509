/-
# Positions in a text

Scripts count characters, patterns count bytes. A character position and a byte offset that
lies between two characters name the same place, and both conversions agree on it.
-/

namespace Clearance.Text

/-- The number of bytes of a text. -/
def byteSize : List Char → Nat
  | [] => 0
  | c :: cs => c.utf8Size + byteSize cs

/-- The byte offset of a character position. Positions in front of the text count as its
start, positions behind it as its end. -/
def byteOffset (cs : List Char) (position : Int) : Nat := byteSize (cs.take position.toNat)

/-- The characters from a byte offset on. -/
def dropBytes : Nat → List Char → List Char
  | _, [] => []
  | n, c :: cs => if n = 0 then c :: cs else dropBytes (n - c.utf8Size) cs

/-- The characters before a byte offset. -/
def takeBytes : Nat → List Char → List Char
  | _, [] => []
  | n, c :: cs => if n = 0 then [] else c :: takeBytes (n - c.utf8Size) cs

/-- The characters between two byte offsets. -/
def sliceBytes (start stop : Nat) (cs : List Char) : List Char :=
  takeBytes (stop - start) (dropBytes start cs)

/-- The number of characters before a byte offset. -/
def charsBefore (offset : Nat) (cs : List Char) : Nat := (takeBytes offset cs).length

end Clearance.Text
