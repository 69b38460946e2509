/-
# Searching and splitting texts

The first and last occurrence of a text in another one, and splitting at all occurrences of a
separator from the left.
-/

namespace Clearance.Text

/-- The number of characters before the first occurrence. -/
def indexOf? (needle : List Char) : List Char → Option Nat
  | [] => if needle.isEmpty then some 0 else none
  | c :: cs =>
    if needle.isPrefixOf (c :: cs) then some 0 else (indexOf? needle cs).map (· + 1)

/-- The number of characters before the last occurrence. -/
def lastIndexOf? (needle : List Char) : List Char → Option Nat
  | [] => if needle.isEmpty then some 0 else none
  | c :: cs =>
    match lastIndexOf? needle cs with
    | some i => some (i + 1)
    | none => if needle.isPrefixOf (c :: cs) then some 0 else none

/-- Splits at every occurrence of a separator that is not empty: `skip` characters of the last
one found are still to be passed, and `piece` is what has been read of the current piece, last
character first. -/
def splitFrom (separator : List Char) : Nat → List Char → List Char → List (List Char)
  | _, piece, [] => [piece.reverse]
  | 0, piece, c :: cs =>
    if separator.isPrefixOf (c :: cs) then
      piece.reverse :: splitFrom separator (separator.length - 1) [] cs
    else splitFrom separator 0 (c :: piece) cs
  | skip + 1, piece, _ :: cs => splitFrom separator skip piece cs

/-- The pieces of a text between the occurrences of a separator. An empty separator splits
into characters. -/
def split (separator text : List Char) : List (List Char) :=
  match separator with
  | [] => text.map fun c => [c]
  | _ => splitFrom separator 0 [] text

end Clearance.Text
