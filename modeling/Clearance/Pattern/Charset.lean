/-
# Sets of characters

A set of characters is a list of ranges of code points in increasing order with gaps between
them, so that equal sets have equal lists. Sets are built by union, complement and closure
under case.
-/
import Clearance.Text.Class

namespace Clearance.Pattern

open Text (Ranges joinRanges)

/-- The last code point. -/
def lastCode : Nat := 0x10FFFF

/-- A set of characters. -/
structure Charset where
  ranges : Ranges
deriving DecidableEq, Repr

/-- A code point lies in one of the ranges, which are in increasing order. -/
def inRanges : Ranges → Nat → Bool
  | [], _ => false
  | (a, b) :: rest, n => if n < a then false else n ≤ b || inRanges rest n

/-- The code points from `n` on outside of ranges in increasing order. -/
def gapsFrom : Nat → Ranges → Ranges
  | n, [] => if n ≤ lastCode then [(n, lastCode)] else []
  | n, (a, b) :: rest =>
    if n < a then (n, a - 1) :: gapsFrom (b + 1) rest else gapsFrom (b + 1) rest

namespace Charset

/-- The set of the code points in any ranges. -/
def ofRanges (rs : Ranges) : Charset := ⟨joinRanges (rs.mergeSort fun a b => a.1 ≤ b.1)⟩

/-- A code point belongs to a set. -/
def member (s : Charset) (n : Nat) : Bool := inRanges s.ranges n

/-- A character belongs to a set. -/
def holds (s : Charset) (c : Char) : Bool := s.member c.toNat

/-- The set of one code point. -/
def one (n : Nat) : Charset := ⟨[(n, n)]⟩

/-- The union of two sets. -/
def union (s t : Charset) : Charset := ofRanges (s.ranges ++ t.ranges)

/-- The other code points. -/
def complement (s : Charset) : Charset := ⟨gapsFrom 0 s.ranges⟩

/-- All characters. -/
def all : Charset := ⟨[(0, lastCode)]⟩

/-- All characters but the line feed. -/
def allButNewline : Charset := (one 10).complement

/-- The classes of code points equal up to case that have a member in the ranges, marked by
their numbers. The members come in increasing order, like the ranges. -/
def markClasses : List (Nat × Nat) → Ranges → Array Bool → Array Bool
  | [], _, marks => marks
  | (n, i) :: rest, rs, marks =>
    let rs := rs.dropWhile fun r => r.2 < n
    markClasses rest rs (if inRanges (rs.take 1) n then marks.setIfInBounds i true else marks)

/-- The code points equal up to case to one of the set. -/
def folded (s : Charset) : Charset :=
  let marks := markClasses Text.caseMembers s.ranges
    (Array.replicate Text.caseClasses.size false)
  ofRanges (s.ranges ++
    ((Text.caseMembers.filter fun (_, i) => marks.getD i false).map fun (n, _) => (n, n)))

/-- A set, closed under case if characters count up to case, and complemented if it is
negated. -/
def closed (s : Charset) (folds negated : Bool) : Charset :=
  let s := if folds then s.folded else s
  if negated then s.complement else s

end Charset

/-- The code points equal to `n` up to case, `n` itself included. -/
def caseVariants (n : Nat) : List Nat :=
  let rep := Text.foldCase n
  let others := Text.caseFolding.toList.filterMap fun run =>
    let m := (Int.ofNat rep - run.shift).toNat
    if run.holds m then some m else none
  rep :: others

/-- The least code point equal to `n` up to case. -/
def leastVariant (n : Nat) : Nat := (caseVariants n).foldl min n

/-- The set of one code point, up to case if `folds`. -/
def Charset.single (folds : Bool) (n : Nat) : Charset :=
  if folds then .ofRanges ((caseVariants n).map fun m => (m, m)) else .one n

/-- The letter classes: the letter after the backslash, its ranges. The upper case letter
stands for the complement. -/
def letterClasses : List (Char × Ranges) :=
  [('d', [(48, 57)]),
   ('s', [(9, 10), (12, 13), (32, 32)]),
   ('w', [(48, 57), (65, 90), (95, 95), (97, 122)])]

/-- The class of a letter after a backslash. -/
def letterClass? (folds : Bool) (c : Char) : Option Charset :=
  match letterClasses.lookup c with
  | some rs => some (Charset.closed ⟨rs⟩ folds false)
  | none =>
    if c.isUpper then (letterClasses.lookup c.toLower).map fun rs => Charset.closed ⟨rs⟩ folds true
    else none

/-- The classes with a name between colons. -/
def namedClasses : List (String × Ranges) :=
  [("alnum", [(48, 57), (65, 90), (97, 122)]),
   ("alpha", [(65, 90), (97, 122)]),
   ("ascii", [(0, 127)]),
   ("blank", [(9, 9), (32, 32)]),
   ("cntrl", [(0, 31), (127, 127)]),
   ("digit", [(48, 57)]),
   ("graph", [(33, 126)]),
   ("lower", [(97, 122)]),
   ("print", [(32, 126)]),
   ("punct", [(33, 47), (58, 64), (91, 96), (123, 126)]),
   ("space", [(9, 13), (32, 32)]),
   ("upper", [(65, 90)]),
   ("word", [(48, 57), (65, 90), (95, 95), (97, 122)]),
   ("xdigit", [(48, 57), (65, 70), (97, 102)])]

/-- A name and whether a caret stands before it. -/
def cutCaret : List Char → Bool × List Char
  | '^' :: name => (true, name)
  | name => (false, name)

/-- The class of a name between colons; a caret before the name complements it. -/
def namedClass? (folds : Bool) (name : List Char) : Option Charset :=
  let (negated, name) := cutCaret name
  (namedClasses.lookup (String.ofList name)).map fun rs => Charset.closed ⟨rs⟩ folds negated

/-- The class of a Unicode property: a general category, a script or one of a few others. -/
def property? (folds negated : Bool) (name : List Char) : Option Charset :=
  let (caret, name) := cutCaret name
  (Text.named? (String.ofList name)).map fun rs => Charset.closed ⟨rs⟩ folds (negated != caret)

/-- The characters of words, for word edges. -/
def isWordChar (c : Char) : Bool := c.isAlphanum || c == '_'

end Clearance.Pattern
