/-
# Chains of security labels

A lattice is a finite chain of named labels, least secret first. A label knows its name and
its one-based rank; rank zero is `Label.none`, the absence of a classification, which ranks
with the least label in every comparison but is a different label. Joins and comparisons
only look at ranks, so they make sense without the lattice at hand.
-/
import Clearance.Text.Blank
import Clearance.Text.Quoted

namespace Clearance

/-- One classification of a lattice. -/
structure Label where
  /-- The one-based position in the chain, zero for the absence of a label. -/
  rank : Nat
  /-- The name, empty for the absence of a label. -/
  name : String
deriving DecidableEq, Repr

namespace Label

/-- The unlabeled classification. -/
def none : Label := ⟨0, ""⟩

instance : Inhabited Label := ⟨none⟩

/-- A label carries no classification when its rank is zero. -/
def isNone (k : Label) : Bool := k.rank == 0

/-- How a label is shown. -/
def text (k : Label) : String := if k.rank = 0 then "none" else k.name

/-- The rank used by comparisons: no label at all ranks with the least label. -/
def height (k : Label) : Nat := if k.rank = 0 then 1 else k.rank

/-- The least upper bound. Joining with `none` returns the other label unchanged. -/
def join (a b : Label) : Label := if a.rank ≥ b.rank then a else b

/-- The join of a list of labels, starting from `none`. -/
def joinAll (ks : List Label) : Label := ks.foldl join none

/-- Information classified `a` may flow to a location classified `b`. -/
def leq (a b : Label) : Bool := a.height ≤ b.height

/-- `a` is strictly below `b`. -/
def less (a b : Label) : Bool := a.height < b.height

/-- `a` ranks below, with or above `b`. -/
def order (a b : Label) : Ordering := compare a.height b.height

/-- A label at the bottom carries no more information than the least label. -/
def isBottom (k : Label) : Bool := k.height == 1

@[simp] theorem isNone_none : none.isNone = true := rfl

@[simp] theorem height_none : none.height = 1 := rfl

theorem one_le_height (k : Label) : 1 ≤ k.height := by
  unfold height; split <;> omega

@[simp] theorem join_none (k : Label) : k.join none = k := by
  simp [join, none]

end Label

/-- Why a list of names is no lattice. -/
inductive LatticeError where
  /-- No names at all. -/
  | empty
  /-- Some positions are blank or repeat an earlier name; one issue each, in order. -/
  | invalid (issues : List String)
deriving DecidableEq, Repr

/-- The heading and the issues of a failed validation, an issue a line. -/
def bulleted (heading : String) (issues : List String) : String :=
  issues.foldl (fun acc i => acc ++ "\n- " ++ i) heading

namespace LatticeError

/-- The text of the error. -/
def message : LatticeError → String
  | .empty => "lattice: at least one label is required"
  | .invalid issues => bulleted "lattice validation failed:" issues

end LatticeError

/-- A chain of labels: its names, least secret first. -/
structure Lattice where
  /-- The least secret label's name. -/
  least : String
  /-- The names above it, in order. -/
  above : List String
deriving DecidableEq, Repr

namespace Lattice

/-- The names, least secret first. -/
def names (l : Lattice) : List String := l.least :: l.above

/-- The number of labels. -/
def size (l : Lattice) : Nat := l.names.length

/-- The labels of a list of names whose first one has rank `rank`. -/
def labelsFrom (rank : Nat) : List String → List Label
  | [] => []
  | name :: rest => ⟨rank, name⟩ :: labelsFrom (rank + 1) rest

/-- The labels, least secret first. -/
def labels (l : Lattice) : List Label := labelsFrom 1 l.names

/-- The least secret label. -/
def bottom (l : Lattice) : Label := ⟨1, l.least⟩

/-- The most secret label. -/
def top (l : Lattice) : Label := ⟨l.size, l.above.getLastD l.least⟩

/-- The label of a name. -/
def lookup? (l : Lattice) (name : String) : Option Label :=
  l.labels.find? (fun k => k.name == name)

/-- The two-point chain `L < H`. -/
def standard : Lattice := ⟨"L", ["H"]⟩

instance : Inhabited Lattice := ⟨standard⟩

/-- What is wrong at position `i` with the trimmed name `name`, given the names before it. -/
def issue? (i : Nat) (seen : List String) (name : String) : Option String :=
  if name = "" then some s!"labels[{i}] must be a non-empty string"
  else if name ∈ seen then some (s!"labels[{i}] duplicates " ++ Text.quote name)
  else none

/-- The issues of a list of trimmed names from position `i` on; a name counts as seen
unless it is itself an issue. -/
def issuesFrom (i : Nat) (seen : List String) : List String → List String
  | [] => []
  | name :: rest =>
    match issue? i seen name with
    | some issue => issue :: issuesFrom (i + 1) seen rest
    | none => issuesFrom (i + 1) (name :: seen) rest

/-- The lattice whose labels are named as given, least secret first. Names are trimmed. -/
def ofNames (names : List String) : Except LatticeError Lattice :=
  match names.map Text.trim with
  | [] => .error .empty
  | least :: above =>
    match issuesFrom 0 [] (least :: above) with
    | [] => .ok ⟨least, above⟩
    | issues => .error (.invalid issues)

end Lattice
end Clearance
