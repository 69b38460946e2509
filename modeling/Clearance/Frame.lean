/-
# Frames

A frame is one link of the scope chain. Its bindings live in two stores: the low store holds
the names bound while the program counter was at the bottom, the high store those bound under
a raised program counter. An index records which store binds a name; an entry whose binding
has gone is dropped when it is met. Frames are numbered in the order of their creation, and
the enclosing frame is always older.
-/
import Clearance.Heap

namespace Clearance

/-- One of the two stores of a frame. -/
inductive Side where
  | low
  | high
deriving DecidableEq, Repr

/-- A link of the scope chain. -/
structure Frame where
  low : Ref
  high : Ref
  /-- Which store binds a name. -/
  index : List (String × Side)
  /-- The enclosing frame. -/
  parent : Option Nat
  /-- The live properties of the stores are bindings too. -/
  dynamic : Bool

namespace Frame

instance : Inhabited Frame := ⟨⟨⟨0, .plain⟩, ⟨0, .plain⟩, [], none, false⟩⟩

/-- The store on a side. -/
def store (f : Frame) : Side → Ref
  | .low => f.low
  | .high => f.high

/-- The side that bindings made at a program counter belong to. -/
def sideAt (pc : Label) : Side := if Label.none.less pc then .high else .low

/-- The index without a name. -/
def unbind (f : Frame) (name : String) : Frame :=
  { f with index := f.index.filter fun entry => entry.1 != name }

/-- Records that a name lives in a store. -/
def bind (f : Frame) (name : String) (side : Side) : Frame :=
  { f with index := (name, side) :: (f.unbind name).index }

/-- The indexed names, sorted. -/
def names (f : Frame) : List String :=
  (f.index.map Prod.fst).mergeSort fun a b => !(b < a)

/-- The store that holds a name in this frame, and the frame without a stale entry. -/
def own (f : Frame) (heap : Heap) (name : String) : Option Side × Frame :=
  let live := match f.index.lookup name with
    | some side => (heap.get (f.store side).id).hasOwn name
    | none => false
  if live then (f.index.lookup name, f)
  else
    let f := f.unbind name
    if f.dynamic then
      if heap.has f.high.id name then (some .high, f)
      else if heap.has f.low.id name then (some .low, f)
      else (none, f)
    else (none, f)

/-- Installs a property under a name in the store selected by the program counter and binds
the name. A value defined under a program counter above the store's partition carries it. -/
def define (f : Frame) (heap : Heap) (name : String) (p : Property) (pc : Label) :
    Side × Frame × Heap :=
  let side := sideAt pc
  let id := (f.store side).id
  let p := if (heap.get id).partition.less pc then { p with value := p.value.wrap pc } else p
  (side, f.bind name side, heap.update id (·.define name p))

end Frame

/-- All frames, by number. -/
abbrev Frames := Array Frame

namespace Frames

/-- The frame of a number. -/
def get (fs : Frames) (id : Nat) : Frame := fs.getD id default

/-- Walks the scope chain from a frame to the first one that holds a name. Every enclosing
frame has a smaller number; a link that does not lead down ends the walk. -/
def lookupWithin (heap : Heap) (name : String) : Nat → Nat → Frames → Option (Nat × Side) × Frames
  | 0, _, fs => (none, fs)
  | fuel + 1, id, fs =>
    match (fs.get id).own heap name with
    | (found, f) =>
      let fs := if f.index.length = (fs.get id).index.length then fs else fs.setIfInBounds id f
      match found with
      | some side => (some (id, side), fs)
      | none =>
        match f.parent with
        | some p => if p < id then lookupWithin heap name fuel p fs else (none, fs)
        | none => (none, fs)

/-- The first frame of the chain that holds a name, with the side that holds it. -/
def lookup (fs : Frames) (heap : Heap) (id : Nat) (name : String) : Option (Nat × Side) × Frames :=
  lookupWithin heap name (id + 1) id fs

end Frames
end Clearance
