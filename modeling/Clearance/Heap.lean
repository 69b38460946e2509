/-
# The heap

Objects are numbered in the order of their allocation. The prototype of an object is always
allocated before it, so a walk along prototypes goes to smaller and smaller numbers.
-/
import Clearance.Object

namespace Clearance

/-- All objects, by number. -/
abbrev Heap := Array Object

namespace Heap

/-- The object of a number. -/
def get (h : Heap) (id : Nat) : Object := h.getD id default

/-- Adds an object; its number. -/
def add (h : Heap) (o : Object) : Nat × Heap := (h.size, h.push o)

/-- Changes an object. -/
def update (h : Heap) (id : Nat) (f : Object → Object) : Heap := h.modify id f

/-- The objects from `id` along the prototypes. Every prototype has a smaller number; a link
that does not lead down ends the walk. -/
def chainWithin (h : Heap) : Nat → Nat → List Nat
  | 0, _ => []
  | fuel + 1, id =>
    match (h.get id).proto with
    | some p => if p < id then id :: chainWithin h fuel p else [id]
    | none => [id]

/-- The object and its prototypes, nearest first. -/
def chain (h : Heap) (id : Nat) : List Nat := chainWithin h (id + 1) id

/-- The first property of a name along the prototypes, and the object that owns it. The fuel
bounds the length of the chain. -/
def findWithin (h : Heap) (name : String) : Nat → Nat → Option (Nat × Property)
  | 0, _ => none
  | fuel + 1, id =>
    let o := h.get id
    match o.own? name with
    | some p => some (id, p)
    | none =>
      match o.proto with
      | some q => if q < id then findWithin h name fuel q else none
      | none => none

/-- The first property of a name along the prototypes, and the object that owns it. -/
def find? (h : Heap) (id : Nat) (name : String) : Option (Nat × Property) :=
  findWithin h name (id + 1) id

/-- A property of the name is present along the prototypes. -/
def has (h : Heap) (id : Nat) (name : String) : Bool := (h.find? id name).isSome

/-- The names an object lists by itself: the positions of a string wrapper, then its
properties; each with the mark whether it is shown. -/
def ownListing (o : Object) : List (String × Bool) :=
  let positions := match o.text? with
    | some s => (List.range s.length).map fun i => (indexName i, true)
    | none => []
  positions ++ o.slots.map fun slot => (slot.1, !slot.2.hidden)

/-- Lists the shown names, each once; a name met before is skipped even if it was hidden. -/
def listShown : List String → List (String × Bool) → List String
  | _, [] => []
  | seen, (name, shown) :: rest =>
    if seen.contains name then listShown seen rest
    else if shown then name :: listShown (name :: seen) rest
    else listShown (name :: seen) rest

/-- The enumerable names of an object and its prototypes, own names first. -/
def enumerable (h : Heap) (id : Nat) : List String :=
  listShown [] ((h.chain id).flatMap fun i => ownListing (h.get i))

/-- An array of the given elements; an absent element is a hole. -/
def arrayOf (proto : Option Nat) (partition : Label) (elements : List Value) : Object :=
  let length : Property :=
    { Property.hiddenData (Raw.ofNat elements.length) with permanent := true }
  let slots := elements.zipIdx.filterMap fun (v, i) =>
    if v.raw.isAbsent && !v.isLabeled then none else some (indexName i, Property.data v)
  { Object.blank "Array" proto partition with slots := ("length", length) :: slots }

/-- The length an array records. -/
def arrayLength (o : Object) : Float :=
  match Slots.find? "length" o.slots with
  | some p => match p.value.raw with
    | .number n => n
    | _ => 0.0
  | none => 0.0

/-- Sets the recorded length of an array, if it records one. -/
def recordLength (o : Object) (v : Value) : Object :=
  match Slots.find? "length" o.slots with
  | some p => o.define "length" { p with value := v }
  | none => o

/-- Removes the indices of an array from `length` on, permanent ones excepted. -/
def dropFrom (o : Object) (length : Nat) : Object :=
  o.keys.foldl (fun o name =>
    match arrayIndex? name with
    | some i => if i ≥ length then (o.delete name).2 else o
    | none => o) o

/-- An array cut or stretched to a length, which is recorded with a label. -/
def resize (o : Object) (length : Nat) (k : Label) : Object :=
  recordLength (dropFrom o length) ((Raw.ofNat length).labeled k)

/-- An array can count a new index only if it records a length. Nothing else counts its names. -/
def counts (o : Object) (name : String) : Bool :=
  o.cls != "Array" || (arrayIndex? name).isNone || (Slots.find? "length" o.slots).isSome

/-- An object with an own data property added or replaced. An array grows to hold a new index. -/
def extend (o : Object) (name : String) (v : Value) : Object :=
  let o := o.define name (.data v)
  if o.cls = "Array" then
    match arrayIndex? name with
    | some i =>
      if Decimal.ofNat i >= arrayLength o then recordLength o (Raw.ofNat (i + 1)) else o
    | none => o
  else o

end Heap
end Clearance
