/-
# Access to objects

Reading and writing properties, with getters and setters, and the conversions that call the
methods of objects. All of them see values with their labels and leave the labels to their
callers.
-/
import Clearance.Convert
import Clearance.Machine.Action

namespace Clearance

open Clearance.Action

/-- The place of a property, or of a name that is not bound anywhere. -/
structure Place where
  /-- The object, if there is one. -/
  base : Option Ref
  name : String
deriving DecidableEq, Repr

/-- Reads a property. A getter runs with the object as its receiver; what is missing reads as
undefined. -/
def getProperty (o : Ref) (name : String) : Action Value := do
  match ← look fun s => s.heap.find? o.id name with
  | none => return .undefined
  | some (_, p) =>
    if p.isAccessor then
      match p.getter.callable? with
      | some f => call f (Raw.object o) []
      | none => return .undefined
    else return p.value

/-- Sets the length of an array and removes what lies beyond it. -/
def setLength (o : Ref) (v : Value) : Action Unit := do
  let n ← look fun s => s.heap.number v.raw
  let length := (Decimal.toWord n).toNat
  if Decimal.ofNat length != n then rangeError "invalid array length"
  else change o.id (Heap.resize · length v.label)

/-- What the program says when it breaks down at something that is missing. -/
def missingText : String := "runtime error: invalid memory address or nil pointer dereference"

/-- Adds or replaces an own data property. An array grows to hold a new index; the program breaks
down at one that has lost its length. -/
def putOwn (o : Ref) (name : String) (v : Value) : Action Unit := do
  change o.id (Heap.extend · name v)
  insist missingText fun s => Heap.counts (s.heap.get o.id) name

/-- Assigns a property. A setter runs with the object as its receiver; a read-only property
ignores the assignment. -/
def putProperty (o : Ref) (name : String) (v : Value) : Action Unit := do
  match ← look fun s => s.heap.find? o.id name with
  | none => putOwn o name v
  | some (owner, p) =>
    if p.isAccessor then
      match p.setter.callable? with
      | some f => let _ ← call f (Raw.object o) [v]
      | none => return
    else if p.readOnly then return
    else
      let obj ← object o.id
      match owner == o.id, Slots.find? name obj.slots with
      | true, some own =>
        if obj.cls = "Array" ∧ name = "length" then setLength o v
        else change o.id (·.define name { own with value := v })
      | _, _ => putOwn o name v

/-- What is stored at a place, with its label. -/
def Place.cell (p : Place) : Action Value :=
  match p.base with
  | some o => getProperty o p.name
  | none => referenceError (p.name ++ " is not defined")

/-- What is stored at a place, without running getters. -/
def Place.peek (p : Place) : Action (Option Value) :=
  match p.base with
  | none => return none
  | some o => do
    match ← look fun s => s.heap.find? o.id p.name with
    | none => return none
    | some (_, q) => return some (if q.isAccessor then .undefined else q.value)

/-- The classification of the store that a place belongs to. -/
def Place.partition (p : Place) : Action Label :=
  match p.base with
  | none => return .none
  | some o => do return (← object o.id).partition

/-- Which method of an object is tried first when it is converted. -/
inductive Hint where
  | number
  | string
deriving DecidableEq, Repr

/-- The methods that convert an object, in order. -/
def Hint.methods : Hint → List String
  | .number => ["valueOf", "toString"]
  | .string => ["toString", "valueOf"]

/-- Calls the named methods until one gives a primitive. -/
def firstPrimitive (o : Ref) : List String → Action Raw
  | [] => typeError "cannot convert object to primitive value"
  | name :: rest => do
    match (← getProperty o name).raw.callable? with
    | none => firstPrimitive o rest
    | some f =>
      let r := (← call f (Raw.object o) []).raw
      if r.isPrimitive then return r else firstPrimitive o rest

/-- Converts an object to a primitive; a wrapper to what it wraps. Other values stay. -/
def toPrimitive (v : Raw) (hint : Hint) : Action Value :=
  match v with
  | .object o => do
    match (← object o.id).primitive with
    | some p => return p
    | none => return (← firstPrimitive o hint.methods : Raw)
  | _ => return v

/-- The number of any value. -/
def numberOf (v : Raw) : Action Float := do
  let p ← toPrimitive v .number
  look fun s => s.heap.number p.raw

/-- The text of any value. -/
def stringOf (v : Raw) : Action String := do
  let p ← toPrimitive v .string
  look fun s => s.heap.text p.raw

/-- The kinds that equality compares without conversion. -/
def Raw.sameKind : Raw → Raw → Bool
  | .undefined, .undefined | .null, .null => true
  | .bool _, .bool _ | .number _, .number _ | .string _, .string _ | .object _, .object _ => true
  | _, _ => false

/-- Equality of primitives of different kinds. -/
def Heap.looselyEqual (h : Heap) (a b : Raw) : Bool :=
  if a.sameKind b then a.same b
  else if a.isNullish || b.isNullish then a.isNullish && b.isNullish
  else h.number a == h.number b

/-- Equality up to conversion. The fuel bounds the nesting of wrapped objects. -/
def looseEqualsWithin : Nat → Raw → Raw → Action Bool
  | 0, _, _ => return false
  | fuel + 1, a, b =>
    if a.sameKind b then return a.same b
    else if a.isNullish || b.isNullish then return a.isNullish && b.isNullish
    else match a, b with
      | .bool x, .object _ => do
        let p ← toPrimitive b .number
        looseEqualsWithin fuel (.number (if x then 1.0 else 0.0)) p.raw
      | .object _, _ => do
        let p ← toPrimitive a .number
        looseEqualsWithin fuel p.raw b
      | _, .object _ => do
        let p ← toPrimitive b .number
        looseEqualsWithin fuel a p.raw
      | _, _ => look fun s => s.heap.looselyEqual a b

/-- Equality up to conversion. -/
def looseEquals (a b : Raw) : Action Bool := do
  looseEqualsWithin ((← look fun s => s.heap.size) + 4) a b

/-- The length of an array-like object. -/
def lengthOf (o : Ref) : Action Nat := do
  let v ← getProperty o "length"
  return (← look fun s => s.heap.word v.raw).toNat

/-- Reads the elements from index `i` on, `n` of them. -/
def elementsFrom (o : Ref) (i n : Nat) : Action (List Value) :=
  loop (i, []) fun (j, acc) => do
    if j < i + n then return .inl (j + 1, (← getProperty o (indexName j)) :: acc)
    else return .inr acc.reverse

/-- The elements of an array-like object. -/
def elementsOf (o : Ref) : Action (List Value) := do elementsFrom o 0 (← lengthOf o)

/-- A value is an instance of a function when the function's prototype is among its
prototypes. -/
def ordinaryHasInstance (fn : Ref) (v : Value) : Action Bool :=
  match v.raw with
  | .object o => do
    match (← getProperty fn "prototype").raw with
    | .object p =>
      look fun s => (s.heap.chain o.id).tail.contains p.id
    | _ => typeError "'prototype' property is not an object"
  | _ => return false

end Clearance
