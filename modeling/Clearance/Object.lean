/-
# Objects

An object is a list of named properties in insertion order, with a class, a prototype and the
partition it was allocated in. A property holds a value, which may carry a label, or a getter
and a setter.
-/
import Clearance.Library.Name
import Clearance.Pattern.Code
import Clearance.Script.Tree
import Clearance.Value

namespace Clearance

/-- One named slot of an object. -/
structure Property where
  /-- The value of a data property. -/
  value : Value
  /-- The getter of an accessor, absent if there is none. -/
  getter : Raw
  /-- The setter of an accessor, absent if there is none. -/
  setter : Raw
  /-- The property is skipped by enumerations. -/
  hidden : Bool
  /-- Assignments are ignored. -/
  readOnly : Bool
  /-- The property cannot be deleted. -/
  permanent : Bool

namespace Property

/-- An ordinary data property. -/
def data (v : Value) : Property := ⟨v, .absent, .absent, false, false, false⟩

/-- A data property that enumerations skip. -/
def hiddenData (v : Value) : Property := { data v with hidden := true }

/-- A hidden constant. -/
def constant (v : Value) : Property := ⟨v, .absent, .absent, true, true, true⟩

/-- An accessor without getter and setter, to be completed. -/
def noAccessor : Property := ⟨.absent, .absent, .absent, false, false, false⟩

/-- A property with a getter or a setter. -/
def isAccessor (p : Property) : Bool := !p.getter.isAbsent || !p.setter.isAbsent

end Property

/-- Properties by name, in the order of their insertion. -/
abbrev Slots := List (String × Property)

namespace Slots

/-- The property of a name. -/
def find? (name : String) : Slots → Option Property
  | [] => none
  | (n, p) :: rest => if n = name then some p else find? name rest

/-- Replaces the property of a name in its place, or appends a new one. -/
def put (name : String) (p : Property) : Slots → Slots
  | [] => [(name, p)]
  | (n, q) :: rest => if n = name then (n, p) :: rest else (n, q) :: put name p rest

/-- Removes the property of a name. -/
def erase (name : String) : Slots → Slots
  | [] => []
  | (n, q) :: rest => if n = name then erase name rest else (n, q) :: erase name rest

/-- The names, in order. -/
def names (s : Slots) : List String := s.map Prod.fst

end Slots

/-- A function that scripts see but do not define. -/
inductive Native where
  | builtin (b : Builtin)
  /-- A function of the host, by its number. -/
  | host (n : Nat)
deriving DecidableEq, Repr

/-- What an object does when it is called or constructed from. -/
inductive Behaviour where
  | none
  /-- A function literal and the frame it was created in. -/
  | closure (fn : Script.Function Script.Span) (scope : Nat)
  | native (name : String) (arity : Nat) (fn ctor : Option Native)
  /-- An object of the host, by its number. -/
  | host (n : Nat)

/-- An object of the heap. -/
structure Object where
  cls : String
  /-- The prototype, an object allocated earlier. -/
  proto : Option Nat
  /-- The classification of the store the object was allocated in. -/
  partition : Label
  /-- The wrapped value of a wrapper object. -/
  primitive : Option Value
  /-- The machine of a pattern object. -/
  pattern : Option Pattern.Code
  behaviour : Behaviour
  slots : Slots

namespace Object

/-- An object without properties. -/
def blank (cls : String) (proto : Option Nat) (partition : Label) : Object :=
  ⟨cls, proto, partition, none, none, .none, []⟩

instance : Inhabited Object := ⟨blank "Object" none .none⟩

/-- The wrapped text of a string wrapper. -/
def text? (o : Object) : Option String :=
  match o.primitive with
  | some v => if v.isLabeled then none else match v.raw with
    | .string s => some s
    | _ => none
  | none => none

/-- Installs a property, replacing one of the same name. -/
def define (o : Object) (name : String) (p : Property) : Object :=
  { o with slots := o.slots.put name p }

/-- Assigns an ordinary data property, keeping the attributes of an existing one. -/
def set (o : Object) (name : String) (v : Value) : Object :=
  match Slots.find? name o.slots with
  | some p => if p.isAccessor then o.define name (.data v) else o.define name { p with value := v }
  | none => o.define name (.data v)

/-- Installs a data property that enumerations skip. -/
def setHidden (o : Object) (name : String) (v : Value) : Object := o.define name (.hiddenData v)

end Object

/-- The largest array index plus one. -/
def maxLength : Nat := Nat.pow 2 32 - 1

/-- The index that a name denotes: decimal digits without a superfluous zero, below the
maximal length. -/
def arrayIndex? (name : String) : Option Nat :=
  match name.toList with
  | [] => none
  | '0' :: _ :: _ => none
  | cs =>
    match Decimal.readDigits? 10 cs with
    | some n => if n < maxLength then some n else none
    | none => none

/-- The name of an index. -/
def indexName (n : Nat) : String := String.ofList (Nat.toDigits 10 n)

namespace Object

/-- An own property. A string wrapper has its length and its characters besides. -/
def own? (o : Object) (name : String) : Option Property :=
  match Slots.find? name o.slots with
  | some p => some p
  | none =>
    match o.text? with
    | none => none
    | some s =>
      if name = "length" then some (.constant (Raw.ofNat s.length))
      else match arrayIndex? name with
        | some i =>
          (s.toList[i]?).map fun c =>
            { Property.data (Raw.string c.toString) with readOnly := true, permanent := true }
        | none => none

/-- The object has a property of its own. -/
def hasOwn (o : Object) (name : String) : Bool := (o.own? name).isSome

/-- Deletes an own property. The result tells whether the name is gone. -/
def delete (o : Object) (name : String) : Bool × Object :=
  match Slots.find? name o.slots with
  | none => (!o.hasOwn name, o)
  | some p => if p.permanent then (false, o) else (true, { o with slots := o.slots.erase name })

/-- The names of the own properties, in insertion order. -/
def keys (o : Object) : List String := o.slots.names

end Object
end Clearance
