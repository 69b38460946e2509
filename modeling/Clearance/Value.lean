/-
# Values

A raw value is a primitive or a reference to an object of the heap. A value is a raw value
with a label; the label `Label.none` means that it carries no classification of its own.
Labels at the bottom carry no information and are dropped, and labels never nest: labeling a
labeled value joins the labels.
-/
import Clearance.Lattice

namespace Clearance

/-- How an object is seen through a reference. The same object can be seen as a callable
function and, for instance as the prototype of another object, as a mere record. -/
inductive Face where
  /-- A record of properties. -/
  | plain
  /-- A function written in the script. -/
  | closure
  /-- A function provided by the machine or its host. -/
  | native
  /-- An object provided by the host: it can be constructed from, but not called. -/
  | host
deriving DecidableEq, Repr

/-- A reference to an object of the heap. -/
structure Ref where
  id : Nat
  face : Face
deriving DecidableEq, Repr

/-- Raw values. -/
inductive Raw where
  /-- No value at all. -/
  | absent
  | undefined
  | null
  | bool (b : Bool)
  | number (x : Float)
  | string (s : String)
  | object (r : Ref)

namespace Raw

instance : Inhabited Raw := ⟨.undefined⟩

/-- The undefined value. -/
def isUndefined : Raw → Bool
  | .undefined => true
  | _ => false

/-- Undefined and null. -/
def isNullish : Raw → Bool
  | .undefined | .null => true
  | _ => false

/-- No value at all. -/
def isAbsent : Raw → Bool
  | .absent => true
  | _ => false

/-- Neither absent nor an object. -/
def isPrimitive : Raw → Bool
  | .absent | .object _ => false
  | _ => true

/-- The object a raw value refers to. -/
def object? : Raw → Option Ref
  | .object r => some r
  | _ => none

/-- The function a raw value refers to, if it can be called. -/
def callable? : Raw → Option Ref
  | .object r =>
    match r.face with
    | .closure | .native => some r
    | _ => none
  | _ => none

/-- The function or host object a raw value refers to, if it knows its instances. -/
def constructor? : Raw → Option Ref
  | .object r =>
    match r.face with
    | .plain => none
    | _ => some r
  | _ => none

/-- A whole number as a raw value. -/
def ofNat (n : Nat) : Raw := .number (n.toUInt64.toFloat)

end Raw

/-- A raw value with its label. -/
structure Value where
  raw : Raw
  label : Label

namespace Value

/-- A value without a label. -/
def plain (r : Raw) : Value := ⟨r, .none⟩

instance : Coe Raw Value := ⟨plain⟩

instance : Inhabited Value := ⟨plain .undefined⟩

/-- Attaches a label. A label at the bottom is dropped; a value that has a label gets the join
of both. -/
def wrap (v : Value) (k : Label) : Value :=
  let joined := v.label.join k
  if Label.none.less joined then ⟨v.raw, joined⟩ else ⟨v.raw, .none⟩

/-- A value carries a label. -/
def isLabeled (v : Value) : Bool := Label.none.less v.label

/-- The undefined value without a label. -/
def undefined : Value := plain .undefined

/-- No value at all. -/
def absent : Value := plain .absent

/-- The unlabeled undefined value. -/
def isUndefined (v : Value) : Bool := !v.isLabeled && v.raw.isUndefined

/-- The join of the labels of a list of values. -/
def joinLabels (vs : List Value) : Label := vs.foldl (fun k v => k.join v.label) .none

@[simp] theorem plain_raw (r : Raw) : (plain r).raw = r := rfl

@[simp] theorem plain_label (r : Raw) : (plain r).label = .none := rfl

@[simp] theorem wrap_raw (v : Value) (k : Label) : (v.wrap k).raw = v.raw := by
  unfold wrap; simp only []; split <;> rfl

end Value

/-- A raw value with a label attached. -/
def Raw.labeled (r : Raw) (k : Label) : Value := (Value.plain r).wrap k

end Clearance
