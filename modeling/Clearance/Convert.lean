/-
# Conversions without calls

The conversions of raw values that run no script: to a truth value, a number, a text, a word,
and the comparison of values of the same kind. Conversions of objects that call their methods
are actions, in `Clearance.Access`.
-/
import Clearance.Decimal.Layout
import Clearance.Decimal.Numeral
import Clearance.Heap

namespace Clearance

/-- Not a number. -/
def nan : Float := 0.0 / 0.0

/-- The truth value of a raw value. -/
def Raw.truth : Raw → Bool
  | .absent | .undefined | .null => false
  | .bool b => b
  | .number x => !(x == 0.0 || x.isNaN)
  | .string s => s != ""
  | .object _ => true

/-- The kind of a raw value as scripts see it. -/
def Raw.typeName : Raw → String
  | .absent | .undefined => "undefined"
  | .null => "object"
  | .bool _ => "boolean"
  | .number _ => "number"
  | .string _ => "string"
  | .object r =>
    match r.face with
    | .closure | .native => "function"
    | .plain | .host => "object"

/-- Identity of raw values: numbers and texts by value, objects by reference. -/
def Raw.same : Raw → Raw → Bool
  | .absent, .absent | .undefined, .undefined | .null, .null => true
  | .bool a, .bool b => a == b
  | .number x, .number y => x == y
  | .string s, .string t => s == t
  | .object r, .object r' => r == r'
  | _, _ => false

namespace Heap

/-- The number of a raw value. A wrapper has the number of what it wraps; other objects have
none. The fuel bounds the nesting of wrappers. -/
def numberWithin (h : Heap) : Nat → Raw → Float
  | 0, _ => nan
  | fuel + 1, v =>
    match v with
    | .absent | .undefined => nan
    | .null => 0.0
    | .bool b => if b then 1.0 else 0.0
    | .number x => x
    | .string s => Decimal.ofText s
    | .object r =>
      match (h.get r.id).primitive with
      | some p => numberWithin h fuel p.raw
      | none => nan

/-- The number of a raw value, without calling methods. -/
def number (h : Heap) (v : Raw) : Float := numberWithin h (h.size + 1) v

/-- The text of a function: its source, or a mark that it has none. -/
def functionText (o : Object) : String :=
  match o.behaviour with
  | .closure fn _ =>
    if fn.source = "" then "function " ++ fn.name ++ "() \x7b [code] \x7d" else fn.source
  | .native name _ _ _ => "function " ++ name ++ "() \x7b [native code] \x7d"
  | _ => ""

/-- The text of a raw value. A wrapper has the text of what it wraps; other objects show their
class. The fuel bounds the nesting of wrappers. -/
def textWithin (h : Heap) : Nat → Raw → String
  | 0, _ => ""
  | fuel + 1, v =>
    match v with
    | .absent | .undefined => "undefined"
    | .null => "null"
    | .bool b => if b then "true" else "false"
    | .number x => Decimal.text x
    | .string s => s
    | .object r =>
      let o := h.get r.id
      match r.face with
      | .closure | .native => functionText o
      | .plain | .host =>
        match o.primitive with
        | some p => textWithin h fuel p.raw
        | none => "[object " ++ o.cls ++ "]"

/-- The text of a raw value, without calling methods. -/
def text (h : Heap) (v : Raw) : String := textWithin h (h.size + 1) v

/-- The unsigned word of a raw value. -/
def word (h : Heap) (v : Raw) : UInt32 := Decimal.toWord (h.number v)

/-- The function can be constructed from. -/
def isConstructor (h : Heap) (v : Raw) : Bool :=
  match v with
  | .object r =>
    match r.face, (h.get r.id).behaviour with
    | .closure, _ | .host, _ => true
    | .native, .native _ _ _ ctor => ctor.isSome
    | _, _ => false
  | _ => false

end Heap
end Clearance
