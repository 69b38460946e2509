/-
# Source maps

A script that was made from other texts may end with a map that leads from places in it back
to places in those texts. The map is a document in the last line. Its segments are written as
differences, each a number in groups of five bits.

A segment covers the columns up to the next one of its line. Only columns in front of another
segment are covered: what stands behind the last segment of the map has no other place.
-/
import Clearance.Json
import Clearance.Link

namespace Clearance.Script

/-- One segment: a place in the script and what it was made from. -/
structure Segment where
  line : Int
  column : Int
  /-- The number of the text, from zero on. -/
  source : Int
  sourceLine : Int
  sourceColumn : Int
  /-- The number of the name that stood there; negative without one. -/
  name : Int
deriving DecidableEq, Repr

/-- A map: how many texts and names it knows, and its segments. -/
structure SourceMap where
  sources : Nat
  names : Nat
  segments : Array Segment

/-- Where a place leads. -/
inductive Route where
  /-- The map does not say. -/
  | unmapped
  | mapped (line column : Int)
  /-- The segment speaks of a text or a name that the map does not know. -/
  | broken
deriving DecidableEq, Repr

namespace SourceMap

/-- A state of reading segments. -/
structure Decoding where
  /-- The segments read so far, latest first. -/
  done : List Segment
  current : Segment
  /-- How many numbers of the current segment have been read, modulo five. -/
  field : Nat
  /-- The current segment has a name. -/
  named : Bool
  /-- The groups of an unfinished number, lowest first: their value and their bits. -/
  pending? : Option (Nat × Nat)

namespace Decoding

/-- The state before the first segment. -/
def start : Decoding := ⟨[], ⟨1, 0, 0, 1, 0, 0⟩, 0, false, none⟩

/-- Ends the current segment. -/
def push (d : Decoding) : Decoding :=
  let segment := if d.named then d.current else { d.current with name := -1 }
  { d with done := segment :: d.done, named := false, field := 0 }

/-- Adds a number to the next field of the current segment. -/
def add (d : Decoding) (n : Int) : Decoding :=
  let s := d.current
  let current := match d.field with
    | 0 => { s with column := s.column + n }
    | 1 => { s with source := s.source + n }
    | 2 => { s with sourceLine := s.sourceLine + n }
    | 3 => { s with sourceColumn := s.sourceColumn + n }
    | _ => { s with name := s.name + n }
  { d with current, field := (d.field + 1) % 5, named := d.named || d.field == 4, pending? := none }

/-- The number whose lowest bit is its sign. -/
def signed (n : Nat) : Int :=
  let n := Int.bmod n (Nat.pow 2 64)
  if n % 2 = 0 then n / 2 else -(n / 2)

/-- Takes one byte. -/
def step (d : Decoding) (c : Char) : Decoding :=
  match d.pending?, c with
  | none, ',' => d.push
  | none, ';' =>
    let d := d.push
    { d with current := { d.current with line := d.current.line + 1, column := 0 } }
  | groups, _ =>
    let (value, bits) := groups.getD (0, 0)
    let group := (Text.sixBits? c).getD 0
    let value := value + (group % 32) * Nat.pow 2 bits
    if group < 32 then d.add (signed value) else { d with pending? := some (value, bits + 5) }

end Decoding

/-- The segments written in a text. -/
def readSegments (text : String) : Except String (Array Segment) :=
  let d := (Text.encodeBytes text.toList).foldl (fun d b => d.step (Char.ofNat b)) Decoding.start
  match d.pending? with
  | some _ => .error "EOF"
  | none => .ok d.push.done.reverse.toArray

/-- The number of the first segment between `low` and `high` that is not in front of a place,
found by halving. -/
def search (m : SourceMap) (line column : Int) (low high : Nat) : Nat :=
  if low < high then
    let middle := (low + high) / 2
    let reached : Bool := match m.segments[middle]? with
      | some s => if s.line = line then s.column ≥ column else s.line ≥ line
      | none => true
    if reached then search m line column low middle
    else search m line column (middle + 1) high
  else low
termination_by high - low

/-- Where a place leads. -/
def route (m : SourceMap) (line column : Int) : Route :=
  let i := m.search line column 0 m.segments.size
  match m.segments[i]? with
  | none => .unmapped
  | some s =>
    let chosen := if s.line > line ∨ s.column > column then
        if i = 0 then none else m.segments[i - 1]?
      else some s
    match chosen with
    | none => .unmapped
    | some s =>
      if s.source ≥ m.sources ∨ s.name ≥ m.names then .broken
      else .mapped s.sourceLine s.sourceColumn

/-- The members of a map's document that count. -/
structure Header where
  version : Int
  root : String
  sources : Nat
  names : Nat
  mappings : String

/-- The word for a kind of value in messages. -/
def kindWord : Json.Value → String
  | .null => "null"
  | .bool _ => "bool"
  | .number _ => "number"
  | .string _ => "string"
  | .array _ => "array"
  | .object _ => "object"

/-- The wording for a member of the wrong type. -/
def typeFault (value member type : String) : String :=
  "json: cannot unmarshal " ++ value ++ " into Go struct field sourceMap." ++ member ++
    " of type " ++ type

/-- The whole number of 64 bits that a numeral denotes. -/
def wholeNumber? (s : String) : Option Int :=
  let (negative, ds) := Decimal.takeSign s.toList
  match Decimal.readDigits? 10 ds with
  | some n =>
    let v : Int := if negative then -n else n
    if -(2 : Int).pow 63 ≤ v ∧ v < (2 : Int).pow 63 then some v else none
  | none => none

mutual

/-- The first number in a value that is too large to hold. -/
def hugeNumber? : Json.Value → Option String
  | .number s => if ((Decimal.readNumeral? s.toList).getD 0).isInf then some s else none
  | .array vs => hugeNumberOfItems? vs
  | .object ms => hugeNumberOfMembers? ms
  | _ => none

/-- The first number in a list of values that is too large to hold. -/
def hugeNumberOfItems? : List Json.Value → Option String
  | [] => none
  | v :: vs => (hugeNumber? v).or (hugeNumberOfItems? vs)

/-- The first number in the members of a record that is too large to hold. -/
def hugeNumberOfMembers? : List (String × Json.Value) → Option String
  | [] => none
  | (_, v) :: ms => (hugeNumber? v).or (hugeNumberOfMembers? ms)

end

/-- The name of a member as it counts: letters of both cases are the same. -/
def memberName (key : String) : String :=
  String.ofList (key.toList.map fun c => if c == '\u017f' then 's' else c.toLower)

namespace Header

/-- Takes a member into account: the header with it, and what is wrong with its type. -/
def take (h : Header) (key : String) (v : Json.Value) : Header × Option String :=
  let text := fun (member : String) (set : String → Header) => match v with
    | .string s => (set s, none)
    | .null => (h, none)
    | _ => (h, some (typeFault (kindWord v) member "string"))
  match memberName key with
  | "version" => match v with
    | .number s => match wholeNumber? s with
      | some n => ({ h with version := n }, none)
      | none => (h, some (typeFault ("number " ++ s) "version" "int"))
    | .null => (h, none)
    | _ => (h, some (typeFault (kindWord v) "version" "int"))
  | "file" => text "file" fun _ => h
  | "sourceroot" => text "sourceRoot" fun s => { h with root := s }
  | "mappings" => text "mappings" fun s => { h with mappings := s }
  | "sources" => match v with
    | .array vs =>
      let wrong := vs.find? fun
        | .string _ | .null => false
        | _ => true
      ({ h with sources := vs.length },
        wrong.map fun w => typeFault (kindWord w) "sources" "string")
    | .null => ({ h with sources := 0 }, none)
    | _ => (h, some (typeFault (kindWord v) "sources" "[]string"))
  | "names" => match v with
    | .array vs =>
      ({ h with names := vs.length },
        (hugeNumberOfItems? vs).map fun s => typeFault ("number " ++ s) "names" "float64")
    | .null => ({ h with names := 0 }, none)
    | _ => (h, some (typeFault (kindWord v) "names" "[]interface \x7b\x7d"))
  | _ => (h, none)

/-- The header of a document, or the first member of the wrong type. -/
def ofValue : Json.Value → Except String Header
  | .object ms =>
    let (h, fault) := ms.foldl (fun (h, fault) (key, v) =>
      let (h, f) := Header.take h key v
      (h, Option.or fault f)) (⟨0, "", 0, 0, ""⟩, none)
    match fault with
    | some f => .error f
    | none => .ok h
  | .null => .ok ⟨0, "", 0, 0, ""⟩
  | v => .error ("json: cannot unmarshal " ++ kindWord v ++
      " into Go value of type sourcemap.sourceMap")

end Header

/-- The map of a document, for a script of the given name. Only one version of the format is
known, and the root of the texts, or else the name of the script, must be a link. -/
def ofDocument (file : String) (bytes : List Nat) : Except String SourceMap := do
  let value ← match Json.read (bytes.map Char.ofNat) with
    | .ok v => pure v
    | .error e => throw e.message
  let h ← Header.ofValue value
  if h.version ≠ 3 then
    throw s!"sourcemap: got version={h.version}, but only 3rd version is supported"
  if let some m := Link.fault? (if h.root = "" then file else h.root) then throw m
  return ⟨h.sources, h.names, ← readSegments h.mappings⟩

/-- How the line with a map begins. -/
def mark : String := "//# sourceMappingURL=data:application/json"

/-- The map in the last line of a script. A line that cannot be decoded holds none. -/
def ofScript (file text : String) : Except String (Option SourceMap) :=
  let last := (text.toList.reverse.takeWhile (· != '\n')).reverse
  if !mark.toList.isPrefixOf last then .ok none
  else match last.dropWhile (· != ',') with
    | [] => .ok none
    | _ :: code =>
      match Text.decodeSixBits? code with
      | none => .ok none
      | some bytes => some <$> ofDocument file bytes

end SourceMap
end Clearance.Script
