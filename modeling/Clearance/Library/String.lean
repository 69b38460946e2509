/-
# Built-in functions: strings

Positions count characters. The receiver is converted to a text.
-/
import Clearance.Library.Adapt
import Clearance.Pattern.Search
import Clearance.Text.Position
import Clearance.Text.Search

namespace Clearance.Library

open Clearance.Action

/-- `String`: the text of a value. -/
def toText : RawFn := fun _ args => do
  match args with
  | [] => return Raw.string ""
  | v :: _ => return Raw.string (← stringOf v)

/-- `new String`. -/
def newText (args : List Value) : Action Value := do
  let s ← match args with
    | [] => pure ""
    | v :: _ => stringOf v.raw
  let o ← newWrapper "String" (← realm).stringProto (.string s)
  return (Raw.object o).labeled (argAt args 0).label

/-- The character of a code: its low sixteen bits; what is no character is replaced. -/
def charOfCode (x : Float) : Char :=
  let n := (Decimal.toWord x).toNat % 0x10000
  if 0xD800 ≤ n ∧ n ≤ 0xDFFF then '\uFFFD' else Char.ofNat n

/-- `String.fromCharCode`. -/
def fromCharCode : RawFn := fun _ args => do
  let codes ← numbersFrom "fromCharCode" args 0
  return Raw.string (String.ofList (codes.map charOfCode))

/-- The character at a position. -/
def charAt? (s : List Char) (x : Float) : Option Char :=
  let i := toIndex x
  if i < 0 then none else s[i.toNat]?

/-- The part of a text between two positions. -/
def between (s : List Char) (start stop : Nat) : String :=
  String.ofList ((s.drop start).take (stop - start))

/-- `substring`: the two positions are put in order. -/
def substring (s : List Char) (start stop : Raw) : Action Value := do
  let n : Int := s.length
  let a := clamp (← optionalIndex start 0) 0 n
  let b := clamp (← optionalIndex stop n) 0 n
  return Raw.string (between s (min a b).toNat (max a b).toNat)

/-- `substr`: a position, which may count from the end, and a length. -/
def substr (s : List Char) (start : Float) (length : Raw) : Action Value := do
  let n : Int := s.length
  let a := toIndex start
  let a := clamp (if a < 0 then a + n else a) 0 n
  let count := clamp (← optionalIndex length (n - a)) 0 (n - a)
  return Raw.string (between s a.toNat (a + count).toNat)

/-- `slice`: positions may count from the end. -/
def sliceText (s : List Char) (start stop : Raw) : Action Value := do
  let a ← relativeIndex start s.length 0
  let b ← relativeIndex stop s.length s.length
  return Raw.string (between s a b)

/-- The pieces of a text around the matches of a pattern. An empty match at the start cuts
nothing off, and neither does the end of the text after a match there. -/
def piecesFrom (s : List Char) (size : Nat) : List Pattern.Slots → Nat → Nat → List (List Char)
  | [], start, stop => if stop ≠ size then [Text.sliceBytes start size s] else []
  | m :: ms, start, _ =>
    let (a, b) := m.range
    if b ≠ 0 then Text.sliceBytes start a s :: piecesFrom s size ms b a
    else piecesFrom s size ms b a

/-- Splits a text at the matches of a pattern. -/
def splitByPattern (code : Pattern.Code) (s : List Char) : List (List Char) :=
  if s.isEmpty && code.text ≠ "" then [[]]
  else piecesFrom s (Text.byteSize s) (code.findAll none s) 0 0

/-- The text that separates the pieces, or the pattern. -/
inductive Separator where
  | whole
  | text (s : String)
  | pattern (code : Pattern.Code)

/-- The separator that a value denotes. -/
def separatorOf (v : Raw) : Action Separator := do
  match v with
  | .undefined => return .whole
  | .object o =>
    match (← object o.id).pattern with
    | some code => return .pattern code
    | none => return .text (← stringOf v)
  | _ => return .text (← plainText v)

/-- `split`. -/
def splitText (s : List Char) (separator limit : Raw) : Action Value := do
  let most ← if limit.isUndefined then pure none
    else do pure (some (← look fun st => st.heap.word limit).toNat)
  let pieces := match ← separatorOf separator with
    | .whole => [s]
    | .text t => Text.split t.toList s
    | .pattern code => splitByPattern code s
  let pieces := match most with
    | some n => pieces.take n
    | none => pieces
  return Raw.object (← newArray (pieces.map fun p => Raw.string (String.ofList p)))

/-- The methods of strings. The receiver counts as the first argument. -/
def stringMethod (m : StringFn) : RawFn := fun this rest => do
  let args := this :: rest
  match m with
  | .charAt =>
    let s ← textAt "charAt" args 0
    let x ← numberAt "charAt" args 1
    return Raw.string (match charAt? s.toList x with
      | some c => c.toString
      | none => "")
  | .charCodeAt =>
    let s ← textAt "charCodeAt" args 0
    let x ← numberAt "charCodeAt" args 1
    return match charAt? s.toList x with
      | some c => Raw.ofNat c.toNat
      | none => Raw.number nan
  | .indexOf =>
    let s ← textAt "indexOf" args 0
    let t ← textAt "indexOf" args 1
    let x ← numberAt "indexOf" args 2
    let start := (clamp (toIndex x) 0 s.length).toNat
    return match Text.indexOf? t.toList (s.toList.drop start) with
      | some i => Raw.ofNat (start + i)
      | none => Raw.number (-1.0)
  | .lastIndexOf =>
    let s ← textAt "lastIndexOf" args 0
    let t ← textAt "lastIndexOf" args 1
    return match Text.lastIndexOf? t.toList s.toList with
      | some i => Raw.ofNat i
      | none => Raw.number (-1.0)
  | .substring =>
    let s ← textAt "substring" args 0
    adaptedResult "substring" (substring s.toList (rawAt args 1) (rawAt args 2))
  | .substr =>
    let s ← textAt "substr" args 0
    let x ← numberAt "substr" args 1
    adaptedResult "substr" (substr s.toList x (rawAt args 2))
  | .slice =>
    let s ← textAt "slice" args 0
    adaptedResult "slice" (sliceText s.toList (rawAt args 1) (rawAt args 2))
  | .toUpperCase =>
    let s ← textAt "toUpperCase" args 0
    return Raw.string (s.map Text.toUpper)
  | .toLowerCase =>
    let s ← textAt "toLowerCase" args 0
    return Raw.string (s.map Text.toLower)
  | .trim =>
    let s ← textAt "trim" args 0
    return Raw.string (Text.trim s)
  | .concat =>
    let s ← textAt "concat" args 0
    let more ← textsFrom "concat" args 1
    return Raw.string (s ++ String.join more)
  | .toString =>
    return Raw.string (← textAt "toString" args 0)
  | .valueOf =>
    return Raw.string (← textAt "valueOf" args 0)
  | .split =>
    let s ← textAt "split" args 0
    adaptedResult "split" (splitText s.toList (rawAt args 1) (rawAt args 2))

end Clearance.Library
