/-
# Built-in functions of the global object
-/
import Clearance.Library.Array
import Clearance.Library.Number
import Clearance.Library.RegExp

namespace Clearance.Library

open Clearance.Action

/-- `eval`: runs a text in the calling activation; other values are returned as they are. -/
def evalValue : NativeFn := fun _ args => do
  match args with
  | [] => return .undefined
  | v :: _ =>
    match v.raw with
    | .string s => evalText s v.label
    | _ => return v

/-- `isNaN`. -/
def isNaN : RawFn := fun _ args => do return Raw.bool (← numberAt "isNaN" args 0).isNaN

/-- `isFinite`. -/
def isFinite : RawFn := fun _ args => do return Raw.bool (← numberAt "isFinite" args 0).isFinite

/-- The value of the digits at the start of a text, and whether there are any. -/
def leadingDigits (radix : Nat) : List Char → Float → Bool → Option Float
  | [], value, found => if found then some value else none
  | c :: cs, value, found =>
    let digit := if c.isDigit || ('a' ≤ c && c ≤ 'z') then (Decimal.radixValue? c).getD radix
      else radix
    if digit < radix then
      leadingDigits radix cs (value * Decimal.ofNat radix + Decimal.ofNat digit) true
    else if found then some value else none

/-- The integer at the start of a text in a radix. Without a radix it is ten, or sixteen after
the usual mark. -/
def parseInteger (s : String) (radix : Float) : Float :=
  let cs := Text.trimList Text.isBlank s.toList
  let (negative, cs) := Decimal.takeSign cs
  let r := toIndex radix
  let (r, cs) : Int × List Char := match cs with
    | '0' :: x :: rest =>
      if (r = 0 ∨ r = 16) ∧ (x = 'x' ∨ x = 'X') then (16, rest) else (r, cs)
    | _ => (r, cs)
  let r := if r = 0 then 10 else r
  if r < 2 || r > 36 then nan
  else match leadingDigits r.toNat (cs.map Text.toLower) 0.0 false with
    | some x => if negative then -1.0 * x else x
    | none => nan

/-- `parseInt`. -/
def parseInt : RawFn := fun _ args => do
  let s ← textAt "parseInt" args 0
  let r ← numberAt "parseInt" args 1
  return Raw.number (parseInteger s r)

/-- The exponent part at the start of a text, if there is a complete one. -/
def leadingExponent : List Char → List Char
  | c :: cs =>
    if c = 'e' ∨ c = 'E' then
      let sign := cs.takeWhile fun d => d == '+' || d == '-'
      let digits := (cs.drop sign.length).takeWhile Char.isDigit
      if sign.length ≤ 1 ∧ digits ≠ [] then c :: sign ++ digits else []
    else []
  | [] => []

/-- The numeral without a sign at the start of a text. -/
def leadingUnsigned (cs : List Char) : List Char :=
  let infinity := "Infinity".toList
  if infinity.isPrefixOf cs then infinity
  else
    let whole := cs.takeWhile Char.isDigit
    let rest := cs.drop whole.length
    let fraction := match rest with
      | '.' :: more => '.' :: more.takeWhile Char.isDigit
      | _ => []
    if whole = [] ∧ fraction.length ≤ 1 then []
    else whole ++ fraction ++ leadingExponent (rest.drop fraction.length)

/-- The number at the start of a text. -/
def parseNumber (s : String) : Float :=
  let cs := Text.trimList Text.isBlank s.toList
  let sign := match cs with
    | '+' :: _ => ['+']
    | '-' :: _ => ['-']
    | _ => []
  match leadingUnsigned (cs.drop sign.length) with
  | [] => nan
  | digits => Decimal.ofText (String.ofList (sign ++ digits))

/-- `parseFloat`. -/
def parseFloat : RawFn := fun _ args => do
  return Raw.number (parseNumber (← textAt "parseFloat" args 0))

/-- Shows values one after the other. -/
def shownAll (args : List Value) : Action (List String) := showEach inspect args

/-- Adds a piece to what has been printed. -/
def emitText (s : String) : Action Unit := revise fun st => { st with printed := s :: st.printed }

/-- `print`: shows its arguments on a line. -/
def print : NativeFn := fun _ args => do
  let parts ← shownAll args
  emitText (" ".intercalate parts ++ "\n")
  return .undefined

/-- The name and version of the program. -/
def versionText : String := "flowjs 0.1.0-dev"

/-- `quit`: ends the session with a code. -/
def quit : NativeFn := fun _ args => do
  match args with
  | [] => fail (.quit 0)
  | v :: _ =>
    let w ← look fun s => s.heap.word v.raw
    fail (.quit w.toInt32.toInt)

/-- Calls a function for the host. -/
def hostCall (fn : Value) (this : Value) (args : List Value) : Action Value :=
  forHost do
    match fn.raw.callable? with
    | none => typeError ((← inspect fn.raw) ++ " is not a function")
    | some f => call f (if this.raw.isAbsent then .undefined else this) args

/-- `load`: runs the text of a file in the calling activation. The text carries the label of
the path. -/
def load : NativeFn := fun _ args => do
  match args with
  | [] => typeError "load requires a file name"
  | v :: _ =>
    let path ← stringOf v.raw
    match (← readFile path).read path with
    | .error reason => fail (.fault "Error" ("load " ++ path ++ ": " ++ reason))
    | .ok s =>
      let eval ← getProperty ⟨(← realm).global, .plain⟩ "eval"
      hostCall eval .undefined [(Raw.string s).labeled v.label]

/-- What each built-in function does. -/
def run : Builtin → NativeFn
  | .object => fun _ args => newObject args
  | .keys => lift keysOf
  | .getPrototypeOf => lift prototypeOf
  | .objectToString => lift classText
  | .objectValueOf => fun this _ => return this
  | .hasOwnProperty => lift hasOwnNamed
  | .propertyIsEnumerable => lift isShown
  | .function => fun _ args => newFunctionFrom args
  | .call => callWith
  | .apply => applyTo
  | .functionToString => lift functionSource
  | .error name => fun _ args => newError name args
  | .errorToString => lift errorSource
  | .array => fun _ args => arrayOf args
  | .isArray => lift isArray
  | .arrayMethod m => arrayMethod m
  | .string => lift toText
  | .newString => fun _ args => newText args
  | .fromCharCode => lift fromCharCode
  | .stringMethod m => lift (stringMethod m)
  | .matchPattern => lift matchAll
  | .searchPattern => lift search
  | .replacePattern => replace
  | .number => lift toNumber
  | .newNumber => fun _ args => newNumber args
  | .numberToString => lift numberText
  | .toFixed => lift toFixed
  | .numberValueOf => lift numberValue
  | .boolean => lift toBoolean
  | .newBoolean => fun _ args => newBoolean args
  | .booleanValueOf => lift booleanValue
  | .booleanToString => lift booleanText
  | .math f => lift (math f)
  | .pow => lift pow
  | .atan2 => lift atan2
  | .random => lift random
  | .max => lift maximum
  | .min => lift minimum
  | .regexp => fun _ args => regExpFrom args
  | .exec => lift exec
  | .test => lift test
  | .regexpToString => lift regExpSource
  | .eval => evalValue
  | .isNaN => lift isNaN
  | .isFinite => lift isFinite
  | .parseInt => lift parseInt
  | .parseFloat => lift parseFloat
  | .print => print
  | .version => lift fun _ _ => return Raw.string versionText
  | .quit => quit
  | .load => load

end Clearance.Library
