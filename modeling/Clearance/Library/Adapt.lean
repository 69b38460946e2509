/-
# Native functions

Helpers that built-in functions share. A lifted function works on raw values and its result
carries the join of the labels of the receiver and the arguments. An adapted function takes
arguments of given kinds; an argument that cannot be converted is an error that names the
function and the position.
-/
import Clearance.Eval.Code

namespace Clearance

open Clearance.Action

/-- A function that scripts call. -/
abbrev NativeFn := Value → List Value → Action Value

/-- A function on raw values. -/
abbrev RawFn := Raw → List Raw → Action Value

/-- A function on raw values as one on values: the result carries all labels. -/
def lift (f : RawFn) : NativeFn := fun this args => do
  let r ← f this.raw (args.map Value.raw)
  return r.wrap (Value.joinLabels (this :: args))

/-- An argument; a missing one is undefined. -/
def argAt (args : List Value) (i : Nat) : Value := args.getD i .undefined

/-- A raw argument; a missing one is undefined. -/
def rawAt (args : List Raw) (i : Nat) : Raw := args.getD i .undefined

/-- The receiver of a method that works on objects. -/
def thisObject (this : Value) (name : String) : Action Ref :=
  match this.raw with
  | .object o => return o
  | r => typeError (name ++ " called on " ++ r.typeName)

/-- The function given as an argument. -/
def callbackAt (args : List Value) (i : Nat) (name : String) : Action Ref := do
  let raw := (argAt args i).raw
  match raw.callable? with
  | some f => return f
  | none => typeError (name ++ ": " ++ (← inspect raw) ++ " is not a function")

/-- Calls a function at a program counter raised by a label, which the result carries. -/
def invokeAt (k : Label) (f : Ref) (this : Value) (args : List Value) : Action Value := do
  let r ← above k (call f this args)
  return r.wrap k

/-- Converts an argument of an adapted function. Every failure of the conversion becomes an
error that names the position, counted from one. -/
def converted {α : Type} (name : String) (position : Nat) (p : Action α) : Action α := do
  match ← attempt p with
  | .ok a => return a
  | .error f => typeError (name ++ s!": argument {position}: " ++ (← f.text))

/-- The result of an adapted function. A failure that is no error of the machine becomes
one. -/
def adaptedResult {α : Type} (name : String) (p : Action α) : Action α := do
  match ← attempt p with
  | .ok a => return a
  | .error (.fault n m) => fail (.fault n m)
  | .error f => typeError (name ++ ": " ++ (← f.text))

/-- The number at a position. -/
def numberAt (name : String) (args : List Raw) (i : Nat) : Action Float :=
  converted name (i + 1) (numberOf (rawAt args i))

/-- The text at a position. -/
def textAt (name : String) (args : List Raw) (i : Nat) : Action String :=
  converted name (i + 1) (stringOf (rawAt args i))

/-- Converts all arguments from a position on. -/
def convertFrom {α : Type} (name : String) (convert : Raw → Action α) :
    Nat → List Raw → Action (List α)
  | _, [] => return []
  | i, v :: vs => do
    let a ← converted name (i + 1) (convert v)
    return a :: (← convertFrom name convert (i + 1) vs)

/-- The numbers from a position on. -/
def numbersFrom (name : String) (args : List Raw) (i : Nat) : Action (List Float) :=
  convertFrom name numberOf i (args.drop i)

/-- The texts from a position on. -/
def textsFrom (name : String) (args : List Raw) (i : Nat) : Action (List String) :=
  convertFrom name stringOf i (args.drop i)

/-- The integer part of a number, kept within 32 bits; what is no number is zero. -/
def toIndex (x : Float) : Int :=
  if x.isNaN then 0
  else match Decimal.truncate? x with
    | some n => max (-2147483648) (min n 2147483647)
    | none => if x < 0.0 then -2147483648 else 2147483647

/-- An index argument that may be left out. -/
def optionalIndex (v : Raw) (fallback : Int) : Action Int := do
  if v.isUndefined then return fallback else return toIndex (← numberOf v)

/-- A number within bounds. -/
def clamp (n lo hi : Int) : Int := if n < lo then lo else if n > hi then hi else n

/-- A position argument that may be negative, counted from the end, within `[0, n]`. -/
def relativeIndex (v : Raw) (n : Nat) (fallback : Nat) : Action Nat := do
  if v.isUndefined then return fallback
  else
    let x ← numberOf v
    if x.isNaN then return 0
    else return match Decimal.truncate? x with
      | some i => if i < 0 then (n + i).toNat else min i.toNat n
      | none => if x < 0.0 then 0 else n

end Clearance
