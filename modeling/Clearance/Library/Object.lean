/-
# Built-in functions: objects, functions and errors
-/
import Clearance.Library.Adapt

namespace Clearance.Library

open Clearance.Action

/-- `Object`: the object of a value, or a new one. -/
def newObject (args : List Value) : Action Value := do
  let v := argAt args 0
  if v.raw.isNullish then
    let blank := Object.blank "Object" (some (← realm).objectProto) (← pc)
    return Raw.object (← allocate .plain blank)
  else return (Raw.object (← toObject none v.raw)).labeled v.label

/-- `Object.keys`: the own names that enumerations show. -/
def keysOf : RawFn := fun _ args => do
  match rawAt args 0 with
  | .object o =>
    let shown := ((← object o.id).slots.filter fun slot => !slot.2.hidden).map Prod.fst
    return Raw.object (← newArray (shown.map fun name => Raw.string name))
  | _ => typeError "Object.keys called on non-object"

/-- `Object.getPrototypeOf`. -/
def prototypeOf : RawFn := fun _ args => do
  match rawAt args 0 with
  | .object o =>
    match (← object o.id).proto with
    | some p => return Raw.object ⟨p, .plain⟩
    | none => return Raw.null
  | _ => typeError "Object.getPrototypeOf called on non-object"

/-- `Object.prototype.toString`. -/
def classText : RawFn := fun this _ => do
  match this with
  | .object o => return Raw.string ("[object " ++ (← object o.id).cls ++ "]")
  | r => return Raw.string ("[object " ++ r.typeName ++ "]")

/-- An own property that a receiver and a name denote. -/
def ownNamed (this : Raw) (args : List Raw) : Action (Option Property) := do
  let o ← toObject none this
  let name ← stringOf (rawAt args 0)
  return (← object o.id).own? name

/-- `Object.prototype.hasOwnProperty`. -/
def hasOwnNamed : RawFn := fun this args => do
  return Raw.bool (← ownNamed this args).isSome

/-- `Object.prototype.propertyIsEnumerable`. -/
def isShown : RawFn := fun this args => do
  match ← ownNamed this args with
  | some p => return Raw.bool (!p.hidden)
  | none => return Raw.bool false

/-- The texts of values, in order. -/
def textsOf : List Value → Action (List String)
  | [] => return []
  | v :: vs => do
    let s ← stringOf v.raw
    return s :: (← textsOf vs)

/-- `Function`: a function from source texts. -/
def newFunctionFrom (args : List Value) : Action Value := do
  functionFromTexts (← textsOf args) (Value.joinLabels args)

/-- The function a method of functions is called on. -/
def thisFunction (this : Raw) (name : String) : Action Ref :=
  match this.callable? with
  | some f => return f
  | none => typeError ("Function.prototype." ++ name ++ " called on " ++ this.typeName)

/-- `Function.prototype.call`. -/
def callWith : NativeFn := fun this args => do
  let f ← thisFunction this.raw "call"
  invokeAt this.label f (argAt args 0) (args.drop 1)

/-- The elements of a list of arguments. -/
def argumentList (v : Raw) : Action (List Value) :=
  match v with
  | .absent | .undefined | .null => return []
  | .object o => elementsOf o
  | _ => typeError "second argument to apply must be an array"

/-- `Function.prototype.apply`. -/
def applyTo : NativeFn := fun this args => do
  let f ← thisFunction this.raw "apply"
  let list ← argumentList (argAt args 1).raw
  invokeAt (this.label.join (argAt args 1).label) f (argAt args 0) list

/-- `Function.prototype.toString`. -/
def functionSource : RawFn := fun this _ => do
  let _ ← thisFunction this "toString"
  return Raw.string (← plainText this)

/-- An error constructor. A message that is not undefined is kept with its label. -/
def newError (name : String) (args : List Value) : Action Value := do
  let proto := (← realm).errorProtos.lookup name
  let blank := Object.blank "Error" proto (← pc)
  let message := argAt args 0
  if message.isUndefined then return Raw.object (← allocate .plain blank)
  else
    let text ← stringOf message.raw
    let error := blank.setHidden "message" ((Raw.string text).labeled message.label)
    return Raw.object (← allocate .plain error)

/-- `Error.prototype.toString`. -/
def errorSource : RawFn := fun this _ => do
  match this with
  | .object o => return Raw.string (← errorText o)
  | r => typeError ("Error.prototype.toString called on " ++ r.typeName)

end Clearance.Library
