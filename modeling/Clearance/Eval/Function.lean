/-
# Functions and frames

Allocation of closures, of binding stores and of the frames they form, and the binding of
names in the current frame.
-/
import Clearance.Flow

namespace Clearance

open Clearance.Action

/-- Allocates a closure over a frame, with a fresh prototype object. -/
def newFunction (fn : Script.Function Script.Span) (scope : Nat) (pc : Label) : Action Ref := do
  let realm ← realm
  let blank := Object.blank "Function" (some realm.functionProto) pc
  let closure := { blank with behaviour := .closure fn scope }
  let f ← allocate .closure (closure.define "length" (.constant (Raw.ofNat fn.params.length)))
  let proto := Object.blank "Object" (some realm.objectProto) pc
  let p ← allocate .plain (proto.setHidden "constructor" (Raw.object f))
  change f.id (·.define "prototype"
    { Property.hiddenData (Raw.object p) with permanent := true })
  return f

/-- Allocates an empty store for bindings. -/
def newStore (partition : Label) : Action Ref :=
  allocate .plain (Object.blank "Activation" none partition)

/-- Adds a frame; its number. -/
def addFrame (f : Frame) : Action Nat := .update fun s =>
  (s.frames.size, { s with frames := s.frames.push f })

/-- Opens an empty frame under another one. -/
def newFrame (parent : Nat) : Action Nat := do
  let lattice := (← realm).lattice
  let low ← newStore lattice.bottom
  let high ← newStore lattice.top
  addFrame ⟨low, high, [], some parent, false⟩

/-- Changes a frame. -/
def changeFrame (id : Nat) (f : Frame → Frame) : Action Unit :=
  revise fun s => { s with frames := s.frames.modify id f }

/-- Defines a property in a frame at a program counter. -/
def defineIn (scope : Nat) (pc : Label) (name : String) (p : Property) : Action Unit :=
  revise fun s =>
    let (_, frame, heap) := (s.frames.get scope).define s.heap name p pc
    { s with heap, frames := s.frames.setIfInBounds scope frame }

/-- Defines a property in the current frame, in the store of the current program counter. -/
def define (name : String) (p : Property) : Action Unit := do
  let c ← current
  defineIn c.scope c.pc name p

/-- The place that a name denotes in the current scope. -/
def placeOf (name : String) : Action Place := do
  let scope := (← current).scope
  .update fun s =>
    let (found, frames) := s.frames.lookup s.heap scope name
    let base := found.map fun (id, side) => (frames.get id).store side
    (⟨base, name⟩, { s with frames })

/-- The value of a function expression. A name of its own is bound in an extra frame. -/
def functionExpression (fn : Script.Function Script.Span) : Action Ref := do
  let c ← current
  if fn.form ≠ .expression ∨ fn.name = "" then newFunction fn c.scope c.pc
  else do
    let frame ← newFrame c.scope
    let f ← newFunction fn frame c.pc
    let side := Frame.sideAt c.pc
    let store ← look fun s => (s.frames.get frame).store side
    change store.id (·.define fn.name
      { Property.data (Raw.object f) with readOnly := true, permanent := true })
    changeFrame frame (·.bind fn.name side)
    return f

/-- The arguments of a call as an object. -/
def newArguments (f : Ref) (args : List Value) (pc : Label) : Action Ref := do
  let blank := Object.blank "Arguments" (some (← realm).objectProto) pc
  let listed := args.zipIdx.foldl (fun o (v, i) => o.set (indexName i) v) blank
  let counted := listed.define "length" (.hiddenData (Raw.ofNat args.length))
  allocate .plain (counted.define "callee" (.hiddenData (Raw.object f)))

/-- A binding of an activation, which cannot be deleted. -/
def permanentData (v : Value) : Property := { Property.data v with permanent := true }

/-- Opens the frame of a call: the store that matches the program counter binds `arguments`
and the parameters. -/
def activate (f : Ref) (fn : Script.Function Script.Span) (scope : Nat) (args : List Value)
    (pc : Label) : Action Nat := do
  let lattice := (← realm).lattice
  let act ← newStore (lattice.bottom.join pc)
  let (side, frame) ←
    if pc.isBottom then do
      let high ← newStore lattice.top
      pure (Side.low, (⟨act, high, [], some scope, false⟩ : Frame))
    else do
      let low ← newStore lattice.bottom
      pure (Side.high, (⟨low, act, [], some scope, false⟩ : Frame))
  let arguments ← newArguments f args pc
  let bindings := ("arguments", (Value.plain (.object arguments))) ::
    fn.params.zipIdx.map fun (p, i) => (p.name, args.getD i .undefined)
  change act.id fun o => bindings.foldl (fun o (name, v) => o.define name (permanentData v)) o
  addFrame (bindings.foldl (fun f (name, _) => f.bind name side) frame)

/-- Rejects a change of an object by the host under a program counter above its partition. -/
def guardWrite (o : Ref) (name : String) : Action Unit := do
  let pc ← pc
  let partition := (← object o.id).partition
  if partition.less pc then violate 0 name pc partition

/-- A wrapper of a primitive. -/
def newWrapper (cls : String) (proto : Nat) (primitive : Raw) : Action Ref := do
  let blank := Object.blank cls (some proto) (← pc)
  allocate .plain { blank with primitive := some primitive }

/-- An array of the given elements at the current program counter. -/
def newArray (elements : List Value) : Action Ref := do
  let realm ← realm
  allocate .plain (Heap.arrayOf (some realm.arrayProto) (← pc) elements)

/-- How a failed operation names its operand, if the expression has a path of names. -/
def path? : Script.Expr Script.Span → Option String
  | .ident id => some id.name
  | .member _ o p => some ((path? o).getD "expression" ++ "." ++ p.name)
  | _ => none

/-- How a failed operation names its operand. -/
def describe (path : Option String) (v : Raw) : Action String :=
  match path with
  | some p => return p
  | none => if v.isAbsent then return "expression" else inspect v

/-- The object of a value, for access to its properties; primitives are wrapped. -/
def toObject (path : Option String) (v : Raw) : Action Ref := do
  let realm ← realm
  match v with
  | .object o => return o
  | .bool _ => newWrapper "Boolean" realm.booleanProto v
  | .number _ => newWrapper "Number" realm.numberProto v
  | .string _ => newWrapper "String" realm.stringProto v
  | _ => typeError ((← describe path v) ++ " has no properties")

end Clearance
