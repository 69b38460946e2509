/-
# Sessions

A session is a machine with a global object that persists from one script to the next. Hosts
set globals, define functions, evaluate scripts and call functions in it.
-/
import Clearance.Library.Install
import Clearance.Machine.Serve

namespace Clearance.Session

open Clearance.Action Library

/-- The state of a session in which nothing has run. -/
def fresh (o : Options) : State :=
  let (realm, heap) := (install o).run #[]
  let global : Ref := ⟨realm.global, .plain⟩
  let frame : Frame := ⟨global, ⟨realm.global + 1, .plain⟩, [], none, true⟩
  { control :=
      { kind := .global, pc := realm.lattice.bottom, scope := 0, this := Raw.object global,
        depth := 0, file := "", realm }
    store :=
      { heap, frames := #[frame], result := .undefined, printed := [], events := [], seed := 1,
        files := .unknown } }

/-- The global object. -/
def globalObject : Action Ref := do return ⟨(← realm).global, .plain⟩

/-- Reads a property of the global object. -/
def getGlobal (name : String) : Action Value := do getProperty (← globalObject) name

/-- Sets a global that enumerations show. -/
def setGlobal (name : String) (v : Value) : Action Unit := do
  let realm ← realm
  change realm.global (·.set name v)
  changeFrame realm.globalFrame (·.bind name .low)

/-- Defines a global function that enumerations skip. -/
def defineNative (name : String) (arity : Nat) (fn : Option Native) : Action Unit := do
  let realm ← realm
  let f ← allocate .native (nativeObject realm.functionProto name arity fn none)
  change realm.global (·.setHidden name (Raw.object f))

/-- Calls a function with the elements of an array-like object. -/
def applyFunction (fn this list : Value) : Action Value := do
  let args ← forHost (argumentList list.raw)
  hostCall fn this args

/-- Constructs from a function. -/
def construct (fn : Value) (args : List Value) : Action Value :=
  forHost do
    match fn.raw.object?, ← look fun s => s.heap.isConstructor fn.raw with
    | some f, true => invoke (.construct f args)
    | _, _ => typeError ((← inspect fn.raw) ++ " is not a constructor")

/-- Runs a script given as a tree. -/
def runTree (body : List (Script.Stmt Script.Span)) : Action Value := do
  runProgram body (← current).file

/-- What a session answers to a script. -/
inductive Answer where
  /-- The script has run; its value is shown unless it is undefined. -/
  | value (shown : Option String)
  /-- The script asked to end the session. -/
  | quit (code : Int)
  /-- The script violated the flow policy. -/
  | violation (text : String)
  /-- The script failed otherwise. -/
  | failure (text : String)
deriving DecidableEq, Repr

/-- Runs a script and answers. -/
def respond (p : Action Value) : Action Answer := do
  match ← attempt p with
  | .ok v =>
    match v.raw with
    | .undefined => return .value none
    | _ => return .value (some (← inspect v))
  | .error (.quit code) => return .quit code
  | .error (.violation v) => return .violation v.text
  | .error f => return .failure (← f.text)

/-- What has been printed and recorded, in order, and the state without it. -/
def drain (s : State) : String × List Event × State :=
  (String.join s.store.printed.reverse, s.store.events.reverse,
    { s with store := { s.store with printed := [], events := [] } })

end Clearance.Session
