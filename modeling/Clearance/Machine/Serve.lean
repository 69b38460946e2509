/-
# The machine

Serves the requests to functions: closures run their body, built-in functions act, functions
of the host are looked up in a table. The machine ties the knot: what a function asks for is
served by the machine itself, with one level less to go.
-/
import Clearance.Library.Global
import Clearance.Machine.Action

namespace Clearance

open Clearance.Action

/-- The functions and objects that a host provides, by number. -/
structure Hosts where
  call : Nat → NativeFn
  construct : Nat → List Value → Action Value
  hasInstance : Nat → Value → Action Bool

/-- A host that provides nothing. -/
def Hosts.none : Hosts :=
  ⟨fun _ _ _ => fail (.host "no such function"), fun _ _ => fail (.host "no such object"),
    fun _ _ => fail (.host "no such object")⟩

/-- What a native function does. -/
def Native.run (hosts : Hosts) : Native → NativeFn
  | .builtin b => Library.run b
  | .host n => hosts.call n

/-- Calls a function. -/
def performCall (hosts : Hosts) (f : Ref) (this : Value) (args : List Value) : Action Value := do
  match (← object f.id).behaviour with
  | .closure fn scope => callClosure f fn scope this args
  | .native name _ fn _ =>
    match fn with
    | some n => n.run hosts this args
    | none => typeError (name ++ " is not a function")
  | _ => fail (.internal "call of an object")

/-- Constructs from a function. -/
def performConstruct (hosts : Hosts) (f : Ref) (args : List Value) : Action Value := do
  match (← object f.id).behaviour with
  | .closure fn scope => constructClosure f fn scope args
  | .native name _ _ ctor =>
    match ctor with
    | some n => n.run hosts .undefined args
    | none => typeError (name ++ " is not a constructor")
  | .host n => hosts.construct n args
  | .none => fail (.internal "construction from an object")

/-- Whether a value is an instance of a function. -/
def performHasInstance (hosts : Hosts) (f : Ref) (v : Value) : Action Value := do
  match (← object f.id).behaviour with
  | .host n => return Raw.bool (← hosts.hasInstance n v)
  | _ => return Raw.bool (← ordinaryHasInstance f v)

/-- What a request asks for. -/
def perform (hosts : Hosts) : Request → Action Value
  | .call f this args => performCall hosts f this args
  | .construct f args => performConstruct hosts f args
  | .hasInstance f v => performHasInstance hosts f v

/-- Runs a computation on a stack of its own. -/
def onOwnStack {α : Type} (f : Unit → α) : α := (Task.spawn f .dedicated).get

@[simp] theorem onOwnStack_eq {α : Type} (f : Unit → α) : onOwnStack f = f () := rfl

/-- How many levels of calls share a stack. -/
def levelsPerStack : Nat := 64

/-- Serves requests that nest at most `levels` deep; the rounds bound each loop. -/
def machine (hosts : Hosts) (rounds : Nat) : Nat → Service
  | 0, _, s => .stuck .fuel s
  | levels + 1, r, s =>
    if levels % levelsPerStack = 0 then
      onOwnStack fun _ => (perform hosts r).run (machine hosts rounds levels) rounds s
    else (perform hosts r).run (machine hosts rounds levels) rounds s

/-- The bound on the rounds of a loop. -/
def maxRounds : Nat := Nat.pow 2 60

/-- The bound on the nesting of calls, built-in functions included. -/
def maxLevels : Nat := Nat.pow 2 20

/-- Runs an action on a machine with a host. -/
def Action.runOn {α : Type} (p : Action α) (hosts : Hosts) (s : State) : Outcome α :=
  p.run (machine hosts maxRounds maxLevels) maxRounds s

end Clearance
