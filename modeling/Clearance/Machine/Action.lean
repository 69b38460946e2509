/-
# Actions

An action is a tree of instructions for the machine: reading the control, updating the store,
asking it for something that may be missing, failing and recovering, entering a region or an
activation, calling a function, and looping.
Everything scripts do is an action, so whatever holds of all instructions holds of all
scripts.

Running an action on a state ends with a result, with a failure, or stuck, and keeps the state
in each case. Regions and activations put the control back when they end, however they end.
Functions are served by a parameter: `Clearance.Machine.Serve` ties the knot.
-/
import Clearance.Machine.State

namespace Clearance

/-- What can be asked of a function. -/
inductive Request where
  /-- A call with a receiver. -/
  | call (fn : Ref) (this : Value) (args : List Value)
  /-- A construction. -/
  | construct (fn : Ref) (args : List Value)
  /-- Whether a value is an instance. -/
  | hasInstance (fn : Ref) (v : Value)

/-- Instructions that end with a result of type `α`. -/
inductive Action : Type → Type 1 where
  | give {α : Type} (a : α) : Action α
  | andThen {α β : Type} (p : Action β) (k : β → Action α) : Action α
  /-- Where the machine is. -/
  | current : Action Control
  /-- A step on the store. -/
  | update {α : Type} (f : Store → α × Store) : Action α
  | fail {α : Type} (f : Failure) : Action α
  /-- Runs an action and hands over its failure. -/
  | attempt {α : Type} (p : Action α) : Action (Except Failure α)
  /-- Runs an action at another program counter and scope. -/
  | region {α : Type} (pc : Label) (scope : Nat) (p : Action α) : Action α
  /-- Runs an action as an activation of its own; also gives the value of its last expression
  statement. -/
  | activation {α : Type} (entry : Control) (p : Action α) : Action (α × Value)
  /-- Calls on a function. -/
  | invoke (r : Request) : Action Value
  /-- Repeats a step until it gives a result. -/
  | loop {σ α : Type} (init : σ) (step : σ → Action (σ ⊕ α)) : Action α
  /-- Asks the store for something that it may not have. -/
  | await {α : Type} (f : Store → Except Stuck α) : Action α

namespace Action

instance : Monad Action where
  pure := .give
  bind p k := .andThen p k

variable {α : Type}

/-- The store as it is. -/
def look (f : Store → α) : Action α := .update fun s => (f s, s)

/-- Changes the store. -/
def revise (f : Store → Store) : Action Unit := .update fun s => ((), f s)

/-- The fixed part of the machine. -/
def realm : Action Realm := do return (← current).realm

/-- The current program counter. -/
def pc : Action Label := do return (← current).pc

/-- An object of the heap. -/
def object (id : Nat) : Action Object := look fun s => s.heap.get id

/-- Changes an object. -/
def change (id : Nat) (f : Object → Object) : Action Unit :=
  revise fun s => { s with heap := s.heap.update id f }

/-- Allocates an object; a reference to it. -/
def allocate (face : Face) (o : Object) : Action Ref := .update fun s =>
  let (id, heap) := s.heap.add o
  (⟨id, face⟩, { s with heap })

/-- Fails with an error that scripts can catch. -/
def typeError (message : String) : Action α := fail (.fault "TypeError" message)

/-- Fails with an error about a number out of range. -/
def rangeError (message : String) : Action α := fail (.fault "RangeError" message)

/-- Fails with an error about a source text. -/
def syntaxError (message : String) : Action α := fail (.fault "SyntaxError" message)

/-- Fails with an error about a name. -/
def referenceError (message : String) : Action α := fail (.fault "ReferenceError" message)

/-- Records an event, if events are recorded. -/
def trace (e : Event) : Action Unit := do
  if (← realm).traced then revise fun s => { s with events := e :: s.events }

/-- Runs an action at another program counter. -/
def withPc (pc : Label) (p : Action α) : Action α := do region pc (← current).scope p

/-- Runs an action at the join of the program counter and a label. -/
def above (k : Label) (p : Action α) : Action α := do
  let c ← current
  region (c.pc.join k) c.scope p

/-- What stands at a path. -/
def readFile (path : String) : Action Entry := await fun s =>
  match s.files path with
  | some e => .ok e
  | none => .error (.file path)

/-- Breaks down unless a condition on the store holds. -/
def insist (text : String) (holds : Store → Bool) : Action Unit := await fun s =>
  if holds s then .ok () else .error (.panic text)

/-- Calls a function. -/
def call (fn : Ref) (this : Value) (args : List Value) : Action Value := invoke (.call fn this args)

end Action

/-! ## Running actions -/

/-- Serves requests to functions. -/
abbrev Service := Request → State → Outcome Value

/-- Repeats a step at most `fuel` times. -/
def iterate {σ α : Type} (step : σ → State → Outcome (σ ⊕ α)) : Nat → σ → State → Outcome α
  | 0, _, s => .stuck .fuel s
  | fuel + 1, x, s =>
    match step x s with
    | .done (.inl y) s => iterate step fuel y s
    | .done (.inr a) s => .done a s
    | .failed f s => .failed f s
    | .stuck w s => .stuck w s

namespace Action

/-- Runs an action. The fuel bounds the rounds of each loop. -/
def run (serve : Service) (fuel : Nat) : {α : Type} → Action α → State → Outcome α
  | _, .give a, s => .done a s
  | _, .andThen p k, s =>
    match run serve fuel p s with
    | .done b s => run serve fuel (k b) s
    | .failed f s => .failed f s
    | .stuck w s => .stuck w s
  | _, .current, s => .done s.control s
  | _, .update f, ⟨c, store⟩ =>
    let (a, store) := f store
    .done a ⟨c, store⟩
  | _, .fail f, s => .failed f s
  | _, .attempt p, s =>
    match run serve fuel p s with
    | .done a s => .done (.ok a) s
    | .failed f s => .done (.error f) s
    | .stuck w s => .stuck w s
  | _, .region pc scope p, ⟨c, store⟩ =>
    (run serve fuel p ⟨{ c with pc, scope }, store⟩).mapState fun s =>
      { s with control := { s.control with pc := c.pc, scope := c.scope } }
  | _, .activation entry p, ⟨c, store⟩ =>
    let result := store.result
    match run serve fuel p ⟨entry, { store with result := .undefined }⟩ with
    | .done a s => .done (a, s.store.result) ⟨c, { s.store with result }⟩
    | .failed f s => .failed f ⟨c, { s.store with result }⟩
    | .stuck w s => .stuck w ⟨c, { s.store with result }⟩
  | _, .invoke r, s => serve r s
  | _, .loop init step, s => iterate (fun x s => run serve fuel (step x) s) fuel init s
  | _, .await f, s =>
    match f s.store with
    | .ok a => .done a s
    | .error w => .stuck w s

end Action
end Clearance
