/-
# Flow of information

The effective label of an operand joins its own label, the label stored in the cell and the
partition of the object that holds it. Writes are checked: neither the context nor the data
may be classified above the location. A region controlled by a classified value runs at a
raised program counter.
-/
import Clearance.Inspect

namespace Clearance

open Clearance.Action

/-- What an expression evaluates to: a value, or a place that has not been read yet, with the
label of what chose it. -/
inductive Operand where
  | value (v : Value)
  | place (p : Place) (label : Label)

/-- A raw value and its effective label. -/
structure Rated where
  raw : Raw
  label : Label

/-- The value that carries its effective label. -/
def Rated.value (r : Rated) : Value := r.raw.labeled r.label

/-- Reads an operand down to its raw value and effective label. -/
def Operand.resolve : Operand → Action Rated
  | .value v => return ⟨v.raw, v.label⟩
  | .place p k => do
    let cell ← p.cell
    return ⟨cell.raw, (k.join cell.label).join (← p.partition)⟩

/-- A place whose choice is classified. A label at the bottom is dropped. -/
def Operand.placeAt (p : Place) (k : Label) : Operand :=
  .place p (if Label.none.less k then k else .none)

/-- Fails with a forbidden flow and records it. -/
def violate {α : Type} (line : Nat) (target : String) (source location : Label) : Action α := do
  trace (.violated target source location line)
  fail (.violation ⟨target, source, location, (← current).file, line⟩)

/-- Includes a label in a value unless it is below another one. -/
def Value.raiseAbove (v : Value) (k floor : Label) : Value := if k.leq floor then v else v.wrap k

/-- What a location holds before a write: the label of its cell, its own classification, and
whether it holds anything but undefined. -/
structure Location where
  cell : Label
  label : Label
  established : Bool

/-- The location of a place. A name that is not bound belongs to the global object. -/
def Place.location (p : Place) : Action Location :=
  match p.base with
  | none => do return ⟨.none, (← object (← realm).global).partition, false⟩
  | some _ => do
    let partition ← p.partition
    match ← p.peek with
    | none => return ⟨.none, partition, false⟩
    | some v => return ⟨v.label, v.label.join partition, !v.raw.isUndefined⟩

/-- Stores a value at a place. A name that is not bound becomes a property of the global
object. -/
def Place.write (p : Place) (v : Value) : Action Unit :=
  match p.base with
  | some o => putProperty o p.name v
  | none => do putProperty ⟨(← realm).global, .plain⟩ p.name v

/-- What is stored at a location for a value that is assigned at a program counter: a location
that does not rank with the program counter includes the context unless it is below the location,
and every location keeps the label of its cell. -/
def Location.stored (loc : Location) (pc chosen : Label) (r : Rated) : Value :=
  (if loc.label.order pc != .eq
    then r.value.raiseAbove (pc.join (chosen.join loc.label)) loc.label
    else r.value.wrap pc).wrap loc.cell

/-- The checked write to a location. -/
def assignTo (line : Nat) (p : Place) (chosen : Label) (r : Rated) (declare : Bool)
    (loc : Location) (pc : Label) : Action Value := do
  let context := pc.join (chosen.join loc.label)
  let bound := loc.label.join loc.cell
  if bound.less context then violate line p.name context bound
  else if (loc.established || !declare) && loc.label.less r.label then
    violate line p.name r.label loc.label
  else do
    if loc.label.order pc != .eq && (r.value.raiseAbove context loc.label).isLabeled then
      trace (.relabeled p.name context line)
    p.write (loc.stored pc chosen r)
    return r.value

/-- The checked write of assignments, initialisers, increments and loop variables. It is
rejected when the context or the choice of the place is classified above the location, and
when the data is; a declaration that still holds undefined takes the classification of its
initial value. The result is the value of the assignment. -/
def assign (line : Nat) (p : Place) (chosen : Label) (r : Rated) (declare : Bool) :
    Action Value := do
  let loc ← p.location
  let pc ← pc
  assignTo line p chosen r declare loc pc

/-- The program counter of a region controlled by a value labeled `k`; a change is recorded
with the kind and line of the node. -/
def raisedPc (kind : String) (line : Nat) (k : Label) : Action Label := do
  let pc ← pc
  if k.isNone || k.order pc == .eq then return pc
  else do
    let joined := pc.join k
    if joined != pc then trace (.raised pc joined kind line)
    return joined

/-- Runs a region controlled by a value labeled `k`. -/
def controlled {α : Type} (kind : String) (line : Nat) (k : Label) (p : Action α) : Action α := do
  withPc (← raisedPc kind line k) p

/-- Allocates an error object of a class; an unknown class counts as the general one. -/
def makeError (name message : String) (partition : Label) : Action Ref := do
  let protos := (← realm).errorProtos
  let proto := match protos.lookup name with
    | some p => some p
    | none => protos.lookup "Error"
  allocate .plain ((Object.blank "Error" proto partition).setHidden "message" (Raw.string message))

/-- How a statement finishes. A jump counts the enclosing statements up to its target. -/
inductive Completion where
  | normal
  | leave (target : Option Nat)
  | resume (target : Option Nat)
  | returned (v : Value)
  | thrown (v : Value) (line : Nat)

namespace Completion

/-- Control does not go on with the next statement. -/
def isAbrupt : Completion → Bool
  | .normal => false
  | _ => true

/-- The target of a jump, seen from outside one more enclosing statement. That statement can
be no target any more. -/
def targetOutside : Option Nat → Option Nat
  | some (n + 1) => some n
  | _ => none

/-- A completion, seen from outside one more enclosing statement. -/
def outward : Completion → Completion
  | .leave t => .leave (targetOutside t)
  | .resume t => .resume (targetOutside t)
  | c => c

/-- What is left of a completion outside a statement that `break` can leave. -/
def afterBreak : Completion → Completion
  | .leave (some 0) => .normal
  | c => c.outward

/-- Whether a loop goes on after a round, or how it ends. -/
def afterRound : Completion → Option Completion
  | .normal | .resume (some 0) => none
  | c => some c.afterBreak

end Completion

/-- A failure that scripts can catch becomes a thrown value; others stay failures. -/
def completionOf (line : Nat) : Failure → Action Completion
  | .thrown v _ l => return .thrown v (if l = 0 then line else l)
  | .fault name message => do
    let pc ← pc
    let e ← makeError name message pc
    return .thrown ((Raw.object e).labeled pc) line
  | f => fail f

/-- Runs an action for a statement: its catchable failures throw at the given line. -/
def guarded {α : Type} (line : Nat) (p : Action α) (k : α → Action Completion) :
    Action Completion := do
  match ← attempt p with
  | .ok a => k a
  | .error f => completionOf line f

/-- The failure of a throw that leaves its activation. -/
def thrownFailure (v : Value) (line : Nat) : Action Failure := do
  return .thrown v (← current).file line

/-- Turns an error of the machine into a thrown error object, for callers outside of scripts. -/
def forHost {α : Type} (p : Action α) : Action α := do
  match ← attempt p with
  | .ok a => return a
  | .error (.fault name message) =>
    let c ← current
    let e ← makeError name message c.pc
    fail (.thrown ((Raw.object e).labeled c.pc) c.file 0)
  | .error f => fail f

/-- The text of a thrown value. -/
def thrownText (v : Value) : Action String := do
  let text ← match v.raw with
    | .object o => do
      if (← object o.id).cls = "Error" then errorText o else inspect v.raw
    | r => inspect r
  return (if v.label.isNone then "" else "<" ++ v.label.text ++ ">") ++ text

/-- A message with the file and line it is about, as far as they are known. -/
def located (file : String) (line : Nat) (message : String) : String :=
  if file ≠ "" ∧ line > 0 then s!"{file}:{line}: {message}"
  else if line > 0 then s!"line {line}: {message}"
  else message

/-- The text of too deep a nesting of activations. -/
def overflowText (depth : Nat) : String := s!"too much recursion (depth {depth})"

/-- The text of a violation. -/
def Violation.text (v : Violation) : String :=
  let message := "flow violation: " ++ v.source.text ++ " </= " ++ v.location.text
  let target := if v.target = "" then "" else " (write to " ++ v.target ++ ")"
  located v.file v.line (message ++ target)

/-- The text of a failure. -/
def Failure.text : Failure → Action String
  | .thrown v file line => do
    return located file line ("uncaught exception: " ++ (← thrownText v))
  | .fault name message => return name ++ ": " ++ message
  | .violation v => return v.text
  | .overflow depth => return overflowText depth
  | .internal message => return "internal error: " ++ message
  | .script e => return "syntax error: " ++ e.text
  | .quit code => return s!"quit({code})"
  | .host text => return text

end Clearance
