/-
# States of the machine

The machine runs scripts over a store: the heap, the frames, and what has been printed and
traced. The control says where it is: the program counter label, the current scope, `this`,
and how many activations are in progress.
-/
import Clearance.Disk
import Clearance.Frame
import Clearance.Script.Source

namespace Clearance

/-- What stays fixed while a machine runs: the options and the built-in prototypes. -/
structure Realm where
  lattice : Lattice
  /-- The bound on nested activations. -/
  maxDepth : Nat
  /-- Enumerating null or undefined is an error. -/
  strictEnumeration : Bool
  /-- Events are recorded. -/
  traced : Bool
  /-- The global object. -/
  global : Nat
  /-- The outermost frame. -/
  globalFrame : Nat
  objectProto : Nat
  functionProto : Nat
  arrayProto : Nat
  stringProto : Nat
  numberProto : Nat
  booleanProto : Nat
  regexpProto : Nat
  /-- The prototypes of the error classes. -/
  errorProtos : List (String × Nat)

/-- The kinds of activation. -/
inductive CodeKind where
  | global
  | eval
  | function
deriving DecidableEq, Repr

/-- The word for a kind of activation. -/
def CodeKind.text : CodeKind → String
  | .global => "global"
  | .eval => "eval"
  | .function => "function"

/-- Where the machine is. -/
structure Control where
  kind : CodeKind
  /-- The program counter label: what is known by reaching this point. -/
  pc : Label
  /-- The current frame. -/
  scope : Nat
  this : Value
  /-- The number of activations of functions and evals in progress. -/
  depth : Nat
  /-- The file being run. -/
  file : String
  realm : Realm

/-- A write that would let information reach a location that may not hold it. -/
structure Violation where
  target : String
  /-- The classification of the information. -/
  source : Label
  /-- The classification of the location. -/
  location : Label
  file : String
  line : Nat
deriving DecidableEq, Repr

/-- Why an action fails. -/
inductive Failure where
  /-- A value thrown by a script. -/
  | thrown (value : Value) (file : String) (line : Nat)
  /-- An error of the machine that scripts see as an error object of the named class. -/
  | fault (name message : String)
  /-- A forbidden flow. Scripts cannot catch it. -/
  | violation (v : Violation)
  /-- Too many activations. -/
  | overflow (depth : Nat)
  /-- A script that no parser produces did something without meaning. -/
  | internal (message : String)
  /-- A source text that is no script. -/
  | script (e : Script.ParseError)
  /-- A request to end the session. -/
  | quit (code : Int)
  /-- A failure of the host. -/
  | host (text : String)

/-- Events of a trace. -/
inductive Event where
  | raised (source target : Label) (node : String) (line : Nat)
  | relabeled (target : String) (label : Label) (line : Nat)
  | violated (target : String) (source location : Label) (line : Nat)
  | evaluated (pc : Label) (depth : Nat)
deriving DecidableEq, Repr

/-- Everything that changes while a machine runs. -/
structure Store where
  heap : Heap
  frames : Frames
  /-- The value of the last expression statement of the current activation. -/
  result : Value
  /-- What has been printed, last piece first. -/
  printed : List String
  /-- The recorded events, last one first. -/
  events : List Event
  /-- The state of the generator of random numbers. -/
  seed : UInt64
  /-- What is known about the files. -/
  files : Disk

/-- The control and the store. -/
structure State where
  control : Control
  store : Store

/-- Why the machine does not go on. -/
inductive Stuck where
  /-- The bound on the number of steps is reached. -/
  | fuel
  /-- The content of a file is needed. -/
  | file (path : String)
  /-- The program itself breaks down, with what it says of this. No script can catch that. -/
  | panic (text : String)
deriving DecidableEq, Repr

/-- How an action ends. The state is kept in every case. -/
inductive Outcome (α : Type) where
  | done (a : α) (s : State)
  | failed (f : Failure) (s : State)
  | stuck (why : Stuck) (s : State)

namespace Outcome

variable {α : Type}

/-- The final state. -/
def state : Outcome α → State
  | .done _ s | .failed _ s | .stuck _ s => s

/-- Changes the final state. -/
def mapState (g : State → State) : Outcome α → Outcome α
  | .done a s => .done a (g s)
  | .failed f s => .failed f (g s)
  | .stuck w s => .stuck w (g s)

end Outcome
end Clearance
