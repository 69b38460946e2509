/-
# What commands see and do

A command sees the files, the working directory and a few settings of its user. It ends with a
code and two texts, one for its output and one for its errors. A command that needs to know
more says what it needs, and is run again with that knowledge.
-/
import Clearance.Command.Flags
import Clearance.Lattice.Definition
import Clearance.Session
import Clearance.Suite.Cache
import Clearance.Suite.Run

namespace Clearance.Command

/-- What a command sees. -/
structure World where
  disk : Disk
  workingDirectory : String
  /-- The user's directory. -/
  home : String
  /-- The directory for the program's own files, blank if it is not set. -/
  programHome : String
  /-- The standard input, once it is read. -/
  input : Option String
  /-- The standard input is a person at a terminal. -/
  isTerminal : Bool
  /-- What brings the sources of suites to the cache. -/
  remote : Suite.Remote := .nowhere

/-- What a command needs to know. -/
inductive Need where
  /-- What stands at a path. -/
  | entry (path : String)
  /-- The standard input. -/
  | input
deriving DecidableEq, Repr

/-- A computation that may need to know more. -/
abbrev Asking := Except Need

/-- How a command ends. -/
structure Output where
  code : Int
  stdout : String
  stderr : String
deriving DecidableEq, Repr

/-- A command that fails with a message. -/
def Output.failure (code : Int) (message : String) : Output := ⟨code, "", message ++ "\n"⟩

/-- What stands at a path. -/
def World.look (w : World) (path : String) : Asking Entry :=
  match w.disk path with
  | some e => .ok e
  | none => .error (.entry path)

/-- A path from the root. -/
def World.absolute (w : World) (path : String) : String := Path.absolute w.workingDirectory path

/-- Lets a question about a path be asked. -/
def askEntry {α : Type} : Except String α → Asking α := Except.mapError .entry

/-- The lattice that the settings ask for, or why there is none. -/
def World.lattice (w : World) (s : Settings) : Asking (Except String Lattice) := do
  if s.latticePath = "" then return .ok .standard
  let path := w.absolute s.latticePath
  return Lattice.load path (← w.look path)

/-- The options of a session with the given lattice. -/
def Settings.options (s : Settings) (l : Lattice) : Library.Options :=
  ⟨l, s.maxDepth, s.strictEnumeration, s.trace⟩

/-! ## Sessions of commands -/

/-- Defines the functions that commands add to a session. -/
def defineFunctions : Action Unit := do
  Session.defineNative "version" 0 (some (.builtin .version))
  Session.defineNative "quit" 1 (some (.builtin .quit))
  Session.defineNative "load" 1 (some (.builtin .load))

/-- A fresh session of a command. -/
def openSession (o : Library.Options) : State :=
  (defineFunctions.runOn .none (Session.fresh o)).state

/-- What a script in a session led to. -/
structure Exchange where
  answer : Session.Answer
  printed : String
  events : List Event
  session : State

/-- Evaluates a script in a session. -/
def World.evaluate (w : World) (session : State) (source file : String) (line : Int) :
    Asking Exchange :=
  let session := { session with store := { session.store with files := w.disk } }
  match (Session.respond (Clearance.evaluate source file line)).runOn .none session with
  | .stuck (.file path) _ => .error (.entry path)
  | .stuck (.panic _) s =>
    -- the whole program ends, with the code of a breakdown
    let (printed, events, s) := Session.drain s
    .ok ⟨.quit 2, printed, events, s⟩
  | .stuck .fuel s =>
    let (printed, events, s) := Session.drain s
    .ok ⟨.failure Suite.exhaustedText, printed, events, s⟩
  | .failed _ s =>
    let (printed, events, s) := Session.drain s
    .ok ⟨.failure Suite.exhaustedText, printed, events, s⟩
  | .done answer s =>
    let (printed, events, s) := Session.drain s
    .ok ⟨answer, printed, events, s⟩

end Clearance.Command
