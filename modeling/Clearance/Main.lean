/-
# The program

Reads the files and the input that commands ask for, and prints what they say.
-/
import Clearance.Command.Run

namespace Clearance.Command

/-- What stands at a path of the file system. -/
def lookUp (path : String) : IO Entry := do
  if let some reason := Path.fault? path then return .absent reason
  try return .file (← IO.FS.readFile path)
  catch
    | .inappropriateType _ _ "Is a directory" => return .directory
    | .inappropriateType _ _ details => return .absent details
    | .noFileOrDirectory _ _ _ => return .missing
    | .permissionDenied _ _ _ => return .absent "permission denied"
    | e =>
      let long := (Path.components path).any Path.isLongName
      return .absent (if long then Path.tooLong else toString e)

/-- The lines of a stream from the given ones on, the last one first. -/
partial def readLines (input : IO.FS.Stream) (before : List String) : IO (List String) := do
  let line ← input.getLine
  if line.isEmpty then return before else readLines input (line :: before)

/-- Finds out what a command needs to know. -/
def World.learn (w : World) : Need → IO World
  | .entry path => do return { w with disk := w.disk.learn path (← lookUp path) }
  | .input => do
    let lines ← readLines (← IO.getStdin) []
    return { w with input := some (String.join lines.reverse) }

/-- Runs something until it needs to know nothing more. -/
partial def World.complete {α : Type} [Inhabited α] (w : World) (p : World → Asking α) :
    IO (World × α) := do
  match p w with
  | .ok a => return (w, a)
  | .error need => (← w.learn need).complete p

/-- Prints texts at once. -/
def say (out err : String) : IO Unit := do
  IO.print out
  (← IO.getStdout).flush
  IO.eprint err

instance : Inhabited Reply := ⟨.done ⟨0, "", ""⟩⟩

/-- A dialogue with a person; the code at its end and the last state. -/
partial def talk (w : World) (d : Dialogue) : IO (Int × Dialogue) := do
  say d.prompt ""
  let line ← (← IO.getStdin).getLine
  if line.isEmpty then
    say "\n" ""
    return (0, d)
  match lines line with
  | [] => talk w d
  | text :: _ =>
    let _ : Inhabited Dialogue.Turn := ⟨⟨"", "", d, none⟩⟩
    let (_, t) ← w.complete fun w => d.feed w text
    say t.stdout t.stderr
    match t.code with
    | some code => return (code, t.next)
    | none => talk w t.next

/-- Holds a dialogue and keeps its history. -/
def holdDialogue (w : World) (o : Library.Options) : IO Int := do
  let path := Path.join w.home historyFile
  let history := match ← lookUp path with
    | .file text => text
    | _ => ""
  say banner ""
  let (code, d) ← talk w (.start (openSession o) history)
  try IO.FS.writeFile path (historyText d.history) catch _ => pure ()
  return code

/-- The world as it is. -/
def currentWorld : IO World := do
  return { disk := .unknown
           workingDirectory := (← IO.currentDir).toString
           home := (← IO.getEnv "HOME").getD ""
           programHome := (← IO.getEnv "FLOWJS_HOME").getD ""
           input := none
           isTerminal := ← (← IO.getStdin).isTty }

/-- The part of a code that the caller of the program sees. -/
def exitCode (code : Int) : UInt32 := (code % 256).toNat.toUInt32

end Clearance.Command

open Clearance.Command in
/-- Runs the command line. -/
def main (args : List String) : IO UInt32 := do
  let (w, reply) ← (← currentWorld).complete fun w => w.run args
  match reply with
  | .done o =>
    say o.stdout o.stderr
    return exitCode o.code
  | .converse o => return exitCode (← holdDialogue w o)
