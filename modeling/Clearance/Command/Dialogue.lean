/-
# Dialogues

A dialogue reads statements line by line, runs each one when it is complete, and shows its
value. Statements are kept in a history, the same one in a row only once.

An event of a trace is written on a line: its level, its message, and its fields in the order
of their names.
-/
import Clearance.Command.World

namespace Clearance.Command

/-! ## Trace lines -/

/-- A field's value is quoted if it holds something else than visible ASCII characters, or a quote
or a backslash. -/
def needsQuotes (s : String) : Bool :=
  s.toList.any fun c => c.toNat ≤ 32 || c.toNat > 126 || c == '\\' || c == '\x22'

/-- A field of a trace line. -/
def fieldText (name value : String) : String :=
  " " ++ name ++ "=" ++ if needsQuotes value then Text.quote value else value

/-- A trace line. -/
def traceLine (level message : String) (fields : List (String × String)) : String :=
  let sorted := fields.mergeSort fun a b => decide (a.1 ≤ b.1)
  let shown := String.join (sorted.map fun (name, value) => fieldText name value)
  level ++ " " ++ message ++ shown ++ "\n"

/-- The line of an event. The extra fields say where it happened. -/
def eventLine (extra : List (String × String)) : Event → String
  | .raised source target node line =>
    traceLine "TRC" "pc raised"
      (extra ++ [("from", source.text), ("to", target.text), ("node", node), ("line", s!"{line}")])
  | .relabeled target label line =>
    traceLine "TRC" "relabel"
      (extra ++ [("target", target), ("label", label.text), ("line", s!"{line}")])
  | .violated target source location line =>
    traceLine "TRC" "flow violation"
      (extra ++ [("target", target), ("lhs", source.text), ("rhs", location.text),
        ("line", s!"{line}")])
  | .evaluated pc depth =>
    traceLine "TRC" "eval" (extra ++ [("pc", pc.text), ("depth", s!"{depth}")])

/-- The lines of events. -/
def eventLines (extra : List (String × String)) (events : List Event) : String :=
  String.join (events.map (eventLine extra))

/-- The lines of a case of a suite. -/
def caseLines (suite : String) (r : Suite.Report) : String :=
  let extra := [("suite", suite), ("case", r.result.file)]
  let passed := if r.result.passed then "true" else "false"
  let finished := if r.evaluated
    then traceLine "DBG" "case finished"
      (extra ++ [("outcome", r.result.verdict.text), ("passed", passed)])
    else ""
  eventLines extra r.events ++ finished

/-! ## History -/

/-- The name of the history file. -/
def historyFile : String := ".flowjs_history"

/-- What a dialogue starts with. -/
def banner : String := Library.versionText ++ " (Ctrl+D exits)\n"

/-- How many statements a history holds. -/
def historyLimit : Nat := 1000

/-- The lines of a text, without their ends. -/
def linesFrom : List Char → List Char → List String
  | [], [] => []
  | line, [] => [String.ofList line.reverse]
  | line, '\r' :: '\n' :: rest => String.ofList line.reverse :: linesFrom [] rest
  | line, c :: rest =>
    if c = '\n' then String.ofList line.reverse :: linesFrom [] rest
    else linesFrom (c :: line) rest

/-- The lines of a text. -/
def lines (s : String) : List String := linesFrom [] s.toList

/-- The last entries of a history, as many as it holds. -/
def limitHistory (h : List String) : List String := h.drop (h.length - historyLimit)

/-- Adds a statement to a history, unless it is the last one already. -/
def addToHistory (h : List String) (statement : String) : List String :=
  if h.getLast? = some statement then h else limitHistory (h ++ [statement])

/-- The text of a history. -/
def historyText (h : List String) : String := String.join (h.map (· ++ "\n"))

/-- The state of a dialogue. -/
structure Dialogue where
  session : State
  /-- The number of the next statement's first line. -/
  line : Nat
  /-- The lines of a statement that is not complete. -/
  pending : String
  /-- The statements, the oldest first. -/
  history : List String

namespace Dialogue

/-- The start of a dialogue, given the text of the history file. -/
def start (session : State) (history : String) : Dialogue :=
  ⟨session, 1, "", limitHistory (lines history)⟩

/-- What stands in front of the next line. -/
def prompt (d : Dialogue) : String := if d.pending = "" then "flowjs> " else "...     "

/-- What a line leads to: texts, the dialogue after it, and the code if it ends there. -/
structure Turn where
  stdout : String
  stderr : String
  next : Dialogue
  code : Option Int

/-- What is shown of an answer. -/
def shown : Session.Answer → String × String × Option Int
  | .value none => ("", "", none)
  | .value (some text) => (text ++ "\n", "", none)
  | .quit code => ("", "", some code)
  | .violation text => ("", text ++ "\n", none)
  | .failure text => ("", text ++ "\n", none)

/-- Runs a complete statement. -/
def run (w : World) (d : Dialogue) (statement : String) : Asking Turn := do
  let oneLine := statement.map fun c => if c = '\n' then ' ' else c
  let breaks := statement.toList.count '\n'
  let x ← w.evaluate d.session statement "<repl>" d.line
  let (out, err, code) := shown x.answer
  let next : Dialogue := ⟨x.session, d.line + breaks + 1, "", addToHistory d.history oneLine⟩
  return ⟨x.printed ++ out, eventLines [] x.events ++ err, next, code⟩

/-- Reads a line. -/
def feed (w : World) (d : Dialogue) (line : String) : Asking Turn :=
  let statement := if d.pending = "" then line else d.pending ++ "\n" ++ line
  if Script.incomplete statement then .ok ⟨"", "", { d with pending := statement }, none⟩
  else if Text.trim statement = "" then .ok ⟨"", "", { d with pending := "" }, none⟩
  else d.run w statement

/-- Reads lines until one ends the dialogue or there are no more. Prompts are part of the output. -/
def converse (w : World) (out err : String) : List String → Dialogue → Asking (Output × List String)
  | [], d => .ok (⟨0, out ++ d.prompt ++ "\n", err⟩, d.history)
  | line :: rest, d => do
    let t ← d.feed w line
    let out := out ++ d.prompt ++ t.stdout
    let err := err ++ t.stderr
    match t.code with
    | some code => return (⟨code, out, err⟩, t.next.history)
    | none => converse w out err rest t.next

/-- A whole dialogue: its output and the text of the history afterwards. -/
def whole (w : World) (o : Library.Options) (history input : String) :
    Asking (Output × String) := do
  let (output, h) ← converse w banner "" (lines input) (start (openSession o) history)
  return (output, historyText h)

end Dialogue
end Clearance.Command
