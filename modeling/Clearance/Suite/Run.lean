/-
# Running suites

Each case runs in a fresh session. A script passes, violates the flow policy, or fails
otherwise. The results come in the order of the cases, whatever executor runs them.
-/
import Clearance.Jobs.Executor
import Clearance.Session
import Clearance.Suite.Manifest

namespace Clearance.Suite

/-- How a case ended. -/
inductive Verdict where
  | pass
  | violation
  | error
deriving DecidableEq, Repr

/-- How a verdict is written. -/
def Verdict.text : Verdict → String
  | .pass => "pass"
  | .violation => "violation"
  | .error => "error"

/-- A verdict fulfils an expectation. -/
def Expectation.isFulfilled : Expectation → Verdict → Bool
  | .pass, .pass => true
  | .violation, .violation => true
  | _, _ => false

/-- The result of a case. -/
structure Result where
  file : String
  expect : Expectation
  verdict : Verdict
  /-- What went wrong. -/
  message : Option String
deriving DecidableEq, Repr

/-- The case did what was expected. -/
def Result.passed (r : Result) : Bool := r.expect.isFulfilled r.verdict

/-- The numbers of results that passed and that did not. -/
def summary (rs : List Result) : Nat × Nat :=
  (rs.countP Result.passed, rs.countP fun r => !r.passed)

/-- A case that has run, with what it printed and its events. -/
structure Report where
  result : Result
  printed : String
  events : List Event
  /-- The script has been evaluated. -/
  evaluated : Bool

/-- What is said when the machine cannot go on. -/
def exhaustedText : String := "the machine is exhausted"

/-- The text of a failure in the state that it has led to. -/
def failureText (f : Failure) (s : State) : String :=
  match f.text.runOn .none s with
  | .done text _ => text
  | _ => exhaustedText

/-- The verdict on a script that has ended, and what went wrong. Its value does not matter. -/
def judge : Outcome Value → Verdict × Option String
  | .done _ _ => (.pass, none)
  | .failed (.violation v) _ => (.violation, some v.text)
  | .failed f s => (.error, some (failureText f s))
  | .stuck _ _ => (.error, some exhaustedText)

/-- Runs the text of a case in a fresh session. -/
def runScript (o : Library.Options) (c : Case) (s : String) : Report :=
  let outcome := (evaluate s c.file 1).runOn .none (Session.fresh o)
  let (printed, events, _) := Session.drain outcome.state
  let (verdict, message) := judge outcome
  ⟨⟨c.file, c.expect, verdict, message⟩, printed, events, true⟩

/-- The path of a case. -/
def casePath (directory : String) (c : Case) : String := Path.join directory c.file

/-- Runs a case whose file holds the given entry. -/
def runCase (o : Library.Options) (directory : String) (c : Case) (e : Entry) : Report :=
  match e.read (casePath directory c) with
  | .error reason =>
    ⟨⟨c.file, c.expect, .error, some ("read " ++ c.file ++ ": " ++ reason)⟩, "", [], false⟩
  | .ok s => runScript o c s

/-- The text with which the program breaks down when it runs a case whose file holds the given
entry, if it does. -/
def panic? (o : Library.Options) (directory : String) (c : Case) (e : Entry) : Option String :=
  match e.read (casePath directory c) with
  | .error _ => none
  | .ok s =>
    match (evaluate s c.file 1).runOn .none (Session.fresh o) with
    | .stuck (.panic text) _ => some text
    | _ => none

/-- How running a case ends. -/
def ending (o : Library.Options) (directory : String) (c : Case) (e : Entry) : Jobs.Ending Report :=
  match panic? o directory c e with
  | some text => .crashed text
  | none => .returned (runCase o directory c e)

/-- The job of case number `i`. -/
def job (o : Library.Options) (directory : String) (i : Nat) (c : Case) (e : Entry) :
    Jobs.Job Report :=
  ⟨i, 0, Thunk.mk fun _ => ending o directory c e⟩

/-- The report on a case that was settled as given. -/
def reportOf (c : Case) : Jobs.Settlement Report → Report
  | .ok r => r
  | .error e => ⟨⟨c.file, c.expect, .error, some e.message⟩, "", [], false⟩

/-- What stands at the paths of the cases. The error is a path about which nothing is known yet. -/
def caseEntries (disk : Disk) (directory : String) : List Case → Except String (List (Case × Entry))
  | [] => .ok []
  | c :: rest =>
    match disk (casePath directory c) with
    | none => .error (casePath directory c)
    | some e => (caseEntries disk directory rest).map ((c, e) :: ·)

/-- The executor for a number of jobs at a time. -/
def executor (jobs : Nat) : Jobs.Executor Report :=
  if jobs > 1 then .pool (.fresh jobs) else .serial .fresh

/-- Runs cases on an executor. -/
def runCases (o : Library.Options) (directory : String) (cases : List (Case × Entry))
    (e : Jobs.Executor Report) (cancelled : Bool) : List Report :=
  let jobs := cases.mapIdx fun i (c, entry) => Jobs.Order.submit (job o directory i c entry)
  let orders := if cancelled then .cancel 0 :: jobs else jobs
  let settlements := e.outcomes orders (List.range cases.length)
  (cases.zip settlements).map fun ((c, _), s) => reportOf c s

end Clearance.Suite
