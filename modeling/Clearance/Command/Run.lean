/-
# Commands

Running a file, evaluating a text, reading scripts from the standard input, running a suite.
-/
import Clearance.Command.Dialogue
import Clearance.Suite.Cache

namespace Clearance.Command

/-- How to use the program. -/
def usage : String :=
  "Usage:\n" ++
  "  flowjs [flags] run <file.js>\n" ++
  "  flowjs [flags] <file.js>\n" ++
  "  flowjs [flags] eval <source>\n" ++
  "  flowjs [flags] repl\n" ++
  "  flowjs [flags] suite [--jobs N] [--cache DIR] <suite.yml>\n" ++
  "  flowjs version\n" ++
  "\n" ++
  "Flags:\n" ++
  "  --trace            log pc raises, relabels and violations to stderr\n" ++
  "  --lattice FILE     load the label lattice from a YAML file\n" ++
  "  --max-depth N      bound nested calls\n" ++
  "  --ecma3            for-in over null or undefined is a TypeError\n"

/-- What a command line leads to. -/
inductive Reply where
  /-- The command has ended. -/
  | done (o : Output)
  /-- A dialogue starts. -/
  | converse (o : Library.Options)

/-- The code of an answer and what is said about it. -/
def report : Session.Answer → Int × String
  | .value _ => (0, "")
  | .quit code => (code, "")
  | .violation text => (3, text ++ "\n")
  | .failure text => (1, text ++ "\n")

/-- The output of a script. Its value is shown on request. -/
def outputOf (showsValue : Bool) (x : Exchange) : Output :=
  let (code, err) := report x.answer
  let value := match x.answer with
    | .value (some text) => if showsValue then text ++ "\n" else ""
    | _ => ""
  ⟨code, x.printed ++ value, eventLines [] x.events ++ err⟩

/-- What is said of arguments that a command does not take. -/
def unexpected (args : List String) : Output :=
  .failure 1 ("unexpected arguments: " ++ " ".intercalate args)

/-- Goes on with the options that the settings ask for, if there are such. -/
def World.configured (w : World) (s : Settings) (k : Library.Options → Asking Reply) :
    Asking Reply := do
  match ← w.lattice s with
  | .error e => return .done (.failure 1 ("failed to configure interpreter: " ++ e))
  | .ok l => k (s.options l)

/-- Runs a text in a fresh session. -/
def World.runSource (w : World) (s : Settings) (source file : String) (showsValue : Bool) :
    Asking Reply :=
  w.configured s fun o => do
    return .done (outputOf showsValue (← w.evaluate (openSession o) source file 1))

/-- Runs a file. -/
def World.runFile (w : World) (s : Settings) : List String → Asking Reply
  | [] => return .done (.failure 1 "flowjs run requires a source file")
  | [path] => do
    match (← w.look path).read path with
    | .error reason => return .done (.failure 1 ("failed to read " ++ path ++ ": " ++ reason))
    | .ok source => w.runSource s source (Path.base path) false
  | _ :: more => return .done (unexpected more)

/-- Evaluates a text and shows its value. -/
def World.runText (w : World) (s : Settings) : List String → Asking Reply
  | [] => return .done (.failure 1 "flowjs eval requires source text")
  | args => w.runSource s (" ".intercalate args) "<eval>" true

/-- Runs the standard input, or starts a dialogue with a person. -/
def World.runInput (w : World) (s : Settings) : List String → Asking Reply
  | [] => w.configured s fun o =>
    if w.isTerminal then return .converse o
    else match w.input with
      | none => throw .input
      | some source => w.runSource s source "<stdin>" false
  | args => return .done (unexpected args)

/-! ## Suites -/

/-- The directory for the program's own files. -/
def World.ownDirectory (w : World) : String :=
  match Text.trim w.programHome with
  | "" => Path.join w.home ".flowjs"
  | path => w.absolute path

/-- The cache of a suite's sources: the given one, or one in the program's own directory. -/
def World.cache (w : World) (m : Suite.Manifest) (given : String) : String :=
  if m.source.isSome && given = "" then Path.join w.ownDirectory "suites" else given

/-- The line of a result. -/
def resultLine (r : Suite.Result) : String :=
  if r.passed then "PASSED " ++ r.file ++ "\n"
  else
    let detail := match r.message with
      | some text => r.verdict.text ++ ": " ++ text
      | none => r.verdict.text
    "FAILED " ++ r.file ++ " (expected " ++ r.expect.text ++ ", got " ++ detail ++ ")\n"

/-- The output of a suite that has run. -/
def suiteOutput (traced : Bool) (m : Suite.Manifest) (checkout : Suite.Checkout)
    (reports : List Suite.Report) : Output :=
  let results := reports.map Suite.Report.result
  let (passed, failed) := Suite.summary results
  let heading := if checkout.revision = "" then ""
    else "Suite " ++ m.name ++ " at " ++ checkout.revision ++ "\n"
  let totals := s!"{passed} passed, {failed} failed\n"
  let out := heading ++ String.join (results.map resultLine) ++ totals
  let err := if traced then String.join (reports.map (caseLines m.name)) else ""
  ⟨if failed > 0 then 1 else 0, out, err⟩

/-- Runs the cases of a suite whose scripts are checked out. -/
def World.runCases (w : World) (s : Settings) (jobs : Nat) (m : Suite.Manifest)
    (checkout : Suite.Checkout) : Asking Output := do
  match m.lattice with
  | .error e => return .failure 1 ("failed to run suite: suite " ++ m.name ++ ": " ++ e.message)
  | .ok l =>
    let cases ← askEntry (Suite.caseEntries w.disk checkout.directory m.cases)
    let o : Library.Options := ⟨l, s.maxDepth, false, s.trace⟩
    let reports := Suite.runCases o checkout.directory cases (Suite.executor jobs) false
    return suiteOutput s.trace m checkout reports

/-- Loads the suite at a path. -/
def World.loadSuite (w : World) (path : String) :
    Asking (Except Suite.LoadError Suite.Manifest) := do
  if path = "" then return .error .noPath
  let path := w.absolute path
  return Suite.load path (← w.look path)

/-- Runs a suite. -/
def World.runSuite (w : World) (s : Settings) (args : List String) : Asking Output := do
  match readSuiteArguments ⟨1, "", []⟩ args with
  | .error e => return .failure 2 e
  | .ok a =>
    match a.paths with
    | [path] =>
      match ← w.loadSuite path with
      | .error e => return .failure 1 ("failed to load suite: " ++ e.message)
      | .ok m =>
        match ← askEntry (w.remote.fetch w.disk m (w.cache m a.cache)) with
        | .error e => return .failure 1 ("failed to fetch suite sources: " ++ e)
        | .ok checkout => w.runCases s a.jobs m checkout
    | _ => return .failure 1 "flowjs suite requires exactly one suite.yml"

/-! ## The command line -/

/-- Runs a command line. -/
def World.run (w : World) (args : List String) : Asking Reply := do
  match readFlags .standard args with
  | .error e => return .done (.failure 2 e)
  | .ok (s, rest) =>
    match rest with
    | [] => return .done ⟨1, "", usage⟩
    | command :: args =>
      match command with
      | "--help" | "-h" | "help" => return .done ⟨0, "", usage⟩
      | "--version" | "-V" | "version" => return .done ⟨0, Library.versionText ++ "\n", ""⟩
      | "run" => w.runFile s args
      | "eval" => w.runText s args
      | "repl" => w.runInput s args
      | "suite" => return .done (← w.runSuite s args)
      | _ => w.runFile s rest

end Clearance.Command
