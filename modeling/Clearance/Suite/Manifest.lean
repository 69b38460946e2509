/-
# Suite manifests

A suite is a list of scripts with the outcome that is expected of each one. It is written down
in a manifest: a name, optionally the lattice and a repository that holds the scripts, and the
cases. A case is the name of a file, or a mapping with the file and the expectation.
-/
import Clearance.Disk
import Clearance.Lattice
import Clearance.Text.Class
import Clearance.Yaml.Decode

namespace Clearance.Suite

/-- What is expected of a case. -/
inductive Expectation where
  | pass
  | violation
  /-- Something that no case can fulfil. -/
  | other (text : String)
deriving DecidableEq, Repr

namespace Expectation

/-- How an expectation is written. -/
def text : Expectation → String
  | .pass => "pass"
  | .violation => "violation"
  | .other text => text

/-- The expectation that is written as given. -/
def ofText : String → Expectation
  | "pass" => .pass
  | "violation" => .violation
  | text => .other text

/-- The expectation can be fulfilled. -/
def isValid : Expectation → Bool
  | .other _ => false
  | _ => true

end Expectation

/-- A script and what is expected of it. -/
structure Case where
  file : String
  expect : Expectation
deriving DecidableEq, Repr

/-- A repository and a revision of it. -/
structure Source where
  git : String
  /-- The revision, empty for the latest one. -/
  rev : String
deriving DecidableEq, Repr

/-- A suite. -/
structure Manifest where
  /-- The path of the manifest from the root. -/
  path : String
  name : String
  /-- The names of the lattice, empty for the standard one. -/
  labels : List String
  source : Option Source
  cases : List Case
deriving DecidableEq, Repr

namespace Manifest

/-- The directory of the manifest. -/
def directory (m : Manifest) : String := Path.directory m.path

/-- The lattice of the scripts. -/
def lattice (m : Manifest) : Except LatticeError Lattice :=
  if m.labels.isEmpty then .ok .standard else Lattice.ofNames m.labels

/-! ## Reading -/

/-- The fields of a case. Others are passed over, unless a tag says that there is nothing. -/
def caseShape (tag : Yaml.Tag) : Yaml.Shape := ⟨["file", "expect"], tag = .nothing⟩

/-- Reads a case: a scalar is a file that is expected to pass. -/
def readCase (d : Yaml.Document) (n : Yaml.Node) : Option Case := do
  match ← d.follow n with
  | .scalar text tag => return ⟨← d.text (.scalar text tag), .pass⟩
  | .map entries tag =>
    let fs ← d.fields (caseShape tag) (.map entries tag)
    let file ← Yaml.readField fs "file" "" d.text
    let expect ← Yaml.readField fs "expect" "" d.text
    return ⟨file, .ofText expect⟩
  | _ => none

/-- The fields of a source. -/
def sourceShape : Yaml.Shape := ⟨["git", "rev"], true⟩

/-- Reads a source, if one is written. A tag must not say that there is nothing. -/
def readSource (d : Yaml.Document) (n : Yaml.Node) : Option (Option Source) := do
  if d.isNothing n then return none
  if (← d.follow n).tag = .nothing then none
  let fs ← d.fields sourceShape n
  let git ← Yaml.readField fs "git" "" d.text
  let rev ← Yaml.readField fs "rev" "" d.text
  return some ⟨git, rev⟩

/-- The fields of a manifest. -/
def manifestShape : Yaml.Shape := ⟨["name", "lattice", "source", "cases"], true⟩

/-- Reads a manifest as it is written. -/
def readManifest (path : String) (d : Yaml.Document) : Option Manifest := do
  let fs ← if d.isNothing d.root then some [] else d.fields manifestShape d.root
  let name ← Yaml.readField fs "name" "" d.text
  let labels ← Yaml.readField fs "lattice" [] (d.list d.text)
  let source ← Yaml.readField fs "source" none (readSource d)
  let cases ← Yaml.readField fs "cases" [] (d.list (readCase d))
  return ⟨path, name, labels, source, cases⟩

/-- The expectation meant by a written one: letters of either case count, and nothing written
means to pass. -/
def meantBy (e : Expectation) : Expectation :=
  match (Text.trim e.text).map Text.toLower with
  | "" => .pass
  | text => .ofText text

/-- A source without surrounding white space. -/
def trimSource (s : Source) : Source := ⟨Text.trim s.git, Text.trim s.rev⟩

/-- A case without surrounding white space. -/
def trimCase (c : Case) : Case := ⟨Text.trim c.file, meantBy c.expect⟩

/-- A manifest without surrounding white space in its texts. -/
def trimmed (m : Manifest) : Manifest :=
  { m with
    name := Text.trim m.name
    labels := m.labels.map Text.trim
    source := m.source.map trimSource
    cases := m.cases.map trimCase }

/-! ## Validation -/

/-- A path that leads out of the directory that it is relative to. -/
def escapes (file : String) : Bool :=
  Path.isAbsolute file || Path.parent.toList.isPrefixOf (Path.clean file).toList

/-- What is wrong with a case, given the files before it. -/
def caseIssues (i : Nat) (seen : List String) (c : Case) : List String :=
  if c.file = "" then [s!"cases[{i}] missing file"]
  else
    (if escapes c.file
      then [s!"cases[{i}] file " ++ Text.quote c.file ++ " must stay inside the suite"]
      else []) ++
    (if c.file ∈ seen then [s!"cases[{i}] duplicates " ++ Text.quote c.file] else []) ++
    (if c.expect.isValid then []
      else ["case " ++ Text.quote c.file ++ " has unsupported expectation "
        ++ Text.quote c.expect.text])

/-- What is wrong with the cases from number `i` on. -/
def casesIssues (i : Nat) (seen : List String) : List Case → List String
  | [] => []
  | c :: rest => caseIssues i seen c ++ casesIssues (i + 1) (c.file :: seen) rest

/-- What is wrong with a manifest, in order. -/
def issues (m : Manifest) : List String :=
  (if m.name = "" then ["name must be provided"] else []) ++
  (match m.lattice with
    | .ok _ => []
    | .error e => ["lattice: " ++ e.message]) ++
  (if m.source.any (·.git = "") then ["source.git must be provided when source is set"] else []) ++
  (if m.cases.isEmpty then ["cases must not be empty"] else []) ++
  casesIssues 0 [] m.cases

end Manifest

/-- Why a suite cannot be loaded. -/
inductive LoadError where
  /-- The path is empty. -/
  | noPath
  /-- The manifest cannot be opened. -/
  | unopened (path reason : String)
  /-- The manifest holds no document. -/
  | empty (path : String)
  /-- The manifest has another form. -/
  | malformed (path reason : String)
  /-- The suite makes no sense. -/
  | invalid (issues : List String)
deriving DecidableEq, Repr

/-- The text of the error. -/
def LoadError.message : LoadError → String
  | .noPath => "suite: empty path"
  | .unopened path reason => "suite: open " ++ path ++ ": open " ++ path ++ ": " ++ reason
  | .empty path => "suite: " ++ path ++ " is empty"
  | .malformed path reason => "suite: parse " ++ path ++ ": " ++ reason
  | .invalid issues => bulleted "suite validation failed:" issues

/-- The suite of a manifest's text. The path is one from the root. -/
def ofText (path s : String) : Except LoadError Manifest :=
  match Yaml.read s with
  | .absent => .error (.empty path)
  | .malformed => .error (.malformed path Yaml.malformedText)
  | .document d =>
    match Manifest.readManifest path d with
    | none => .error (.malformed path Yaml.malformedText)
    | some m =>
      match m.trimmed.issues with
      | [] => .ok m.trimmed
      | issues => .error (.invalid issues)

/-- The suite whose manifest stands at a path from the root. -/
def load (path : String) : Entry → Except LoadError Manifest
  | .absent reason => .error (.unopened path reason)
  | .directory =>
    .error (.malformed path ("yaml: input error: read " ++ path ++ ": is a directory"))
  | .file s => ofText path s

end Clearance.Suite
