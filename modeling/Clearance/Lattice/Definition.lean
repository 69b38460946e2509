/-
# Lattice definitions

A lattice can be defined in a file: a mapping whose only field `labels` lists the names of the
labels, least secret first.
-/
import Clearance.Disk
import Clearance.Lattice
import Clearance.Yaml.Decode

namespace Clearance.Lattice

/-- Why a text defines no lattice. -/
inductive DefinitionError where
  /-- The text holds no document. -/
  | empty
  /-- The document has another form. -/
  | malformed
  /-- The names are no lattice. -/
  | names (e : LatticeError)
deriving DecidableEq, Repr

/-- The text of the error. -/
def DefinitionError.message : DefinitionError → String
  | .empty => "lattice: definition is empty"
  | .malformed => "lattice: parse: " ++ Yaml.malformedText
  | .names e => e.message

/-- The fields of a definition. -/
def definitionShape : Yaml.Shape := ⟨["labels"], true⟩

/-- The names listed in a definition. -/
def definedNames (d : Yaml.Document) : Option (List String) :=
  if d.isNothing d.root then some []
  else do
    let fs ← d.fields definitionShape d.root
    Yaml.readField fs "labels" [] (d.list d.text)

/-- The lattice that a text defines. -/
def ofText (s : String) : Except DefinitionError Lattice :=
  match Yaml.read s with
  | .absent => .error .empty
  | .malformed => .error .malformed
  | .document d =>
    match definedNames d with
    | none => .error .malformed
    | some names => (ofNames names).mapError .names

/-- The lattice defined in a file, or why there is none. -/
def load (path : String) (e : Entry) : Except String Lattice :=
  match e.read path with
  | .error reason => .error ("lattice: open " ++ path ++ ": " ++ reason)
  | .ok s => (ofText s).mapError fun e => path ++ ": " ++ e.message

end Clearance.Lattice
