/-
# Records from documents

Reading records out of trees. Where nothing is written, a field keeps its initial value and a
list loses the item. A text of any kind can be read where a text is wanted. A field that is
given twice, or one that the record does not have, makes the document unreadable. A mapping can
take the fields that it does not give itself from other mappings.
-/
import Clearance.Yaml.Node

namespace Clearance.Yaml

/-- What is said of a document that cannot be read. -/
def malformedText : String := "yaml: malformed document"

namespace Node

/-- The key of a mapping under which other mappings are merged into it. -/
def isMerge : Node → Bool
  | .scalar text tag => text = Tag.mergeText && tag = .merge
  | _ => false

/-- Two keys of a mapping that count as the same. -/
def sameKey : Node → Node → Bool
  | .scalar a _, .scalar b _ => a == b
  | .alias a _, .alias b _ => a == b
  | .list _ _, .list _ _ => true
  | .map _ _, .map _ _ => true
  | _, _ => false

/-- Some key is given twice. -/
def repeats : List (Node × Node) → Bool
  | [] => false
  | (k, _) :: rest => rest.any (fun (l, _) => k.sameKey l) || repeats rest

end Node

/-- The fields of a record that documents may give. -/
structure Shape where
  /-- The names of the fields. -/
  names : List String
  /-- The record has no other fields; otherwise others are passed over. -/
  strict : Bool

/-- Some fields of a record, and the names that need not be looked for in other mappings. -/
structure Fields where
  found : List (String × Node)
  /-- There are none as long as no mapping is merged. -/
  taken : Option (List String)

namespace Document

/-- The node that a reference stands for, or the node itself. -/
def follow (d : Document) : Node → Option Node
  | .alias _ i => d.named[i]?
  | n => some n

/-- A text; none where nothing is written. -/
def text? (d : Document) (n : Node) : Option (Option String) := do
  match ← d.follow n with
  | .scalar text tag => tag.read text
  | _ => none

/-- A text, empty where nothing is written. -/
def text (d : Document) (n : Node) : Option String := (d.text? n).map (·.getD "")

/-- A scalar where nothing is written. -/
def isNothing (d : Document) (n : Node) : Bool := d.text? n == some none

/-- A list of whatever `item` reads, without the items where nothing is written. -/
def list {α : Type} (d : Document) (item : Node → Option α) (n : Node) : Option (List α) := do
  match ← d.follow n with
  | .list ns _ => (ns.filter fun m => !d.isNothing m).mapM item
  | m => if d.isNothing m then some [] else none

/-! ## Fields -/

/-- Adds an entry of a mapping to the fields. The key may be missing, and a name that is taken is
passed over. -/
def addEntry (d : Document) (shape : Shape) (fs : Fields) (k v : Node) : Option Fields := do
  match ← d.text? k with
  | none => return fs
  | some name =>
    if fs.taken.any (name ∈ ·) then return fs
    let fs := { fs with taken := fs.taken.map (name :: ·) }
    if name ∈ shape.names then
      if (fs.found.lookup name).isSome then none
      return { fs with found := fs.found ++ [(name, v)] }
    else if shape.strict then none
    else return fs

/-- The mappings under a key that asks to merge them. -/
def mergeTargets (d : Document) (n : Node) : Option (List (List (Node × Node))) := do
  let entries := fun m => do
    match ← d.follow m with
    | .map es _ => some es
    | _ => none
  match n with
  | .list ns _ => ns.mapM entries
  | m => return [← entries m]

/-- The names of the keys of a mapping. -/
def keyNames (d : Document) (entries : List (Node × Node)) : List String :=
  entries.filterMap fun (k, _) => (d.text? k).join

/-- Adds the entries of a mapping to the fields, and then those of the mappings that are merged
into it. The fuel bounds how many of these stand inside each other. -/
def addEntries (d : Document) (shape : Shape) :
    Nat → Fields → List (Node × Node) → Option Fields
  | 0, _, _ => none
  | fuel + 1, fs, entries => do
    if Node.repeats entries then none
    let own := entries.filter fun (k, _) => !k.isMerge
    let fs ← own.foldlM (fun fs (k, v) => d.addEntry shape fs k v) fs
    match entries.find? fun (k, _) => k.isMerge with
    | none => return fs
    | some (_, v) =>
      let taken := fs.taken.getD (d.keyNames entries)
      let targets ← d.mergeTargets v
      let merged ← targets.foldlM (addEntries d shape fuel) { fs with taken := some taken }
      return { merged with taken := if fs.taken.isNone then none else merged.taken }

/-- The fields of a record. -/
def fields (d : Document) (shape : Shape) (n : Node) : Option (List (String × Node)) := do
  match ← d.follow n with
  | .map entries _ => return (← d.addEntries shape d.size ⟨[], none⟩ entries).found
  | _ => none

end Document

/-- Reads a field, or gives its initial value. -/
def readField {α : Type} (fs : List (String × Node)) (name : String) (initial : α)
    (read : Node → Option α) : Option α :=
  match fs.lookup name with
  | none => some initial
  | some n => read n

end Clearance.Yaml
