/-
# Files

Programs only read files. A disk tells what stands at a path, or that this is not known yet:
whoever runs a program then looks it up and runs the program again with more knowledge.
-/
import Clearance.Path

namespace Clearance

/-- What stands at a path. -/
inductive Entry where
  | file (text : String)
  | directory
  /-- Nothing that can be opened, for the given reason. -/
  | absent (reason : String)
deriving DecidableEq, Repr

namespace Entry

/-- The text of a file, or why it cannot be read. -/
def read (path : String) : Entry → Except String String
  | .file text => .ok text
  | .directory => .error ("read " ++ path ++ ": is a directory")
  | .absent reason => .error ("open " ++ path ++ ": " ++ reason)

/-- Nothing stands at the path. -/
def missing : Entry := .absent "no such file or directory"

/-- The path leads through a file. -/
def blocked : Entry := .absent "not a directory"

/-- Something stands at the path. -/
def isPresent : Entry → Bool
  | .absent _ => false
  | _ => true

end Entry

/-- What is known about the files. -/
abbrev Disk := String → Option Entry

namespace Disk

/-- The disk about which nothing is known. -/
def unknown : Disk := fun _ => none

/-- Adds what stands at a path. -/
def learn (d : Disk) (path : String) (e : Entry) : Disk :=
  fun p => if p = path then some e else d p

end Disk

/-- Files by their cleaned components from the root. -/
abbrev FileTable := List (List String × Entry)

namespace FileTable

/-- What stands at cleaned components: a directory stands wherever something stands below. -/
def find? (t : FileTable) (cs : List String) : Option Entry :=
  match t.lookup cs with
  | some e => some e
  | none => if t.any (fun (path, _) => cs.isPrefixOf path) then some .directory else none

/-- Follows components from a directory, which is given last component first. -/
def follow (t : FileTable) : List String → List String → Entry
  | place, [] => (t.find? place.reverse).getD .missing
  | place, c :: cs =>
    match t.find? place.reverse with
    | some .directory =>
      if c = "" ∨ c = Path.here then follow t place cs
      else if c = Path.parent then follow t place.tail cs
      else if Path.isLongName c then .absent Path.tooLong
      else follow t (c :: place) cs
    | some (.file _) => .blocked
    | _ => .missing

/-- A disk that holds the files of a table. -/
def disk (t : FileTable) (workingDirectory : String) : Disk := fun p =>
  let start := if Path.isAbsolute p then [] else Path.components workingDirectory
  some <| if p = "" then .missing else match Path.fault? p with
    | some reason => .absent reason
    | none => follow t [] (start ++ Path.components p)

/-- The table of named texts in a directory. A name that ends with a slash is a directory. -/
def ofNamed (workingDirectory : String) (files : List (String × String)) : FileTable :=
  (Path.cleanComponents true (Path.components workingDirectory), .directory) ::
    files.map fun (name, text) =>
      (Path.cleanComponents true (Path.components workingDirectory ++ Path.components name),
        if name.endsWith "/" then .directory else .file text)

end FileTable
end Clearance
