/-
# Lexical paths

A path is a text whose components stand between slashes. Everything here looks at the text
alone: cleaning removes empty components and dots and lets a pair of dots take back the
component before it. A path that starts with a slash never leads above the root.
-/
import Clearance.Text.Search

namespace Clearance.Path

/-- The component that stands for the directory itself. -/
def here : String := "."

/-- The component that stands for the directory above. -/
def parent : String := ".."

/-- The components of a path, empty ones included. -/
def components (p : String) : List String := (Text.split ['/'] p.toList).map String.ofList

/-- A path that starts at the root. -/
def isAbsolute (p : String) : Bool := p.toList.head? == some '/'

/-- A component that is too long to be a name: it has more than 255 bytes. -/
def isLongName (c : String) : Bool := c.utf8ByteSize > 255

/-- The reason for refusing names and paths that are too long. -/
def tooLong : String := "file name too long"

/-- Why a path cannot name anything: it holds a null character, or it has 4096 bytes or more. -/
def fault? (p : String) : Option String :=
  if p.toList.contains '\x00' then some "invalid argument"
  else if p.utf8ByteSize ≥ 4096 then some tooLong
  else none

/-- Adds one component to cleaned ones, which are kept last one first. -/
def addComponent (rooted : Bool) (done : List String) (c : String) : List String :=
  if c = "" ∨ c = here then done
  else if c = parent then
    match done with
    | [] => if rooted then [] else [parent]
    | top :: rest => if top = parent then parent :: done else rest
  else c :: done

/-- The cleaned components of a list of components. -/
def cleanComponents (rooted : Bool) (cs : List String) : List String :=
  (cs.foldl (addComponent rooted) []).reverse

/-- The text of cleaned components. -/
def ofComponents (rooted : Bool) (cs : List String) : String :=
  if rooted then "/" ++ "/".intercalate cs
  else if cs.isEmpty then here
  else "/".intercalate cs

/-- The shortest path that names the same place, as far as the text tells. -/
def clean (p : String) : String :=
  ofComponents (isAbsolute p) (cleanComponents (isAbsolute p) (components p))

/-- One path inside another, cleaned. Empty paths do not count. -/
def join (p q : String) : String :=
  if p = "" then if q = "" then "" else clean q
  else if q = "" then clean p
  else clean (p ++ "/" ++ q)

/-- All but the last component, cleaned. -/
def directory (p : String) : String :=
  clean (String.ofList (p.toList.reverse.dropWhile (· != '/')).reverse)

/-- The last component, slashes at the end apart. -/
def base (p : String) : String :=
  if p = "" then here
  else match p.toList.reverse.dropWhile (· == '/') with
    | [] => "/"
    | cs => String.ofList (cs.takeWhile (· != '/')).reverse

/-- The cleaned path from the root, for a path relative to the working directory. -/
def absolute (workingDirectory p : String) : String :=
  if isAbsolute p then clean p else join workingDirectory p

end Clearance.Path
