/-
# Cached sources

The scripts of a suite with a source are taken from a cache: below the cache directory, each
suite has a directory, and below that each revision. Names become single path components.
Sources that are not in the cache are cloned there, if a remote service can do this.
-/
import Clearance.Suite.Manifest
import Clearance.Text.Quoted

namespace Clearance.Suite

/-- A character that stays as it is in a path component. -/
def isPlainChar (c : Char) : Bool := c.isAlphanum || c == '-' || c == '_' || c == '.'

/-- The path component for a name. -/
def segment (name : String) : String :=
  match (Text.trim name).toList with
  | [] => "_"
  | cs => String.ofList (cs.map fun c => if isPlainChar c then c else '_')

/-- The directory of a suite in a cache. -/
def baseDirectory (cache name : String) : String := Path.join cache (segment name)

/-- The directory of a revision. -/
def checkoutDirectory (base rev : String) : String := Path.join base (segment rev)

/-- The scripts of a suite: where they are, and their revision if they come from a source. -/
structure Checkout where
  directory : String
  revision : String
deriving DecidableEq, Repr

/-- The path and all that it is below, the shortest first. -/
def ancestry (p : String) : List String :=
  let rooted := Path.isAbsolute p
  let cs := Path.cleanComponents rooted (Path.components p)
  (List.range cs.length).map fun n => Path.ofComponents rooted (cs.take (n + 1))

/-- Why a directory cannot be made where one is needed, given what stands there. -/
def Entry.obstacle? (path : String) : Entry → Option String
  | .file _ => some "not a directory"
  | .directory => none
  | .absent _ =>
    (Path.fault? path).or (if Path.isLongName (Path.base path) then some Path.tooLong else none)

/-- The first path at which a directory cannot be made, and why. The error is a path about
which nothing is known yet. -/
def obstacle? (disk : Disk) : List String → Except String (Option (String × String))
  | [] => .ok none
  | p :: rest =>
    match disk p with
    | none => .error p
    | some e =>
      match Entry.obstacle? p e with
      | some reason => .ok (some (p, reason))
      | none => obstacle? disk rest

/-- Whether something stands at a path below a base directory, all directories above which have
been made. The error is the path if nothing is known about it yet. -/
def isThere (disk : Disk) (base p : String) : Except String Bool :=
  if p ∈ ancestry base then .ok true
  else match disk p with
    | none => .error p
    | some e => .ok e.isPresent

/-! ## Remote sources -/

/-- A commit of a repository, named by a hash. -/
structure Commit where
  hash : BitVec 160
deriving DecidableEq

/-- The digits of the hash. -/
def Commit.text (c : Commit) : String := String.ofList (Text.hexDigits 40 c.hash.toNat)

/-- A cloned repository. -/
structure Clone where
  /-- The commit that a revision stands for. -/
  resolve : (revision : String) → Except String Commit
  /-- What sets the files of the clone to those of a commit. -/
  worktree : Except String (Commit → Except String Unit)

/-- What brings sources to a cache. Each service can fail with a message. -/
structure Remote where
  /-- The path of a directory in the given one at which nothing stands. -/
  temporary : (base : String) → Except String String
  /-- Clones the repository at an address into a directory. -/
  clone : (address directory : String) → Except String Clone
  /-- Gives a directory another path. -/
  rename : (old new : String) → Except String Unit

namespace Remote

/-- Nothing is found at any address. -/
def nowhere : Remote where
  temporary base := .ok (Path.join base "git-fetch")
  clone _ _ := .error "repository not found"
  rename _ _ := .ok ()

/-- The revision of a source, the newest one if it names none. -/
def revision (source : Source) : String := if source.rev = "" then "HEAD" else source.rev

/-- Clones a source into a new directory and finds the commit of its revision. -/
def bring (remote : Remote) (base : String) (source : Source) :
    Except String (String × Clone × Commit) := do
  let directory ← remote.temporary base
  let clone ← (remote.clone source.git directory).mapError
    fun e => "git clone " ++ source.git ++ ": " ++ e
  let commit ← (clone.resolve (revision source)).mapError
    fun e => "resolve revision " ++ revision source ++ ": " ++ e
  return ⟨directory, clone, commit⟩

/-- Sets the files of a clone to those of a commit and moves it to its directory. -/
def install (remote : Remote) (source : Source) (directory : String) (clone : Clone)
    (commit : Commit) (target : String) : Except String Unit := do
  let checkOut ← clone.worktree
  (checkOut commit).mapError fun e => "git checkout " ++ revision source ++ ": " ++ e
  remote.rename directory target

/-- The directory for the commit of a source, which is brought there if nothing stands there
yet. -/
def checkOut (remote : Remote) (disk : Disk) (base : String) (source : Source) :
    Except String (Except String Checkout) := do
  match remote.bring base source with
  | .error e => return .error e
  | .ok (directory, clone, commit) =>
    let target := checkoutDirectory base commit.text
    if ← isThere disk base target then return .ok ⟨target, commit.text⟩
    return (remote.install source directory clone commit target).map fun _ => ⟨target, commit.text⟩

end Remote

/-! ## Fetching -/

/-- Where the scripts of a suite are, or why they are nowhere. The outer error is a path about
which nothing is known yet. -/
def Remote.fetch (remote : Remote) (disk : Disk) (m : Manifest) (cache : String) :
    Except String (Except String Checkout) := do
  match m.source with
  | none => return .ok ⟨m.directory, ""⟩
  | some source =>
    if cache = "" then
      return .error ("suite " ++ m.name ++ ": cache directory required to fetch " ++ source.git)
    let base := baseDirectory cache m.name
    match ← obstacle? disk (ancestry base) with
    | some (p, reason) => return .error ("mkdir " ++ p ++ ": " ++ reason)
    | none =>
      if source.rev = "" then remote.checkOut disk base source
      else
        let existing := checkoutDirectory base source.rev
        if ← isThere disk base existing then return .ok ⟨existing, source.rev⟩
        remote.checkOut disk base source

/-- Where the scripts of a suite are if nothing can be cloned. -/
def fetch (disk : Disk) (m : Manifest) (cache : String) : Except String (Except String Checkout) :=
  Remote.nowhere.fetch disk m cache

end Clearance.Suite
