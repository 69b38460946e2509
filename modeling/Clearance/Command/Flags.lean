/-
# Flags

The flags in front of a command, and the numbers and values that flags take.
-/
import Clearance.Library.Install
import Clearance.Text.Quoted

namespace Clearance.Command

/-- The flags that all commands share. -/
structure Settings where
  trace : Bool
  /-- Enumerating null or undefined is an error. -/
  strictEnumeration : Bool
  /-- The bound on nested calls, zero if none is given. -/
  maxDepth : Nat
  /-- The file that defines the lattice, empty if none is given. -/
  latticePath : String
deriving DecidableEq, Repr

/-- The settings without any flags. -/
def Settings.standard : Settings := ⟨false, false, 0, ""⟩

/-- The name of a flag and its value after an equals sign, if there is one. -/
def cutFlag (arg : String) : String × Option String :=
  let name := arg.toList.takeWhile (· != '=')
  (String.ofList name,
    match arg.toList.drop name.length with
    | [] => none
    | _ :: value => some (String.ofList value))

/-- The greatest number that a flag can have. -/
def greatestNumber : Nat := Nat.pow 2 63 - 1

/-- The value of decimal digits. -/
def digitsValue (cs : List Char) : Nat := cs.foldl (fun n c => 10 * n + (c.toNat - 48)) 0

/-- A positive integer of moderate size. A plus sign may stand in front. -/
def positive? (s : String) : Option Nat :=
  let digits := match s.toList with
    | '+' :: cs => cs
    | cs => cs
  if digits.isEmpty || !digits.all Char.isDigit then none
  else
    let n := digitsValue digits
    if n = 0 || n > greatestNumber then none else some n

/-- What is said of a flag whose value is no positive integer. -/
def notPositive (flag value : String) : String :=
  flag ++ " must be a positive integer (got " ++ Text.quote value ++ ")"

/-- What is said of a flag without a value. -/
def valueMissing (flag : String) : String := flag ++ " requires a value"

/-- Applies a flag with a value. -/
def Settings.withValue (s : Settings) (flag value : String) : Except String Settings :=
  if flag = "--lattice" then .ok { s with latticePath := value }
  else match positive? value with
    | some n => .ok { s with maxDepth := n }
    | none => .error (notPositive flag value)

/-- Reads the flags in front of a command; what follows them. -/
def readFlags (s : Settings) : List String → Except String (Settings × List String)
  | [] => .ok (s, [])
  | arg :: rest =>
    let (name, value) := cutFlag arg
    if name = "--trace" then readFlags { s with trace := true } rest
    else if name = "--ecma3" then readFlags { s with strictEnumeration := true } rest
    else if name = "--lattice" ∨ name = "--max-depth" then
      match value, rest with
      | some v, rest => do readFlags (← s.withValue name v) rest
      | none, v :: rest => do readFlags (← s.withValue name v) rest
      | none, [] => .error (valueMissing name)
    else .ok (s, arg :: rest)

/-- The flags and the files of the suite command. -/
structure SuiteArguments where
  jobs : Nat
  cache : String
  paths : List String
deriving DecidableEq, Repr

/-- Applies a flag of the suite command. -/
def SuiteArguments.withValue (a : SuiteArguments) (flag value : String) :
    Except String SuiteArguments :=
  if flag = "--cache" then .ok { a with cache := value }
  else match positive? value with
    | some n => .ok { a with jobs := n }
    | none => .error (notPositive "--jobs" value)

/-- Reads the arguments of the suite command. -/
def readSuiteArguments (a : SuiteArguments) : List String → Except String SuiteArguments
  | [] => .ok a
  | arg :: rest =>
    let (name, value) := cutFlag arg
    if name = "--jobs" ∨ name = "-j" ∨ name = "--cache" then
      match value, rest with
      | some v, rest => do readSuiteArguments (← a.withValue name v) rest
      | none, v :: rest => do readSuiteArguments (← a.withValue name v) rest
      | none, [] => .error (valueMissing name)
    else readSuiteArguments { a with paths := a.paths ++ [arg] } rest

end Clearance.Command
