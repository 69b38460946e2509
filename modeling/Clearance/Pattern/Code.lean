/-
# Pattern machines

A pattern is laid out as an array of instructions. Compiling is done from the end: each piece
is told where to go on, and returns where it starts.
-/
import Clearance.Pattern.Reader

namespace Clearance.Pattern

/-- Instructions of a pattern machine. Targets are positions in the code. -/
inductive Instr where
  /-- The text matches. -/
  | accept
  /-- One character of the set, then go on. -/
  | chars (set : Charset) (next : Nat)
  /-- Continue where the condition holds. -/
  | edge (e : Edge) (next : Nat)
  /-- Remember the place. -/
  | save (slot : Nat) (next : Nat)
  /-- Try the first target, then the second. -/
  | split (first second : Nat)
  /-- No way to go on. -/
  | fail

/-- A compiled pattern. -/
structure Code where
  /-- The text of the pattern. -/
  text : String
  instrs : Array Instr
  start : Nat
  /-- The number of captures, the whole match not counted. -/
  captures : Nat

/-- A piece of code: given where to go on and the code so far, it appends itself and tells
where it starts. -/
abbrev Emit := Nat → Array Instr → Nat × Array Instr

/-- Appends one instruction. -/
def emit (i : Instr) (code : Array Instr) : Nat × Array Instr := (code.size, code.push i)

/-- The branch to a loop's body or out of it, by preference. -/
def fork (lazy : Bool) (body out : Nat) : Instr := if lazy then .split out body else .split body out

/-- A body that is run once or more: the branch after each round leads back. -/
def emitMany (lazy : Bool) (body : Emit) : Emit := fun next code =>
  let slot := code.size
  let (entry, code) := body slot (code.push .fail)
  (entry, code.setIfInBounds slot (fork lazy entry next))

/-- A body that is run or skipped. -/
def emitMaybe (lazy : Bool) (body : Emit) : Emit := fun next code =>
  let (entry, code) := body next code
  emit (fork lazy entry next) code

/-- A body that is run any number of times. A body that may match nothing is run once or
more, or skipped: only then preferences come out right. -/
def emitAny (nullable lazy : Bool) (body : Emit) : Emit := fun next code =>
  if nullable then emitMaybe lazy (emitMany lazy body) next code
  else
    let slot := code.size
    let (entry, code) := body slot (code.push .fail)
    (slot, code.setIfInBounds slot (fork lazy entry next))

/-- A body that is run `n` times. -/
def emitTimes (body : Emit) : Nat → Emit
  | 0 => fun next code => (next, code)
  | n + 1 => fun next code =>
    let (entry, code) := emitTimes body n next code
    body entry code

/-- A body that is run at most `n` times: a round is only tried after the one before it. -/
def emitUpTo (lazy : Bool) (body : Emit) : Nat → Emit
  | 0 => fun next code => (next, code)
  | n + 1 => fun next code =>
    let (rest, code) := emitUpTo lazy body n next code
    let (entry, code) := body rest code
    emit (fork lazy entry next) code

/-- The code of characters one after the other, up to case if `folds`. -/
def emitLiteral (folds : Bool) : List Nat → Emit
  | [] => fun next code => (next, code)
  | n :: ns => fun next code =>
    let (entry, code) := emitLiteral folds ns next code
    emit (.chars (.single folds n) entry) code

mutual

/-- The code of a pattern. -/
def Node.emit : Node → Emit
  | .never => fun _ code => Pattern.emit .fail code
  | .empty => fun next code => (next, code)
  | .literal folds codes => emitLiteral folds codes.toList
  | .chars set => fun next code => Pattern.emit (.chars set next) code
  | .notNewline => fun next code => Pattern.emit (.chars .allButNewline next) code
  | .anyChar => fun next code => Pattern.emit (.chars .all next) code
  | .edge e => fun next code => Pattern.emit (.edge e next) code
  | .capture i body => fun next code =>
    let (stop, code) := Pattern.emit (.save (2 * i + 1) next) code
    let (entry, code) := body.emit stop code
    Pattern.emit (.save (2 * i) entry) code
  | .repeated rounds lazy body => fun next code =>
    match rounds.max with
    | none =>
      if rounds.min = 0 then emitAny body.nullable lazy body.emit next code
      else
        let (entry, code) := emitMany lazy body.emit next code
        emitTimes body.emit (rounds.min - 1) entry code
    | some max =>
      let (entry, code) := emitUpTo lazy body.emit (max - rounds.min) next code
      emitTimes body.emit rounds.min entry code
  | .sequence items => emitAll items
  | .choice items => emitChoice items

/-- The code of patterns one after the other. -/
def emitAll : List Node → Emit
  | [] => fun next code => (next, code)
  | n :: ns => fun next code =>
    let (entry, code) := emitAll ns next code
    n.emit entry code

/-- The code of alternatives. -/
def emitChoice : List Node → Emit
  | [] => fun _ code => Pattern.emit .fail code
  | [n] => n.emit
  | n :: m :: ns => fun next code =>
    let (other, code) := emitChoice (m :: ns) next code
    let (entry, code) := n.emit next code
    Pattern.emit (.split entry other) code

end

/-- The machine of a pattern. -/
def Node.compile (n : Node) (text : String) (captures : Nat) : Code :=
  let (entry, code) := (Node.capture 0 n).emit 0 #[.accept]
  ⟨text, code, entry, captures⟩

/-- The machine of a pattern's text. -/
def compile (text : String) : Except Malformed Code := do
  let (node, captures) ← read text
  .ok (node.compile text captures)

/-- Characters with a meaning of their own in patterns. -/
def isSpecial (c : Char) : Bool := "\\.+*?()|[]\x7b\x7d^$".toList.contains c

/-- The pattern that matches just the given text. -/
def literally (s : String) : String :=
  String.ofList (s.toList.flatMap fun c => if isSpecial c then ['\\', c] else [c])

end Clearance.Pattern
