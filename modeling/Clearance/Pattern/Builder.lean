/-
# Building patterns

A pattern is built on a stack. Pieces are pushed as they are read; groups and alternatives that
are still open leave marks on it. Neighbouring literals become one, alternatives with a common
beginning share it, and alternatives of single characters become one set.

Patterns may not become too large: the depth of the tree, the number of code points in it, and
the number of instructions it would come to are bounded. The last is only computed once the
product of all repetition counts seen, times the number of nodes made, could reach the bound.
-/
import Clearance.Pattern.Node

namespace Clearance.Pattern

/-- Causes of a malformed pattern. -/
inductive Cause where
  | missingBracket | missingParen | unexpectedParen | missingRepeatArgument
  | trailingBackslash | charRange | escape | namedCapture | groupOptions
  | nestedRepeat | repeatCount | nesting | large
deriving DecidableEq, Repr

/-- The wording of a cause. -/
def Cause.text : Cause → String
  | .missingBracket => "missing closing ]"
  | .missingParen => "missing closing )"
  | .unexpectedParen => "unexpected )"
  | .missingRepeatArgument => "missing argument to repetition operator"
  | .trailingBackslash => "trailing backslash at end of expression"
  | .charRange => "invalid character class range"
  | .escape => "invalid escape sequence"
  | .namedCapture => "invalid named capture"
  | .groupOptions => "invalid or unsupported Perl syntax"
  | .nestedRepeat => "invalid nested repetition operator"
  | .repeatCount => "invalid repeat count"
  | .nesting => "expression nests too deeply"
  | .large => "expression too large"

/-- Options of a group. -/
structure Options where
  /-- Characters count up to case. -/
  folded : Bool
  /-- The anchors match at line ends too. -/
  lines : Bool
  /-- The dot matches the line feed. -/
  dotAll : Bool
  /-- Repetitions are lazy unless marked. -/
  ungreedy : Bool
deriving DecidableEq, Repr

/-- The options at the start of a pattern. -/
def Options.default : Options := ⟨false, false, false, false⟩

/-- What stands on the stack. -/
inductive Item where
  | piece (n : Node)
  /-- The opening of a group: its number if it captures, and the options outside it. -/
  | opening (capture : Option Nat) (options : Options)
  /-- The end of an alternative. -/
  | bar

/-- What an item is for the bounds. -/
def Item.node : Item → Node
  | .piece n => n
  | _ => .empty

/-- The greatest number of instructions. -/
def maxSize : Nat := 3355443

/-- The greatest number of code points. -/
def maxCodes : Nat := 33554432

/-- The greatest height of a tree. -/
def maxHeight : Nat := 1000

/-- The state of building. -/
structure State where
  options : Options
  /-- The stack, its top first. -/
  stack : List Item
  captures : Nat
  /-- The number of nodes made. -/
  made : Nat
  /-- How many of them are free to be used again. -/
  free : Nat
  /-- The number of code points pushed. -/
  codes : Nat
  /-- The product of the repetition counts seen. -/
  copies : Nat
  /-- Whether sizes are computed. -/
  sized : Bool

/-- The state before anything has been read. -/
def State.start : State := ⟨.default, [], 0, 0, 0, 0, 1, false⟩

/-- Steps of building. -/
abbrev Build := StateT State (Except Cause)

namespace Build

/-- Makes a node, or takes a free one. -/
def make : Build Unit := modify fun s =>
  if s.free > 0 then { s with free := s.free - 1 } else { s with made := s.made + 1 }

/-- Gives a node free. -/
def release : Build Unit := modify fun s => { s with free := s.free + 1 }

/-- The product of repetition counts with those of one more node. -/
def copiesWith (copies : Nat) : Node → Nat
  | .repeated (.counted min max) _ _ =>
    let n := Nat.max 1 (max.getD min)
    if n > maxSize / copies then maxSize else copies * n
  | _ => copies

/-- Checks the number of instructions of a node. When sizes are computed for the first time,
all nodes on the stack are checked. -/
def checkSize (n : Node) : Build Unit := do
  let s ← get
  if s.sized then
    if n.size > maxSize then throw .large
  else
    let copies := copiesWith s.copies n
    let sized := s.made ≥ maxSize / copies
    set { s with copies, sized }
    if sized && (n.size > maxSize || s.stack.any fun i => i.node.size > maxSize) then
      throw .large

/-- Checks the bounds for a node. -/
def check (n : Node) : Build Unit := do
  if (← get).codes > maxCodes then throw .large
  checkSize n
  if (← get).made ≥ maxHeight && n.height > maxHeight then throw .nesting

/-- Joins the two topmost literals. With a code point to follow, the upper one becomes that
literal instead of going away; the result tells whether it did. -/
def joinLiterals (next : Option (Bool × Nat)) : Build Bool := do
  match (← get).stack with
  | .piece (.literal f a) :: .piece (.literal g b) :: rest =>
    if f != g then return false
    let joined := Item.piece (.literal g (b ++ a))
    match next with
    | some (folds, n) =>
      modify fun s => { s with stack := .piece (.literal folds #[n]) :: joined :: rest }
      return true
    | none =>
      modify fun s => { s with stack := joined :: rest }
      release
      return false
  | _ => return false

/-- The literal for a set of one code point, or of two that are equal up to case and to no
other. -/
def literalOf? (s : Charset) : Option (Bool × Nat) :=
  let paired := fun (a b : Nat) => (Charset.single true a) == .ofRanges [(a, a), (b, b)]
  match s.ranges with
  | [(a, b)] =>
    if a = b then some (false, a) else if b = a + 1 && paired a b then some (true, a) else none
  | [(a, b), (c, d)] => if a = b && c = d && paired a c then some (true, a) else none
  | _ => none

/-- Puts a node on the stack and checks it. -/
def place (n : Node) : Build Unit := do
  modify fun s => { s with stack := .piece n :: s.stack }
  check n

/-- Pushes a node. -/
def push (n : Node) : Build Unit := do
  modify fun s => { s with codes := s.codes + n.codeCount }
  match n with
  | .chars set =>
    match literalOf? set with
    | some (folds, code) =>
      if !(← joinLiterals (some (folds, code))) then place (.literal folds #[code])
    | none =>
      discard (joinLiterals none)
      place n
  | _ =>
    discard (joinLiterals none)
    place n

/-- Makes a node and pushes it. -/
def add (n : Node) : Build Unit := do
  make
  push n

/-- Makes a mark and pushes it. -/
def mark (i : Item) : Build Unit := do
  make
  discard (joinLiterals none)
  modify fun s => { s with stack := i :: s.stack }
  check .empty

/-- Adds a character. -/
def literal (n : Nat) : Build Unit := do
  let folds := (← get).options.folded
  add (.literal folds #[if folds then leastVariant n else n])

/-- Takes the pieces above the topmost mark off the stack, the lowest first. -/
def takePieces : Build (List Node) := do
  let s ← get
  let pieces := s.stack.takeWhile fun
    | .piece _ => true
    | _ => false
  set { s with stack := s.stack.drop pieces.length }
  return (pieces.map Item.node).reverse

/-- The sequence of several nodes; sequences among them are taken apart. -/
def sequenceOf : List Node → Build Node
  | [n] => return n
  | ns => do
    make
    let items ← ns.mapM fun
      | .sequence items => do
        release
        return items
      | n => return [n]
    return .sequence items.flatten

/-- Makes a sequence of the pieces above the topmost mark. -/
def endSequence : Build Unit := do
  discard (joinLiterals none)
  match ← takePieces with
  | [] => add .empty
  | ns => push (← sequenceOf ns)

/-- The literal that a node begins with. -/
def leadingLiteral : Node → Bool × List Nat
  | .literal folds codes => (folds, codes.toList)
  | .sequence (.literal folds codes :: _) => (folds, codes.toList)
  | _ => (false, [])

/-- The common beginning of two lists. -/
def commonStart : List Nat → List Nat → List Nat
  | a :: as, b :: bs => if a = b then a :: commonStart as bs else []
  | _, _ => []

/-- A node without the first `k` code points of the literal it begins with. -/
def dropLiteral (k : Nat) : Node → Build Node
  | .literal folds codes =>
    return if codes.size ≤ k then .empty else .literal folds (codes.extract k codes.size)
  | .sequence (.literal folds codes :: rest) =>
    if codes.size ≤ k then do
      release
      match rest with
      | [n] =>
        release
        return n
      | _ => return .sequence rest
    else return .sequence (.literal folds (codes.extract k codes.size) :: rest)
  | n => return n

/-- The node that another one begins with. -/
def leadingNode? : Node → Option Node
  | .empty => none
  | .sequence (.empty :: _) => none
  | .sequence (n :: _) => some n
  | n => some n

/-- A node without the one it begins with, which is given free unless it is kept. -/
def dropLeading (keep : Bool) : Node → Build Node
  | .sequence (_ :: rest) => do
    if !keep then release
    match rest with
    | [] => return .empty
    | [n] =>
      release
      return n
    | _ => return .sequence rest
  | _ => do
    if !keep then release
    make
    return .empty

/-- Splits the rest of a list into runs, after the nodes of the current run, last one first, and
what they have in common. -/
def runsFrom {α : Type} (start : Node → α) (extend : α → Node → Option α) :
    α → List Node → List Node → List (α × List Node)
  | common, run, [] => [(common, run.reverse)]
  | common, run, n :: ns =>
    match extend common n with
    | some common => runsFrom start extend common (n :: run) ns
    | none => (common, run.reverse) :: runsFrom start extend (start n) [n] ns

/-- Splits a list into runs: a node belongs to the run before it when `extend` says so, given
what the run has in common. -/
def runsBy {α : Type} (start : Node → α) (extend : α → Node → Option α) :
    List Node → List (α × List Node)
  | [] => []
  | n :: ns => runsFrom start extend (start n) [n] ns

/-- Lets alternatives share the literals they begin with. -/
def shareLiterals (choose : List Node → Build Node) (ns : List Node) : Build (List Node) :=
  let extend := fun (common : Bool × List Nat) (n : Node) =>
    let (folds, codes) := leadingLiteral n
    match commonStart common.2 codes with
    | [] => none
    | codes => if folds = common.1 then some (folds, codes) else none
  (runsBy leadingLiteral extend ns).mapM fun ((folds, codes), run) => do
    match run with
    | [n] => return n
    | _ =>
      make
      let run ← run.mapM fun n => do
        let n ← dropLiteral codes.length n
        check n
        return n
      let rest ← choose run
      make
      return .sequence [.literal folds codes.toArray, rest]

/-- Lets alternatives share the single characters they begin with. -/
def shareLeading (choose : List Node → Build Node) (ns : List Node) : Build (List Node) :=
  let extend := fun (common : Option Node) (n : Node) =>
    match common, leadingNode? n with
    | some first, some next => if first.sameChars next then some common else none
    | _, _ => none
  (runsBy leadingNode? extend ns).mapM fun (first, run) => do
    match first, run with
    | _, [n] => return n
    | none, _ => return .choice run
    | some first, _ =>
      let run ← run.zipIdx.mapM fun (n, i) => do
        let n ← dropLeading (i == 0) n
        check n
        return n
      let rest ← choose run
      make
      return .sequence [first, rest]

/-- Makes one set of alternatives that are single characters. -/
def mergeSets (ns : List Node) : Build (List Node) :=
  let extend := fun (common : Bool) (n : Node) => if common && n.isOneChar then some true else none
  (runsBy Node.isOneChar extend ns).mapM fun (_, run) => do
    match run with
    | n :: m :: more =>
      (m :: more).forM fun _ => release
      return ((m :: more).foldl Node.mergeChars n).clean
    | [n] => return n
    | [] => return .never

/-- Leaves one of several empty alternatives that follow each other. -/
def mergeEmpty : List Node → List Node
  | .empty :: .empty :: ns => mergeEmpty (.empty :: ns)
  | n :: ns => n :: mergeEmpty ns
  | [] => []

/-- The choice between several nodes; choices among them are taken apart. Alternatives that
begin alike share their beginnings. The fuel bounds how often they do. -/
def choiceOf : Nat → List Node → Build Node
  | _, [n] => return n
  | fuel, ns => do
    make
    let items ← ns.mapM fun
      | .choice items => do
        release
        return items
      | n => return [n]
    let items := items.flatten
    match fuel with
    | 0 => return .choice items
    | fuel + 1 =>
      let items ← shareLiterals (choiceOf fuel) items
      let items ← shareLeading (choiceOf fuel) items
      let items ← mergeSets items
      match mergeEmpty items with
      | [n] =>
        release
        return n
      | items => return .choice items

/-- Cleans the last of several nodes. -/
def cleanLast : List Node → List Node
  | [] => []
  | [n] => [n.clean]
  | n :: ns => n :: cleanLast ns

/-- Makes a choice of the pieces above the topmost opening. The fuel bounds how often
alternatives share their beginnings. -/
def endChoice (fuel : Nat) : Build Unit := do
  match ← takePieces with
  | [] => add .never
  | ns => push (← choiceOf fuel (cleanLast ns))

/-- Brings the topmost piece below the bar under it, if there is one: pieces below a bar are
alternatives. Two single characters become one set. -/
def passBar : Build Bool := do
  match (← get).stack with
  | .piece n :: .bar :: below =>
    match below with
    | .piece m :: rest =>
      if n.isOneChar && m.isOneChar then
        modify fun s => { s with stack := .bar :: .piece (m.mergeChars n) :: rest }
        release
      else modify fun s => { s with stack := .bar :: .piece n :: .piece m.clean :: rest }
    | _ => modify fun s => { s with stack := .bar :: .piece n :: below }
    return true
  | _ => return false

/-- Ends an alternative. -/
def endAlternative : Build Unit := do
  endSequence
  if !(← passBar) then mark .bar

/-- Makes one node of all that stands above the topmost opening. -/
def gather (fuel : Nat) : Build Unit := do
  endSequence
  if ← passBar then modify fun s => { s with stack := s.stack.drop 1 }
  endChoice fuel

/-- Opens a group; the options inside it are `options`. -/
def openGroup (captures : Bool) (options : Options) : Build Unit := do
  let s ← get
  let index := if captures then s.captures + 1 else s.captures
  mark (.opening (if captures then some index else none) s.options)
  modify fun s => { s with options, captures := index }

/-- Closes the innermost group. -/
def closeGroup (fuel : Nat) : Build Unit := do
  gather fuel
  match (← get).stack with
  | .piece n :: .opening capture options :: rest =>
    modify fun s => { s with options, stack := rest }
    push (match capture with
      | some i => .capture i n
      | none => n)
  | _ => throw .unexpectedParen

/-- Ends the pattern. -/
def finish (fuel : Nat) : Build Node := do
  gather fuel
  match (← get).stack with
  | [.piece n] => return n
  | _ => throw .missingParen

/-- Repeats the topmost piece, which is `n`. -/
def repeatTop (rounds : Rounds) (lazy : Bool) (n : Node) : Build Unit := do
  make
  let node := Node.repeated rounds lazy n
  modify fun s => { s with stack := .piece node :: s.stack.drop 1 }
  check node

end Build
end Clearance.Pattern
