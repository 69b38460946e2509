/-
# Reading patterns

The text of a pattern is read from left to right, and what is read is put on the builder's
stack. The first fault ends the reading; a fault names its cause and the piece of the text that
shows it.
-/
import Clearance.Pattern.Builder
import Clearance.Decimal.Numeral

namespace Clearance.Pattern

/-- A malformed pattern: the cause and the piece of the text. -/
structure Malformed where
  cause : Cause
  piece : List Char

/-- Runs steps of building; what goes wrong there is a fault of the whole text. -/
def State.build {α : Type} (s : State) (whole : List Char) (b : Build α) :
    Except Malformed (α × State) :=
  match b.run s with
  | .ok r => .ok r
  | .error cause => .error ⟨cause, whole⟩

/-- The wording of a fault. -/
def Malformed.message (m : Malformed) : String :=
  m.cause.text ++ ": \x60" ++ String.ofList m.piece ++ "\x60"

/-- What stands between a place and a later one. -/
def between (start stop : List Char) : List Char := start.take (start.length - stop.length)

/-- A repetition number. A number with a leading zero is none; `none` inside stands for a
number that is too large to matter. -/
def readCount? (cs : List Char) : Option (Option Nat × List Char) :=
  let ds := cs.takeWhile Char.isDigit
  let rest := cs.dropWhile Char.isDigit
  match ds with
  | [] => none
  | '0' :: _ :: _ => none
  | _ =>
    some (if ds.length > 9 then none else some (Decimal.valueOf 10 (ds.map Decimal.digitValue)),
      rest)

/-- The bounds of a repetition in braces: the least and greatest number of rounds. -/
inductive Bounds where
  | valid (min : Nat) (max : Option Nat)
  | tooLarge

/-- The greatest number of rounds that may be written. -/
def maxRounds : Nat := 1000

/-- Bounds within the limit and in order. -/
def Bounds.ofCounts (min : Option Nat) (max : Option (Option Nat)) : Bounds :=
  match min, max with
  | some lo, none => if lo > maxRounds then .tooLarge else .valid lo none
  | some lo, some (some hi) =>
    if lo > maxRounds || hi > maxRounds || lo > hi then .tooLarge else .valid lo (some hi)
  | _, _ => .tooLarge

/-- Reads bounds in braces. Text that is no bounds is none; its brace stands for itself. -/
def readBounds? : List Char → Option (Bounds × List Char)
  | '\x7b' :: cs => do
    let (min, rest) ← readCount? cs
    match rest with
    | '\x7d' :: rest => some (.ofCounts min (some min), rest)
    | ',' :: '\x7d' :: rest => some (.ofCounts min none, rest)
    | ',' :: rest =>
      let (max, rest) ← readCount? rest
      match rest with
      | '\x7d' :: rest => some (.ofCounts min (some max), rest)
      | _ => none
    | _ => none
  | _ => none

/-- Applies a repetition to the topmost piece. `before` is the place of the operator, `after`
the place after it, `previous` the place of a repetition operator that ends at `before`. -/
def State.repeat (s : State) (whole : List Char) (rounds : Rounds) (before after : List Char)
    (previous : Option (List Char)) : Except Malformed (State × List Char) :=
  let (lazy, after) := match after with
    | '?' :: rest => (!s.options.ungreedy, rest)
    | _ => (s.options.ungreedy, after)
  match previous with
  | some start => .error ⟨.nestedRepeat, between start after⟩
  | none =>
    match s.stack with
    | .piece n :: _ => do
      let (_, s) ← s.build whole (Build.repeatTop rounds lazy n)
      let node := Node.repeated rounds lazy n
      match rounds with
      | .counted min max =>
        if (min ≥ 2 || max.getD 0 ≥ 2) && !node.copiesWithin maxRounds then
          .error ⟨.repeatCount, between before after⟩
        else .ok (s, after)
      | _ => .ok (s, after)
    | _ => .error ⟨.missingRepeatArgument, between before after⟩

/-- The digits of a code point in braces, after the opening brace: the value and the rest. -/
def readBraced : List Char → Nat → Bool → Except (List Char) (Nat × List Char)
  | [], _, _ => .error []
  | '\x7d' :: rest, v, some' => if some' then .ok (v, rest) else .error rest
  | c :: rest, v, _ =>
    match (Decimal.radixValue? c).filter (· < 16) with
    | some d => if 16 * v + d > 0x10FFFF then .error rest else readBraced rest (16 * v + d) true
    | none => .error rest

/-- Octal digits. -/
def isOctalDigit (c : Char) : Bool := '0' ≤ c && c ≤ '7'

/-- Reads an escaped character at `start`, which is a backslash. -/
def readEscape (start : List Char) : Except Malformed (Nat × List Char) :=
  let bad := fun (rest : List Char) => Except.error ⟨.escape, between start rest⟩
  match start.drop 1 with
  | [] => .error ⟨.trailingBackslash, []⟩
  | c :: rest =>
    let octal := fun (_ : Unit) =>
      let more := (rest.take 2).takeWhile isOctalDigit
      Except.ok (Decimal.valueOf 8 ((c :: more).map Decimal.digitValue), rest.drop more.length)
    match c with
    | 'a' => .ok (7, rest)
    | 'f' => .ok (12, rest)
    | 'n' => .ok (10, rest)
    | 'r' => .ok (13, rest)
    | 't' => .ok (9, rest)
    | 'v' => .ok (11, rest)
    | '0' => octal ()
    | 'x' =>
      match rest with
      | [] => bad []
      | '\x7b' :: digits =>
        match readBraced digits 0 false with
        | .ok r => .ok r
        | .error stop => bad stop
      | [_] => bad []
      | a :: b :: rest =>
        match Decimal.readDigits? 16 [a, b] with
        | some n => .ok (n, rest)
        | none => bad rest
    | _ =>
      if isOctalDigit c && (rest.head?.map isOctalDigit).getD false then octal ()
      else if c.toNat < 128 && !c.isAlphanum then .ok (c.toNat, rest)
      else bad rest

/-- Reads a Unicode property at `start`, a backslash and the letter p. -/
def readProperty (folded : Bool) (start : List Char) : Except Malformed (Charset × List Char) :=
  let negated := start.drop 1 |>.head? |> (· == some 'P')
  let (name, rest) := match start.drop 2 with
    | '\x7b' :: cs =>
      match cs.dropWhile (· != '\x7d') with
      | [] => (none, [])
      | _ :: rest => (some (cs.takeWhile (· != '\x7d')), rest)
    | c :: rest => (some [c], rest)
    | [] => (some [], [])
  match name.bind (property? folded negated) with
  | some p => .ok (p, rest)
  | none => .error ⟨.charRange, between start rest⟩

/-- The place after the first `:]`, with what stands before it. -/
def cutNamed : List Char → Option (List Char × List Char)
  | ':' :: ']' :: rest => some ([], rest)
  | c :: rest => (cutNamed rest).map fun r => (c :: r.1, r.2)
  | [] => none

/-- Reads one character of a bracketed set; `whole` is the place of the bracket. -/
def readSetChar (whole : List Char) : List Char → Except Malformed (Nat × List Char)
  | [] => .error ⟨.missingBracket, whole⟩
  | '\\' :: rest => readEscape ('\\' :: rest)
  | c :: rest => .ok (c.toNat, rest)

/-- Reads one part of a bracketed set. -/
def readPart (folded : Bool) (whole cs : List Char) : Except Malformed (Charset × List Char) :=
  let range := fun (lo hi : Nat) => Charset.closed ⟨[(lo, hi)]⟩ folded false
  let single := fun (_ : Unit) => do
    let (lo, rest) ← readSetChar whole cs
    match rest with
    | '-' :: c :: more =>
      if c == ']' then .ok (range lo lo, rest)
      else
        let (hi, stop) ← readSetChar whole (c :: more)
        if hi < lo then .error ⟨.charRange, between cs stop⟩
        else .ok (range lo hi, stop)
    | _ => .ok (range lo lo, rest)
  match cs with
  | '[' :: ':' :: rest =>
    match cutNamed rest with
    | some (name, after) =>
      match namedClass? folded name with
      | some p => .ok (p, after)
      | none => .error ⟨.charRange, between cs after⟩
    | none => single ()
  | '\\' :: c :: rest =>
    if c == 'p' || c == 'P' then readProperty folded cs
    else match letterClass? folded c with
      | some p => .ok (p, rest)
      | none => single ()
  | _ => single ()

/-- Reads the parts of a bracketed set up to the closing bracket, which cannot be the first
character. The fuel bounds the number of parts. -/
def readParts (folded : Bool) (whole : List Char) :
    Nat → Bool → List Char → Except Malformed (List Charset × List Char)
  | 0, _, cs => .ok ([], cs)
  | fuel + 1, first, cs =>
    match cs, first with
    | ']' :: rest, false => .ok ([], rest)
    | _, _ => do
      let (p, rest) ← readPart folded whole cs
      let (ps, stop) ← readParts folded whole fuel false rest
      .ok (p :: ps, stop)

/-- Reads a bracketed set; `whole` is the place of its bracket. The fuel bounds the number of
parts. -/
def readSet (folded : Bool) (whole : List Char) (fuel : Nat) :
    Except Malformed (Charset × List Char) := do
  let (negated, cs) := cutCaret (whole.drop 1)
  let (ps, rest) ← readParts folded whole fuel true cs
  let set := match ps with
    | [p] => p
    | _ => .ofRanges (ps.flatMap Charset.ranges)
  .ok (if negated then set.complement else set, rest)

/-- Reads option letters up to a colon or parenthesis. The options, whether a minus sign has
been read, and whether a letter has been read since. -/
def readOptions :
    List Char → Options → Bool → Bool → Except (List Char) (Options × Bool × List Char)
  | [], _, _, _ => .error []
  | c :: rest, o, minus, seen =>
    match c with
    | 'i' => readOptions rest { o with folded := !minus } minus true
    | 'm' => readOptions rest { o with lines := !minus } minus true
    | 's' => readOptions rest { o with dotAll := !minus } minus true
    | 'U' => readOptions rest { o with ungreedy := !minus } minus true
    | '-' => if minus then .error rest else readOptions rest o true false
    | ':' | ')' => if minus && !seen then .error rest else .ok (o, c == ':', rest)
    | _ => .error rest

/-- Reads the rest of a group whose opening is followed by a question mark: a named group, a
group with options, or options for the rest of the enclosing group. -/
def State.special (s : State) (whole start : List Char) : Except Malformed (State × List Char) :=
  let named := fun (skip : Nat) =>
    match start.dropWhile (· != '>') with
    | [] => Except.error ⟨.namedCapture, start⟩
    | _ :: rest => do
      let piece := between start rest
      let name := (piece.drop skip).dropLast
      if name.isEmpty || !name.all isWordChar then .error ⟨.namedCapture, piece⟩
      let (_, s) ← s.build whole (Build.openGroup true s.options)
      .ok (s, rest)
  match start with
  | '(' :: '?' :: 'P' :: '<' :: _ :: _ => named 4
  | '(' :: '?' :: '<' :: _ :: _ => named 3
  | _ =>
    match readOptions (start.drop 2) s.options false false with
    | .error rest => .error ⟨.groupOptions, between start rest⟩
    | .ok (o, group, rest) =>
      if group then do
        let (_, s) ← s.build whole (Build.openGroup false o)
        .ok (s, rest)
      else .ok ({ s with options := o }, rest)

/-- The place after `\E`, with what stands before it. -/
def cutLiteral : List Char → List Char × List Char
  | '\\' :: 'E' :: rest => ([], rest)
  | c :: rest => let r := cutLiteral rest; (c :: r.1, r.2)
  | [] => ([], [])

/-- Reads what a backslash at `start` begins. -/
def State.backslash (s : State) (whole start : List Char) : Except Malformed (State × List Char) :=
  let after := fun (b : Build Unit) (rest : List Char) => do
    let (_, s) ← s.build whole b
    .ok (s, rest)
  let character := fun (_ : Unit) => do
    let (n, rest) ← readEscape start
    after (Build.literal n) rest
  match start.drop 1 with
  | [] => character ()
  | c :: rest =>
    match c with
    | 'A' => after (Build.add (.edge .textStart)) rest
    | 'b' => after (Build.add (.edge .word)) rest
    | 'B' => after (Build.add (.edge .notWord)) rest
    | 'z' => after (Build.add (.edge .textEnd)) rest
    | 'C' => .error ⟨.escape, ['\\', 'C']⟩
    | 'Q' =>
      let (literal, rest) := cutLiteral rest
      after (literal.forM fun c => Build.literal c.toNat) rest
    | _ =>
      if c == 'p' || c == 'P' then do
        let (set, rest) ← readProperty s.options.folded start
        after (Build.add (.chars set)) rest
      else match letterClass? s.options.folded c with
        | some set => after (Build.add (.chars set)) rest
        | none => character ()

/-- Reads a pattern from a place on. `whole` is its whole text; `previous` is the place of a
repetition operator that ends here. The fuel bounds the number of pieces. -/
def readFrom (whole : List Char) (sharing : Nat) :
    Nat → State → List Char → Option (List Char) → Except Malformed State
  | 0, s, _, _ => .ok s
  | _, s, [], _ => .ok s
  | fuel + 1, s, c :: rest, previous =>
    let start := c :: rest
    let repeated := fun (rounds : Rounds) (after : List Char) => do
      let (s, after) ← s.repeat whole rounds start after previous
      readFrom whole sharing fuel s after (some start)
    let go := fun (r : State × List Char) => readFrom whole sharing fuel r.1 r.2 none
    let step := fun (b : Build Unit) => do
      let (_, s) ← s.build whole b
      go (s, rest)
    match c with
    | '(' =>
      match rest with
      | '?' :: _ => do go (← s.special whole start)
      | _ => step (Build.openGroup true s.options)
    | '|' => step Build.endAlternative
    | ')' => step (Build.closeGroup sharing)
    | '^' => step (Build.add (.edge (if s.options.lines then .lineStart else .textStart)))
    | '$' => step (Build.add (.edge (if s.options.lines then .lineEnd else .textEnd)))
    | '.' => step (Build.add (if s.options.dotAll then .anyChar else .notNewline))
    | '[' => do
      let (set, rest) ← readSet s.options.folded start (fuel + 1)
      let (_, s) ← s.build whole (Build.add (.chars set))
      go (s, rest)
    | '*' => repeated .any rest
    | '+' => repeated .oneOrMore rest
    | '?' => repeated .atMostOne rest
    | '\x7b' =>
      match readBounds? start with
      | some (.valid min max, after) => repeated (.counted min max) after
      | some (.tooLarge, after) => .error ⟨.repeatCount, between start after⟩
      | none => step (Build.literal c.toNat)
    | '\\' => do go (← s.backslash whole start)
    | _ => step (Build.literal c.toNat)

/-- The pattern of a text, and the number of its captures. -/
def read (text : String) : Except Malformed (Node × Nat) := do
  let whole := text.toList
  let sharing := whole.length + 1
  let s ← readFrom whole sharing (whole.length + 1) .start whole none
  let (node, s) ← s.build whole (Build.finish sharing)
  .ok (node, s.captures)

end Clearance.Pattern
