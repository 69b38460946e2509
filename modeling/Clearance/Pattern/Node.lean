/-
# Patterns

A pattern is a tree. Repetition prefers more rounds, or fewer when it is lazy; of several
alternatives an earlier one is preferred.
-/
import Clearance.Pattern.Charset

namespace Clearance.Pattern

/-- Conditions on the place between two characters. -/
inductive Edge where
  | textStart | textEnd | lineStart | lineEnd | word | notWord
deriving DecidableEq, Repr

/-- The condition holds between the characters `before` and `after`. -/
def Edge.holds (e : Edge) (before after : Option Char) : Bool :=
  let inWord := fun (c : Option Char) => (c.map isWordChar).getD false
  match e with
  | .textStart => before.isNone
  | .textEnd => after.isNone
  | .lineStart => before.isNone || before == some '\n'
  | .lineEnd => after.isNone || after == some '\n'
  | .word => inWord before != inWord after
  | .notWord => inWord before == inWord after

/-- How often the body of a repetition is run. -/
inductive Rounds where
  | any | oneOrMore | atMostOne
  /-- At least `min` and at most `max` rounds. -/
  | counted (min : Nat) (max : Option Nat)
deriving DecidableEq, Repr

/-- The least number of rounds. -/
def Rounds.min : Rounds → Nat
  | .any | .atMostOne => 0
  | .oneOrMore => 1
  | .counted min _ => min

/-- The greatest number of rounds, if it is bounded. -/
def Rounds.max : Rounds → Option Nat
  | .any | .oneOrMore => none
  | .atMostOne => some 1
  | .counted _ max => max

/-- Pattern trees. -/
inductive Node where
  /-- Matches nowhere. -/
  | never
  | empty
  /-- Characters one after the other, up to case if `folds`. -/
  | literal (folds : Bool) (codes : Array Nat)
  | chars (set : Charset)
  | notNewline
  | anyChar
  | edge (e : Edge)
  | capture (index : Nat) (body : Node)
  | repeated (rounds : Rounds) (lazy : Bool) (body : Node)
  | sequence (items : List Node)
  | choice (items : List Node)

namespace Node

mutual

/-- The pattern can match the empty text at a suitable place. -/
def nullable : Node → Bool
  | .empty | .edge _ => true
  | .never | .chars _ | .notNewline | .anyChar => false
  | .literal _ codes => codes.isEmpty
  | .capture _ body => body.nullable
  | .repeated rounds _ body => rounds.min == 0 || body.nullable
  | .sequence items => allNullable items
  | .choice items => anyNullable items

/-- Every pattern of a list is nullable. -/
def allNullable : List Node → Bool
  | [] => true
  | n :: ns => n.nullable && allNullable ns

/-- Some pattern of a list is nullable. -/
def anyNullable : List Node → Bool
  | [] => false
  | n :: ns => n.nullable || anyNullable ns

end

mutual

/-- Nested repetitions multiply to at most `n` copies. -/
def copiesWithin (n : Nat) : Node → Bool
  | .capture _ body => body.copiesWithin n
  | .repeated rounds _ body =>
    let m := rounds.max.getD rounds.min
    if rounds.max == some 0 then true
    else if m > n then false
    else body.copiesWithin (if m > 0 then n / m else n)
  | .sequence items | .choice items => copiesWithinAll n items
  | _ => true

/-- `copiesWithin` for each pattern of a list. -/
def copiesWithinAll (n : Nat) : List Node → Bool
  | [] => true
  | x :: xs => x.copiesWithin n && copiesWithinAll n xs

end

mutual

/-- The number of levels of a tree. -/
def height : Node → Nat
  | .capture _ body | .repeated _ _ body => body.height + 1
  | .sequence items | .choice items => heightAll items + 1
  | _ => 1

/-- The greatest height of a list of trees. -/
def heightAll : List Node → Nat
  | [] => 0
  | x :: xs => max x.height (heightAll xs)

end

mutual

/-- The number of instructions that a tree comes to, at least one. -/
def size (n : Node) : Nat :=
  max 1 <| match n with
    | .literal _ codes => codes.size
    | .capture _ body => 2 + body.size
    | .repeated .any _ body => 2 + body.size
    | .repeated .oneOrMore _ body | .repeated .atMostOne _ body => 1 + body.size
    | .repeated (.counted min none) _ body => if min = 0 then 2 + body.size else 1 + min * body.size
    | .repeated (.counted min (some max)) _ body => max * body.size + (max - min)
    | .sequence items => sizeAll items
    | .choice items => sizeAll items + (items.length - 1)
    | _ => 1

/-- The sum of the sizes of a list of trees. -/
def sizeAll : List Node → Nat
  | [] => 0
  | x :: xs => x.size + sizeAll xs

end

/-- The number of code points that a node itself holds; a range counts twice. -/
def codeCount : Node → Nat
  | .literal _ codes => codes.size
  | .chars set => 2 * set.ranges.length
  | _ => 0

/-- The set of a pattern that matches exactly one character, if it is that simple. -/
def oneChar? : Node → Option Charset
  | .literal folds codes => if codes.size = 1 then some (.single folds (codes.getD 0 0)) else none
  | .chars set => some set
  | .notNewline => some .allButNewline
  | .anyChar => some .all
  | _ => none

/-- Whether the pattern matches exactly one character and is simple. -/
def isOneChar (n : Node) : Bool := n.oneChar?.isSome

/-- The pattern of one character that belongs to one of two sets. Two equal literals stay what
they are. -/
def mergeChars (x y : Node) : Node :=
  match x, y with
  | .anyChar, _ | _, .anyChar => .anyChar
  | .literal f a, .literal g b =>
    if f = g ∧ a = b then x else .chars ((Charset.single f (a.getD 0 0)).union
      (.single g (b.getD 0 0)))
  | .notNewline, n | n, .notNewline =>
    if ((n.oneChar?.map (·.member 10))).getD false then .anyChar else .notNewline
  | _, _ =>
    match x.oneChar?, y.oneChar? with
    | some s, some t => .chars (s.union t)
    | _, _ => x

/-- A set of all characters, or of all but the line feed, has a node of its own. -/
def clean : Node → Node
  | .chars set =>
    if set = .all then .anyChar else if set = .allButNewline then .notNewline else .chars set
  | n => n

/-- Two patterns of one character, or of a fixed number of them, are spelled alike. Literals
are compared by their code points alone. -/
def sameChars : Node → Node → Bool
  | .literal _ a, .literal _ b => a.size == 1 && a == b
  | .chars s, .chars t => s == t
  | .notNewline, .notNewline | .anyChar, .anyChar => true
  | .repeated (.counted a (some b)) l x, .repeated (.counted c (some d)) m y =>
    a == b && a == c && b == d && l == m && x.isOneChar && sameChars x y
  | _, _ => false

end Node
end Clearance.Pattern
