/-
# Numbers and times in documents

Which texts are numbers. Whole numbers have a radix of two, eight, ten or sixteen and fit into
64 bits; the others are decimals and three special names. Underscores between the digits do not
count.

Which texts name a day or a moment of one. A moment follows its day after a letter, and then has
a time zone, or after spaces, and then has none. All numbers but the year may have one digit
or two.
-/
import Clearance.Decimal.Numeral

namespace Clearance.Yaml

/-- What kind of number a text is. -/
inductive NumberKind where
  /-- A whole number of 64 bits with a sign. -/
  | signed
  /-- A whole number that needs all of 64 bits. -/
  | unsigned
  /-- A double. -/
  | real
deriving DecidableEq, Repr

/-- The names of doubles that have no digits. -/
def realNames : List String :=
  [".nan", ".NaN", ".NAN", ".inf", ".Inf", ".INF", "+.inf", "+.Inf", "+.INF", "-.inf", "-.Inf",
    "-.INF"]

/-- The radix that a letter after a zero tells. -/
def radixOf? : Char → Option Nat
  | 'b' => some 2
  | 'B' => some 2
  | 'o' => some 8
  | 'O' => some 8
  | 'x' => some 16
  | 'X' => some 16
  | _ => none

/-- The number that digits write. A leading zero means a radix of eight, if no letter follows
it. -/
def magnitude? : List Char → Option Nat
  | ['0'] => some 0
  | ['0', d] => Decimal.readDigits? 8 [d]
  | '0' :: x :: ds =>
    match radixOf? x with
    | some radix => Decimal.readDigits? radix ds
    | none => Decimal.readDigits? 8 (x :: ds)
  | ds => Decimal.readDigits? 10 ds

/-- A number with the given sign fits into 64 bits. -/
def fitsSigned (negative : Bool) (n : Nat) : Bool :=
  if negative then n ≤ Nat.pow 2 63 else n < Nat.pow 2 63

/-- A whole number with or without a sign in front. -/
def isSigned (cs : List Char) : Bool :=
  let (negative, ds) := Decimal.takeSign cs
  (magnitude? ds).any (fitsSigned negative)

/-- A whole number of radix two or eight whose sign stands after the radix. -/
def isInnerSigned : List Char → Bool
  | '0' :: x :: s :: ds =>
    (x == 'b' || x == 'o') && (s == '+' || s == '-') &&
      ((radixOf? x).bind fun radix => Decimal.readDigits? radix ds).any (fitsSigned (s == '-'))
  | _ => false

/-- A whole number without a sign. -/
def isUnsigned (cs : List Char) : Bool := (magnitude? cs).any (· < Nat.pow 2 64)

/-- A decimal that a double can come near to. -/
def isReal (cs : List Char) : Bool := (Decimal.readNumeral? cs).any Float.isFinite

/-- Every underscore stands between two digits. -/
def dividesDigits : Bool → List Char → Bool
  | _, [] => true
  | after, c :: cs =>
    if c == '_' then after && cs.head?.any Char.isDigit && dividesDigits false cs
    else dividesDigits c.isDigit cs

/-- The kind of number that a text is, if it is one. -/
def numberKind? (s : String) : Option NumberKind :=
  let cs := s.toList
  let plain := cs.filter (· != '_')
  match cs with
  | [] => none
  | c :: _ =>
    if s ∈ realNames then some .real
    else if c == '.' then if dividesDigits false cs && isReal plain then some .real else none
    else if !(c.isDigit || c == '+' || c == '-') then none
    else if isSigned plain then some .signed
    else if isUnsigned plain then some .unsigned
    else if isReal plain then some .real
    else if isInnerSigned plain then some .signed
    else none

/-! ## Points in time -/

/-- A number of one or two digits, and what follows. -/
def takeShort : List Char → Option (Nat × List Char)
  | [] => none
  | [a] => if a.isDigit then some (Decimal.digitValue a, []) else none
  | a :: b :: rest =>
    if !a.isDigit then none
    else if b.isDigit then some (10 * Decimal.digitValue a + Decimal.digitValue b, rest)
    else some (Decimal.digitValue a, b :: rest)

/-- What follows the given character. -/
def after? (x : Char) : List Char → Option (List Char)
  | [] => none
  | c :: rest => if c == x then some rest else none

/-- A year with a day more. -/
def isLeap (year : Nat) : Bool := year % 4 == 0 && (year % 100 != 0 || year % 400 == 0)

/-- The number of days of a month. -/
def daysIn (month year : Nat) : Nat :=
  if month == 2 then if isLeap year then 29 else 28
  else if month == 4 || month == 6 || month == 9 || month == 11 then 30
  else 31

/-- What follows a day. -/
def afterDay? (cs : List Char) : Option (List Char) := do
  let year ← Decimal.readDigits? 10 (cs.takeWhile Char.isDigit)
  if (cs.takeWhile Char.isDigit).length != 4 then none
  let (month, rest) ← takeShort (← after? '-' (cs.drop 4))
  let (day, rest) ← takeShort (← after? '-' rest)
  if 1 ≤ month && month ≤ 12 && 1 ≤ day && day ≤ daysIn month year then return rest else none

/-- What follows a time of the day. -/
def afterClock? (cs : List Char) : Option (List Char) := do
  let (hour, rest) ← takeShort cs
  let (minute, rest) ← takeShort (← after? ':' rest)
  let (second, rest) ← takeShort (← after? ':' rest)
  if hour ≥ 24 || minute ≥ 60 || second ≥ 60 then none
  match rest with
  | point :: digit :: more =>
    if (point == '.' || point == ',') && digit.isDigit then return more.dropWhile Char.isDigit
    else return rest
  | _ => return rest

/-- A time zone: a letter, or a distance in hours and minutes. -/
def isZone : List Char → Bool
  | ['Z'] => true
  | [sign, a, b, ':', c, d] =>
    (sign == '+' || sign == '-') &&
      (Decimal.readDigits? 10 [a, b]).any (· ≤ 24) && (Decimal.readDigits? 10 [c, d]).any (· ≤ 60)
  | _ => false

/-- A day, or a moment of a day. -/
def isTime (s : String) : Bool :=
  match afterDay? s.toList with
  | none => false
  | some [] => true
  | some (c :: rest) =>
    if c == 'T' || c == 't' then (afterClock? rest).any isZone
    else c == ' ' && (afterClock? (rest.dropWhile (· == ' '))).any List.isEmpty

end Clearance.Yaml
