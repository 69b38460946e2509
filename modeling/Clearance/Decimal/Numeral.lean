/-
# How numerals are read

A numeral is an optional sign, digits with an optional point, and an optional exponent. Its
value is the double nearest to the exact decimal.
-/
import Clearance.Decimal.Binary
import Clearance.Text.Blank

namespace Clearance.Decimal

/-- The value of a decimal digit. -/
def digitValue (c : Char) : Nat := c.toNat - 48

/-- The value of a digit in any radix up to 36. -/
def radixValue? (c : Char) : Option Nat :=
  if c.isDigit then some (c.toNat - 48)
  else if 'a' ≤ c && c ≤ 'z' then some (c.toNat - 87)
  else if 'A' ≤ c && c ≤ 'Z' then some (c.toNat - 55)
  else none

/-- The value of digits read from the left. -/
def valueOf (radix : Nat) (ds : List Nat) : Nat := ds.foldl (fun n d => radix * n + d) 0

/-- The natural number written by a non-empty list of digits of the given radix. -/
def readDigits? (radix : Nat) (cs : List Char) : Option Nat :=
  if cs.isEmpty then none
  else (cs.mapM fun c => (radixValue? c).filter (· < radix)).map (valueOf radix)

/-- The double nearest to `m · 10 ^ e`. Exponents far outside the range of doubles are not
expanded. -/
def scaled (negative : Bool) (m : Nat) (e : Int) : Float :=
  let size := Int.ofNat (Nat.toDigits 10 m).length + e
  if m = 0 then nearest negative 0 1
  else if size > 400 then nearest negative (Nat.pow 10 400) 1
  else if size < -400 then nearest negative 0 1
  else match e with
    | .ofNat k => nearest negative (m * Nat.pow 10 k) 1
    | .negSucc k => nearest negative m (Nat.pow 10 (k + 1))

/-- An optional sign. -/
def takeSign : List Char → Bool × List Char
  | '+' :: cs => (false, cs)
  | '-' :: cs => (true, cs)
  | cs => (false, cs)

/-- The exponent part at the end of a numeral: nothing, or a mark, an optional sign and
digits. -/
def readExponent? : List Char → Option Int
  | [] => some 0
  | c :: cs =>
    if c == 'e' || c == 'E' then
      let (negative, ds) := takeSign cs
      (readDigits? 10 ds).map fun n => if negative then -(n : Int) else n
    else none

/-- The number a numeral denotes. -/
def readNumeral? (cs : List Char) : Option Float :=
  let (negative, rest) := takeSign cs
  let whole := rest.takeWhile Char.isDigit
  let rest := rest.dropWhile Char.isDigit
  let (fraction, rest) := match rest with
    | '.' :: more => (more.takeWhile Char.isDigit, more.dropWhile Char.isDigit)
    | _ => ([], rest)
  if whole.isEmpty && fraction.isEmpty then none
  else (readExponent? rest).map fun e =>
    scaled negative (valueOf 10 ((whole ++ fraction).map digitValue)) (e - fraction.length)

/-- The number a text converts to: white space around it is ignored, no text is zero, and
what is no number is `NaN`. Hexadecimal digits must fit in 64 bits. -/
def ofText (s : String) : Float :=
  match Text.trimList Text.isBlank s.toList with
  | [] => 0.0
  | cs =>
    if String.ofList cs = "Infinity" || String.ofList cs = "+Infinity" then 1.0 / 0.0
    else if String.ofList cs = "-Infinity" then -1.0 / 0.0
    else match cs with
      | '0' :: x :: d :: ds =>
        if x == 'x' || x == 'X' then
          match readDigits? 16 (d :: ds) with
          | some n => if n < Nat.pow 2 64 then nearest false n 1 else 0.0 / 0.0
          | none => 0.0 / 0.0
        else (readNumeral? cs).getD (0.0 / 0.0)
      | _ => (readNumeral? cs).getD (0.0 / 0.0)

end Clearance.Decimal
