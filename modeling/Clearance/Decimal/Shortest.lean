/-
# Shortest decimal digits

The shortest digits of a positive double are the fewest decimal digits that read back as the
same double; of several candidates of that length the nearest to the exact value is taken,
and of two equally near ones the even one. The search tries one digit, two digits and so on:
on each decimal grid only the two neighbours of the exact value can qualify.
-/
import Clearance.Decimal.Binary

namespace Clearance.Decimal

/-- The digits `d₁ d₂ d₃ …` and the exponent `e` of the number `d₁.d₂d₃… · 10 ^ e`. -/
structure Scientific where
  digits : List Char
  exponent : Int
deriving DecidableEq, Repr

/-- The decimal digits of a natural number. -/
def digitsOf (n : Nat) : List Char := Nat.toDigits 10 n

/-- `num / den < 10 ^ e`. -/
def belowPower (num den : Nat) (e : Int) : Bool :=
  match e with
  | .ofNat k => num < den * Nat.pow 10 k
  | .negSucc k => num * Nat.pow 10 (k + 1) < den

/-- The largest `e` with `10 ^ e ≤ num / den`, found upwards from a lower bound. -/
def decimalExponentFrom (num den : Nat) : Nat → Int → Int
  | 0, e => e
  | fuel + 1, e =>
    if belowPower num den (e + 1) then e else decimalExponentFrom num den fuel (e + 1)

/-- The decimal exponent of a positive fraction. -/
def decimalExponent (num den : Nat) : Int :=
  let bits := Int.ofNat num.log2 - Int.ofNat den.log2
  decimalExponentFrom num den 8 (bits * 30103 / 100000 - 3)

/-- `num / den` in units of `10 ^ g`, as a fraction. -/
def inUnits (num den : Nat) (g : Int) : Nat × Nat :=
  match g with
  | .ofNat k => (num, den * Nat.pow 10 k)
  | .negSucc k => (num * Nat.pow 10 (k + 1), den)

/-- The doubles' neighbourhood: the fractions between `lo / den` and `hi / den` round to the
same double; the ends belong to it when `closed` holds. -/
structure Interval where
  lo : Nat
  hi : Nat
  den : Nat
  closed : Bool

/-- The numbers that round to `m · 2 ^ e`. The gap below a power of two is half as wide. -/
def Interval.around (m : Nat) (e : Int) : Interval :=
  let (unit, den) := ratio 1 (e - 2)
  let below := if m = Nat.pow 2 52 && e > -1074 then 1 else 2
  ⟨(4 * m - below) * unit, (4 * m + 2) * unit, den, m % 2 == 0⟩

/-- The number of units `10 ^ g` given by `d` lies in the interval. -/
def Interval.holds (i : Interval) (d : Nat) (g : Int) : Bool :=
  let (n, k) := match g with
    | .ofNat k => (d * Nat.pow 10 k, 1)
    | .negSucc k => (d, Nat.pow 10 (k + 1))
  -- compare `n / k` with `lo / den` and `hi / den`
  let x := n * i.den
  if i.closed then i.lo * k ≤ x && x ≤ i.hi * k else i.lo * k < x && x < i.hi * k

/-- The best number of units `10 ^ g` inside the interval for the value `num / den`. -/
def Interval.pick (i : Interval) (num den : Nat) (g : Int) : Option Nat :=
  let (n, k) := inUnits num den g
  let d := n / k
  let r := n % k
  let lower := i.holds d g && d != 0
  let upper := i.holds (d + 1) g
  if lower && upper then
    some (if 2 * r < k || (2 * r == k && d % 2 == 0) then d else d + 1)
  else if lower then some d
  else if upper then some (d + 1)
  else none

/-- Tries grids of `n`, `n + 1`, … digits for a value with decimal exponent `e`. -/
def shortestFrom (i : Interval) (num den : Nat) (e : Int) : Nat → Nat → Nat × Int
  | 0, n => let (a, k) := inUnits num den (e - n); (a / k, e - n)
  | fuel + 1, n =>
    match i.pick num den (e - n) with
    | some d => (d, e - n)
    | none => shortestFrom i num den e fuel (n + 1)

/-- A list of digits without trailing zeros. -/
def stripZeros (ds : List Char) : List Char := (ds.reverse.dropWhile (· == '0')).reverse

/-- The shortest digits of `m · 2 ^ e`, for positive `m`. -/
def shortest (m : Nat) (e : Int) : Scientific :=
  let (num, den) := ratio m e
  let (d, g) := shortestFrom (.around m e) num den (decimalExponent num den) 17 0
  let ds := digitsOf d
  ⟨stripZeros ds, g + ds.length - 1⟩

end Clearance.Decimal
