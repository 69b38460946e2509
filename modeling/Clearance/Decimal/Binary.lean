/-
# Binary64 numbers as exact fractions

A finite double is `mantissa · 2 ^ exponent` with a sign. This file takes doubles apart into
these parts and rounds an exact fraction back to the nearest double, ties to the even
mantissa. All arithmetic in between is exact.
-/

namespace Clearance.Decimal

/-- A double taken apart. -/
inductive Binary where
  /-- Not a number. -/
  | nan
  /-- An infinity with its sign. -/
  | infinite (negative : Bool)
  /-- The number `mantissa · 2 ^ exponent` with its sign; zero has a sign too. -/
  | finite (negative : Bool) (mantissa : Nat) (exponent : Int)
deriving DecidableEq, Repr

/-- The parts of a double. -/
def Binary.ofFloat (x : Float) : Binary :=
  let bits := x.toBits.toNat
  let negative := bits / Nat.pow 2 63 == 1
  let field := bits / Nat.pow 2 52 % Nat.pow 2 11
  let fraction := bits % Nat.pow 2 52
  if field = 2047 then (if fraction = 0 then .infinite negative else .nan)
  else if field = 0 then .finite negative fraction (-1074)
  else .finite negative (fraction + Nat.pow 2 52) (Int.ofNat field - 1075)

/-- `num / den` rounded to the nearest integer, a tie to the even one. -/
def roundDiv (num den : Nat) : Nat :=
  let q := num / den
  let twice := 2 * (num % den)
  if twice > den || (twice == den && q % 2 == 1) then q + 1 else q

/-- The fraction `m · 2 ^ e`. -/
def ratio (m : Nat) (e : Int) : Nat × Nat :=
  match e with
  | .ofNat k => (m * Nat.pow 2 k, 1)
  | .negSucc k => (m, Nat.pow 2 (k + 1))

/-- The exponent of the unit in the last place of a double near `num / den`. -/
def unitExponent (num den : Nat) : Int :=
  let q := Int.ofNat num.log2 - Int.ofNat den.log2 - 52
  let small : Bool := match q with
    | .ofNat k => num < Nat.pow 2 52 * (den * Nat.pow 2 k)
    | .negSucc k => num * Nat.pow 2 (k + 1) < Nat.pow 2 52 * den
  max (if small then q - 1 else q) (-1074)

/-- The bits of the double nearest to `num / den`, without a sign. -/
def nearestBits (num den : Nat) : Nat :=
  if num = 0 then 0
  else
    let q := unitExponent num den
    let m := match q with
      | .ofNat k => roundDiv num (den * Nat.pow 2 k)
      | .negSucc k => roundDiv (num * Nat.pow 2 (k + 1)) den
    min ((q + 1074).toNat * Nat.pow 2 52 + m) (2047 * Nat.pow 2 52)

/-- The double with the given sign whose magnitude is nearest to `num / den`; a fraction too
large for a double becomes an infinity. -/
def nearest (negative : Bool) (num den : Nat) : Float :=
  Float.ofBits ((if negative then Nat.pow 2 63 else 0) + nearestBits num den).toUInt64

/-- The double of an integer, rounded to nearest. -/
def ofInt (n : Int) : Float := nearest (n < 0) n.natAbs 1

/-- The double of a natural number, rounded to nearest. -/
def ofNat (n : Nat) : Float :=
  if n < Nat.pow 2 53 then n.toUInt64.toFloat else nearest false n 1

/-- The integer part of a double, `none` when it is not finite. -/
def truncate? (x : Float) : Option Int :=
  match Binary.ofFloat x with
  | .finite negative m e =>
    let (num, den) := ratio m e
    let n := Int.ofNat (num / den)
    some (if negative then -n else n)
  | _ => none

/-- A double without its fraction. Infinities and numbers that are no numbers stay. -/
def truncate (x : Float) : Float :=
  match Binary.ofFloat x with
  | .finite negative m e =>
    let (num, den) := ratio m e
    nearest negative (num / den) 1
  | _ => x

/-- The remainder of `x / y` with the sign of `x`. -/
def remainder (x y : Float) : Float :=
  match Binary.ofFloat x, Binary.ofFloat y with
  | .finite neg m e, .finite _ n f =>
    if n = 0 then 0.0 / 0.0
    else
      let low := min e f
      let a := m * Nat.pow 2 (e - low).toNat
      let b := n * Nat.pow 2 (f - low).toNat
      let (num, den) := ratio (a % b) low
      nearest neg num den
  | .finite _ _ _, .infinite _ => x
  | _, _ => 0.0 / 0.0

/-- The sign bit. -/
def isNegative (x : Float) : Bool := x.toBits.toNat / Nat.pow 2 63 == 1

/-- Conversion to a 32-bit word: the integer part modulo `2 ^ 32`, zero when not finite. -/
def toWord (x : Float) : UInt32 :=
  match truncate? x with
  | some n => UInt32.ofNat (n % 4294967296).toNat
  | none => 0

end Clearance.Decimal
