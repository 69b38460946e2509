/-
# How numbers are written

A number is written with its shortest digits: in positional notation when the value is below
`10 ^ 21` and not below `10 ^ (-6)`, with an exponent otherwise. Numbers with a fixed number
of decimals are rounded on the exact value, a tie to the even digit.
-/
import Clearance.Decimal.Shortest

namespace Clearance.Decimal

/-- An integer in decimal. -/
def intText (n : Int) : List Char :=
  match n with
  | .ofNat k => digitsOf k
  | .negSucc k => '-' :: digitsOf (k + 1)

/-- Lays out digits `d₁ d₂ …` with exponent `e` for the value `d₁.d₂… · 10 ^ e`. -/
def layout (ds : List Char) (e : Int) : List Char :=
  let k : Int := ds.length
  let n := e + 1
  if k ≤ n && n ≤ 21 then ds ++ List.replicate (n - k).toNat '0'
  else if 0 < n && n ≤ 21 then ds.take n.toNat ++ '.' :: ds.drop n.toNat
  else if -6 < n && n ≤ 0 then '0' :: '.' :: List.replicate (-n).toNat '0' ++ ds
  else
    ds.take 1 ++ (if k > 1 then '.' :: ds.drop 1 else []) ++
      'e' :: (if n - 1 ≥ 0 then ['+'] else []) ++ intText (n - 1)

/-- The text of a number. Both zeros are written alike. -/
def text (x : Float) : String :=
  match Binary.ofFloat x with
  | .nan => "NaN"
  | .infinite false => "Infinity"
  | .infinite true => "-Infinity"
  | .finite negative m e =>
    if m = 0 then "0"
    else
      let s := shortest m e
      String.ofList ((if negative then ['-'] else []) ++ layout s.digits s.exponent)

/-- The text of a finite number with `places` decimals. -/
def fixed (x : Float) (places : Nat) : String :=
  match Binary.ofFloat x with
  | .finite negative m e =>
    let (num, den) := ratio m e
    let ds := digitsOf (roundDiv (num * Nat.pow 10 places) den)
    let ds := List.replicate (places + 1 - ds.length) '0' ++ ds
    let cut := ds.length - places
    String.ofList ((if negative then ['-'] else []) ++ ds.take cut ++
      (if places = 0 then [] else '.' :: ds.drop cut))
  | _ => text x

/-- The digit of a value below 36. -/
def radixDigit (n : Nat) : Char := Char.ofNat (if n < 10 then 48 + n else 87 + n)

/-- The digits of a natural number in the given radix, least digit last; `fuel` bounds their
number. -/
def radixDigits (radix : Nat) : Nat → Nat → List Char
  | 0, _ => []
  | fuel + 1, n =>
    if n < radix then [radixDigit n]
    else radixDigits radix fuel (n / radix) ++ [radixDigit (n % radix)]

/-- An integer in the given radix. -/
def radixText (radix : Nat) (n : Int) : String :=
  let ds := radixDigits radix (n.natAbs.log2 + 1) n.natAbs
  String.ofList (if n < 0 then '-' :: ds else ds)

end Clearance.Decimal
