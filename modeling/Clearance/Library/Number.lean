/-
# Built-in functions: numbers, booleans and mathematics
-/
import Clearance.Library.Adapt

namespace Clearance.Library

open Clearance.Action

/-- `Number`: the number of a value. -/
def toNumber : RawFn := fun _ args => do
  match args with
  | [] => return Raw.number 0.0
  | v :: _ => return Raw.number (← numberOf v)

/-- `new Number`. -/
def newNumber (args : List Value) : Action Value := do
  let x ← match args with
    | [] => pure 0.0
    | v :: _ => numberOf v.raw
  let o ← newWrapper "Number" (← realm).numberProto (.number x)
  return (Raw.object o).labeled (argAt args 0).label

/-- An integral number as a signed 64-bit integer; what is out of range is the least one. -/
def toInt64 (n : Int) : Int :=
  if -9223372036854775808 ≤ n ∧ n < 9223372036854775808 then n else -9223372036854775808

/-- The text of a number in a radix. Only integers are written in other radices than ten. -/
def numberInRadix (x : Float) (radix : Raw) : Action Value := do
  let r ← optionalIndex radix 10
  if r < 2 || r > 36 then rangeError "radix must be between 2 and 36"
  else
    match Decimal.truncate? x with
    | some n =>
      if r == 10 || Decimal.ofInt n != x then return Raw.string (Decimal.text x)
      else return Raw.string (Decimal.radixText r.toNat (toInt64 n))
    | none => return Raw.string (Decimal.text x)

/-- `Number.prototype.toString`. -/
def numberText : RawFn := fun this rest => do
  let x ← numberAt "toString" (this :: rest) 0
  adaptedResult "toString" (numberInRadix x (rawAt rest 0))

/-- `Number.prototype.toFixed`. -/
def toFixed : RawFn := fun this rest => do
  let x ← numberAt "toFixed" (this :: rest) 0
  let digits := toIndex (← numberAt "toFixed" (this :: rest) 1)
  if digits < 0 || digits > 20 then rangeError "toFixed() digits out of range"
  else return Raw.string (Decimal.fixed x digits.toNat)

/-- `Number.prototype.valueOf`. -/
def numberValue : RawFn := fun this rest => do
  return Raw.number (← numberAt "valueOf" (this :: rest) 0)

/-- `Boolean`: the truth value of a value. -/
def toBoolean : RawFn := fun _ args => return Raw.bool (rawAt args 0).truth

/-- `new Boolean`. -/
def newBoolean (args : List Value) : Action Value := do
  let v := argAt args 0
  let o ← newWrapper "Boolean" (← realm).booleanProto (.bool v.raw.truth)
  return (Raw.object o).labeled v.label

/-- The truth value that a method of booleans is called on. -/
def thisBoolean (this : Raw) : Action Bool := do
  let inner ← match this with
    | .bool b => pure (some b)
    | .object o => do
      match (← object o.id).primitive with
      | some ⟨.bool b, k⟩ => pure (if Label.none.less k then none else some b)
      | _ => pure none
    | _ => pure none
  match inner with
  | some b => return b
  | none => typeError ("Boolean method called on " ++ this.typeName)

/-- `Boolean.prototype.valueOf`. -/
def booleanValue : RawFn := fun this _ => do return Raw.bool (← thisBoolean this)

/-- `Boolean.prototype.toString`. -/
def booleanText : RawFn := fun this _ => do
  return Raw.string (if ← thisBoolean this then "true" else "false")

/-- The name of a function of one number. -/
def MathFn.name : MathFn → String
  | .abs => "abs"
  | .floor => "floor"
  | .ceil => "ceil"
  | .round => "round"
  | .sqrt => "sqrt"
  | .exp => "exp"
  | .log => "log"
  | .sin => "sin"
  | .cos => "cos"
  | .tan => "tan"
  | .asin => "asin"
  | .acos => "acos"
  | .atan => "atan"

/-- A function of one number. Rounding goes up from the middle. -/
def MathFn.value : MathFn → Float → Float
  | .abs => Float.abs
  | .floor => Float.floor
  | .ceil => Float.ceil
  | .round => fun x => (x + 0.5).floor
  | .sqrt => Float.sqrt
  | .exp => Float.exp
  | .log => Float.log
  | .sin => Float.sin
  | .cos => Float.cos
  | .tan => Float.tan
  | .asin => Float.asin
  | .acos => Float.acos
  | .atan => Float.atan

/-- A function of one number. -/
def math (f : MathFn) : RawFn := fun _ args => do
  return Raw.number (MathFn.value f (← numberAt (MathFn.name f) args 0))

/-- The powers of a number `x · 2 ^ e` with `1/2 ≤ |x| < 1`, by repeated squaring: multiplies
`a · 2 ^ b` by its `n`-th power. The fuel bounds the bits of `n`. -/
def powerBySquaring : Nat → Float → Int → Nat → Float → Int → Float × Int
  | 0, _, _, _, a, b => (a, b)
  | fuel + 1, x, e, n, a, b =>
    if n = 0 then (a, b)
    else if e < -4096 || e > 4096 then (a, b + e)
    else
      let (a, b) := if n % 2 = 1 then (a * x, b + e) else (a, b)
      let y := x * x
      let (y, e) := if y < 0.5 then (y + y, 2 * e - 1) else (y, 2 * e)
      powerBySquaring fuel y e (n / 2) a b

/-- A power with a finite exponent that is neither zero nor one, of a finite number that is
neither zero nor one: whole part by squaring, the rest by the exponential function. -/
def finitePower (x y : Float) : Float :=
  let whole := y.abs.floor
  let rest := y.abs - whole
  if rest != 0.0 && x < 0.0 then nan
  else if whole >= 9223372036854775808.0 then Float.pow x y
  else
    let (whole, rest) := if rest > 0.5 then (whole + 1.0, rest - 1.0) else (whole, rest)
    let a := if rest != 0.0 then (rest * x.log).exp else 1.0
    let (m, e) := x.frExp
    let (a, b) := powerBySquaring 64 m e whole.toUInt64.toNat a 0
    let (a, b) := if y < 0.0 then (1.0 / a, -b) else (a, b)
    a.scaleB b

/-- A power. -/
def power (x y : Float) : Float :=
  if y == 0.0 || x == 1.0 then 1.0
  else if y == 1.0 then x
  else if x.isFinite && y.isFinite && x != 0.0 then
    if y == 0.5 then x.sqrt else if y == -0.5 then 1.0 / x.sqrt else finitePower x y
  else Float.pow x y

/-- `Math.pow`. -/
def pow : RawFn := fun _ args => do
  let x ← numberAt "pow" args 0
  let y ← numberAt "pow" args 1
  return Raw.number (power x y)

/-- `Math.atan2`. -/
def atan2 : RawFn := fun _ args => do
  let y ← numberAt "atan2" args 0
  let x ← numberAt "atan2" args 1
  return Raw.number (Float.atan2 y x)

/-- The greater of two numbers; of the two zeros the positive one. -/
def greater (x y : Float) : Float :=
  if x == 0.0 && y == 0.0 then (if Decimal.isNegative x then y else x)
  else if x > y then x else y

/-- The lesser of two numbers; of the two zeros the negative one. -/
def lesser (x y : Float) : Float :=
  if x == 0.0 && y == 0.0 then (if Decimal.isNegative x then x else y)
  else if x < y then x else y

/-- The extreme of several numbers; the first that is no number decides. -/
def extreme (better : Float → Float → Float) : Float → List Float → Float
  | best, [] => best
  | best, x :: xs => if x.isNaN then x else extreme better (better best x) xs

/-- `Math.max`. -/
def maximum : RawFn := fun _ args => do
  return Raw.number (extreme greater (-1.0 / 0.0) (← numbersFrom "max" args 0))

/-- `Math.min`. -/
def minimum : RawFn := fun _ args => do
  return Raw.number (extreme lesser (1.0 / 0.0) (← numbersFrom "min" args 0))

/-- The next state of the generator of random numbers. -/
def nextSeed (s : UInt64) : UInt64 := s * 6364136223846793005 + 1442695040888963407

/-- `Math.random`: a number in `[0, 1)`. -/
def random : RawFn := fun _ _ => Action.update fun s =>
  let seed := nextSeed s.seed
  (Raw.number ((seed >>> 11).toFloat / 9007199254740992.0), { s with seed })

end Clearance.Library
