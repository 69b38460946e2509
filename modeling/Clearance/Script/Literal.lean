/-
# String and number literals

The value of a string literal is its text with the escapes replaced; the value of a number
literal is a decimal, hexadecimal or octal number.
-/
import Clearance.Decimal.Numeral
import Clearance.Text.Position
import Clearance.Text.Quoted

namespace Clearance.Script

/-- The value of a hexadecimal digit. -/
def hexValue? (c : Char) : Option Nat := (Decimal.radixValue? c).filter (· < 16)

/-- The character of a code; codes that are no character become the replacement character. -/
def charOfCode (n : Nat) : Char :=
  if n.isValidChar then Char.ofNat n else '\ufffd'

/-- The character written by exactly `size` hexadecimal digits after the escape `mark`. -/
def readEscape (mark : Char) (size : Nat) (cs : List Char) : Except String (Char × List Char) :=
  let shown := Text.quote (String.ofList cs)
  if Text.byteSize cs < size then
    .error ("invalid escape: \\" ++ mark.toString ++ ": len(" ++ shown ++ s!") != {size}")
  else match (cs.take size).mapM hexValue? with
    | some ds => .ok (charOfCode (Decimal.valueOf 16 ds), cs.drop size)
    | none => .error ("invalid escape: \\" ++ mark.toString ++ ": " ++ Text.quoteBytes size cs)

/-- Octal digits. -/
def isOctal (c : Char) : Bool := '0' ≤ c && c ≤ '7'

/-- The characters of a string literal between its quotes, with the escapes replaced. The
fuel bounds the number of characters. -/
def unescapeFrom : Nat → List Char → Except String (List Char)
  | 0, _ => .ok []
  | _, [] => .ok []
  | fuel + 1, '\\' :: c :: cs =>
    match c with
    | 'b' => ('\x08' :: ·) <$> unescapeFrom fuel cs
    | 'f' => ('\x0c' :: ·) <$> unescapeFrom fuel cs
    | 'n' => ('\n' :: ·) <$> unescapeFrom fuel cs
    | 'r' => ('\r' :: ·) <$> unescapeFrom fuel cs
    | 't' => ('\t' :: ·) <$> unescapeFrom fuel cs
    | 'v' => ('\x0b' :: ·) <$> unescapeFrom fuel cs
    | 'x' => do
      let (v, rest) ← readEscape 'x' 2 cs
      (v :: ·) <$> unescapeFrom fuel rest
    | 'u' => do
      let (v, rest) ← readEscape 'u' 4 cs
      (v :: ·) <$> unescapeFrom fuel rest
    | '\r' => unescapeFrom fuel (match cs with
      | '\n' :: rest => rest
      | _ => cs)
    | '\n' => unescapeFrom fuel cs
    | c =>
      if isOctal c then
        let more := (cs.take 2).takeWhile isOctal
        let n := Decimal.valueOf 8 ((c :: more).map Decimal.digitValue)
        (charOfCode n :: ·) <$> unescapeFrom fuel (cs.drop more.length)
      else (c :: ·) <$> unescapeFrom fuel cs
  | fuel + 1, c :: cs => (c :: ·) <$> unescapeFrom fuel cs

/-- The value of the characters between the quotes of a string literal. -/
def unescape (cs : List Char) : Except String String :=
  String.ofList <$> unescapeFrom (cs.length + 1) cs

/-- The value of hexadecimal digits. Beyond 63 bits the sum is rounded digit by digit. -/
def hexNumber (ds : List Nat) : Float :=
  let n := Decimal.valueOf 16 ds
  if n < Nat.pow 2 63 then Decimal.ofNat n
  else ds.foldl (fun v d => v * 16.0 + Decimal.ofNat d) 0.0

/-- The value of a number literal. A leading zero marks octal digits, unless their value
exceeds 63 bits. -/
def numberValue (cs : List Char) : Float :=
  match cs with
  | '0' :: x :: ds =>
    if x == 'x' || x == 'X' then
      hexNumber (ds.filterMap hexValue?)
    else if (x :: ds).all isOctal then
      match Decimal.readDigits? 8 (x :: ds) with
      | some n =>
        if n < Nat.pow 2 63 then Decimal.nearest false n 1
        else (Decimal.readNumeral? cs).getD (0.0 / 0.0)
      | none => 0.0 / 0.0
    else (Decimal.readNumeral? cs).getD (0.0 / 0.0)
  | _ => (Decimal.readNumeral? cs).getD (0.0 / 0.0)

end Clearance.Script
