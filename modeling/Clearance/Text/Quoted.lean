/-
# Quoted text

A quoted text stands between double quotes. The quote and the backslash are escaped, so are
all characters without a visible form: the usual ones by a letter, the others by their code.
-/
import Clearance.Text.Class

namespace Clearance.Text

/-- The hexadecimal digit of a number below sixteen. -/
def hexDigit (n : Nat) : Char := Char.ofNat (if n < 10 then 48 + n else 87 + n)

/-- The last `width` hexadecimal digits of a number. -/
def hexDigits : Nat → Nat → List Char
  | 0, _ => []
  | width + 1, n => hexDigits width (n / 16) ++ [hexDigit (n % 16)]

/-- The letter that escapes a control character. -/
def escapeLetter? (c : Char) : Option Char :=
  match c.toNat with
  | 7 => some 'a'
  | 8 => some 'b'
  | 12 => some 'f'
  | 10 => some 'n'
  | 13 => some 'r'
  | 9 => some 't'
  | 11 => some 'v'
  | _ => none

/-- The quoted form of one character. -/
def quoteChar (c : Char) : List Char :=
  if c == '\x22' || c == '\\' then ['\\', c]
  else if isPrint c then [c]
  else match escapeLetter? c with
    | some l => ['\\', l]
    | none =>
      let n := c.toNat
      if n < 32 || n == 127 then '\\' :: 'x' :: hexDigits 2 n
      else if n < 0x10000 then '\\' :: 'u' :: hexDigits 4 n
      else '\\' :: 'U' :: hexDigits 8 n

/-- The quoted form of a text. -/
def quote (s : String) : String :=
  String.ofList ('\x22' :: s.toList.flatMap quoteChar ++ ['\x22'])

/-- The quoted characters that start in the first `n` bytes of a text. Of a character that does
not fit, the bytes that do are escaped one by one. -/
def quoteFitting : Nat → List Char → List Char
  | _, [] => []
  | n, c :: cs =>
    if c.utf8Size ≤ n then quoteChar c ++ quoteFitting (n - c.utf8Size) cs
    else ((String.utf8EncodeChar c).take n).flatMap fun b => '\\' :: 'x' :: hexDigits 2 b.toNat

/-- The quoted form of the first `n` bytes of a text. -/
def quoteBytes (n : Nat) (cs : List Char) : String :=
  String.ofList ('\x22' :: quoteFitting n cs ++ ['\x22'])

end Clearance.Text
