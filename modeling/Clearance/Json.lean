/-
# Documents of named values

A reader for the common notation of nested lists and records. It works on bytes, given as
characters below 256, and stops at the first byte that cannot stand where it stands. Strings
hold any bytes; what is no text in them is replaced.
-/
import Clearance.Decimal.Numeral
import Clearance.Text.Bytes
import Clearance.Text.Quoted

namespace Clearance.Json

/-- A value of a document. Numbers keep their spelling, records the order of their members. -/
inductive Value where
  | null
  | bool (b : Bool)
  | number (text : String)
  | string (text : String)
  | array (items : List Value)
  | object (members : List (String × Value))

/-- Why bytes are no document. -/
inductive Fault where
  /-- The document is not complete. -/
  | ended
  /-- A byte cannot stand where it stands. -/
  | character (c : Char) (context : String)
deriving DecidableEq, Repr

/-- A byte as messages show it. -/
def shownByte (c : Char) : String :=
  String.ofList ('\x27' ::
    (if c == '\x27' then ['\\', c] else if c == '\x22' then [c] else Text.quoteChar c) ++ ['\x27'])

/-- The wording of a fault. -/
def Fault.message : Fault → String
  | .ended => "unexpected end of JSON input"
  | .character c context => "invalid character " ++ shownByte c ++ " " ++ context

/-- The next byte cannot stand here; the end counts as a blank. -/
def refuse {α : Type} (context : String) (cs : List Char) : Except Fault α :=
  .error (.character (cs.head?.getD ' ') context)

/-- The bytes between values. -/
def isSpace (c : Char) : Bool := c == ' ' || c == '\t' || c == '\r' || c == '\n'

/-- Drops the bytes between values; something must follow. -/
def skipSpace (cs : List Char) : Except Fault (Char × List Char) :=
  match cs.dropWhile isSpace with
  | [] => .error .ended
  | c :: rest => .ok (c, rest)

/-- One digit or more. -/
def readDigits (context : String) (cs : List Char) : Except Fault (List Char × List Char) :=
  match cs.takeWhile Char.isDigit with
  | [] => refuse context cs
  | ds => .ok (ds, cs.dropWhile Char.isDigit)

/-- The digits of a number before its point: a zero stands alone. -/
def readWhole (cs : List Char) : Except Fault (List Char × List Char) :=
  match cs with
  | '0' :: rest => .ok (['0'], rest)
  | _ => readDigits "in numeric literal" cs

/-- The point and the digits after it, if there are any. -/
def readFraction (cs : List Char) : Except Fault (List Char × List Char) :=
  match cs with
  | '.' :: rest => do
    let (ds, rest) ← readDigits "after decimal point in numeric literal" rest
    return ('.' :: ds, rest)
  | _ => .ok ([], cs)

/-- The exponent, if there is one. -/
def readExponent (cs : List Char) : Except Fault (List Char × List Char) :=
  match cs with
  | [] => .ok ([], [])
  | e :: rest =>
    if e == 'e' || e == 'E' then do
      let sign := (rest.take 1).filter fun c => c == '+' || c == '-'
      let (ds, rest) ← readDigits "in exponent of numeric literal" (rest.drop sign.length)
      return (e :: sign ++ ds, rest)
    else .ok ([], cs)

/-- A number, by its spelling. -/
def readNumber (cs : List Char) : Except Fault (Value × List Char) := do
  let sign := (cs.take 1).filter (· == '-')
  let (whole, rest) ← readWhole (cs.drop sign.length)
  let (fraction, rest) ← readFraction rest
  let (exponent, rest) ← readExponent rest
  return (.number (String.ofList (sign ++ whole ++ fraction ++ exponent)), rest)

/-- A word, whose letters before `left` have been read. -/
def readWord (word : String) (value : Value) :
    List Char → List Char → Except Fault (Value × List Char)
  | [], cs => .ok (value, cs)
  | l :: left, c :: cs =>
    if c == l then readWord word value left cs
    else refuse ("in literal " ++ word ++ " (expecting " ++ shownByte l ++ ")") (c :: cs)
  | l :: _, [] => refuse ("in literal " ++ word ++ " (expecting " ++ shownByte l ++ ")") []

/-- The value of a hexadecimal digit. -/
def hexValue? (c : Char) : Option Nat := (Decimal.radixValue? c).filter (· < 16)

/-- The code written by four hexadecimal digits. -/
def readCode (cs : List Char) : Except Fault (Nat × List Char) :=
  let ds := (cs.take 4).takeWhile fun c => (hexValue? c).isSome
  if ds.length = 4 then .ok (Decimal.valueOf 16 (ds.filterMap hexValue?), cs.drop 4)
  else refuse "in \\u hexadecimal character escape" (cs.drop ds.length)

/-- The character of a code and the codes that follow it: two halves of a pair form one
character, and a half that stands alone is replaced. -/
def readCoded (code : Nat) (cs : List Char) : Char × List Char :=
  let second? := match cs with
    | '\\' :: 'u' :: rest => (readCode rest).toOption
    | _ => none
  match second? with
  | some (low, rest) =>
    if 0xD800 ≤ code ∧ code < 0xDC00 ∧ 0xDC00 ≤ low ∧ low < 0xE000 then
      (Char.ofNat (0x10000 + (code - 0xD800) * 1024 + (low - 0xDC00)), rest)
    else (if code.isValidChar then Char.ofNat code else '\ufffd', cs)
  | none => (if code.isValidChar then Char.ofNat code else '\ufffd', cs)

/-- The character of an escape by a letter. -/
def escaped? : Char → Option Char
  | 'b' => some '\x08'
  | 'f' => some '\x0c'
  | 'n' => some '\n'
  | 'r' => some '\r'
  | 't' => some '\t'
  | '\\' => some '\\'
  | '/' => some '/'
  | '\x22' => some '\x22'
  | _ => none

/-- The bytes of a string after its opening quote. The fuel bounds their number. -/
def readBytes : Nat → List Char → Except Fault (List Nat × List Char)
  | 0, _ => .error .ended
  | _, [] => .error .ended
  | fuel + 1, c :: cs =>
    let more := fun (bytes : List Nat) (rest : List Char) => do
      let (tail, rest) ← readBytes fuel rest
      return (bytes ++ tail, rest)
    if c == '\x22' then .ok ([], cs)
    else if c == '\\' then
      match cs with
      | 'u' :: rest => do
        let (code, rest) ← readCode rest
        let (v, rest) := readCoded code rest
        more (Text.encodeBytes [v]) rest
      | l :: rest =>
        match escaped? l with
        | some v => more [v.toNat] rest
        | none => refuse "in string escape code" cs
      | [] => refuse "in string escape code" []
    else if c.toNat < 32 then refuse "in string literal" (c :: cs)
    else more [c.toNat] cs

/-- A string after its opening quote. -/
def readString (cs : List Char) : Except Fault (String × List Char) := do
  let (bytes, rest) ← readBytes (cs.length + 1) cs
  return (String.ofList (Text.decodeBytes bytes), rest)

/-- The deepest nesting of lists and records. -/
def maxDepth : Nat := 10000

mutual

/-- A value inside `depth` others. The fuel bounds the number of values and members. -/
def readValue : Nat → Nat → List Char → Except Fault (Value × List Char)
  | 0, _, _ => .error .ended
  | fuel + 1, depth, cs => do
    let (c, rest) ← skipSpace cs
    if (c == '\x7b' || c == '[') && depth ≥ maxDepth then
      refuse "exceeded max depth" [c]
    else if c == '\x7b' then do
      let (d, after) ← skipSpace rest
      if d == '\x7d' then return (.object [], after)
      let (members, rest) ← readMembers fuel (depth + 1) rest
      return (.object members, rest)
    else if c == '[' then do
      let (d, after) ← skipSpace rest
      if d == ']' then return (.array [], after)
      let (items, rest) ← readItems fuel (depth + 1) rest
      return (.array items, rest)
    else if c == '\x22' then do
      let (s, rest) ← readString rest
      return (.string s, rest)
    else if c == 't' then readWord "true" (.bool true) ['r', 'u', 'e'] rest
    else if c == 'f' then readWord "false" (.bool false) ['a', 'l', 's', 'e'] rest
    else if c == 'n' then readWord "null" .null ['u', 'l', 'l'] rest
    else if c == '-' || c.isDigit then readNumber (c :: rest)
    else refuse "looking for beginning of value" [c]

/-- The items of a list up to its closing bracket. -/
def readItems : Nat → Nat → List Char → Except Fault (List Value × List Char)
  | 0, _, _ => .error .ended
  | fuel + 1, depth, cs => do
    let (v, rest) ← readValue fuel depth cs
    let (c, rest) ← skipSpace rest
    if c == ',' then do
      let (vs, rest) ← readItems fuel depth rest
      return (v :: vs, rest)
    else if c == ']' then return ([v], rest)
    else refuse "after array element" [c]

/-- The members of a record up to its closing brace. -/
def readMembers : Nat → Nat → List Char → Except Fault (List (String × Value) × List Char)
  | 0, _, _ => .error .ended
  | fuel + 1, depth, cs => do
    let (c, rest) ← skipSpace cs
    if c != '\x22' then refuse "looking for beginning of object key string" [c]
    let (key, rest) ← readString rest
    let (c, rest) ← skipSpace rest
    if c != ':' then refuse "after object key" [c]
    let (v, rest) ← readValue fuel depth rest
    let (c, rest) ← skipSpace rest
    if c == ',' then do
      let (ms, rest) ← readMembers fuel depth rest
      return ((key, v) :: ms, rest)
    else if c == '\x7d' then return ([(key, v)], rest)
    else refuse "after object key:value pair" [c]

end

/-- The one value of a document. -/
def read (bytes : List Char) : Except Fault Value := do
  let (v, rest) ← readValue (2 * bytes.length + 2) 0 bytes
  match rest.dropWhile isSpace with
  | [] => return v
  | c :: _ => refuse "after top-level value" [c]

end Clearance.Json
