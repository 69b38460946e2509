/-
# Pattern literals

A pattern literal is written in the script's own pattern language. Here its text is brought
into the form the pattern machine reads: escapes are spelled its way, and groups and classes
are checked to be closed. Look-ahead and back references are noted but do not break a literal.
-/
import Clearance.Script.Lexer
import Clearance.Pattern.Code

namespace Clearance.Script

/-- A pattern text on its way: the adapted text so far, latest character first, the first
complaint, and whether the pattern is broken. -/
structure Adapted where
  text : List Char
  complaint : Option String
  broken : Bool

namespace Adapted

/-- Appends characters. -/
def write (a : Adapted) (cs : List Char) : Adapted := { a with text := cs.reverse ++ a.text }

/-- Notes a complaint; the first one stays. -/
def complain (a : Adapted) (message : String) : Adapted :=
  { a with complaint := some (a.complaint.getD message) }

/-- Notes a complaint that breaks the pattern. -/
def spoil (a : Adapted) (message : String) : Adapted := { a.complain message with broken := true }

end Adapted

/-- A code as a hexadecimal escape of at least two digits; a negative code has a sign after
its leading zero. -/
def hexEscape (n : Int) : List Char :=
  '\\' :: 'x' :: (if n < 16 then ['0'] else []) ++ (if n < 0 then ['-'] else []) ++
    Nat.toDigits 16 n.natAbs

/-- The digit characters at the front whose value is below `radix`. -/
def leadingDigits (radix : Nat) (cs : List Char) : List Char :=
  cs.takeWhile fun c => ((Decimal.radixValue? c).filter (· < radix)).isSome

/-- Adapts an escape of exactly `size` hexadecimal digits after its letter. -/
def adaptCode (letter : Char) (size : Nat) (a : Adapted) (cs : List Char) : Adapted × List Char :=
  let ds := leadingDigits 16 (cs.take size)
  let rest := cs.drop ds.length
  if ds.length < size then (a.write (letter :: ds), rest)
  else if size = 4 then (a.write (['\\', 'x', '\x7b'] ++ ds ++ ['\x7d']), rest)
  else (a.write (['\\', 'x'] ++ ds), rest)

/-- Adapts what follows a backslash. -/
def adaptEscape (inClass : Bool) (a : Adapted) : List Char → Adapted × List Char
  | [] => (a.write ['\\'], [])
  | c :: cs =>
    if isOctal c then
      let ds := leadingDigits 8 (c :: cs)
      let rest := (c :: cs).drop ds.length
      let n := Decimal.valueOf 8 (ds.map Decimal.digitValue)
      if ds.length = 1 then
        let a := a.write ['\\', c]
        (if n = 0 then a else a.complain s!"re2: Invalid \\{n} <backreference>", rest)
      -- the code wraps around at 64 bits
      else (a.write (hexEscape (Int.bmod n (Nat.pow 2 64))), rest)
    else if c == '8' || c == '9' then
      let ds := leadingDigits 10 (c :: cs)
      let shown := String.ofList ds
      ((a.write ('\\' :: ds)).complain s!"re2: Invalid \\{shown} <backreference>",
        (c :: cs).drop ds.length)
    else if c == 'x' then adaptCode 'x' 2 a cs
    else if c == 'u' then adaptCode 'u' 4 a cs
    else if c == 'b' && inClass then (a.write ['\\', 'x', '0', '8'], cs)
    else if "bBdDsSwW\\fnrtv".toList.contains c then (a.write ['\\', c], cs)
    else if c == 'c' then
      match cs with
      | l :: rest =>
        if 'a' ≤ l && l ≤ 'z' then (a.write (hexEscape (l.toNat - 96)), rest)
        else if 'A' ≤ l && l ≤ 'Z' then (a.write (hexEscape (l.toNat - 64)), rest)
        else (a.write ['c'], cs)
      | [] => (a.write ['c'], [])
    else if c == '$' || !isNamePart c then (a.write ['\\', c], cs)
    else (a.write [c], cs)

/-- Adapts a bracketed class after its opening bracket. The fuel bounds the characters. -/
def adaptClass : Nat → Adapted → List Char → Adapted × List Char
  | 0, a, cs => (a, cs)
  | _, a, [] => (a.spoil "Unterminated character class", [])
  | fuel + 1, a, c :: cs =>
    if c == ']' then (a.write [c], cs)
    else if c == '\\' then
      let (a, rest) := adaptEscape true a cs
      adaptClass fuel a rest
    else adaptClass fuel (a.write [c]) cs

/-- Adapts a pattern inside `depth` open groups. The fuel bounds the characters. -/
def adaptFrom : Nat → Nat → Adapted → List Char → Adapted
  | 0, _, a, _ => a
  | _, 0, a, [] => a
  | _, _, a, [] => a.spoil "Unterminated group"
  | fuel + 1, depth, a, c :: cs =>
    match c with
    | '\\' =>
      let (a, rest) := adaptEscape false a cs
      adaptFrom fuel depth a rest
    | '(' =>
      let a := a.write [c]
      let a := match cs with
        | '?' :: x :: _ =>
          if x == '=' || x == '!' then
            a.complain ("re2: Invalid (" ++ String.ofList ['?', x] ++ ") <lookahead>")
          else a
        | _ => a
      adaptFrom fuel (depth + 1) a cs
    | '[' =>
      let (a, rest) := adaptClass (cs.length + 1) (a.write [c]) cs
      adaptFrom fuel depth a rest
    | ')' =>
      if depth = 0 then adaptFrom fuel 0 ((a.spoil "Unmatched ')'").write [c]) cs
      else adaptFrom fuel (depth - 1) (a.write [c]) cs
    | _ => adaptFrom fuel depth (a.write [c]) cs

/-- What is wrong with the text of a pattern literal, if anything. -/
def patternFault? (pattern : List Char) : Option String :=
  let a := adaptFrom (pattern.length + 1) 0 ⟨[], none, false⟩ pattern
  let wording := fun (m : String) => "Invalid regular expression: " ++ m
  match a.complaint with
  | some m => if a.broken then some (wording m) else none
  | none =>
    match Pattern.read (String.ofList a.text.reverse) with
    | .error e => some (wording e.message)
    | .ok _ => none

/-- The end of a pattern literal: the place after it and whether its text is kept. A line end
inside a class drops the text without a complaint. -/
inductive LiteralEnd where
  | closed (after : Cursor)
  | dropped (after : Cursor)
  | unterminated

/-- The place after a line end. -/
def skipLineEnd (c : Cursor) : Cursor :=
  match c.rest with
  | '\r' :: '\n' :: rest => ⟨rest, c.offset + 2⟩
  | _ => c.advance

/-- Looks for the slash that ends a pattern literal. The fuel bounds the characters. -/
def literalEnd : Nat → Bool → Cursor → LiteralEnd
  | 0, _, c => .closed c
  | fuel + 1, inClass, c =>
    match c.rest with
    | [] => if inClass then .closed c else .unterminated
    | x :: _ =>
      if isLineEnd x then (if inClass then .dropped (skipLineEnd c) else .unterminated)
      else if x == '/' && !inClass then .closed c.advance
      else if x == '\\' then
        let after := c.advance
        match after.rest with
        | [] => if inClass then literalEnd fuel true after else .unterminated
        | y :: _ =>
          if isLineEnd y then
            if inClass then literalEnd fuel true (skipLineEnd after) else .unterminated
          else literalEnd fuel inClass after.advance
      else literalEnd fuel (x == '[' || x != ']' && inClass) c.advance

end Clearance.Script
