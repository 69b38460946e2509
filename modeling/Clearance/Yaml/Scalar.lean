/-
# Scalars

The ways to write a text: plain, between quotes, or as a block of lines. Line breaks inside
plain and quoted texts are folded: one break is a space, further ones stand for themselves.
-/
import Clearance.Decimal.Numeral
import Clearance.Yaml.Cursor

namespace Clearance.Yaml

/-- What stands between two pieces of a text: blanks of one line, or line breaks. -/
structure Gap where
  /-- The blanks before the first line break. -/
  blanks : List Char
  /-- The first line break. -/
  first : List Char
  /-- The further line breaks. -/
  further : List Char
  /-- There is a line break, or one has been escaped. -/
  broken : Bool

namespace Gap

/-- Nothing in between. -/
def none : Gap := ⟨[], [], [], false⟩

/-- The text that a gap stands for. -/
def folded (g : Gap) : List Char :=
  if g.broken then
    if g.first == ['\n'] then if g.further.isEmpty then [' '] else g.further
    else g.first ++ g.further
  else g.blanks

/-- Reads blanks and line breaks. A tab in front of column `indent` of a further line is
refused. -/
def read (indent : Nat) : Nat → Gap → Cursor → Option (Gap × Cursor)
  | 0, _, _ => Option.none
  | fuel + 1, g, c =>
    if c.meets isBlank then
      if g.broken && c.column < indent && c.sees '\t' then Option.none
      else if g.broken then read indent fuel g c.skip
      else read indent fuel { g with blanks := g.blanks ++ c.peek?.toList } c.skip
    else if c.meets isBreak then
      let (text, after) := c.takeBreak
      let g := if g.broken then { g with further := g.further ++ text }
        else { g with blanks := [], first := text, broken := true }
      read indent fuel g after
    else some (g, c)

end Gap

/-! ## Plain texts -/

/-- A plain text ends here, inside a line. -/
def endsPlain (inFlow : Bool) (c : Cursor) : Bool :=
  (c.sees ':' && c.spaceAfter 1) ||
    (inFlow && c.meets fun x =>
      x == ',' || x == '?' || x == '[' || x == ']' || x == '\x7b' || x == '\x7d')

/-- The characters of a plain text up to the next gap. -/
def plainPiece (inFlow : Bool) : Nat → List Char → Cursor → List Char × Cursor
  | 0, acc, c => (acc.reverse, c)
  | fuel + 1, acc, c =>
    match c.peek? with
    | Option.none => (acc.reverse, c)
    | some x =>
      if isBlank x || isBreak x || endsPlain inFlow c then (acc.reverse, c)
      else plainPiece inFlow fuel (x :: acc) c.skip

/-- Reads a plain text, whose further lines start at column `indent` or later. Also tells whether
a line break follows it. -/
def readPlain (inFlow : Bool) (indent : Nat) :
    Nat → List Char → Gap → Cursor → Option (List Char × Bool × Cursor)
  | 0, _, _, _ => none
  | fuel + 1, text, gap, c =>
    if c.atMarker || c.sees '#' then some (text, gap.broken, c)
    else
      let (piece, c) := plainPiece inFlow c.rest.length [] c
      let (text, gap) := if piece.isEmpty then (text, gap) else (text ++ gap.folded ++ piece, .none)
      if !(c.meets isBlank || c.meets isBreak) then some (text, gap.broken, c)
      else match gap.read indent (c.rest.length + 1) c with
        | none => none
        | some (gap, c) =>
          if !inFlow && c.column < indent then some (text, gap.broken, c)
          else readPlain inFlow indent fuel text gap c

/-! ## Quoted texts -/

/-- The characters that a letter after a backslash stands for. -/
def escaped? : Char → Option Nat
  | '0' => some 0
  | 'a' => some 7
  | 'b' => some 8
  | 't' => some 9
  | '\t' => some 9
  | 'n' => some 10
  | 'v' => some 11
  | 'f' => some 12
  | 'r' => some 13
  | 'e' => some 27
  | ' ' => some 32
  | '\x22' => some 34
  | '\x27' => some 39
  | '\\' => some 92
  | 'N' => some 0x85
  | '_' => some 0xA0
  | 'L' => some 0x2028
  | 'P' => some 0x2029
  | _ => none

/-- The number of hexadecimal digits after a letter. -/
def hexWidth? : Char → Option Nat
  | 'x' => some 2
  | 'u' => some 4
  | 'U' => some 8
  | _ => none

/-- The character after a backslash and the number of characters that it takes. -/
def readEscape : List Char → Option (Char × Nat)
  | [] => none
  | x :: rest =>
    match escaped? x, hexWidth? x with
    | some n, _ => some (Char.ofNat n, 1)
    | none, some width =>
      if (rest.take width).length < width then none
      else match Decimal.readDigits? 16 (rest.take width) with
        | none => none
        | some n =>
          if (0xD800 ≤ n && n ≤ 0xDFFF) || n > 0x10FFFF then none
          else some (Char.ofNat n, width + 1)
    | none, none => none

/-- The characters of a quoted text up to the next gap, or up to the closing quote. Also tells
whether a line break was escaped. -/
def quotedPiece (quote : Char) : Nat → List Char → Cursor → Option (List Char × Bool × Cursor)
  | 0, _, _ => none
  | fuel + 1, acc, c =>
    match c.rest with
    | [] => some (acc.reverse, false, c)
    | x :: rest =>
      if isBlank x || isBreak x then some (acc.reverse, false, c)
      else if x == quote then
        if quote == '\x27' && rest.head? == some quote then
          quotedPiece quote fuel (quote :: acc) (c.skipMany 2)
        else some (acc.reverse, false, c)
      else if x == '\\' && quote == '\x22' then
        if c.skip.meets isBreak then some (acc.reverse, true, c.skip.takeBreak.2)
        else match readEscape rest with
          | none => none
          | some (y, n) => quotedPiece quote fuel (y :: acc) (c.skipMany (n + 1))
      else quotedPiece quote fuel (x :: acc) c.skip

/-- Reads a quoted text after the opening quote. -/
def readQuoted (quote : Char) : Nat → List Char → Cursor → Option (List Char × Cursor)
  | 0, _, _ => none
  | fuel + 1, text, c =>
    if c.atMarker || c.atEnd then none
    else match quotedPiece quote (c.rest.length + 1) [] c with
      | none => none
      | some (piece, escapedBreak, c) =>
        if !escapedBreak && c.sees quote then some (text ++ piece, c.skip)
        else match Gap.read 0 (c.rest.length + 1) { Gap.none with broken := escapedBreak } c with
          | none => none
          | some (gap, c) => readQuoted quote fuel (text ++ piece ++ gap.folded) c

/-! ## Blocks of lines -/

/-- What happens to the line breaks at the end of a block. -/
inductive Chomping where
  | strip
  | clip
  | keep
deriving DecidableEq, Repr

/-- The chomping that a sign asks for. -/
def Chomping.ofSign? : Char → Option Chomping
  | '+' => some .keep
  | '-' => some .strip
  | _ => none

/-- Reads the sign after the mark of a block. -/
def takeChomping (c : Cursor) : Option Chomping × Cursor :=
  match c.peek?.bind Chomping.ofSign? with
  | some k => (some k, c.skip)
  | none => (none, c)

/-- Reads the digit of an indentation, which is not zero. -/
def takeIncrement (c : Cursor) : Option (Nat × Cursor) :=
  match c.peek? with
  | some d =>
    if d.isDigit then if d == '0' then none else some (d.toNat - 48, c.skip) else some (0, c)
  | none => some (0, c)

/-- Reads the sign and the digit after the mark of a block, in either order. -/
def blockHeader (c : Cursor) : Option (Chomping × Nat × Cursor) := do
  let (before, c) := takeChomping c
  let (increment, c) ← takeIncrement c
  match before with
  | some k => return (k, increment, c)
  | none =>
    if increment = 0 then return (.clip, 0, c)
    let (after, c) := takeChomping c
    return (after.getD .clip, increment, c)

/-- Reads the indentation and the empty lines in front of the next line of a block. An indentation
of zero is not known yet. Gives the line breaks and the greatest column. -/
def blockBreaks (indent : Nat) : Nat → Nat → List Char → Cursor → Option (Nat × List Char × Cursor)
  | 0, _, _, _ => none
  | fuel + 1, greatest, breaks, c =>
    let inside := fun (c : Cursor) => indent == 0 || c.column < indent
    let spaces := (c.rest.takeWhile (· == ' ')).length
    let c := c.skipMany (if indent == 0 then spaces else min spaces (indent - c.column))
    let greatest := max greatest c.column
    if inside c && c.sees '\t' then none
    else if c.meets isBreak then
      let (text, after) := c.takeBreak
      blockBreaks indent fuel greatest (breaks ++ text) after
    else some (greatest, breaks, c)

/-- Reads the lines of a block that are indented by `indent`. `lead` is the break before the next
line, `breaks` are the empty lines before it, and `spaced` tells that the line before started
with a blank. -/
def blockLines (folds : Bool) (indent : Nat) : Nat → List Char → List Char → List Char → Bool →
    Cursor → Option (List Char × List Char × List Char × Cursor)
  | 0, _, _, _, _, _ => none
  | fuel + 1, text, lead, breaks, spaced, c =>
    if c.column ≠ indent || c.atEnd then some (text, lead, breaks, c)
    else
      let blank := c.meets isBlank
      let joint := if folds && !spaced && !blank && lead == ['\n']
        then if breaks.isEmpty then [' '] else [] else lead
      let (line, c) := c.takeWhile fun _ => true
      let (lead, c) := c.takeBreak
      match blockBreaks indent (c.rest.length + 1) 0 [] c with
      | none => none
      | some (_, next, c) =>
        blockLines folds indent fuel (text ++ joint ++ breaks ++ line) lead next blank c

/-- Reads a block after its mark. The block is indented more than `outer`, the column of the
enclosing block, which is -1 outside of all blocks. -/
def readBlock (folds : Bool) (outer : Int) (c : Cursor) : Option (List Char × Cursor) := do
  let (chomping, increment, c) ← blockHeader c
  let c := c.skipComment
  if !c.atLineEnd then none
  let c := c.takeBreak.2
  let given := if increment = 0 then 0 else (max outer 0).toNat + increment
  let (greatest, breaks, c) ← blockBreaks given (c.rest.length + 1) 0 [] c
  let indent := if given = 0 then max (max greatest (outer + 1).toNat) 1 else given
  let (text, lead, breaks, c) ← blockLines folds indent (c.rest.length + 1) [] [] breaks false c
  return (match chomping with
    | .strip => text
    | .clip => text ++ lead
    | .keep => text ++ lead ++ breaks, c)

end Clearance.Yaml
