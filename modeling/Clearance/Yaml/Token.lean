/-
# Tokens

A document is a list of tokens. Indentation shows as tokens too: a block starts where the
column grows and ends where it shrinks. Whether a token starts a key is only known when the
colon after it is found, so the scanner remembers where a key may start, for the block and for
each open bracket, and inserts the tokens of the key there. Tokens are read no further than
needed: a fault that comes later in the text does no harm.
-/
import Clearance.Yaml.Scalar
import Clearance.Yaml.Tag

namespace Clearance.Yaml

/-- The tokens of a document. -/
inductive Token where
  | streamEnd
  /-- The version of the format. -/
  | version (major minor : Nat)
  /-- What a handle of tags stands for. -/
  | handle (t : WrittenTag)
  | documentStart
  | documentEnd
  | sequenceStart
  | mappingStart
  | blockEnd
  | openList
  | closeList
  | openMap
  | closeMap
  | dash
  | comma
  | key
  | value
  | alias (name : String)
  | anchor (name : String)
  | tag (t : WrittenTag)
  | scalar (text : String) (plain : Bool)
deriving DecidableEq, Repr

/-- A place where a key may start. -/
structure Candidate where
  /-- The number of tokens before it. -/
  index : Nat
  line : Nat
  column : Nat
  offset : Nat
  /-- It must be a key. -/
  required : Bool

/-- A key stands on one line and is not too long. -/
def Candidate.expired (k : Candidate) (c : Cursor) : Bool :=
  k.line < c.line || k.offset + 1024 < c.offset

/-- The state of the scanner. -/
structure Scanner where
  cursor : Cursor
  tokens : Array Token
  /-- The columns of the open blocks, the innermost first. -/
  indents : List Nat
  /-- The place where a key may start, for the block. -/
  blockKey : Option Candidate
  /-- The same for each open bracket, the innermost first. -/
  flowKeys : List (Option Candidate)
  /-- A key may start at the next token. -/
  keyAllowed : Bool
  /-- The last token is found. -/
  done : Bool
  /-- The number of characters that can be read, if that is not all of them. -/
  sound : Option Nat
  /-- The number of characters that had to be looked at. -/
  reach : Nat
  /-- The number of characters in which the first one of a line counts as a byte order mark. -/
  marked : Nat

namespace Scanner

/-- The start of a text. A byte order mark at its start is dropped. If the first piece starts with
another one, then each line in it is taken to start with one. -/
def start (s : String) : Scanner :=
  let (cs, used) := match s.toList with
    | [] => ([], 0)
    | c :: cs => if c == byteOrderMark then (cs, c.utf8Size) else (c :: cs, 0)
  let marked := if cs.head? == some byteOrderMark then (pieceFrom used cs).length else 0
  ⟨.start cs, #[], [], none, [], true, false, soundPieces 0 0 used cs, 0, marked⟩

/-- Some bracket is open. -/
def inFlow (s : Scanner) : Bool := !s.flowKeys.isEmpty

/-- The column of the innermost block, -1 outside of all blocks. -/
def indent (s : Scanner) : Int :=
  match s.indents with
  | [] => -1
  | n :: _ => n

/-- Adds a token. -/
def push (s : Scanner) (t : Token) : Scanner := { s with tokens := s.tokens.push t }

/-- The place where a key may start. -/
def candidate (s : Scanner) : Option Candidate :=
  match s.flowKeys with
  | [] => s.blockKey
  | k :: _ => k

/-- Changes the place where a key may start. -/
def setCandidate (s : Scanner) (k : Option Candidate) : Scanner :=
  match s.flowKeys with
  | [] => { s with blockKey := k }
  | _ :: rest => { s with flowKeys := k :: rest }

/-- Forgets the place where a key may start, unless it must be a key. -/
def dropCandidate (s : Scanner) : Option Scanner :=
  match s.candidate with
  | none => some s
  | some k => if k.required then none else some (s.setCandidate none)

/-- Remembers that a key may start here. -/
def saveCandidate (s : Scanner) : Option Scanner :=
  if !s.keyAllowed then some s
  else
    let c := s.cursor
    let k : Candidate :=
      ⟨s.tokens.size, c.line, c.column, c.offset, !s.inFlow && s.indent == c.column⟩
    s.dropCandidate.map fun s => s.setCandidate (some k)

/-- No more blocks, and no more brackets, can be open at a place. -/
def maxDepth : Nat := 10000

/-- Opens a block at a column, if that is further in. Its first token is number `index`. -/
def openBlock (s : Scanner) (column index : Nat) (t : Token) : Option Scanner :=
  if s.inFlow || s.indent ≥ column then some s
  else if s.indents.length ≥ maxDepth then none
  else some
    { s with indents := column :: s.indents, tokens := s.tokens.insertIdxIfInBounds index t }

/-- The open blocks that stay open at a column, and how many end. -/
def closing (column : Int) : List Nat → Nat × List Nat
  | [] => (0, [])
  | n :: rest =>
    if (n : Int) > column then
      let (count, left) := closing column rest
      (count + 1, left)
    else (0, n :: rest)

/-- Closes the blocks that are further in than a column. -/
def closeBlocks (s : Scanner) (column : Int) : Scanner :=
  if s.inFlow then s
  else
    let (count, left) := closing column s.indents
    { s with indents := left, tokens := s.tokens ++ Array.replicate count .blockEnd }

/-- Passes some characters. -/
def advance (s : Scanner) (n : Nat) : Scanner := { s with cursor := s.cursor.skipMany n }

/-- A byte order mark is expected at a place. -/
def expectsMark (s : Scanner) (c : Cursor) : Bool :=
  c.column == 0 && s.reach ≤ s.marked && c.offset < s.marked

/-- Passes space, comments and line breaks. After a line break of a block a key may start. Tabs do
not count as space where a key may start. -/
def skipSpace : Nat → Scanner → Scanner
  | 0, s => s
  | fuel + 1, s =>
    let blank := fun x => x == ' ' || (x == '\t' && (s.inFlow || !s.keyAllowed))
    let c := s.cursor
    let c := if s.expectsMark c then c.skip else c
    let c := c.skipWhile blank
    let c := if c.sees '#' then c.skipComments (c.rest.length + 1) else c
    if c.meets isBreak then
      skipSpace fuel { s with cursor := c.takeBreak.2, keyAllowed := s.keyAllowed || !s.inFlow }
    else { s with cursor := c }

/-- Passes a comment that follows on the same line. -/
def skipTrailing (s : Scanner) : Scanner :=
  if (s.cursor.skipWhile isBlank).sees '#' then { s with cursor := s.cursor.skipComment } else s

/-- Looks at some characters from a place on. -/
def look (s : Scanner) (c : Cursor) (n : Nat) : Option Scanner :=
  let reach := max s.reach (c.offset + n)
  if s.sound.any (· < reach) then none else some { s with reach := reach }

/-! ## One token -/

/-- A token that ends all blocks. -/
def boundary (s : Scanner) (t : Token) (width : Nat) : Option Scanner := do
  let s ← (s.closeBlocks (-1)).dropCandidate
  return ({ s with keyAllowed := false }.advance width).push t

/-- The end of the document's text. -/
def finish (s : Scanner) : Option Scanner := do
  let s ← s.boundary .streamEnd 0
  return { s with done := true }

/-- Reads a number of one or two digits. -/
def versionNumber (c : Cursor) : Option (Nat × Cursor) := do
  let (digits, c) := c.takeWhile Char.isDigit
  if digits.length > 2 then none
  return (← Decimal.readDigits? 10 digits, c)

/-- Reads the version of the format. -/
def version (c : Cursor) : Option (Token × Cursor) := do
  let (major, c) ← versionNumber (c.skipWhile isBlank)
  if !c.sees '.' then none
  let (minor, c) ← versionNumber c.skip
  return (.version major minor, c)

/-- A line that starts with a percent sign. -/
def directive (s : Scanner) : Option Scanner := do
  let s ← (s.closeBlocks (-1)).dropCandidate
  let (name, c) := s.cursor.skip.takeWhile isWord
  if !c.spaceAfter 0 then none
  let (token, c) ← match String.ofList name with
    | "YAML" => version c
    | "TAG" => (readHandle c).map fun (t, c) => (Token.handle t, c)
    | _ => none
  let c := c.skipComment
  if !c.atLineEnd then none
  return { s with keyAllowed := false, cursor := c.takeBreak.2 }.push token

/-- An opening bracket. -/
def opening (s : Scanner) (t : Token) : Option Scanner := do
  let s ← s.saveCandidate
  if s.flowKeys.length ≥ maxDepth then none
  return ({ s with flowKeys := none :: s.flowKeys, keyAllowed := true }.advance 1).push t

/-- A closing bracket. -/
def closingBracket (s : Scanner) (t : Token) : Option Scanner := do
  let s ← s.dropCandidate
  return ({ s with flowKeys := s.flowKeys.tail, keyAllowed := false }.advance 1).push t

/-- A comma. -/
def entry (s : Scanner) : Option Scanner := do
  let s ← s.dropCandidate
  return ({ s with keyAllowed := true }.advance 1).push .comma

/-- The dash of a list. -/
def item (s : Scanner) : Option Scanner := do
  if !s.inFlow && !s.keyAllowed then none
  let s ← (← s.openBlock s.cursor.column s.tokens.size .sequenceStart).dropCandidate
  return ({ s with keyAllowed := true }.advance 1).push .dash

/-- The question mark of a key. -/
def complexKey (s : Scanner) : Option Scanner := do
  if !s.inFlow && !s.keyAllowed then none
  let s ← (← s.openBlock s.cursor.column s.tokens.size .mappingStart).dropCandidate
  return ({ s with keyAllowed := !s.inFlow }.advance 1).push .key

/-- The place where the key of the next colon starts, if there is one. -/
def keyStart (s : Scanner) : Option (Option Candidate) :=
  match s.candidate with
  | none => some none
  | some k =>
    if k.expired s.cursor then if k.required then none else some none
    else some (some k)

/-- The colon after a key. -/
def colon (s : Scanner) : Option Scanner := do
  match ← s.keyStart with
  | some k =>
    let s := { s with tokens := s.tokens.insertIdxIfInBounds k.index .key }
    let s := (← s.openBlock k.column k.index .mappingStart).setCandidate none
    return ({ s with keyAllowed := false }.advance 1).push .value
  | none =>
    if !s.inFlow && !s.keyAllowed then none
    let s ← s.openBlock s.cursor.column s.tokens.size .mappingStart
    return ({ s with keyAllowed := !s.inFlow }.advance 1).push .value

/-- An anchor or a reference to one. -/
def named (s : Scanner) (t : String → Token) : Option Scanner := do
  let s ← s.saveCandidate
  let (name, c) := s.cursor.skip.takeWhile isWord
  let follows := c.spaceAfter 0 || c.meets fun x =>
    x == '?' || x == ':' || x == ',' || x == ']' || x == '\x7d' || x == '%' || x == '@' ||
    x == '\x60'
  if name.isEmpty || !follows then none
  return { s with cursor := c, keyAllowed := false }.push (t (String.ofList name))

/-- A tag. -/
def tagged (s : Scanner) : Option Scanner := do
  let s ← s.saveCandidate
  let (t, c) ← readTag s.cursor
  return { s with cursor := c, keyAllowed := false }.push (.tag t)

/-- A block of lines. -/
def lines (s : Scanner) (folds : Bool) : Option Scanner := do
  let s ← s.dropCandidate
  let (text, c) ← readBlock folds s.indent s.cursor.skip
  return { s with cursor := c, keyAllowed := true }.push (.scalar (String.ofList text) false)

/-- A quoted text. -/
def quoted (s : Scanner) (quote : Char) : Option Scanner := do
  let s ← s.saveCandidate
  let c := s.cursor.skip
  let (text, c) ← readQuoted quote (c.rest.length + 1) [] c
  return { s with cursor := c, keyAllowed := false }.push (.scalar (String.ofList text) false)

/-- A plain text. -/
def plain (s : Scanner) : Option Scanner := do
  let s ← s.saveCandidate
  let c := s.cursor
  let (text, broken, c) ← readPlain s.inFlow (s.indent + 1).toNat (c.rest.length + 1) [] .none c
  let s := { s with cursor := c, keyAllowed := broken }.push (.scalar (String.ofList text) true)
  return if broken then s else s.skipTrailing

/-- The characters that mean something at the start of a token. -/
def indicators : List Char := "-?:,[]\x7b\x7d#&*!|>\x27\x22%@\x60".toList

/-- A plain text can start here. -/
def startsPlain (s : Scanner) (x : Char) : Bool :=
  (x ∉ indicators && !isBlank x) || (x == '-' && !(s.cursor.skip.meets isBlank)) ||
    (!s.inFlow && (x == '?' || x == ':') && !s.cursor.spaceAfter 1)

/-- Reads the token that starts with a character. -/
def token (s : Scanner) (x : Char) : Option Scanner :=
  let c := s.cursor
  let spaced := c.spaceAfter 1
  if c.column == 0 && x == '%' then s.directive
  else if c.marks '-' then s.boundary .documentStart 3
  else if c.marks '.' then s.boundary .documentEnd 3
  else if x == '[' then (s.opening .openList).map skipTrailing
  else if x == '\x7b' then (s.opening .openMap).map skipTrailing
  else if x == ']' then (s.closingBracket .closeList).map skipTrailing
  else if x == '\x7d' then (s.closingBracket .closeMap).map skipTrailing
  else if x == ',' then s.entry.map skipTrailing
  else if x == '-' && spaced then s.item
  else if x == '?' && (s.inFlow || spaced) then s.complexKey.map skipTrailing
  else if x == ':' && (s.inFlow || spaced) then s.colon.map skipTrailing
  else if x == '*' then (s.named .alias).map skipTrailing
  else if x == '&' then (s.named .anchor).map skipTrailing
  else if x == '!' then s.tagged.map skipTrailing
  else if x == '|' && !s.inFlow then s.lines false
  else if x == '>' && !s.inFlow then s.lines true
  else if x == '\x27' || x == '\x22' then (s.quoted x).map skipTrailing
  else if s.startsPlain x then s.plain
  else none

/-- The longest mark of a token, with the character after it. -/
def markWidth : Nat := 4

/-- Reads one token, with those that come before it. -/
def step (s : Scanner) : Option Scanner := do
  let s := skipSpace (s.cursor.rest.length + 1) s
  let s ← (s.closeBlocks s.cursor.column).look s.cursor markWidth
  match s.cursor.peek? with
  | none => s.finish
  | some x =>
    let s ← s.token x
    s.look s.cursor 1

/-! ## Reading as far as needed -/

/-- The candidates for keys. -/
def candidates (s : Scanner) : List Candidate := (s.blockKey :: s.flowKeys).filterMap id

/-- A token may still turn out to be the start of a key. There is none if it had to be one and
cannot be one any more. -/
def undecided (s : Scanner) (index : Nat) : Option Bool :=
  match s.candidates.find? (·.index == index) with
  | none => some false
  | some k =>
    if k.expired s.cursor then if k.required then none else some false
    else some true

/-- The number of tokens that are read beyond the next one. -/
def lookahead : Nat := 2

/-- Reads tokens until the one with the given number is known, and some after it. -/
def fill (index : Nat) : Nat → Scanner → Option Scanner
  | 0, _ => none
  | fuel + 1, s => do
    if s.done then return s
    if index + lookahead < s.tokens.size then
      if !(← s.undecided index) then return s
    fill index fuel (← s.step)

end Scanner
end Clearance.Yaml
