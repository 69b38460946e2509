/-
# Places in a document

A cursor is what is left of a document, with the line and the column where that starts. The
classes of characters that the format tells apart are defined here, and so are the pieces in
which a document is read: a forbidden character spoils the piece that it stands in, and all that
comes before the piece can still be used.
-/
import Clearance.Text.Search

namespace Clearance.Yaml

/-- A line ends at these characters. -/
def isBreak (c : Char) : Bool :=
  c == '\r' || c == '\n' || c.toNat == 0x85 || c.toNat == 0x2028 || c.toNat == 0x2029

/-- A space or a tab. -/
def isBlank (c : Char) : Bool := c == ' ' || c == '\t'

/-- A character of a name. -/
def isWord (c : Char) : Bool := c.isAlphanum || c == '_' || c == '-'

/-- The characters that a document may hold. -/
def isAllowed (c : Char) : Bool :=
  let n := c.toNat
  n == 9 || n == 10 || n == 13 || (32 ≤ n && n ≤ 126) || n == 0x85 || (0xA0 ≤ n && n ≤ 0xD7FF) ||
    (0xE000 ≤ n && n ≤ 0xFFFD) || 0x10000 ≤ n

/-- The mark that tells the order of bytes. -/
def byteOrderMark : Char := '\ufeff'

/-! ## Pieces -/

/-- A piece has at most this many bytes. -/
def pieceSize : Nat := 512

/-- The characters that a piece still takes when `used` of its bytes are taken. -/
def pieceFrom (used : Nat) : List Char → List Char
  | [] => []
  | c :: cs =>
    if used + c.utf8Size ≤ pieceSize then c :: pieceFrom (used + c.utf8Size) cs else []

/-- The number of characters before the first piece that holds a forbidden character, if there
is one. The next character is number `index`, its piece started at number `start` and has
`used` bytes so far. -/
def soundPieces (index start used : Nat) : List Char → Option Nat
  | [] => none
  | c :: cs =>
    let fits := used + c.utf8Size ≤ pieceSize
    let start := if fits then start else index
    if isAllowed c then
      soundPieces (index + 1) start (if fits then used + c.utf8Size else c.utf8Size) cs
    else some start

/-! ## Cursors -/

/-- What is left of a document and where it starts. -/
structure Cursor where
  rest : List Char
  line : Nat
  column : Nat
  /-- The number of characters before. -/
  offset : Nat
deriving Repr

namespace Cursor

/-- The start of a text. -/
def start (cs : List Char) : Cursor := ⟨cs, 0, 0, 0⟩

/-- The next character. -/
def peek? (c : Cursor) : Option Char := c.rest.head?

/-- The next character is the given one. -/
def sees (c : Cursor) (x : Char) : Bool := c.peek? == some x

/-- The next character satisfies `p`. -/
def meets (c : Cursor) (p : Char → Bool) : Bool := c.peek?.any p

/-- Nothing is left. -/
def atEnd (c : Cursor) : Bool := c.rest.isEmpty

/-- Passes a character of a line. -/
def skip (c : Cursor) : Cursor :=
  { c with rest := c.rest.tail, column := c.column + 1, offset := c.offset + 1 }

/-- Passes several characters of a line. -/
def skipMany (c : Cursor) (n : Nat) : Cursor :=
  { c with rest := c.rest.drop n, column := c.column + n, offset := c.offset + n }

/-- Passes a line break; the text that it stands for, and what follows. All breaks but two
stand for a line feed. -/
def takeBreak (c : Cursor) : List Char × Cursor :=
  match c.rest with
  | '\r' :: '\n' :: rest => (['\n'], ⟨rest, c.line + 1, 0, c.offset + 2⟩)
  | x :: rest =>
    if isBreak x then
      (if x.toNat == 0x2028 || x.toNat == 0x2029 then [x] else ['\n'],
        ⟨rest, c.line + 1, 0, c.offset + 1⟩)
    else ([], c)
  | [] => ([], c)

/-- The characters of the line that satisfy `p`, and what follows. -/
def takeWhile (c : Cursor) (p : Char → Bool) : List Char × Cursor :=
  let taken := c.rest.takeWhile fun x => p x && !isBreak x
  (taken, c.skipMany taken.length)

/-- Passes the characters of the line that satisfy `p`. -/
def skipWhile (c : Cursor) (p : Char → Bool) : Cursor := (c.takeWhile p).2

/-- After `n` characters a blank, a line break or the end follows. -/
def spaceAfter (c : Cursor) (n : Nat) : Bool :=
  match c.rest.drop n with
  | [] => true
  | x :: _ => isBlank x || isBreak x

/-- A line of three equal characters and then space. -/
def marks (c : Cursor) (x : Char) : Bool :=
  c.column == 0 && c.rest.take 3 == [x, x, x] && c.spaceAfter 3

/-- A document starts or ends here. -/
def atMarker (c : Cursor) : Bool := c.marks '-' || c.marks '.'

/-- Passes blanks and a comment up to the end of the line. -/
def skipComment (c : Cursor) : Cursor :=
  let c := c.skipWhile isBlank
  if c.sees '#' then c.skipWhile fun _ => true else c

/-- Passes blanks and the line breaks of one byte. -/
def skipBlankLines : Nat → Cursor → Cursor
  | 0, c => c
  | fuel + 1, c =>
    if c.meets isBlank then skipBlankLines fuel c.skip
    else if c.sees '\n' || c.sees '\r' then skipBlankLines fuel c.takeBreak.2
    else c

/-- Passes a comment and the comments after it, when only blank lines stand in between. Tabs may
stand in front of these comments. -/
def skipComments : Nat → Cursor → Cursor
  | 0, c => c
  | fuel + 1, c =>
    let c := c.skipComment
    let next := skipBlankLines c.rest.length c
    if next.sees '#' then skipComments fuel next else c

/-- A line break or the end comes next. -/
def atLineEnd (c : Cursor) : Bool := c.atEnd || c.meets isBreak

end Cursor
end Clearance.Yaml
