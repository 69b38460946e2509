/-
# Tags

A tag says what kind of thing a node is. It is written in full between angle brackets, or as a
handle and a suffix, where the handle stands for the first part of the full name. A text whose
tag says that it is a number, a time or the like must be one.
-/
import Clearance.Text.Bytes
import Clearance.Yaml.Cursor
import Clearance.Yaml.Number

namespace Clearance.Yaml

/-! ## How tags are written -/

/-- The characters of a tag that stand for themselves. -/
def isTagChar (c : Char) : Bool := isWord c || c ∈ ";/?:@&=+$.,!~*\x27()[]".toList

/-- A byte, written as a percent sign and two hexadecimal digits, and what follows. -/
def percentByte? : List Char → Option (Nat × List Char)
  | '%' :: a :: b :: rest => (Decimal.readDigits? 16 [a, b]).map fun n => (n, rest)
  | _ => none

/-- The number of bytes that follow the first byte of a character. -/
def bytesAfter? (b : Nat) : Option Nat :=
  if b < 0x80 then some 0
  else if b < 0xC0 then none
  else if b < 0xE0 then some 1
  else if b < 0xF0 then some 2
  else if b < 0xF8 then some 3
  else none

/-- The further bytes of a character. -/
def percentTail? : Nat → List Char → Option (List Nat × List Char)
  | 0, cs => some ([], cs)
  | n + 1, cs => do
    let (b, rest) ← percentByte? cs
    if b < 0x80 || 0xC0 ≤ b then none
    let (bs, rest) ← percentTail? n rest
    return (b :: bs, rest)

/-- A character whose bytes are written with percent signs. -/
def percentChar? (cs : List Char) : Option (List Char × List Char) := do
  let (b, rest) ← percentByte? cs
  let (bs, rest) ← percentTail? (← bytesAfter? b) rest
  return (Text.decodeBytes (b :: bs), rest)

/-- Reads the characters of a tag, the last one read first. -/
def tagChars : Nat → List Char → List Char → Option (List Char × List Char)
  | 0, _, _ => none
  | fuel + 1, acc, cs =>
    match cs with
    | [] => some (acc, [])
    | c :: rest =>
      if c == '%' then
        match percentChar? cs with
        | none => none
        | some (text, rest) => tagChars fuel (text.reverse ++ acc) rest
      else if isTagChar c then tagChars fuel (c :: acc) rest
      else some (acc, cs)

/-- Reads the characters of a tag. -/
def takeTagText (c : Cursor) : Option (List Char × Cursor) := do
  let (text, rest) ← tagChars (c.rest.length + 1) [] c.rest
  return (text.reverse, c.skipMany (c.rest.length - rest.length))

/-- Reads the characters of a tag, at least one. -/
def someTagText (c : Cursor) : Option (String × Cursor) := do
  let (text, c) ← takeTagText c
  if text.isEmpty then none else return (String.ofList text, c)

/-- A tag as it is written. -/
structure WrittenTag where
  /-- What stands for the first part of the name, empty for a full name. -/
  handle : String
  suffix : String
deriving DecidableEq, Repr

/-- Reads a tag without a second exclamation mark; the mark alone is a full name. -/
def simpleTag (c : Cursor) : Option (WrittenTag × Cursor) := do
  let (text, c) ← takeTagText c
  return (if text.isEmpty then ⟨"", "!"⟩ else ⟨"!", String.ofList text⟩, c)

/-- Reads a tag. A blank, a line break or the end must follow. -/
def readTag (c : Cursor) : Option (WrittenTag × Cursor) := do
  let c := c.skip
  let (tag, c) ←
    if c.sees '<' then do
      let (text, c) ← someTagText c.skip
      if c.sees '>' then some (⟨"", text⟩, c.skip) else none
    else
      let (word, next) := c.takeWhile isWord
      if next.sees '!' then do
        let (text, c) ← someTagText next.skip
        some (⟨"!" ++ String.ofList word ++ "!", text⟩, c)
      else simpleTag c
  if c.spaceAfter 0 then return (tag, c) else none

/-- Reads a handle and the text that it stands for. -/
def readHandle (c : Cursor) : Option (WrittenTag × Cursor) := do
  let c := c.skipWhile isBlank
  if !c.sees '!' then none
  let (word, c) := c.skip.takeWhile isWord
  let (handle, c) ←
    if c.sees '!' then some ("!" ++ String.ofList word ++ "!", c.skip)
    else if word.isEmpty then some ("!", c)
    else none
  if !c.meets isBlank then none
  let (text, c) ← someTagText (c.skipWhile isBlank)
  if c.spaceAfter 0 then return (⟨handle, text⟩, c) else none

/-! ## What tags mean -/

/-- The kinds of things that tags tell apart. -/
inductive Tag where
  /-- A text. -/
  | text
  /-- Nothing. -/
  | nothing
  /-- A key whose value is merged into the mapping. -/
  | merge
  /-- A truth value. -/
  | truth
  /-- A whole number. -/
  | whole
  /-- A double. -/
  | real
  /-- A point in time. -/
  | time
  /-- Bytes, six bits a character. -/
  | bytes
  /-- Any other thing. -/
  | other
deriving DecidableEq, Repr

namespace Tag

/-- The first part of the names of the tags that everyone knows. -/
def knownStart : String := "tag:yaml.org,2002:"

/-- The handles that are always defined. -/
def standardHandles : List WrittenTag := [⟨"!", "!"⟩, ⟨"!!", knownStart⟩]

/-- The short form of a tag's full name. -/
def shortName (name : String) : String :=
  if knownStart.toList.isPrefixOf name.toList
  then "!!" ++ String.ofList (name.toList.drop knownStart.length)
  else name

/-- The tag of a full name. -/
def ofName (name : String) : Tag :=
  match shortName name with
  | "!!str" => .text
  | "!!null" => .nothing
  | "!!merge" => .merge
  | "!!bool" => .truth
  | "!!int" => .whole
  | "!!float" => .real
  | "!!timestamp" => .time
  | "!!binary" => .bytes
  | _ => .other

/-- The name that says nothing. -/
def plainName : String := "!"

/-- The texts that stand for nothing. -/
def nothingTexts : List String := ["", "~", "null", "Null", "NULL"]

/-- The truth values. -/
def truthTexts : List String := ["true", "True", "TRUE", "false", "False", "FALSE"]

/-- The key whose value is merged into the mapping. -/
def mergeText : String := "<<"

/-- The tag of a text that has none. Numbers and the like are texts here, since they are always
read as such. -/
def ofText (text : String) (plain : Bool) : Tag :=
  if !plain then .text
  else if text = mergeText then .merge
  else if text ∈ nothingTexts then .nothing
  else .text

/-- A text is of the kind that the tag says. -/
def admits (t : Tag) (s : String) : Bool :=
  match t with
  | .nothing => s ∈ nothingTexts
  | .truth => s ∈ truthTexts
  | .whole => (numberKind? s).any fun k => k = .signed || k = .unsigned
  | .real => (numberKind? s).any fun k => k = .signed || k = .real
  | .time => isTime s
  | .text | .merge | .bytes | .other => true

/-- What a text with a tag is read as: a text, or nothing. -/
def read (t : Tag) (s : String) : Option (Option String) :=
  if !t.admits s then none
  else match t with
    | .nothing => some none
    | .bytes => (Text.decodeSixBits? s.toList).map fun bs =>
        some (String.ofList (Text.decodeBytes bs))
    | _ => some (some s)

end Tag
end Clearance.Yaml
