/-
# Searching

All ways to match are followed side by side, one character at a time, in order of preference.
A match cuts off the ways of lower preference; the leftmost match wins, and of those at the
same place the preferred one. Places are byte offsets.
-/
import Clearance.Pattern.Code

namespace Clearance.Pattern

/-- The places of a match: two slots a capture, the whole match first. A capture that took no
part has none. -/
abbrev Slots := Array (Option Nat)

/-- A way to match: where it stands in the code and the places it remembers. -/
structure Thread where
  pc : Nat
  slots : Slots

/-- The ways found at a place, in order of preference, and the instructions seen there: an
instruction was seen if its mark is the number of the place. -/
structure Reach where
  threads : Array Thread
  marks : Array Nat

/-- A place in the text: its number counted from one, its byte offset, and the characters
around it. -/
structure Place where
  stamp : Nat
  offset : Nat
  before : Option Char
  after : Option Char

/-- Follows all instructions that read nothing. The fuel bounds the length of a way, which
visits no instruction twice. -/
def follow (code : Array Instr) (here : Place) : Nat → Nat → Slots → Reach → Reach
  | 0, _, _, r => r
  | fuel + 1, pc, slots, r =>
    if r.marks.getD pc here.stamp = here.stamp then r
    else
      let r := { r with marks := r.marks.setIfInBounds pc here.stamp }
      match code[pc]? with
      | none | some .fail => r
      | some .accept | some (.chars _ _) => { r with threads := r.threads.push ⟨pc, slots⟩ }
      | some (.edge e next) =>
        if e.holds here.before here.after then follow code here fuel next slots r else r
      | some (.save slot next) =>
        follow code here fuel next (slots.setIfInBounds slot (some here.offset)) r
      | some (.split first second) =>
        follow code here fuel second slots (follow code here fuel first slots r)

/-- Moves the ways over the character `c` to the place `next`. The first accepting way ends
the list and becomes the best match so far. -/
def advance (code : Array Instr) (c : Option Char) (next : Place) :
    List Thread → Reach → Option Slots → Reach × Option Slots
  | [], r, best => (r, best)
  | t :: ts, r, best =>
    match code[t.pc]? with
    | some .accept => (r, some t.slots)
    | some (.chars set target) =>
      match c with
      | some c =>
        if set.holds c then
          advance code (some c) next ts (follow code next (code.size + 1) target t.slots r) best
        else advance code (some c) next ts r best
      | none => advance code none next ts r best
    | _ => advance code c next ts r best

/-- Searches from a place on. -/
def searchFrom (code : Code) : List Char → Place → Reach → Option Slots → Option Slots
  | rest, here, r, best =>
    -- a new way starts here unless a match has been found
    let r := match best with
      | none => follow code.instrs here (code.instrs.size + 1) code.start
          (Array.replicate (2 * (code.captures + 1)) none) r
      | some _ => r
    if r.threads.isEmpty && best.isSome then best
    else match rest with
      | [] =>
        (advance code.instrs none here r.threads.toList ⟨#[], r.marks⟩ best).2
      | c :: cs =>
        let next : Place := ⟨here.stamp + 1, here.offset + c.utf8Size, some c, cs.head?⟩
        let (r', best) := advance code.instrs (some c) next r.threads.toList ⟨#[], r.marks⟩ best
        searchFrom code cs next r' best

/-- The first match in a text from the byte offset `offset` on, where `before` is the
character in front and `rest` is what follows. -/
def Code.search (code : Code) (before : Option Char) (rest : List Char) (offset : Nat) :
    Option Slots :=
  searchFrom code rest ⟨1, offset, before, rest.head?⟩
    ⟨#[], Array.replicate code.instrs.size 0⟩ none

/-- The first match in a text. -/
def Code.find (code : Code) (text : List Char) : Option Slots := code.search none text 0

/-- The start and end of a match. -/
def Slots.range (s : Slots) : Nat × Nat :=
  (((s[0]?).join).getD 0, ((s[1]?).join).getD 0)

/-- Moves from one byte offset to a later one: the last character passed and the rest. -/
def passBytes : Nat → Option Char → List Char → Option Char × List Char
  | _, before, [] => (before, [])
  | n, before, c :: cs =>
    if n = 0 then (before, c :: cs) else passBytes (n - c.utf8Size) (some c) cs

/-- All matches from a place on that do not overlap, at most `limit` of them if there is a
limit. An empty match right after another match is left out. The fuel bounds the number of
searches. -/
def findAllFrom (code : Code) :
    Nat → Option Nat → Option Char → List Char → Nat → Option Nat → List Slots
  | 0, _, _, _, _, _ => []
  | fuel + 1, limit, before, rest, offset, previous =>
    if limit == some 0 then []
    else match code.search before rest offset with
      | none => []
      | some slots =>
        let (start, stop) := slots.range
        let accept := !(stop == offset && previous == some start)
        let limit := if accept then limit.map (· - 1) else limit
        let more :=
          if stop == offset then
            match rest with
            | [] => []
            | c :: cs => findAllFrom code fuel limit (some c) cs (offset + c.utf8Size) (some stop)
          else
            let (before, rest) := passBytes (stop - offset) before rest
            findAllFrom code fuel limit before rest stop (some stop)
        if accept then slots :: more else more

/-- All matches in a text that do not overlap. -/
def Code.findAll (code : Code) (limit : Option Nat) (text : List Char) : List Slots :=
  findAllFrom code (2 * text.length + 2) limit none text 0 none

end Clearance.Pattern
