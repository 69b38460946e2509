/-
# Scripts from source text

A source text becomes a script in four steps: the grammar reads it into a tree over byte
extents, the extents are turned into lines and columns, calls of the label intrinsic become
label expressions, and the jumps are resolved. Lines are counted from a start line. A text with
a source map shows its nodes where the map leads.
-/
import Clearance.Script.Grammar
import Clearance.Script.Jumps
import Clearance.Script.Rebuild
import Clearance.Script.SourceMap
import Clearance.Script.Walk

namespace Clearance.Script

/-- The lines of a text, last one first: the number of each line and its first byte. -/
def linesFrom : List Char → Nat → List (Nat × Nat) → List (Nat × Nat)
  | [], _, acc => acc
  | c :: cs, off, acc =>
    if c == '\n' then
      linesFrom cs (off + 1) (((acc.head?.map Prod.fst).getD 1 + 1, off + 1) :: acc)
    else linesFrom cs (off + c.utf8Size) acc

/-- A text laid out in lines. -/
structure Layout where
  /-- The number of bytes. -/
  size : Nat
  /-- The lines, last one first. -/
  lines : List (Nat × Nat)
  /-- Where the text was made from others, the way back to them. -/
  map : Option SourceMap

/-- The layout of a text. -/
def Layout.of (text : String) (map : Option SourceMap) : Layout :=
  ⟨text.utf8ByteSize, linesFrom text.toList 0 [(1, 0)], map⟩

/-- The place of a byte, moved down by `delta` lines; only a line feed ends a line here. The end
of the text has no place. There is none at all where the map is broken. -/
def Layout.position? (l : Layout) (delta offset : Nat) : Option Position :=
  if offset ≥ l.size then some .unknown
  else match l.lines.find? (fun line => line.2 ≤ offset) with
    | none => some .unknown
    | some (n, first) =>
      let column := offset - first + 1
      match (l.map.map fun m => m.route n column).getD .unmapped with
      | .unmapped => some ⟨n + delta, column⟩
      | .mapped line column => some ⟨(line + delta).toNat, column.toNat⟩
      | .broken => none

/-- The span of an extent. Without one of its two places it is unknown. -/
def Layout.span (l : Layout) (delta : Nat) : Extent → Span
  | .unknown => .unknown
  | .startsAt a => ((l.position? delta a).map fun p => ⟨p, .unknown⟩).getD .unknown
  | .range a b | .skipped a b =>
    match l.position? delta a, l.position? delta b with
    | some start, some stop => ⟨start, stop⟩
    | _, _ => .unknown

/-- A call of the intrinsic with a literal label and one expression is a label expression. -/
def labelCall {α : Type} (intrinsic : String) : Expr α → Expr α
  | .call s (.ident id) [.string s' name, e] =>
    if intrinsic ≠ "" ∧ id.name = intrinsic then .label s name e
    else .call s (.ident id) [.string s' name, e]
  | e => e

/-- The name of the label intrinsic, unless another one is chosen. -/
def defaultIntrinsic : String := "label"

/-- Why a text is no script. -/
inductive ParseError where
  /-- There is nothing to parse with. -/
  | noParser
  /-- A fault at a place; an unknown place has line zero. -/
  | fault (file : String) (line column : Nat) (message : String)
deriving DecidableEq, Repr

namespace ParseError

/-- The wording without the place. -/
def detail : ParseError → String
  | .noParser => "parser: nil parser"
  | .fault _ _ _ m => m

/-- The wording with the place. -/
def text : ParseError → String
  | .noParser => "parser: nil parser"
  | .fault file line column m =>
    if line = 0 then m
    else if file = "" then s!"line {line}:{column}: {m}"
    else s!"{file}:{line}:{column}: {m}"

end ParseError

/-- What is not supported about a node: an operator that only assigns, or skipped text. -/
def Node.objection? : Node Extent → Option (Extent × String)
  | .expr (.assign s (.compound (.other op)) _ _) =>
    some (s, "unsupported assignment operator " ++ op)
  | .expr (.null (.skipped a b)) => some (.skipped a b, "invalid expression")
  | _ => none

/-- Parses a script. Line numbers start at `startLine`; numbers below one count as one. What is
wrong with a source map is found first and has no place. -/
def parse (intrinsic file text : String) (startLine : Int) : Except ParseError (Program Span) :=
  let delta := (startLine - 1).toNat
  let faultAt := fun (p : Position) (message : String) =>
    Except.error (ParseError.fault file p.line p.column message)
  match SourceMap.ofScript file text with
  | .error m => faultAt .unknown m
  | .ok map =>
    let layout := Layout.of text map
    match readScript text with
    | .error f =>
      let (line, column) := f.place text.toList
      faultAt ⟨line + delta, column⟩ f.message
    | .ok body =>
      match (nodesOfStmts true body).findSome? Node.objection? with
      | some (extent, message) => faultAt (layout.span delta extent).start message
      | none =>
        let placed := rebuildStmts (layout.span delta) (labelCall intrinsic) body
        match (Program.mk file placed).resolve with
        | .ok p => .ok p
        | .error e => faultAt e.span.start e.message

/-- A text is incomplete when it could go on to be a script. -/
def incomplete (text : String) : Bool :=
  match parse defaultIntrinsic "" text 1 with
  | .ok _ => false
  | .error e => (e.detail.toLower.splitOn "end of input").length > 1

end Clearance.Script
