/-
# Documents

A document is a tree of texts, lists and mappings. Only the first document of a text is read.
-/
import Clearance.Yaml.Token

namespace Clearance.Yaml

/-- A tree. -/
inductive Node where
  | scalar (text : String) (tag : Tag)
  | list (items : List Node) (tag : Tag)
  | map (entries : List (Node × Node)) (tag : Tag)
  /-- The node that got a name before, by the name and its number among the named nodes. It may
  hold this one. -/
  | alias (name : String) (target : Nat)

namespace Node

/-- What stands where nothing is written. -/
def empty : Node := .scalar "" .nothing

instance : Inhabited Node := ⟨empty⟩

/-- The tag, other than which kind of node it is. -/
def tag : Node → Tag
  | .scalar _ t => t
  | .list _ t => t
  | .map _ t => t
  | .alias _ _ => .other

end Node

/-- The tokens so far, the number of the next one, and what has been named. -/
structure Trail where
  scanner : Scanner
  index : Nat
  /-- What the handles of tags stand for. -/
  handles : List WrittenTag
  /-- The names of nodes, the latest first, with their numbers. -/
  anchors : List (String × Nat)
  /-- The named nodes. -/
  named : Array Node

/-- Reads a part of the tokens. -/
abbrev Read := StateT Trail Option

namespace Read

/-- The next token. -/
def peek : Read Token := do
  let t ← get
  match t.scanner.fill t.index (t.scanner.cursor.rest.length + 2) with
  | none => failure
  | some s =>
    set { t with scanner := s }
    return s.tokens.getD t.index .streamEnd

/-- Passes a token. -/
def skip : Read Unit := modify fun t => { t with index := t.index + 1 }

/-- Passes a token that must come next. -/
def expect (t : Token) : Read Unit := do
  if (← peek) == t then skip else failure

/-- Nothing follows where one of the given tokens comes next. -/
def emptyBefore (stops : List Token) (read : Read Node) : Read Node := do
  if (← peek) ∈ stops then return .empty else read

/-- Reads a node and remembers it under a name. The name can be used inside the node already. -/
def remembered (name : Option String) (read : Read Node) : Read Node := do
  match name with
  | none => read
  | some a =>
    let number := (← get).named.size
    modify fun t =>
      { t with anchors := (a, number) :: t.anchors, named := t.named.push .empty }
    let n ← read
    modify fun t => { t with named := t.named.setIfInBounds number n }
    return n

/-- A reference to the node of a name. -/
def reference (name : String) : Read Node := do
  match (← get).anchors.lookup name with
  | some number => return .alias name number
  | none => failure

/-- The full name of a written tag. -/
def fullName (t : WrittenTag) : Read String := do
  if t.handle = "" then return t.suffix
  match (← get).handles.find? (·.handle = t.handle) with
  | some h => return h.suffix ++ t.suffix
  | none => failure

/-- The anchor and the tag in front of a node, in either order. -/
def written : Read (Option String × Option WrittenTag) := do
  match ← peek with
  | .anchor a =>
    skip
    match ← peek with
    | .tag t => do skip; return (some a, some t)
    | _ => return (some a, none)
  | .tag t =>
    skip
    match ← peek with
    | .anchor a => do skip; return (some a, some t)
    | _ => return (none, some t)
  | _ => return (none, none)

/-- The anchor in front of a node, and the full name of its tag. -/
def properties : Read (Option String × Option String) := do
  match ← written with
  | (anchor, none) => return (anchor, none)
  | (anchor, some t) => return (anchor, some (← fullName t))

/-- Where a node stands. -/
inductive Place where
  /-- Inside brackets. -/
  | flow
  /-- In a block. -/
  | block
  /-- In a mapping of a block: a list need not be indented. -/
  | mapping
deriving DecidableEq

/-! ## Parts of nodes -/

/-- The items of a list of a block. -/
def items (node : Place → Read Node) (tag : Tag) : Nat → List Node → Read Node
  | 0, _ => failure
  | fuel + 1, acc => do
    match ← peek with
    | .dash =>
      skip
      let n ← emptyBefore [.dash, .blockEnd] (node .block)
      items node tag fuel (n :: acc)
    | .blockEnd => do skip; return .list acc.reverse tag
    | _ => failure

/-- The items of a list that is not indented. -/
def looseItems (node : Place → Read Node) (tag : Tag) : Nat → List Node → Read Node
  | 0, _ => failure
  | fuel + 1, acc => do
    match ← peek with
    | .dash =>
      skip
      let n ← emptyBefore [.dash, .key, .value, .blockEnd] (node .block)
      looseItems node tag fuel (n :: acc)
    | _ => return .list acc.reverse tag

/-- The entries of a mapping of a block. -/
def entries (node : Place → Read Node) (tag : Tag) : Nat → List (Node × Node) → Read Node
  | 0, _ => failure
  | fuel + 1, acc => do
    match ← peek with
    | .key =>
      skip
      let stops := [Token.key, .value, .blockEnd]
      let k ← emptyBefore stops (node .mapping)
      if (← peek) == .value then
        skip
        let v ← emptyBefore stops (node .mapping)
        entries node tag fuel ((k, v) :: acc)
      else entries node tag fuel ((k, .empty) :: acc)
    | .blockEnd => do skip; return .map acc.reverse tag
    | _ => failure

/-- A key and its value as an item of a list between brackets. -/
def pair (node : Place → Read Node) : Read Node := do
  let k ← if (← peek) ∈ [Token.value, .comma, .closeList] then do skip; pure Node.empty
    else node .flow
  if (← peek) == .value then
    skip
    let v ← emptyBefore [.comma, .closeList] (node .flow)
    return .map [(k, v)] .other
  else return .map [(k, .empty)] .other

/-- The items of a list between brackets. -/
def flowItems (node : Place → Read Node) (tag : Tag) : Nat → List Node → Read Node
  | 0, _ => failure
  | fuel + 1, acc => do
    if (← peek) == .closeList then do skip; return .list acc.reverse tag
    if !acc.isEmpty then expect .comma
    match ← peek with
    | .closeList => do skip; return .list acc.reverse tag
    | .key => do
      skip
      flowItems node tag fuel ((← pair node) :: acc)
    | _ => flowItems node tag fuel ((← node .flow) :: acc)

/-- The entries of a mapping between brackets. -/
def flowEntries (node : Place → Read Node) (tag : Tag) : Nat → List (Node × Node) → Read Node
  | 0, _ => failure
  | fuel + 1, acc => do
    if (← peek) == .closeMap then do skip; return .map acc.reverse tag
    if !acc.isEmpty then expect .comma
    match ← peek with
    | .closeMap => do skip; return .map acc.reverse tag
    | .key =>
      skip
      let k ← emptyBefore [.value, .comma, .closeMap] (node .flow)
      if (← peek) == .value then
        skip
        let v ← emptyBefore [.comma, .closeMap] (node .flow)
        flowEntries node tag fuel ((k, v) :: acc)
      else flowEntries node tag fuel ((k, .empty) :: acc)
    | _ =>
      let k ← node .flow
      flowEntries node tag fuel ((k, .empty) :: acc)

/-- The tag of a text. A name that says nothing counts as none. -/
def scalarTag (name : Option String) (text : String) (plain : Bool) : Tag :=
  match name with
  | none => .ofText text plain
  | some n => if n = Tag.plainName then .ofText text plain else .ofName n

/-- A node without its properties. `bare` stands for a node of which only properties are
written. -/
def content (node : Place → Read Node) (place : Place) (name : Option String) (bare : Read Node) :
    Read Node := do
  let fuel := (← get).scanner.cursor.rest.length + (← get).scanner.tokens.size + 2
  let tag := (name.map Tag.ofName).getD .other
  match ← peek, place with
  | .scalar text plain, _ =>
    skip
    return .scalar text (scalarTag name text plain)
  | .openList, _ => do skip; flowItems node tag fuel []
  | .openMap, _ => do skip; flowEntries node tag fuel []
  | .dash, .mapping => looseItems node tag fuel []
  | .sequenceStart, .block => do skip; items node tag fuel []
  | .sequenceStart, .mapping => do skip; items node tag fuel []
  | .mappingStart, .block => do skip; entries node tag fuel []
  | .mappingStart, .mapping => do skip; entries node tag fuel []
  | _, _ => bare

/-- A node. The fuel bounds the nesting. -/
def node : Nat → Place → Read Node
  | 0, _ => failure
  | fuel + 1, place => do
    match ← peek with
    | .alias name => do skip; reference name
    | _ =>
      let (anchor, name) ← properties
      let bare : Read Node :=
        if anchor.isSome || name.isSome then return .scalar "" (scalarTag name "" true)
        else failure
      remembered anchor (content (node fuel) place name bare)

/-- Passes the lines in front of a document, where `versioned` tells that the version has been
given; whether there were any. Nothing may be said twice, and there is only one version. -/
def directives : Nat → Bool → Read Bool
  | 0, _ => failure
  | fuel + 1, versioned => do
    match ← peek with
    | .version major minor =>
      if versioned || major ≠ 1 || minor ≠ 1 then failure
      skip
      let _ ← directives fuel true
      return true
    | .handle h =>
      if (← get).handles.any (·.handle = h.handle) then failure
      modify fun t => { t with handles := t.handles ++ [h] }
      skip
      let _ ← directives fuel versioned
      return true
    | _ => return false

/-- The token ends a document that has no content. -/
def endsEmpty : Token → Bool
  | .version _ _ | .handle _ | .documentStart | .documentEnd | .streamEnd => true
  | _ => false

/-- The first document, if there is one. What follows it is looked at. -/
def document : Read (Option Node) := do
  let fuel := (← get).scanner.cursor.rest.length + 2
  if (← peek) == .streamEnd then return none
  let any ← directives fuel false
  modify fun t => { t with handles := t.handles ++ Tag.standardHandles }
  let n ←
    if any || (← peek) == .documentStart then do
      expect .documentStart
      if endsEmpty (← peek) then pure Node.empty else node fuel .block
    else node fuel .block
  let _ ← peek
  return some n

end Read

/-- A document: its tree, and the named nodes that references stand for. -/
structure Document where
  root : Node
  named : Array Node
  /-- A bound for the number of nodes. -/
  size : Nat

/-- What a text holds. -/
inductive Content where
  /-- No document. -/
  | absent
  /-- No text of this format. -/
  | malformed
  | document (d : Document)

/-- Reads the first document of a text. -/
def read (s : String) : Content :=
  match Read.document.run ⟨.start s, 0, [], [], #[]⟩ with
  | none => .malformed
  | some (none, _) => .absent
  | some (some n, t) => .document ⟨n, t.named, s.length + 1⟩

end Clearance.Yaml
