/-
# Built-in functions: patterns

Matching with pattern objects, and the methods of strings that take patterns. Matches are
found in bytes; every position that scripts see counts characters.
-/
import Clearance.Library.String

namespace Clearance.Library

open Clearance.Action

/-- A pattern object with a label. -/
def labeledRegExp (pattern flags : String) (k : Label) : Action Value := do
  return (Raw.object (← newRegExp pattern flags)).labeled k

/-- The text of an argument that may be left out. -/
def optionalText (v : Raw) : Action String :=
  if v.isUndefined then return "" else stringOf v

/-- `RegExp`: from a text and flags, or from another pattern object. -/
def regExpFrom (args : List Value) : Action Value := do
  let source := argAt args 0
  let flags := argAt args 1
  let k := source.label.join flags.label
  let other ← match source.raw with
    | .object o => do if (← object o.id).cls = "RegExp" then pure (some o.id) else pure none
    | _ => pure none
  match other with
  | some id =>
    let o : Ref := ⟨id, .plain⟩
    if flags.raw.isUndefined then
      let own ← patternFlags o
      labeledRegExp (← plainText (← readQuietly o "source")) own k
    else
      let text ← readQuietly o "source"
      let pattern ← if text.isUndefined then pure "" else stringOf text.raw
      labeledRegExp pattern (← optionalText flags.raw) k
  | none =>
    let pattern ← optionalText source.raw
    labeledRegExp pattern (← optionalText flags.raw) k

/-- The pattern object and machine that a value denotes. -/
def patternOf (v : Raw) : Action (Option (Ref × Pattern.Code)) := do
  match v with
  | .object o =>
    match (← object o.id).pattern with
    | some code => return some (⟨o.id, .plain⟩, code)
    | none => return none
  | _ => return none

/-- The pattern object that a method of patterns is called on. -/
def thisRegExp (this : Raw) (name : String) : Action (Ref × Pattern.Code) := do
  match ← patternOf this with
  | some p => return p
  | none => typeError ("RegExp.prototype." ++ name ++ " called on " ++ this.typeName)

/-- The captures of a match as values; a capture that took no part is undefined. The offsets
count from `start`. -/
def captureValues (s : List Char) (start : Nat) (m : Pattern.Slots) : List Raw :=
  (List.range (m.size / 2)).map fun i =>
    match (m[2 * i]?).join, (m[2 * i + 1]?).join with
    | some a, some b => .string (String.ofList (Text.sliceBytes (start + a) (start + b) s))
    | _, _ => .undefined

/-- The byte offset where the next search starts: the end of a match, moved over one character
after an empty match that is not at the end. -/
def resumeOffset (s : List Char) (start stop : Nat) : Nat :=
  if start = stop then
    match Text.dropBytes stop s with
    | c :: _ => stop + c.utf8Size
    | [] => stop
  else stop

/-- Matches once. A global pattern goes on from where it stopped and remembers where it stops
now. The result is an array of captures, or null. -/
def execute (re : Ref) (code : Pattern.Code) (text : String) : Action Raw := do
  let s := text.toList
  let global ← patternFlag re "global"
  let reset : Action Raw := do
    if global then putProperty re "lastIndex" (Raw.number 0.0)
    return .null
  let position ←
    if global then do
      guardWrite re "lastIndex"
      optionalIndex (← getProperty re "lastIndex").raw 0
    else pure 0
  if position < 0 || position > s.length then reset
  else
    let start := Text.byteOffset s position
    match code.find (Text.dropBytes start s) with
    | none => reset
    | some m =>
      let (a, b) := m.range
      let array ← newArray ((captureValues s start m).map Value.plain)
      change array.id fun o =>
        (o.set "index" (Raw.ofNat (Text.charsBefore (start + a) s))).set "input" (Raw.string text)
      if global then
        let next := resumeOffset s (start + a) (start + b)
        putProperty re "lastIndex" (Raw.ofNat (Text.charsBefore next s))
      return .object array

/-- `RegExp.prototype.exec`. -/
def exec : RawFn := fun this args => do
  let (re, code) ← thisRegExp this "exec"
  let s ← stringOf (rawAt args 0)
  return ← execute re code s

/-- `RegExp.prototype.test`. -/
def test : RawFn := fun this args => do
  let (re, code) ← thisRegExp this "test"
  let s ← stringOf (rawAt args 0)
  match ← execute re code s with
  | .null => return Raw.bool false
  | _ => return Raw.bool true

/-- `RegExp.prototype.toString`. -/
def regExpSource : RawFn := fun this _ => do
  let (re, _) ← thisRegExp this "toString"
  return Raw.string (← patternText re)

/-- The pattern object of an argument; a text is compiled. -/
def toRegExp (v : Raw) : Action (Ref × Pattern.Code) := do
  match ← patternOf v with
  | some p => return p
  | none =>
    let re ← newRegExp (← optionalText v) ""
    match (← object re.id).pattern with
    | some code => return (re, code)
    | none => fail (.host "pattern without a machine")

/-- The whole text of a match. -/
def matchText (s : List Char) (m : Pattern.Slots) : Raw :=
  let (a, b) := m.range
  .string (String.ofList (Text.sliceBytes a b s))

/-- `String.prototype.match`: one match, or all of them for a global pattern. -/
def matchAll : RawFn := fun this args => do
  let text ← stringOf this
  let (re, code) ← toRegExp (rawAt args 0)
  if ← patternFlag re "global" then
    match code.findAll none text.toList with
    | [] => return Raw.null
    | ms => return Raw.object (← newArray (ms.map fun m => matchText text.toList m))
  else return ← execute re code text

/-- `String.prototype.search`. -/
def search : RawFn := fun this args => do
  let text ← stringOf this
  let (_, code) ← toRegExp (rawAt args 0)
  match code.find text.toList with
  | some m => return Raw.ofNat (Text.charsBefore m.range.1 text.toList)
  | none => return Raw.number (-1.0)

/-- The number that starts a list of characters, of at most two digits, and the rest. -/
def groupNumber? : List Char → Option (Nat × List Char)
  | c :: d :: cs =>
    if c.isDigit then
      if d.isDigit then some (10 * Decimal.digitValue c + Decimal.digitValue d, cs)
      else some (Decimal.digitValue c, d :: cs)
    else none
  | [c] => if c.isDigit then some (Decimal.digitValue c, []) else none
  | [] => none

theorem length_of_groupNumber? {cs rest : List Char} {n : Nat}
    (h : groupNumber? cs = some (n, rest)) : rest.length < cs.length := by
  unfold groupNumber? at h
  split at h
  · split at h
    · split at h <;> simp only [Option.some.injEq, Prod.mk.injEq] at h
      · obtain ⟨_, rfl⟩ := h; simp only [List.length_cons]; omega
      · obtain ⟨_, rfl⟩ := h; simp
    · simp at h
  · split at h
    · simp only [Option.some.injEq, Prod.mk.injEq] at h
      obtain ⟨_, rfl⟩ := h; simp
    · simp at h
  · simp at h

/-- The text of a capture of a match in `s`; empty if it took no part. -/
def captureText (s : List Char) (m : Pattern.Slots) (i : Nat) : List Char :=
  match (m[2 * i]?).join, (m[2 * i + 1]?).join with
  | some a, some b => Text.sliceBytes a b s
  | _, _ => []

/-- Expands a template: `$$` is a dollar sign, `$&` the match, `$1` to `$99` a capture. A dollar
sign that starts nothing of the kind stands for itself. -/
def expand (s : List Char) (m : Pattern.Slots) : List Char → List Char
  | [] => []
  | '$' :: '$' :: rest => '$' :: expand s m rest
  | '$' :: '&' :: rest => captureText s m 0 ++ expand s m rest
  | c :: rest =>
    if c = '$' then
      match h : groupNumber? rest with
      | some (i, after) =>
        have := length_of_groupNumber? h
        if i = 0 ∨ 2 * i + 1 ≥ m.size then '$' :: expand s m rest
        else captureText s m i ++ expand s m after
      | none => '$' :: expand s m rest
    else c :: expand s m rest
termination_by cs => cs.length

/-- What replaces a match. -/
inductive Replacement where
  | template (cs : List Char)
  | function (f : Ref)

/-- Replaces matches from a byte offset on. The label collects those of the results of a
replacing function. -/
def replaceFrom (s : List Char) (r : Replacement) :
    List Pattern.Slots → Nat → Label → Action (List Char × Label)
  | [], offset, k => return (Text.dropBytes offset s, k)
  | m :: ms, offset, k => do
    let (a, b) := m.range
    let (here, k) ← match r with
      | .template cs => pure (expand s m cs, k)
      | .function f => do
        let captures := (captureValues s 0 m).map Value.plain
        let position := Raw.ofNat (Text.charsBefore a s)
        let whole := Raw.string (String.ofList s)
        let result ← invokeAt k f .undefined (captures ++ [(position : Value), (whole : Value)])
        let text ← stringOf result.raw
        pure (text.toList, k.join result.label)
    let (rest, k) ← replaceFrom s r ms b k
    return (Text.sliceBytes offset a s ++ here ++ rest, k)

/-- `String.prototype.replace`: the first match, or every match for a global pattern. -/
def replace : NativeFn := fun this args => do
  let text ← stringOf this.raw
  let s := text.toList
  let pattern := (argAt args 0).raw
  let replacement := (argAt args 1).raw
  let (code, global) ← match ← patternOf pattern with
    | some (re, code) => do pure (code, ← patternFlag re "global")
    | none => do
      match Pattern.compile (Pattern.literally (← stringOf pattern)) with
      | .ok code => pure (code, false)
      | .error e => fail (.host e.message)
  let r ← match replacement.callable? with
    | some f => pure (Replacement.function f)
    | none => do pure (Replacement.template (← stringOf replacement).toList)
  let found := code.findAll (if global then none else some 1) s
  let (out, k) ← replaceFrom s r found 0 (Value.joinLabels (this :: args))
  return (Raw.string (String.ofList out)).labeled k

end Clearance.Library
