/-
# Showing values

How values look in diagnostics and in what scripts print. A label stands in front of its
value, texts are quoted inside containers only, and containers are shown to a fixed depth.
Showing an error reads its name and message, which may run getters; their failures are
ignored.
-/
import Clearance.Access

namespace Clearance

open Clearance.Action

/-- Reads a property; a failing getter gives no value. -/
def readQuietly (o : Ref) (name : String) : Action Value := do
  match ← attempt (getProperty o name) with
  | .ok v => return v
  | .error _ => return .absent

/-- The text of a value, without calling methods. -/
def plainText (v : Value) : Action String := look fun s => s.heap.text v.raw

/-- The name and message of an error object. -/
def errorText (o : Ref) : Action String := do
  let name ← readQuietly o "name"
  let message ← readQuietly o "message"
  let n ← if name.isUndefined then pure "Error" else plainText name
  let m ← plainText message
  return if message.isUndefined || m = "" then n else n ++ ": " ++ m

/-- A flag of a pattern object. -/
def patternFlag (o : Ref) (name : String) : Action Bool := do
  return (← readQuietly o name).raw.truth

/-- The flags of a pattern object, as they are written. -/
def patternFlags (o : Ref) : Action String := do
  let g ← patternFlag o "global"
  let i ← patternFlag o "ignoreCase"
  let m ← patternFlag o "multiline"
  return (if g then "g" else "") ++ (if i then "i" else "") ++ (if m then "m" else "")

/-- A pattern object, as it is written. -/
def patternText (o : Ref) : Action String := do
  let source ← plainText (← readQuietly o "source")
  return "/" ++ source ++ "/" ++ (← patternFlags o)

/-- How deep containers are shown. -/
def inspectDepth : Nat := 4

/-- The label in front of a value. -/
def labelMark (v : Value) : String := if v.isLabeled then "<" ++ v.label.text ++ ">" else ""

/-- Shows the entries of a container one after the other. -/
def showEach {α : Type} (f : α → Action String) : List α → Action (List String)
  | [] => return []
  | x :: xs => do
    let first ← f x
    return first :: (← showEach f xs)

/-- Shows the present elements of an array; holes stay empty. -/
def showElement (shown : Value → Action String) (id i : Nat) : Action String := do
  match (← object id).own? (indexName i) with
  | some p => if p.isAccessor then return "" else shown p.value
  | none => return ""

/-- Shows a named property of an object. -/
def showEntry (shown : Value → Action String) (id : Nat) (name : String) : Action String := do
  let text ← match ← look fun s => s.heap.find? id name with
    | none => pure "undefined"
    | some (_, p) => if p.isAccessor then pure "[accessor]" else shown p.value
  return name ++ ": " ++ text

/-- Shows an object whose entries are shown by `shown`; beyond the depth only its class. -/
def showContainer (deep : Bool) (shown : Value → Action String) (o : Ref) : Action String := do
  let obj ← object o.id
  if deep then return "[" ++ obj.cls ++ "]"
  else if obj.cls = "Array" then
    let n ← lengthOf ⟨o.id, .plain⟩
    let parts ← showEach (showElement shown o.id) (List.range n)
    return "[" ++ ", ".intercalate parts ++ "]"
  else
    match ← look fun s => s.heap.enumerable o.id with
    | [] => return "\x7b\x7d"
    | names =>
      let parts ← showEach (showEntry shown o.id) names
      return "\x7b " ++ ", ".intercalate parts ++ " \x7d"

/-- Shows a raw value; `left` counts the levels of containers that are still shown, and the
fuel bounds the nesting of wrappers besides. -/
def inspectWithin : Nat → Nat → Bool → Value → Action String
  | 0, _, _, _ => return ""
  | fuel + 1, left, nested, v => do
    let text ← match v.raw with
      | .absent => pure "undefined"
      | .string s => pure (if nested then Text.quote s else s)
      | .object o =>
        match o.face with
        | .closure => do
          match (← object o.id).behaviour with
          | .closure fn _ => pure ("function " ++ fn.name ++ "() \x7b...\x7d")
          | _ => pure ""
        | .native => do pure (Heap.functionText (← object o.id))
        | .plain | .host => do
          let obj ← object o.id
          if obj.cls = "Error" then errorText ⟨o.id, .plain⟩
          else match obj.primitive with
            | some p => do
              let inner ← inspectWithin fuel left true p
              pure ("[" ++ obj.cls ++ " " ++ inner ++ "]")
            | none =>
              if obj.cls = "RegExp" then patternText ⟨o.id, .plain⟩
              else match left with
                | 0 => showContainer true (fun _ => pure "") o
                | left + 1 => showContainer false (inspectWithin fuel left true) o
      | _ => plainText v
    return labelMark v ++ text

/-- Shows a value. -/
def inspect (v : Value) : Action String := do
  inspectWithin ((← look fun s => s.heap.size) + inspectDepth + 1) inspectDepth false v

end Clearance
