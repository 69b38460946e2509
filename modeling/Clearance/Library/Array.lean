/-
# Built-in functions: arrays

The methods work on any object with a length. Methods that change their receiver are rejected
when the program counter is above the partition of the receiver.
-/
import Clearance.Library.Object
import Clearance.Library.Sort

namespace Clearance.Library

open Clearance.Action

/-- `Array`: one number is a length, everything else is the elements. -/
def arrayOf (args : List Value) : Action Value := do
  match args with
  | [⟨.number x, k⟩] =>
    let length := Decimal.toWord x
    if Decimal.ofNat length.toNat != x then rangeError "invalid array length"
    else
      let a ← newArray []
      putProperty a "length" (Raw.number x)
      return (Raw.object a).labeled k
  | _ => return Raw.object (← newArray args)

/-- `Array.isArray`. -/
def isArray : RawFn := fun _ args => do
  match rawAt args 0 with
  | .object o => return Raw.bool ((← object o.id).cls == "Array")
  | _ => return Raw.bool false

/-- The receiver of a method that changes it, and its length. -/
def mutableArray (this : Value) (name : String) : Action (Ref × Nat) := do
  let o ← thisObject this name
  guardWrite o name
  return (o, ← lengthOf o)

/-- Deletes an own property. -/
def deleteOwn (o : Ref) (name : String) : Action Unit := change o.id fun obj => (obj.delete name).2

/-- Moves an element to another index; a hole moves too. -/
def moveElement (o : Ref) (source target : Nat) : Action Unit := do
  match (← object o.id).own? (indexName source) with
  | some p =>
    if p.isAccessor then deleteOwn o (indexName target)
    else putProperty o (indexName target) p.value
  | none => deleteOwn o (indexName target)

/-- Stores values from an index on. -/
def putFrom (o : Ref) : Nat → List Value → Action Unit
  | _, [] => return
  | i, v :: vs => do
    putProperty o (indexName i) v
    putFrom o (i + 1) vs

/-- Does something for each of several indices. -/
def eachIndex (f : Nat → Action Unit) : List Nat → Action Unit
  | [] => return
  | i :: is => do
    f i
    eachIndex f is

/-- Sets the length. -/
def putLength (o : Ref) (n : Nat) : Action Unit := putProperty o "length" (Raw.ofNat n)

/-- Replaces the elements of an array that had the given length. -/
def writeBack (o : Ref) (elements : List Value) (length : Nat) : Action Unit := do
  putFrom o 0 elements
  let n := elements.length
  eachIndex (fun i => deleteOwn o (indexName i)) ((List.range (length - n)).map (n + ·))
  putLength o n

/-- `push`. -/
def push : NativeFn := fun this args => do
  let (o, n) ← mutableArray this "push"
  putFrom o n args
  putLength o (n + args.length)
  return (Raw.ofNat (n + args.length)).labeled this.label

/-- `pop`. -/
def pop : NativeFn := fun this _ => do
  let (o, n) ← mutableArray this "pop"
  if n = 0 then
    putLength o 0
    return Value.undefined.wrap this.label
  else
    let last ← getProperty o (indexName (n - 1))
    deleteOwn o (indexName (n - 1))
    putLength o (n - 1)
    return last.wrap this.label

/-- `shift`. -/
def shift : NativeFn := fun this _ => do
  let (o, n) ← mutableArray this "shift"
  if n = 0 then
    putLength o 0
    return Value.undefined.wrap this.label
  else
    let first ← getProperty o "0"
    eachIndex (fun i => moveElement o (i + 1) i) (List.range (n - 1))
    deleteOwn o (indexName (n - 1))
    putLength o (n - 1)
    return first.wrap this.label

/-- `unshift`. -/
def unshift : NativeFn := fun this args => do
  let (o, n) ← mutableArray this "unshift"
  eachIndex (fun i => moveElement o i (i + args.length)) (List.range n).reverse
  putFrom o 0 args
  putLength o (n + args.length)
  return (Raw.ofNat (n + args.length)).labeled this.label

/-- The number of elements that `splice` removes. -/
def spliceCount (args : List Value) (available : Nat) : Action Nat := do
  match args[1]? with
  | none => return available
  | some v =>
    let x ← numberOf v.raw
    if x.isNaN then return 0
    else return match Decimal.truncate? x with
      | some i => min i.toNat available
      | none => if x < 0.0 then 0 else available

/-- What the program says when it breaks down at the end of a part of a list that is too short. -/
def beyondText (stop length : Nat) : String :=
  s!"runtime error: slice bounds out of range [:{stop}] with capacity {length}"

/-- `splice`. The elements are read when the arguments have been converted. The program breaks down
if fewer are left then than the positions ask for. -/
def splice : NativeFn := fun this args => do
  let (o, n) ← mutableArray this "splice"
  let start ← relativeIndex (argAt args 0).raw n 0
  let count ← spliceCount args (n - start)
  let elements ← elementsOf o
  insist (beyondText (start + count) elements.length) fun _ => start + count ≤ elements.length
  let removed := (elements.drop start).take count
  let next := elements.take start ++ args.drop 2 ++ elements.drop (start + count)
  writeBack o next n
  let k := (this.label.join (argAt args 0).label).join (argAt args 1).label
  return (Raw.object (← newArray removed)).labeled k

/-- `reverse`. -/
def reverse : NativeFn := fun this _ => do
  let (o, n) ← mutableArray this "reverse"
  let elements ← elementsOf o
  writeBack o elements.reverse n
  return (Raw.object o).labeled this.label

/-- What a sort learns from its comparisons: the labels met and the first failure. -/
structure Compared where
  label : Label
  failure : Option Failure

/-- Comparisons run on after a failure; only the first one is kept. -/
abbrev Comparing := StateT Compared Action

/-- Runs an action for a comparison. A failure is noted and the default taken. -/
def noted {α : Type} (p : Action α) (otherwise : α) : Comparing α := do
  match ← StateT.lift (attempt p) with
  | .ok a => return a
  | .error f =>
    modify fun c => { c with failure := c.failure.or (some f) }
    return otherwise

/-- The order of elements: by a function, or by their texts. Undefined comes last. -/
def precedes (comparator : Option (Ref × Label)) (a b : Value) : Comparing Bool := do
  if a.raw.isUndefined then return false
  else if b.raw.isUndefined then return true
  else match comparator with
    | some (f, k) =>
      match ← noted (some <$> invokeAt k f .undefined [a, b]) none with
      | none => return false
      | some r =>
        modify fun c => { c with label := c.label.join r.label }
        return (← noted (numberOf r.raw) 0.0) < 0.0
    | none =>
      let s ← noted (stringOf a.raw) ""
      let t ← noted (stringOf b.raw) ""
      return s < t

/-- `sort`. Every position depends on every element, so each element gets the labels of all
elements and of all comparisons. -/
def sortArray : NativeFn := fun this args => do
  let (o, n) ← mutableArray this "sort"
  let elements ← elementsOf o
  let comparator ←
    if (argAt args 0).raw.isNullish then pure none
    else do
      let f ← callbackAt args 0 "sort"
      pure (some (f, (argAt args 0).label))
  let (sorted, compared) ←
    (Sort.sort (precedes comparator) elements).run ⟨Value.joinLabels elements, none⟩
  match compared.failure with
  | some f => fail f
  | none =>
    writeBack o (sorted.map fun v => v.wrap compared.label) n
    return (Raw.object o).labeled this.label

/-- `slice`. -/
def slice : NativeFn := fun this args => do
  let o ← thisObject this "slice"
  let elements ← elementsOf o
  let n := elements.length
  let start ← relativeIndex (argAt args 0).raw n 0
  let stop ← relativeIndex (argAt args 1).raw n n
  let out := (elements.drop start).take (stop - start)
  return (Raw.object (← newArray out)).labeled (this.label.join (Value.joinLabels args))

/-- The elements that `concat` adds for its arguments: arrays are spread. -/
def spread : List Value → Action (List Value)
  | [] => return []
  | v :: vs => do
    let here ← match v.raw with
      | .object o => do
        if (← object o.id).cls = "Array" then
          pure ((← elementsOf o).map fun e => e.wrap v.label)
        else pure [v]
      | _ => pure [v]
    return here ++ (← spread vs)

/-- `concat`. -/
def concat : NativeFn := fun this args => do
  let o ← thisObject this "concat"
  let own ← elementsOf o
  let more ← spread args
  return (Raw.object (← newArray (own ++ more))).labeled this.label

/-- The texts of elements; undefined and null have none. -/
def elementTexts : List Value → Action (List String)
  | [] => return []
  | v :: vs => do
    let s ← if v.raw.isNullish then pure "" else stringOf v.raw
    return s :: (← elementTexts vs)

/-- `join`. -/
def join : NativeFn := fun this args => do
  let o ← thisObject this "join"
  let by_ := argAt args 0
  let separator ← if by_.raw.isUndefined then pure "," else stringOf by_.raw
  let k := if by_.raw.isUndefined then this.label else this.label.join by_.label
  let elements ← elementsOf o
  let texts ← elementTexts elements
  return (Raw.string (separator.intercalate texts)).labeled (k.join (Value.joinLabels elements))

/-- Looks for a value from an index on; the labels of the elements looked at are joined. -/
def searchFrom (target : Raw) : List Value → Nat → Label → Raw × Label
  | [], _, k => (.number (-1.0), k)
  | v :: vs, i, k =>
    let k := k.join v.label
    if v.raw.same target then (.ofNat i, k) else searchFrom target vs (i + 1) k

/-- `indexOf`. -/
def indexOf : NativeFn := fun this args => do
  let o ← thisObject this "indexOf"
  let elements ← elementsOf o
  let start ← relativeIndex (argAt args 1).raw elements.length 0
  let k := (this.label.join (argAt args 0).label).join (argAt args 1).label
  let (r, k) := searchFrom (argAt args 0).raw (elements.drop start) start k
  return r.labeled k

/-- The label of what a callback on a receiver learns. -/
def iterationLabel (this : Value) (args : List Value) : Label :=
  this.label.join (argAt args 0).label

/-- Calls a function for each present element in ascending order. The visitor sees the index,
the element and the result, and may end the iteration. -/
def iterate {σ : Type} (name : String) (this : Value) (args : List Value) (init : σ)
    (visit : σ → Nat → Value → Value → σ × Bool) : Action σ := do
  let o ← thisObject this name
  let f ← callbackAt args 0 name
  let k := iterationLabel this args
  let n ← lengthOf o
  loop (0, init) fun (i, acc) => do
    if i < n then
      if ← look fun s => s.heap.has o.id (indexName i) then
        let element ← getProperty o (indexName i)
        let r ← invokeAt k f (argAt args 1) [element, Raw.ofNat i, Raw.object o]
        match visit acc i element r with
        | (acc, true) => return .inl (i + 1, acc)
        | (acc, false) => return .inr acc
      else return .inl (i + 1, acc)
    else return .inr acc

/-- `forEach`. -/
def forEach : NativeFn := fun this args => do
  iterate "forEach" this args () fun _ _ _ _ => ((), true)
  return .undefined

/-- Appends a value at an index; what lies between stays a hole. -/
def placeAt (i : Nat) (v : Value) (out : List Value) : List Value :=
  out ++ List.replicate (i - out.length) .absent ++ [v]

/-- The length of an array-like object; a failing getter counts as zero. -/
def lengthQuietly (o : Ref) : Action Nat := do
  match ← attempt (lengthOf o) with
  | .ok n => return n
  | .error _ => return 0

/-- `map`. The result has at least the length of the receiver afterwards. -/
def map : NativeFn := fun this args => do
  let out ← iterate "map" this args [] fun out i _ r => (placeAt i r out, true)
  let o ← thisObject this "map"
  let n ← lengthQuietly o
  let padded := out ++ List.replicate (n - out.length) .absent
  return (Raw.object (← newArray padded)).labeled (iterationLabel this args)

/-- `filter`. Which elements are kept depends on all results of the predicate. -/
def filter : NativeFn := fun this args => do
  let (out, k) ← iterate "filter" this args (([] : List Value), Label.none)
    fun (out, k) _ e r => ((if r.raw.truth then e :: out else out, k.join r.label), true)
  let label := (iterationLabel this args).join k
  return (Raw.object (← newArray out.reverse)).labeled label

/-- `some` and `every`: looks for the first result that equals `wanted`. -/
def testEach (name : String) (wanted : Bool) : NativeFn := fun this args => do
  let (found, k) ← iterate name this args (false, Label.none)
    fun (_, k) _ _ r =>
      let hit := r.raw.truth == wanted
      ((hit, k.join r.label), !hit)
  return (Raw.bool (found == wanted)).labeled ((iterationLabel this args).join k)

/-- The index of the first present element. -/
def firstPresent (o : Ref) (n : Nat) : Action (Option Nat) :=
  look fun s => (List.range n).find? fun i => s.heap.has o.id (indexName i)

/-- `reduce`. -/
def reduce : NativeFn := fun this args => do
  let o ← thisObject this "reduce"
  let f ← callbackAt args 0 "reduce"
  let k := iterationLabel this args
  let n ← lengthOf o
  let (start, first) ← match args[1]? with
    | some v => pure (0, v)
    | none => do
      match ← firstPresent o n with
      | none => typeError "reduce of empty array with no initial value"
      | some i => do pure (i + 1, ← getProperty o (indexName i))
  let result ← loop (start, first) fun (i, acc) => do
    if i < n then
      if ← look fun s => s.heap.has o.id (indexName i) then
        let element ← getProperty o (indexName i)
        let acc ← invokeAt k f .undefined [acc, element, Raw.ofNat i, Raw.object o]
        return .inl (i + 1, acc)
      else return .inl (i + 1, acc)
    else return .inr acc
  return result.wrap k

/-- The methods of arrays. -/
def arrayMethod : ArrayFn → NativeFn
  | .push => push
  | .pop => pop
  | .shift => shift
  | .unshift => unshift
  | .splice => splice
  | .reverse => reverse
  | .sort => sortArray
  | .slice => slice
  | .concat => concat
  | .join => join
  | .toString => fun this _ => join this []
  | .indexOf => indexOf
  | .forEach => forEach
  | .map => map
  | .filter => filter
  | .some => testEach "some" true
  | .every => testEach "every" false
  | .reduce => reduce

end Clearance.Library
