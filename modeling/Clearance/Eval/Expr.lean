/-
# Expressions

The action of an expression is built from the actions of its parts. It gives an operand: names
and property accesses give places, which are read by whoever needs their value.
-/
import Clearance.Eval.Operators
import Clearance.Pattern.Code

namespace Clearance

open Clearance.Action Script

/-- Reads the operand that an action gives. -/
def valueOf (p : Action Operand) : Action Rated := do (← p).resolve

/-- The prefix of a pattern that turns on its flags. -/
def patternOptions : List Char → Except Char String
  | [] => .ok ""
  | c :: cs =>
    match c with
    | 'g' => patternOptions cs
    | 'i' => (patternOptions cs).map ("i" ++ ·)
    | 'm' => (patternOptions cs).map ("m" ++ ·)
    | _ => .error c

/-- A pattern object. -/
def newRegExp (pattern flags : String) : Action Ref := do
  match patternOptions flags.toList with
  | .error c => syntaxError ("invalid regular expression flag " ++ c.toString)
  | .ok options =>
    let text := if options = "" then pattern else "(?" ++ options ++ ")" ++ pattern
    match Pattern.compile text with
    | .error e =>
      syntaxError ("invalid regular expression /" ++ pattern ++ "/: error parsing regexp: " ++
        e.message)
    | .ok code =>
      let fixed := fun (r : Raw) => { Property.hiddenData r with readOnly := true }
      let has := fun (c : Char) => fixed (.bool (flags.toList.contains c))
      let blank := Object.blank "RegExp" (some (← realm).regexpProto) (← pc)
      let object := { blank with pattern := some code }
      allocate .plain (((((object.define "source" (fixed (.string pattern))).define
        "global" (has 'g')).define "ignoreCase" (has 'i')).define "multiline" (has 'm')).define
        "lastIndex" (.hiddenData (Raw.number 0.0)))

/-- Adds a member of an object literal. Getters and setters of one name are joined. -/
def addMember (o : Ref) (key : String) (kind : MemberKind) (r : Rated) : Action Unit :=
  change o.id fun obj =>
    let accessor := match obj.own? key with
      | some p => if p.isAccessor then p else .noAccessor
      | none => .noAccessor
    match kind with
    | .init => obj.define key (.data r.value)
    | .get => obj.define key { accessor with getter := r.raw }
    | .set => obj.define key { accessor with setter := r.raw }

/-- Assignment. The place is found first; a compound assignment reads it before the right-hand
side is evaluated. -/
def assignment (line : Nat) (op : AssignOp) (target value : Action Operand) :
    Action Operand := do
  match ← target with
  | .value _ => referenceError "invalid assignment left-hand side"
  | .place p k =>
    match op with
    | .plain =>
      let r ← valueOf value
      return .value (← assign line p k r false)
    | .compound op =>
      let old ← (Operand.place p k).resolve
      let right ← valueOf value
      let r ← binaryOp op old.raw right.raw
      return .value (← assign line p k ⟨r, old.label.join right.label⟩ false)

/-- A binary operation. The test for instances carries the label of its left operand only. -/
def binary (op : BinaryOp) (left right : Action Operand) : Action Operand := do
  let l ← valueOf left
  let r ← valueOf right
  let result ← binaryOp op l.raw r.raw
  return .value (result.labeled (if op = .instanceOf then l.label else l.label.join r.label))

/-- A short-circuit operation. The right operand runs under the label of the left one, since
that decides whether it runs. -/
def logical (kind : String) (line : Nat) (op : LogicalOp) (left right : Action Operand) :
    Action Operand := do
  let l ← valueOf left
  let rest := controlled kind line l.label do
    let r ← valueOf right
    return Operand.value (r.raw.labeled (l.label.join r.label))
  match op with
  | .and => if l.raw.truth then rest else return .value l.value
  | .or => if l.raw.truth then return .value l.value else rest
  | .other text => fail (.internal ("unknown logical operator " ++ text))

/-- The chosen branch runs under the label of the test. -/
def conditional (kind : String) (line : Nat) (test yes no : Action Operand) :
    Action Operand := do
  let t ← valueOf test
  controlled kind line t.label do
    let r ← valueOf (if t.raw.truth then yes else no)
    return .value (r.raw.labeled (t.label.join r.label))

/-- Deletes what a place holds. Deleting is a write to the location; a name that is not bound
is gone already. -/
def eraseAt (line : Nat) (p : Place) (chosen : Label) : Action Operand :=
  match p.base with
  | none => return .value (Raw.bool true)
  | some o => do
    let partition ← p.partition
    let location := match ← p.peek with
      | some cell => partition.join cell.label
      | none => partition
    let context := (← pc).join chosen
    if location.less context then violate line p.name context location
    else
      let gone ← Action.update fun s =>
        let (gone, obj) := (s.heap.get o.id).delete p.name
        (gone, { s with heap := s.heap.update o.id fun _ => obj })
      return .value (Raw.bool gone)

/-- Deletes what an operand refers to. -/
def deletion (line : Nat) (operand : Action Operand) : Action Operand := do
  match ← operand with
  | .value _ => return .value (Raw.bool true)
  | .place p k => eraseAt line p k

/-- The kind of an operand; a name that is not bound has one too. -/
def typeOf (operand : Action Operand) : Action Operand := do
  match ← operand with
  | .place ⟨none, _⟩ k => return .value ((Raw.string "undefined").labeled k)
  | op =>
    let r ← op.resolve
    return .value ((Raw.string r.raw.typeName).labeled r.label)

/-- A unary operation. -/
def unary (line : Nat) (op : UnaryOp) (operand : Action Operand) : Action Operand := do
  match op with
  | .typeOf => typeOf operand
  | .delete => deletion line operand
  | .void =>
    let _ ← valueOf operand
    return .value .undefined
  | _ =>
    let r ← valueOf operand
    let result ← match op with
      | .not => pure (Raw.bool (!r.raw.truth))
      | .minus => do pure (Raw.number (-(← numberOf r.raw)))
      | .plus => do pure (Raw.number (← numberOf r.raw))
      | .bitNot => do pure (Raw.number (ofSigned (~~~ (Decimal.toWord (← numberOf r.raw)))))
      | other => fail (.internal ("unknown unary operator " ++ other.text))
    return .value (result.labeled r.label)

/-- Increment and decrement. The result is the new number, or the old one. -/
def increment (line : Nat) (op : String) (before : Bool) (operand : Action Operand) :
    Action Operand := do
  match ← operand with
  | .value _ => referenceError ("invalid " ++ op ++ " operand")
  | .place p k =>
    let old ← (Operand.place p k).resolve
    let n ← numberOf old.raw
    let next := if op = "--" then n - 1.0 else n + 1.0
    let _ ← assign line p k ⟨.number next, old.label⟩ false
    return .value ((Raw.number (if before then next else n)).labeled old.label)

/-- The place `obj[key]`. It carries the labels of the object and of the key. -/
def propertyPlace (path : Option String) (obj : Raw) (key : Raw) (k : Label) :
    Action Operand := do
  let base ← toObject path obj
  let name ← stringOf key
  return .placeAt ⟨some base, name⟩ k

/-- Evaluates actions one after the other to values with their effective labels. -/
def valuesOf : List (Action Operand) → Action (List Value)
  | [] => return []
  | p :: ps => do
    let r ← valueOf p
    return r.value :: (← valuesOf ps)

/-- The receiver of a call: the base of the place the function was found at, unless that is a
store of bindings. -/
def receiverOf : Operand → Action Value
  | .place ⟨some o, _⟩ _ => do
    if (← object o.id).cls = "Activation" then return .undefined else return Raw.object o
  | _ => return .undefined

/-- A call. A classified callee raises the program counter for the call. -/
def callExpression (kind : String) (line : Nat) (path : Option String) (callee : Action Operand)
    (args : List (Action Operand)) : Action Operand := do
  let target ← callee
  let f ← target.resolve
  let args ← valuesOf args
  match f.raw.callable? with
  | none => typeError ((← describe path f.raw) ++ " is not a function")
  | some fn =>
    let this ← receiverOf target
    let result ← controlled kind line f.label (call fn this args)
    return .value (result.wrap f.label)

/-- A construction. -/
def newExpression (kind : String) (line : Nat) (path : Option String) (callee : Action Operand)
    (args : List (Action Operand)) : Action Operand := do
  let f ← valueOf callee
  let args ← valuesOf args
  match f.raw.object?, ← look fun s => s.heap.isConstructor f.raw with
  | some fn, true =>
    let result ← controlled kind line f.label (invoke (.construct fn args))
    return .value (result.wrap f.label)
  | _, _ => typeError ((← describe path f.raw) ++ " is not a constructor")

/-- Attaches a named label. -/
def labelExpression (name : String) (operand : Action Operand) : Action Operand := do
  match (← realm).lattice.lookup? name with
  | none => syntaxError ("unknown security label " ++ Text.quote name)
  | some k =>
    let r ← valueOf operand
    return .value (r.value.wrap k)

/-- The value of the last of several expressions. -/
def sequence : List (Action Operand) → Value → Action Operand
  | [], last => return .value last
  | p :: ps, _ => do
    let r ← valueOf p
    sequence ps r.value

/-- The elements of an array literal; holes are absent. -/
def elementValues : List (Option (Action Operand)) → Action (List Value)
  | [] => return []
  | none :: ps => do return .absent :: (← elementValues ps)
  | some p :: ps => do
    let r ← valueOf p
    return r.value :: (← elementValues ps)

/-- Adds the members of an object literal in order. -/
def addMembers (o : Ref) : List (String × MemberKind × Action Operand) → Action Unit
  | [] => return
  | (key, kind, value) :: rest => do
    addMember o key kind (← valueOf value)
    addMembers o rest

mutual

/-- The action of an expression. -/
def Script.Expr.action : Script.Expr Span → Action Operand
  | .ident id => do return .place (← placeOf id.name) .none
  | .number _ x => return .value (Raw.number x)
  | .string _ s => return .value (Raw.string s)
  | .bool _ b => return .value (Raw.bool b)
  | .null _ => return .value Raw.null
  | .regexp _ pattern flags => do return .value (Raw.object (← newRegExp pattern flags))
  | .array _ elements => do
    let values ← elementValues (elementActions elements)
    return .value (Raw.object (← newArray values))
  | .object _ members => do
    let blank := Object.blank "Object" (some (← realm).objectProto) (← pc)
    let o ← allocate .plain blank
    addMembers o (memberActions members)
    return .value (Raw.object o)
  | .function fn => do return .value (Raw.object (← functionExpression fn))
  | .this _ => do return .value (← current).this
  | .assign s op target value => assignment s.start.line op target.action value.action
  | .binary _ op left right => binary op left.action right.action
  | .logical s op left right =>
    logical "LogicalExpression" s.start.line op left.action right.action
  | .unary s op operand => unary s.start.line op operand.action
  | .update s op before operand => increment s.start.line op before operand.action
  | .conditional s test yes no =>
    conditional "ConditionalExpression" s.start.line test.action yes.action no.action
  | .sequence _ items => sequence (actions items) .undefined
  | .call s callee args =>
    callExpression "CallExpression" s.start.line (path? callee) callee.action (actions args)
  | .construct s callee args =>
    newExpression "NewExpression" s.start.line (path? callee) callee.action (actions args)
  | .member _ object property => do
    let o ← valueOf object.action
    propertyPlace (path? object) o.raw (.string property.name) o.label
  | .index _ object key => do
    let o ← valueOf object.action
    let k ← valueOf key.action
    propertyPlace (path? object) o.raw k.raw (o.label.join k.label)
  | .label _ name operand => labelExpression name operand.action

/-- The actions of several expressions. -/
def actions : List (Script.Expr Span) → List (Action Operand)
  | [] => []
  | e :: es => e.action :: actions es

/-- The actions of the elements of an array literal. -/
def elementActions : List (Option (Script.Expr Span)) → List (Option (Action Operand))
  | [] => []
  | e :: es => elementAction e :: elementActions es

/-- The action of an element, unless it is a hole. -/
def elementAction : Option (Script.Expr Span) → Option (Action Operand)
  | none => none
  | some e => some e.action

/-- The actions of the members of an object literal. -/
def memberActions : List (Member Span) → List (String × MemberKind × Action Operand)
  | [] => []
  | m :: ms => memberAction m :: memberActions ms

/-- The action of a member of an object literal. -/
def memberAction : Member Span → String × MemberKind × Action Operand
  | .mk key kind value => (key, kind, value.action)

end

end Clearance
