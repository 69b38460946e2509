/-
# Activations

Code runs in an activation of its own: the declarations of its body are bound first, then its
statements run. Functions get a frame for their parameters; evaluated texts run in the scope
of their caller, at a program counter that includes the label of the text.
-/
import Clearance.Eval.Stmt

namespace Clearance

open Clearance.Action Script

/-- Binds the functions declared directly in a body. -/
def bindFunctions (permanent : Bool) : List (Script.Function Span) → Action Unit
  | [] => return
  | fn :: fns => do
    let c ← current
    let f ← newFunction fn c.scope c.pc
    define fn.name { Property.data (Raw.object f) with permanent }
    bindFunctions permanent fns

/-- Binds the variables that the store does not have yet. A constant must be new. -/
def bindVars (permanent : Bool) (store : Ref) : List HoistedVar → Action Unit
  | [] => return
  | v :: vs => do
    let taken := (← object store.id).hasOwn v.name
    if v.constant && taken then typeError ("redeclaration of const " ++ v.name)
    if v.constant || !taken then define v.name { Property.data .undefined with permanent }
    bindVars permanent store vs

/-- Binds the declarations of a body: functions first, then variables. Those of evaluated
texts can be deleted. -/
def instantiate (body : List (Script.Stmt Span)) : Action Unit := do
  let c ← current
  let permanent := c.kind ≠ .eval
  bindFunctions permanent (hoistedFunctions body)
  let store ← look fun s => (s.frames.get c.scope).store (Frame.sideAt c.pc)
  bindVars permanent store (hoistedVars body)

/-- Runs the body of an activation. Jumps may not leave it, and only functions return. -/
def runBody (body : List (Script.Stmt Span)) : Action Completion :=
  guarded 0 (instantiate body) fun _ => do
    let c ← inOrder (stmtActions body)
    let kind := (← current).kind
    match c with
    | .leave _ => fail (.internal ("break escaped " ++ kind.text ++ " code"))
    | .resume _ => fail (.internal ("continue escaped " ++ kind.text ++ " code"))
    | .returned _ =>
      if kind = .function then return c else fail (.internal "return outside function")
    | _ => return c

/-- Calls a closure. -/
def callClosure (f : Ref) (fn : Script.Function Span) (scope : Nat) (this : Value)
    (args : List Value) : Action Value := do
  let c ← current
  if c.depth ≥ c.realm.maxDepth then fail (.overflow c.depth)
  else
    let this := if this.raw.isAbsent || this.raw.isNullish
      then Value.plain (.object ⟨c.realm.global, .plain⟩) else this
    let frame ← activate f fn scope args c.pc
    let entry := { c with kind := .function, scope := frame, this, depth := c.depth + 1 }
    match (← activation entry (runBody fn.body)).1 with
    | .thrown v line => fail (← thrownFailure v line)
    | .returned v => return v
    | _ => return .undefined

/-- Constructs an object with a closure. The new object is the result unless the closure
returns one of its own. -/
def constructClosure (f : Ref) (fn : Script.Function Span) (scope : Nat) (args : List Value) :
    Action Value := do
  let proto ← match (← getProperty f "prototype").raw with
    | .object p => pure p.id
    | _ => do pure (← realm).objectProto
  let o ← allocate .plain (Object.blank "Object" (some proto) (← pc))
  let result ← callClosure f fn scope (Raw.object o) args
  match result.raw with
  | .object _ => return result
  | _ => return (Raw.object o).labeled result.label

/-- Runs an evaluated text in the calling activation. -/
def evalText (source : String) (k : Label) : Action Value := do
  let c ← current
  if c.depth ≥ c.realm.maxDepth then fail (.fault "InternalError" (overflowText c.depth))
  else match Script.parse defaultIntrinsic c.file source 1 with
    | .error e => syntaxError e.detail
    | .ok program =>
      let entry := { c with kind := .eval, pc := c.pc.join k, depth := c.depth + 1 }
      trace (.evaluated entry.pc entry.depth)
      match ← attempt (activation entry (runBody program.body)) with
      | .error (.overflow depth) => fail (.fault "InternalError" (overflowText depth))
      | .error f => fail f
      | .ok (.thrown v line, _) => fail (← thrownFailure v line)
      | .ok (_, result) => return result.wrap k

/-- Makes a function from source texts: the last one is the body, the others name the
parameters. Its scope is the global one. -/
def functionFromTexts (texts : List String) (k : Label) : Action Value := do
  let params := ", ".intercalate texts.dropLast
  let body := texts.getLastD ""
  let source := "(function anonymous(" ++ params ++ ") \x7b\n" ++ body ++ "\n\x7d)"
  let c ← current
  match Script.parse defaultIntrinsic c.file source 1 with
  | .error e => syntaxError e.detail
  | .ok program =>
    match program.body with
    | [.expr (.function fn)] =>
      let f ← newFunction fn c.realm.globalFrame (c.pc.join k)
      return (Raw.object f).labeled k
    | _ => syntaxError "malformed function body"

/-- Runs a script as global code at the bottom program counter. The result is the value of its
last expression statement. -/
def runProgram (body : List (Script.Stmt Span)) (file : String) : Action Value := do
  let c ← current
  let entry : Control :=
    { c with kind := .global, pc := c.realm.lattice.bottom, scope := c.realm.globalFrame,
             this := Raw.object ⟨c.realm.global, .plain⟩, file }
  match ← activation entry (runBody body) with
  | (.thrown v line, _) => fail (.thrown v file line)
  | (_, result) => return result

/-- Parses and runs a script as global code. -/
def evaluate (source file : String) (line : Int) : Action Value :=
  match Script.parse defaultIntrinsic file source line with
  | .error e => fail (.script e)
  | .ok program => runProgram program.body file

end Clearance
