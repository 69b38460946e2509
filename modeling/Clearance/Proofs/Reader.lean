/-
# Machines with another reader

Scripts can have texts read while they run: `eval` runs a text, and `Function` makes a function of
one. A reader turns such a text into a syntax tree. Here the machine takes its reader as a
parameter; with the usual reader it is the machine of `Clearance.Machine.Serve`.

The erasing machine has a reader of its own. It runs code in which the operand stands in the place
of each label expression whose name is known, in scripts, in the texts that they evaluate and in
those that they make functions of.
-/
import Clearance.Machine.Serve
import Clearance.Proofs.Run
import Clearance.Script.Rebuild

namespace Clearance

open Clearance.Action Script

/-- Reads a text in the name of a file. -/
abbrev Reader := String → String → Except ParseError (Program Span)

/-- The reader of scripts. -/
def Reader.usual : Reader := fun file text => Script.parse defaultIntrinsic file text 1

/-- Runs a body that has been read from a text in the calling activation. -/
def runText (c : Control) (body : List (Stmt Span)) (k : Label) : Action Value := do
  let entry := { c with kind := .eval, pc := c.pc.join k, depth := c.depth + 1 }
  trace (.evaluated entry.pc entry.depth)
  match ← attempt (activation entry (runBody body)) with
  | .error (.overflow depth) => fail (.fault "InternalError" (overflowText depth))
  | .error f => fail f
  | .ok (.thrown v line, _) => fail (← thrownFailure v line)
  | .ok (_, result) => return result.wrap k

/-- Runs an evaluated text. -/
def evalTextBy (read : Reader) (source : String) (k : Label) : Action Value := do
  let c ← current
  if c.depth ≥ c.realm.maxDepth then fail (.fault "InternalError" (overflowText c.depth))
  else match read c.file source with
    | .error e => syntaxError e.detail
    | .ok program => runText c program.body k

lemma evalText_eq (source : String) (k : Label) : evalText source k = evalTextBy .usual source k :=
  rfl

/-- The text of a function whose parameters and body are given as texts. -/
def functionSource (texts : List String) : String :=
  "(function anonymous(" ++ ", ".intercalate texts.dropLast ++ ") \x7b\n" ++ texts.getLastD "" ++
    "\n\x7d)"

/-- The function that a tree consists of, over the global frame. -/
def functionOf (c : Control) (body : List (Stmt Span)) (k : Label) : Action Value :=
  match body with
  | [.expr (.function fn)] => do
    let f ← newFunction fn c.realm.globalFrame (c.pc.join k)
    return (Raw.object f).labeled k
  | _ => syntaxError "malformed function body"

/-- Makes a function from source texts. -/
def functionFromTextsBy (read : Reader) (texts : List String) (k : Label) : Action Value := do
  let c ← current
  match read c.file (functionSource texts) with
  | .error e => syntaxError e.detail
  | .ok program => functionOf c program.body k

attribute [local irreducible] Script.parse in
lemma functionFromTexts_eq (texts : List String) (k : Label) :
    functionFromTexts texts k = functionFromTextsBy .usual texts k := rfl

namespace Library

/-- `eval`. -/
def evalValueBy (read : Reader) : NativeFn := fun _ args => do
  match args with
  | [] => return .undefined
  | v :: _ =>
    match v.raw with
    | .string s => evalTextBy read s v.label
    | _ => return v

/-- What each built-in function does. -/
def runBy (read : Reader) : Builtin → NativeFn
  | .function => fun _ args => do
    functionFromTextsBy read (← textsOf args) (Value.joinLabels args)
  | .eval => evalValueBy read
  | b => run b

lemma runBy_usual (b : Builtin) : runBy .usual b = run b := by
  unfold runBy
  split
  · funext this args
    show _ = newFunctionFrom args
    unfold newFunctionFrom
    simp only [functionFromTexts_eq]
  · rfl
  · rfl

end Library

section

variable (hosts : Hosts) (read : Reader)

/-- What a native function does. -/
def Native.runBy : Native → NativeFn
  | .builtin b => Library.runBy read b
  | .host n => hosts.call n

/-- Calls a function. -/
def performCallBy (f : Ref) (this : Value) (args : List Value) : Action Value := do
  match (← object f.id).behaviour with
  | .closure fn scope => callClosure f fn scope this args
  | .native name _ fn _ =>
    match fn with
    | some n => n.runBy hosts read this args
    | none => typeError (name ++ " is not a function")
  | _ => fail (.internal "call of an object")

/-- Constructs from a function. -/
def performConstructBy (f : Ref) (args : List Value) : Action Value := do
  match (← object f.id).behaviour with
  | .closure fn scope => constructClosure f fn scope args
  | .native name _ _ ctor =>
    match ctor with
    | some n => n.runBy hosts read .undefined args
    | none => typeError (name ++ " is not a constructor")
  | .host n => hosts.construct n args
  | .none => fail (.internal "construction from an object")

/-- What a request asks for. -/
def performBy : Request → Action Value
  | .call f this args => performCallBy hosts read f this args
  | .construct f args => performConstructBy hosts read f args
  | .hasInstance f v => performHasInstance hosts f v

/-- Serves requests that nest at most `levels` deep; the rounds bound each loop. -/
def machineBy (rounds : Nat) : Nat → Service
  | 0, _, s => .stuck .fuel s
  | levels + 1, r, s => (performBy hosts read r).run (machineBy rounds levels) rounds s

end

lemma Native.runBy_usual (hosts : Hosts) (n : Native) : n.runBy hosts .usual = n.run hosts := by
  cases n with
  | builtin b => exact Library.runBy_usual b
  | host n => rfl

lemma performBy_usual (hosts : Hosts) (r : Request) :
    performBy hosts .usual r = perform hosts r := by
  cases r with
  | call f this args =>
    refine congrArg (Action.andThen (object f.id)) (funext fun o => ?_)
    obtain ⟨_, _, _, _, _, behaviour, _⟩ := o
    rcases behaviour with _ | _ | ⟨name, arity, _ | n, ctor⟩ | _
    case native.some => exact congrFun (congrFun (Native.runBy_usual hosts n) this) args
    all_goals rfl
  | construct f args =>
    refine congrArg (Action.andThen (object f.id)) (funext fun o => ?_)
    obtain ⟨_, _, _, _, _, behaviour, _⟩ := o
    rcases behaviour with _ | _ | ⟨name, arity, fn, _ | n⟩ | _
    case native.some => exact congrFun (congrFun (Native.runBy_usual hosts n) .undefined) args
    all_goals rfl
  | hasInstance f v => rfl

/-- The machine leaves the control alone, whatever it reads. -/
lemma machineBy_keepsControl (hosts : Hosts) (read : Reader) (rounds levels : Nat) :
    Service.KeepsControl (machineBy hosts read rounds levels) := by
  induction levels with
  | zero => exact fun _ _ => rfl
  | succ n ih => exact fun r s => Action.run_control ih (performBy hosts read r) s

/-- With the usual reader, the machine is the machine. -/
theorem machineBy_usual (hosts : Hosts) (rounds levels : Nat) :
    machineBy hosts .usual rounds levels = machine hosts rounds levels := by
  induction levels with
  | zero => rfl
  | succ n ih =>
    funext r s
    rw [machine_succ, machineBy, ih, performBy_usual]

/-! ## The erasing machine -/

/-- A label expression without its label, if there is a label of this name. -/
def Lattice.erase (l : Lattice) : Expr Span → Expr Span
  | .label s name operand =>
    if (l.lookup? name).isSome then .sequence s [operand] else .label s name operand
  | e => e

/-- The label expressions in the body without their labels. -/
def Lattice.erased (l : Lattice) (body : List (Stmt Span)) : List (Stmt Span) :=
  rebuildStmts id l.erase body

/-- The reader of scripts whose labels are dropped. -/
def Reader.erasing (l : Lattice) : Reader := fun file text =>
  (Script.parse defaultIntrinsic file text 1).map fun program =>
    ⟨program.source, l.erased program.body⟩

lemma Lattice.erase_of_ne (l : Lattice) {e : Expr Span}
    (h : ∀ s name operand, e ≠ .label s name operand) : l.erase e = e := by
  cases e
  case label s name operand => exact absurd rfl (h s name operand)
  all_goals rfl

end Clearance
