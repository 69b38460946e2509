/-
# Statements

The action of a statement is built from the actions of its parts and gives a completion.
Catchable failures of its expressions become thrown values, at the program counter where they
occur. Loops raise the program counter by every test label seen so far: reaching a round
depends on all earlier tests.
-/
import Clearance.Eval.Expr
import Clearance.Script.Hoist

namespace Clearance

open Clearance.Action Script

/-- Remembers the value of an expression statement. -/
def setResult (v : Value) : Action Unit := revise fun s => { s with result := v }

/-- Runs statements until one completes abruptly. -/
def inOrder : List (Action Completion) → Action Completion
  | [] => return .normal
  | p :: ps => do
    let c ← p
    if c.isAbrupt then return c else inOrder ps

/-- Marks an initialised constant read-only. -/
def freeze (p : Place) : Action Unit :=
  match p.base with
  | none => return
  | some o => change o.id fun obj =>
    match obj.own? p.name with
    | some q => obj.define p.name { q with readOnly := true }
    | none => obj

/-- A variable that is given its initial value. -/
structure Initialiser where
  line : Nat
  name : String
  value : Action Operand

/-- Gives a declared variable its initial value; a constant is read-only from then on. -/
def declareAt (line : Nat) (kind : VarKind) (place : Place) (r : Rated) : Action Unit := do
  let _ ← assign line place .none r true
  if kind = .constant then freeze place

/-- Gives a variable its initial value. -/
def Initialiser.write (i : Initialiser) (kind : VarKind) : Action Unit := do
  let place ← placeOf i.name
  let r ← valueOf i.value
  declareAt i.line kind place r

/-- Gives variables their initial values in order. -/
def initialise (kind : VarKind) : List Initialiser → Action Completion
  | [] => return .normal
  | i :: rest =>
    guarded i.line (i.write kind) fun _ => initialise kind rest

/-- A function statement that is not hoisted binds its name when it is reached. -/
def functionStatement (fn : Script.Function Span) : Action Completion := do
  if fn.form = .declared then return .normal
  else
    let c ← current
    let f ← newFunction fn c.scope c.pc
    define fn.name (.data (Raw.object f))
    return .normal

/-- Runs the chosen branch under the label of the test. -/
def branchOn (line : Nat) (testLine : Nat) (test : Action Operand) (yes no : Action Completion) :
    Action Completion :=
  guarded testLine (valueOf test) fun t =>
    controlled "IfStatement" line t.label (if t.raw.truth then yes else no)

/-- A case of a switch: the line and action of its test, unless it is the default, and its
body. -/
structure CaseAction where
  test : Option (Nat × Action Operand)
  body : Action Completion

/-- Runs the bodies of cases from the chosen one on. -/
def runCases (cases : List CaseAction) : Action Completion := do
  return (← inOrder (cases.map CaseAction.body)).afterBreak

/-- Tests the cases in order. Each test raises the program counter for everything after it. -/
def chooseCase (line : Nat) (value : Raw) (all : List CaseAction) :
    List CaseAction → Action Completion
  | [] => runCases (all.dropWhile fun c => c.test.isSome)
  | c :: rest =>
    match c.test with
    | none => chooseCase line value all rest
    | some (testLine, test) =>
      guarded testLine (valueOf test) fun t =>
        controlled "SwitchStatement" line t.label
          (if t.raw.same value then runCases (c :: rest) else chooseCase line value all rest)

/-- A switch. -/
def switchOn (line valueLine : Nat) (value : Action Operand) (cases : List CaseAction) :
    Action Completion :=
  guarded valueLine (valueOf value) fun v =>
    controlled "SwitchStatement" line v.label (chooseCase line v.raw cases cases)

/-- A test of a loop: the line of the test and its action. -/
structure Test where
  line : Nat
  action : Action Operand

/-- Runs the test of a loop. The result is the program counter of the next round, or how the
loop ends. -/
def Test.pass (t : Test) (kind : String) (line : Nat) : Action (Label ⊕ Completion) := do
  match ← attempt (valueOf t.action) with
  | .error f => return .inr (← completionOf t.line f)
  | .ok r =>
    let pc ← raisedPc kind line r.label
    if r.raw.truth then return .inl pc else return .inr .normal

/-- The test of a loop that may have none. -/
def passTest? (t : Option Test) (kind : String) (line : Nat) : Action (Label ⊕ Completion) :=
  match t with
  | some t => t.pass kind line
  | none => do return .inl (← pc)

/-- A loop that tests first. The state of the loop is its program counter. -/
def whileLoop (kind : String) (line : Nat) (test : Option Test) (body : Action Completion)
    (step : Option Test) : Action Completion := do
  loop (← pc) fun pc => withPc pc do
    match ← passTest? test kind line with
    | .inr c => return .inr c
    | .inl pc => withPc pc do
      match (← body).afterRound with
      | some c => return .inr c
      | none =>
        match step with
        | none => return .inl pc
        | some step =>
          match ← attempt (valueOf step.action) with
          | .ok _ => return .inl pc
          | .error f => return .inr (← completionOf step.line f)

/-- A loop that tests last. -/
def doLoop (line : Nat) (body : Action Completion) (test : Test) : Action Completion := do
  loop (← pc) fun pc => withPc pc do
    match (← body).afterRound with
    | some c => return .inr c
    | none => test.pass "DoWhileStatement" line

/-- Gives the target of an enumeration a name. -/
def writeName (line : Nat) (k : Label) (target : Action Operand) (name : String) : Action Unit := do
  match ← target with
  | .value _ => referenceError "invalid assignment left-hand side"
  | .place p chosen => let _ ← assign line p chosen ⟨.string name, k⟩ false

/-- Runs the body of an enumeration for the names that are still present. -/
def eachName (line : Nat) (o : Ref) (k : Label) (target : Action Operand)
    (body : Action Completion) : List String → Action Completion
  | [] => return .normal
  | name :: rest => do
    if ← look fun s => s.heap.has o.id name then
      guarded line (writeName line k target name) fun _ => do
        match (← body).afterRound with
        | some c => return c
        | none => eachName line o k target body rest
    else eachName line o k target body rest

/-- An enumeration of the properties of an object. -/
def enumeration (line sourceLine : Nat) (path : Option String) (source : Action Operand)
    (targetLine : Nat) (target : Action Operand) (body : Action Completion) :
    Action Completion :=
  guarded sourceLine (valueOf source) fun r => do
    if r.raw.isNullish && !(← realm).strictEnumeration then return .normal
    else guarded sourceLine (toObject path r.raw) fun o =>
      controlled "ForInStatement" line r.label do
        eachName targetLine o r.label target body (← look fun s => s.heap.enumerable o.id)

/-- A catch clause: its place, parameter, guard and body. -/
structure Clause where
  line : Nat
  param : String
  guard : Option Test
  body : Action Completion

/-- Runs a catch clause in a fresh frame that binds the thrown value. No completion means that
its guard rejects the value. -/
def Clause.run (c : Clause) (thrown : Value) : Action (Option Completion) := do
  let pc ← raisedPc "CatchClause" c.line thrown.label
  let frame ← newFrame (← current).scope
  region pc frame do
    define c.param (.data thrown)
    match c.guard with
    | none => return some (← c.body)
    | some g =>
      match ← attempt (valueOf g.action) with
      | .error f => return some (← completionOf g.line f)
      | .ok r => if r.raw.truth then return some (← c.body) else return none

/-- Runs the first catch clause that accepts the thrown value. -/
def handle (thrown : Value) (line : Nat) : List Clause → Action Completion
  | [] => return .thrown thrown line
  | c :: rest => do
    match ← c.run thrown with
    | some done => return done
    | none => handle thrown line rest

/-- Runs a block, then a catch clause for what it throws, then the final block. A final block
that completes abruptly replaces the pending completion; failures skip both. -/
def tryStatement (body : Action Completion) (clauses : List Clause)
    (final : Option (Action Completion)) : Action Completion := do
  let c ← match ← body with
    | .thrown v line => handle v line clauses
    | c => pure c
  match final with
  | none => return c
  | some final =>
    let f ← final
    if f.isAbrupt then return f else return c

/-- Runs a body in the scope of an object. -/
def withStatement (line objectLine : Nat) (path : Option String) (object : Action Operand)
    (body : Action Completion) : Action Completion :=
  guarded objectLine (valueOf object) fun r =>
    guarded objectLine (toObject path r.raw) fun o => do
      let pc ← raisedPc "WithStatement" line r.label
      let lattice := (← realm).lattice
      let scope := (← current).scope
      let frame : Frame ←
        if pc.isBottom then do pure ⟨o, ← newStore lattice.top, [], some scope, true⟩
        else do pure ⟨← newStore lattice.bottom, o, [], some scope, true⟩
      region pc (← addFrame frame) body

/-- The value of a return carries the program counter. -/
def returnStatement (line : Nat) (value : Option (Action Operand)) : Action Completion :=
  match value with
  | none => do return .returned (Value.undefined.wrap (← pc))
  | some p => guarded line (valueOf p) fun r => do return .returned (r.value.wrap (← pc))

/-- A thrown value carries the program counter. -/
def throwStatement (line valueLine : Nat) (value : Action Operand) : Action Completion :=
  guarded valueLine (valueOf value) fun r => do return .thrown (r.value.wrap (← pc)) line

/-- The variables of a declaration that have an initial value. -/
def initialisers (items : List (Declarator Span)) : List Initialiser :=
  items.filterMap fun
    | .mk span id (some e) => some ⟨span.start.line, id.name, e.action⟩
    | .mk _ _ none => none

/-- The target of an enumeration: what runs before it, the line and the action of the place
that takes the names. -/
inductive EnumTarget where
  | place (before : Action Completion) (line : Nat) (action : Action Operand)
  | invalid (message : String)

/-- The target of an enumeration. -/
def enumTarget : Script.Stmt Span → EnumTarget
  | .declare _ kind items =>
    match items with
    | [] => .invalid "for-in declaration without a variable"
    | .mk _ id _ :: _ =>
      .place (initialise kind (initialisers items)) id.span.start.line (Expr.ident id).action
  | .expr e => .place (return .normal) e.span.start.line e.action
  | other => .invalid ("unsupported for-in target " ++ other.kind)

/-- A test or step of a loop. -/
def testOf (e : Script.Expr Span) : Test := ⟨e.span.start.line, e.action⟩

mutual

/-- The action of a statement. -/
def Script.Stmt.action : Script.Stmt Span → Action Completion
  | .expr e => guarded e.span.start.line (valueOf e.action) fun r => do
    setResult r.value
    return .normal
  | .block b => b.action
  | .declare _ kind items => initialise kind (initialisers items)
  | .function _ fn => functionStatement fn
  | .branch s test yes no =>
    branchOn s.start.line test.span.start.line test.action yes.action (alternative no)
  | .choose s value cases =>
    switchOn s.start.line value.span.start.line value.action (caseActions cases)
  | .whileLoop s test body =>
    whileLoop "WhileStatement" s.start.line (some (testOf test)) body.action none
  | .doLoop s body test => doLoop s.start.line body.action (testOf test)
  | .forLoop s init test step body => do
    let c ← initAction init
    if c.isAbrupt then return c.outward
    else whileLoop "ForStatement" s.start.line (test.map testOf) body.action (step.map testOf)
  | .forIn s target source body =>
    match enumTarget target with
    | .invalid message => fail (.internal message)
    | .place before line action => do
      let c ← before
      if c.isAbrupt then return c.outward
      else
        enumeration s.start.line source.span.start.line (path? source) source.action line action
          body.action
  | .breakTo _ _ target => return .leave target
  | .continueTo _ _ target => return .resume target
  | .giveBack _ value =>
    match value with
    | none => returnStatement 0 none
    | some e => returnStatement e.span.start.line (some e.action)
  | .raise s value => throwStatement s.start.line value.span.start.line value.action
  | .guarded _ body handlers final =>
    tryStatement body.action (clauses handlers) (finalAction final)
  | .labeled _ _ body => do return (← body.action).afterBreak
  | .within s object body =>
    withStatement s.start.line object.span.start.line (path? object) object.action body.action
  | .empty _ => return .normal
  | .debugger s =>
    completionOf s.start.line (.fault "TypeError" "debugger statement is not supported")

/-- The actions of statements. -/
def stmtActions : List (Script.Stmt Span) → List (Action Completion)
  | [] => []
  | s :: ss => s.action :: stmtActions ss

/-- The action of a block. -/
def Script.Block.action : Script.Block Span → Action Completion
  | .mk _ body => inOrder (stmtActions body)

/-- The branch taken when a test fails. -/
def alternative : Option (Script.Stmt Span) → Action Completion
  | none => return .normal
  | some s => s.action

/-- The first part of a counting loop. -/
def initAction : Option (Script.Stmt Span) → Action Completion
  | none => return .normal
  | some s => s.action

/-- The final block of a guarded statement. -/
def finalAction : Option (Script.Block Span) → Option (Action Completion)
  | none => none
  | some b => some b.action

/-- The cases of a switch. -/
def caseActions : List (Case Span) → List CaseAction
  | [] => []
  | c :: cs => caseAction c :: caseActions cs

/-- A case of a switch. -/
def caseAction : Case Span → CaseAction
  | .mk _ test body =>
    ⟨test.map fun e => (e.span.start.line, e.action), inOrder (stmtActions body)⟩

/-- The catch clauses of a guarded statement. -/
def clauses : List (Handler Span) → List Clause
  | [] => []
  | h :: hs => clause h :: clauses hs

/-- A catch clause. -/
def clause : Handler Span → Clause
  | .mk span param guard body => ⟨span.start.line, param.name, guard.map testOf, body.action⟩

end

end Clearance
