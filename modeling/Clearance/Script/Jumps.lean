/-
# Targets of jumps

A jump leaves or resumes an enclosing loop, switch or labeled statement. These statements are
counted from the inside: the innermost has number zero. `break` with a label targets the
labeled statement, `continue` with a label the loop that it labels; without a label they
target the innermost loop (or switch, for `break`). Functions start afresh.
-/
import Clearance.Script.Tree

namespace Clearance.Script

variable {α : Type}

/-- A jump without a valid target, or a repeated label: the wording and the node's place. -/
structure JumpError (α : Type) where
  span : α
  message : String

/-- An enclosing statement that a jump can target. -/
inductive Anchor where
  | loop
  | switch
  /-- A labeled statement. If it labels a loop, possibly through further labels, the number of
  statements from it to that loop. -/
  | label (name : String) (loop : Option Nat)
deriving DecidableEq, Repr

/-- How many labels stand before a loop, if the statement is a labeled loop. -/
def Stmt.labelsToLoop : Stmt α → Option Nat
  | .whileLoop _ _ _ | .doLoop _ _ _ | .forLoop _ _ _ _ _ | .forIn _ _ _ _ => some 0
  | .labeled _ _ body => body.labelsToLoop.map (· + 1)
  | _ => none

/-- The number of the innermost enclosing statement with a label, and the number of labels
from it to its loop. -/
def findLabel (name : String) : List Anchor → Option (Nat × Option Nat)
  | [] => none
  | .label n loop :: rest =>
    if n = name then some (0, loop) else (findLabel name rest).map fun r => (r.1 + 1, r.2)
  | _ :: rest => (findLabel name rest).map fun r => (r.1 + 1, r.2)

/-- The number of the innermost loop, or switch if that counts. -/
def innermost (switches : Bool) : List Anchor → Option Nat
  | [] => none
  | .loop :: _ => some 0
  | .switch :: rest => if switches then some 0 else (innermost switches rest).map (· + 1)
  | .label _ _ :: rest => (innermost switches rest).map (· + 1)

/-- The target of a `break`. -/
def breakTarget (stack : List Anchor) (span : α) (label : Option (Ident α)) :
    Except (JumpError α) Nat :=
  match label with
  | some id =>
    match findLabel id.name stack with
    | some (n, _) => .ok n
    | none => .error ⟨span, "label not found: " ++ id.name⟩
  | none =>
    match innermost true stack with
    | some n => .ok n
    | none => .error ⟨span, "invalid break"⟩

/-- The target of a `continue`. -/
def continueTarget (stack : List Anchor) (span : α) (label : Option (Ident α)) :
    Except (JumpError α) Nat :=
  match label with
  | some id =>
    match findLabel id.name stack with
    | some (n, some k) => .ok (n - k)
    | some (_, none) => .error ⟨span, "invalid continue: " ++ id.name ++ " is not a loop label"⟩
    | none => .error ⟨span, "label not found: " ++ id.name⟩
  | none =>
    match innermost false stack with
    | some n => .ok n
    | none => .error ⟨span, "invalid continue"⟩

mutual

/-- Resolves the jumps of the functions in an expression. -/
def Expr.resolve : Expr α → Except (JumpError α) (Expr α)
  | .array s es => return .array s (← resolveElements es)
  | .object s ms => return .object s (← resolveMembers ms)
  | .function f => return .function (← f.resolve)
  | .assign s op t v => return .assign s op (← t.resolve) (← v.resolve)
  | .binary s op l r => return .binary s op (← l.resolve) (← r.resolve)
  | .logical s op l r => return .logical s op (← l.resolve) (← r.resolve)
  | .unary s op e => return .unary s op (← e.resolve)
  | .update s op b e => return .update s op b (← e.resolve)
  | .conditional s t c a => return .conditional s (← t.resolve) (← c.resolve) (← a.resolve)
  | .sequence s es => return .sequence s (← resolveExprs es)
  | .call s c as => return .call s (← c.resolve) (← resolveExprs as)
  | .construct s c as => return .construct s (← c.resolve) (← resolveExprs as)
  | .member s o p => return .member s (← o.resolve) p
  | .index s o k => return .index s (← o.resolve) (← k.resolve)
  | .label s n e => return .label s n (← e.resolve)
  | e => return e

/-- `Expr.resolve` on a list. -/
def resolveExprs : List (Expr α) → Except (JumpError α) (List (Expr α))
  | [] => return []
  | e :: es => return (← e.resolve) :: (← resolveExprs es)

/-- `Expr.resolve` on an optional expression. -/
def resolveExpr? : Option (Expr α) → Except (JumpError α) (Option (Expr α))
  | none => return none
  | some e => return some (← e.resolve)

/-- `Expr.resolve` on the elements of an array literal. -/
def resolveElements : List (Option (Expr α)) → Except (JumpError α) (List (Option (Expr α)))
  | [] => return []
  | e :: es => return (← resolveExpr? e) :: (← resolveElements es)

/-- Resolves the jumps of the functions in an object literal. -/
def resolveMembers : List (Member α) → Except (JumpError α) (List (Member α))
  | [] => return []
  | .mk k kind v :: ms => return .mk k kind (← v.resolve) :: (← resolveMembers ms)

/-- Resolves the jumps of a function body. -/
def Function.resolve : Function α → Except (JumpError α) (Function α)
  | .mk s n ps b form src => return .mk s n ps (← resolveStmts [] b) form src

/-- Resolves the jumps of a statement inside the given statements, innermost first. -/
def Stmt.resolve (stack : List Anchor) : Stmt α → Except (JumpError α) (Stmt α)
  | .expr e => return .expr (← e.resolve)
  | .block b => return .block (← b.resolve stack)
  | .declare s k ds => return .declare s k (← resolveDeclarators ds)
  | .function s f => return .function s (← f.resolve)
  | .branch s t c a => return .branch s (← t.resolve) (← c.resolve stack) (← resolveStmt? stack a)
  | .choose s d cs => return .choose s (← d.resolve) (← resolveCases (.switch :: stack) cs)
  | .whileLoop s t b => return .whileLoop s (← t.resolve) (← b.resolve (.loop :: stack))
  | .doLoop s b t => return .doLoop s (← b.resolve (.loop :: stack)) (← t.resolve)
  | .forLoop s i t u b =>
    return .forLoop s (← resolveStmt? (.loop :: stack) i) (← resolveExpr? t) (← resolveExpr? u)
      (← b.resolve (.loop :: stack))
  | .forIn s t e b =>
    return .forIn s (← t.resolve (.loop :: stack)) (← e.resolve) (← b.resolve (.loop :: stack))
  | .breakTo s l _ => return .breakTo s l (some (← breakTarget stack s l))
  | .continueTo s l _ => return .continueTo s l (some (← continueTarget stack s l))
  | .giveBack s v => return .giveBack s (← resolveExpr? v)
  | .raise s v => return .raise s (← v.resolve)
  | .guarded s b hs f =>
    return .guarded s (← b.resolve stack) (← resolveHandlers stack hs) (← resolveBlock? stack f)
  | .labeled s l b =>
    if (findLabel l.name stack).isSome then .error ⟨s, "duplicate label " ++ l.name⟩
    else return .labeled s l (← b.resolve (.label l.name (b.labelsToLoop.map (· + 1)) :: stack))
  | .within s o b => return .within s (← o.resolve) (← b.resolve stack)
  | .empty s => return .empty s
  | .debugger s => return .debugger s

/-- `Stmt.resolve` on a list. -/
def resolveStmts (stack : List Anchor) : List (Stmt α) → Except (JumpError α) (List (Stmt α))
  | [] => return []
  | s :: ss => return (← s.resolve stack) :: (← resolveStmts stack ss)

/-- `Stmt.resolve` on an optional statement. -/
def resolveStmt? (stack : List Anchor) :
    Option (Stmt α) → Except (JumpError α) (Option (Stmt α))
  | none => return none
  | some s => return some (← s.resolve stack)

/-- Resolves the jumps of a block. -/
def Block.resolve (stack : List Anchor) : Block α → Except (JumpError α) (Block α)
  | .mk s b => return .mk s (← resolveStmts stack b)

/-- `Block.resolve` on an optional block. -/
def resolveBlock? (stack : List Anchor) :
    Option (Block α) → Except (JumpError α) (Option (Block α))
  | none => return none
  | some b => return some (← b.resolve stack)

/-- Resolves the jumps in initial values. -/
def resolveDeclarators : List (Declarator α) → Except (JumpError α) (List (Declarator α))
  | [] => return []
  | .mk s id init :: ds => return .mk s id (← resolveExpr? init) :: (← resolveDeclarators ds)

/-- Resolves the jumps of the cases of a switch. -/
def resolveCases (stack : List Anchor) : List (Case α) → Except (JumpError α) (List (Case α))
  | [] => return []
  | .mk s t b :: cs =>
    return .mk s (← resolveExpr? t) (← resolveStmts stack b) :: (← resolveCases stack cs)

/-- Resolves the jumps of catch clauses. -/
def resolveHandlers (stack : List Anchor) :
    List (Handler α) → Except (JumpError α) (List (Handler α))
  | [] => return []
  | .mk s p g b :: hs =>
    return .mk s p (← resolveExpr? g) (← b.resolve stack) :: (← resolveHandlers stack hs)

end

/-- Resolves all jumps of a script. -/
def Program.resolve (p : Program α) : Except (JumpError α) (Program α) :=
  return { p with body := ← resolveStmts [] p.body }

/-- The text of a jump error: the line is shown when it is known. -/
def JumpError.text (e : JumpError Span) : String :=
  let line := e.span.start.line
  if line > 0 then e.message ++ s!" (line {line})" else e.message

end Clearance.Script
