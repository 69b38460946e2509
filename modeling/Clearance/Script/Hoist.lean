/-
# Hoisted declarations

The variables of a body are all those declared in its statements, at any depth but outside
nested functions. A variable declared again is not listed again, a constant is. The functions
of a body are those declared directly in it.
-/
import Clearance.Script.Tree

namespace Clearance.Script

variable {α : Type}

/-- A variable bound on entry to its activation. -/
structure HoistedVar where
  name : String
  constant : Bool
deriving DecidableEq, Repr

/-- The variables of a declaration, in order. -/
def declaredBy (kind : VarKind) (items : List (Declarator α)) : List HoistedVar :=
  items.map fun
    | .mk _ id _ => ⟨id.name, kind == .constant⟩

mutual

/-- The variables declared in a statement, in source order. -/
def Stmt.declared : Stmt α → List HoistedVar
  | .declare _ kind items => declaredBy kind items
  | .block b => b.declared
  | .branch _ _ c a => c.declared ++ declaredIn? a
  | .choose _ _ cases => declaredInCases cases
  | .whileLoop _ _ b => b.declared
  | .doLoop _ b _ => b.declared
  | .forLoop _ i _ _ b => declaredIn? i ++ b.declared
  | .forIn _ t _ b => t.declared ++ b.declared
  | .guarded _ b hs f => b.declared ++ declaredInHandlers hs ++ declaredInBlock? f
  | .labeled _ _ b => b.declared
  | .within _ _ b => b.declared
  | _ => []

/-- The variables declared in statements, in source order. -/
def declaredIn : List (Stmt α) → List HoistedVar
  | [] => []
  | s :: ss => s.declared ++ declaredIn ss

/-- The variables declared in an optional statement. -/
def declaredIn? : Option (Stmt α) → List HoistedVar
  | none => []
  | some s => s.declared

/-- The variables declared in a block. -/
def Block.declared : Block α → List HoistedVar
  | .mk _ b => declaredIn b

/-- The variables declared in an optional block. -/
def declaredInBlock? : Option (Block α) → List HoistedVar
  | none => []
  | some b => b.declared

/-- The variables declared in the cases of a switch. -/
def declaredInCases : List (Case α) → List HoistedVar
  | [] => []
  | .mk _ _ b :: cs => declaredIn b ++ declaredInCases cs

/-- The variables declared in catch clauses. -/
def declaredInHandlers : List (Handler α) → List HoistedVar
  | [] => []
  | .mk _ _ _ b :: hs => b.declared ++ declaredInHandlers hs

end

/-- Drops the variables whose name was seen before; constants stay. -/
def firstDeclared (seen : List String) : List HoistedVar → List HoistedVar
  | [] => []
  | v :: vs =>
    if !v.constant && seen.contains v.name then firstDeclared seen vs
    else v :: firstDeclared (v.name :: seen) vs

/-- The variables bound on entry to a body. -/
def hoistedVars (body : List (Stmt α)) : List HoistedVar := firstDeclared [] (declaredIn body)

/-- The functions bound on entry to a body. -/
def hoistedFunctions (body : List (Stmt α)) : List (Function α) :=
  body.filterMap fun
    | .function _ f => some f
    | _ => none

end Clearance.Script
