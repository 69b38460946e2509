/-
# Jumps of rebuilt trees

The targets of jumps are counted in statements, and rebuilding changes neither the statements nor
their nesting. So jumps may be resolved before or after a tree is rebuilt, as long as the
expressions that are put in the place of others hold the same functions.
-/
import Clearance.Proofs.Rebuild
import Clearance.Script.Jumps

namespace Clearance.Script

variable {α β : Type}

/-- The error at another place. -/
def JumpError.map (f : α → β) (e : JumpError α) : JumpError β := ⟨f e.span, e.message⟩

/-- What resolving comes to when trees are changed by `m` and places by `f`. -/
def Resolved.map {A B : Type} (f : α → β) (m : A → B) :
    Except (JumpError α) A → Except (JumpError β) B
  | .ok a => .ok (m a)
  | .error e => .error (e.map f)

section

variable {f : α → β} {g : Expr β → Expr β}

/-- Only loops and labels in front of loops count, and they stay where they are. -/
lemma Stmt.labelsToLoop_rebuild : ∀ s : Stmt α, (s.rebuild f g).labelsToLoop = s.labelsToLoop
  | .whileLoop .. | .doLoop .. | .forLoop .. | .forIn .. | .expr _ | .block _ | .declare ..
  | .function .. | .branch .. | .choose .. | .breakTo .. | .continueTo .. | .giveBack ..
  | .raise .. | .guarded .. | .within .. | .empty _ | .debugger _ => rfl
  | .labeled _ _ b => congrArg (Option.map (· + 1)) b.labelsToLoop_rebuild

lemma breakTarget_map (stack : List Anchor) (s : α) (l : Option (Ident α)) :
    breakTarget stack (f s) (l.map (Ident.map f)) =
      Resolved.map f id (breakTarget stack s l) := by
  cases l with
  | none =>
    unfold breakTarget
    dsimp only [Option.map_none]
    cases innermost true stack <;> rfl
  | some id =>
    unfold breakTarget
    dsimp only [Option.map_some, Ident.map]
    rcases findLabel id.name stack with _ | ⟨n, loop⟩ <;> rfl

lemma continueTarget_map (stack : List Anchor) (s : α) (l : Option (Ident α)) :
    continueTarget stack (f s) (l.map (Ident.map f)) =
      Resolved.map f id (continueTarget stack s l) := by
  cases l with
  | none =>
    unfold continueTarget
    dsimp only [Option.map_none]
    cases innermost false stack <;> rfl
  | some id =>
    unfold continueTarget
    dsimp only [Option.map_some, Ident.map]
    rcases findLabel id.name stack with _ | ⟨n, _ | k⟩ <;> rfl

variable (hg : ∀ e : Expr β, (g e).resolve = g <$> e.resolve)

include hg

set_option linter.unusedSectionVars false

mutual

lemma Expr.resolve_rebuild : ∀ e : Expr α,
    (e.rebuild f g).resolve = Resolved.map f (Expr.rebuild f g) e.resolve
  | .ident _ | .number .. | .string .. | .bool .. | .null _ | .regexp .. | .this _ => hg _
  | .array s es => by
    rw [Expr.rebuild, hg, Expr.resolve, resolveElements_rebuild es, Expr.resolve]
    rcases resolveElements es with _ | _ <;> rfl
  | .object s ms => by
    rw [Expr.rebuild, hg, Expr.resolve, resolveMembers_rebuild ms, Expr.resolve]
    rcases resolveMembers ms with _ | _ <;> rfl
  | .function fn => by
    rw [Expr.rebuild, hg, Expr.resolve, fn.resolve_rebuild, Expr.resolve]
    rcases fn.resolve with _ | _ <;> rfl
  | .assign s op t v => by
    rw [Expr.rebuild, hg, Expr.resolve, t.resolve_rebuild, v.resolve_rebuild, Expr.resolve]
    rcases t.resolve with _ | _ <;> rcases v.resolve with _ | _ <;> rfl
  | .binary s op l r => by
    rw [Expr.rebuild, hg, Expr.resolve, l.resolve_rebuild, r.resolve_rebuild, Expr.resolve]
    rcases l.resolve with _ | _ <;> rcases r.resolve with _ | _ <;> rfl
  | .logical s op l r => by
    rw [Expr.rebuild, hg, Expr.resolve, l.resolve_rebuild, r.resolve_rebuild, Expr.resolve]
    rcases l.resolve with _ | _ <;> rcases r.resolve with _ | _ <;> rfl
  | .unary s op e => by
    rw [Expr.rebuild, hg, Expr.resolve, e.resolve_rebuild, Expr.resolve]
    rcases e.resolve with _ | _ <;> rfl
  | .update s op b e => by
    rw [Expr.rebuild, hg, Expr.resolve, e.resolve_rebuild, Expr.resolve]
    rcases e.resolve with _ | _ <;> rfl
  | .conditional s t c a => by
    rw [Expr.rebuild, hg, Expr.resolve, t.resolve_rebuild, c.resolve_rebuild, a.resolve_rebuild,
      Expr.resolve]
    rcases t.resolve with _ | _ <;> rcases c.resolve with _ | _ <;>
      rcases a.resolve with _ | _ <;> rfl
  | .sequence s es => by
    rw [Expr.rebuild, hg, Expr.resolve, resolveExprs_rebuild es, Expr.resolve]
    rcases resolveExprs es with _ | _ <;> rfl
  | .call s c as => by
    rw [Expr.rebuild, hg, Expr.resolve, c.resolve_rebuild, resolveExprs_rebuild as, Expr.resolve]
    rcases c.resolve with _ | _ <;> rcases resolveExprs as with _ | _ <;> rfl
  | .construct s c as => by
    rw [Expr.rebuild, hg, Expr.resolve, c.resolve_rebuild, resolveExprs_rebuild as, Expr.resolve]
    rcases c.resolve with _ | _ <;> rcases resolveExprs as with _ | _ <;> rfl
  | .member s o p => by
    rw [Expr.rebuild, hg, Expr.resolve, o.resolve_rebuild, Expr.resolve]
    rcases o.resolve with _ | _ <;> rfl
  | .index s o k => by
    rw [Expr.rebuild, hg, Expr.resolve, o.resolve_rebuild, k.resolve_rebuild, Expr.resolve]
    rcases o.resolve with _ | _ <;> rcases k.resolve with _ | _ <;> rfl
  | .label s n e => by
    rw [Expr.rebuild, hg, Expr.resolve, e.resolve_rebuild, Expr.resolve]
    rcases e.resolve with _ | _ <;> rfl

lemma resolveExprs_rebuild : ∀ es : List (Expr α),
    resolveExprs (rebuildExprs f g es) = Resolved.map f (rebuildExprs f g) (resolveExprs es)
  | [] => rfl
  | e :: es => by
    rw [rebuildExprs, resolveExprs, e.resolve_rebuild, resolveExprs_rebuild es, resolveExprs]
    rcases e.resolve with _ | _ <;> rcases resolveExprs es with _ | _ <;> rfl

lemma resolveExpr?_rebuild : ∀ e : Option (Expr α),
    resolveExpr? (rebuildExpr? f g e) = Resolved.map f (rebuildExpr? f g) (resolveExpr? e)
  | none => rfl
  | some e => by
    rw [rebuildExpr?, resolveExpr?, e.resolve_rebuild, resolveExpr?]
    rcases e.resolve with _ | _ <;> rfl

lemma resolveElements_rebuild : ∀ es : List (Option (Expr α)),
    resolveElements (rebuildElements f g es) =
      Resolved.map f (rebuildElements f g) (resolveElements es)
  | [] => rfl
  | e :: es => by
    rw [rebuildElements, resolveElements, resolveExpr?_rebuild e, resolveElements_rebuild es,
      resolveElements]
    rcases resolveExpr? e with _ | _ <;> rcases resolveElements es with _ | _ <;> rfl

lemma resolveMembers_rebuild : ∀ ms : List (Member α),
    resolveMembers (rebuildMembers f g ms) =
      Resolved.map f (rebuildMembers f g) (resolveMembers ms)
  | [] => rfl
  | .mk _ _ v :: ms => by
    rw [rebuildMembers, resolveMembers, v.resolve_rebuild, resolveMembers_rebuild ms,
      resolveMembers]
    rcases v.resolve with _ | _ <;> rcases resolveMembers ms with _ | _ <;> rfl

lemma Function.resolve_rebuild : ∀ fn : Function α,
    (fn.rebuild f g).resolve = Resolved.map f (Function.rebuild f g) fn.resolve
  | .mk _ _ _ b _ _ => by
    rw [Function.rebuild, Function.resolve, resolveStmts_rebuild b [], Function.resolve]
    rcases resolveStmts [] b with _ | _ <;> rfl

lemma Stmt.resolve_rebuild : ∀ (s : Stmt α) (stack : List Anchor),
    (s.rebuild f g).resolve stack = Resolved.map f (Stmt.rebuild f g) (s.resolve stack)
  | .expr e, stack => by
    rw [Stmt.rebuild, Stmt.resolve, e.resolve_rebuild, Stmt.resolve]
    rcases e.resolve with _ | _ <;> rfl
  | .block b, stack => by
    rw [Stmt.rebuild, Stmt.resolve, b.resolve_rebuild stack, Stmt.resolve]
    rcases b.resolve stack with _ | _ <;> rfl
  | .declare s kind ds, stack => by
    rw [Stmt.rebuild, Stmt.resolve, resolveDeclarators_rebuild ds, Stmt.resolve]
    rcases resolveDeclarators ds with _ | _ <;> rfl
  | .function s fn, stack => by
    rw [Stmt.rebuild, Stmt.resolve, fn.resolve_rebuild, Stmt.resolve]
    rcases fn.resolve with _ | _ <;> rfl
  | .branch s t c a, stack => by
    rw [Stmt.rebuild, Stmt.resolve, t.resolve_rebuild, c.resolve_rebuild stack,
      resolveStmt?_rebuild a stack, Stmt.resolve]
    rcases t.resolve with _ | _ <;> rcases c.resolve stack with _ | _ <;>
      rcases resolveStmt? stack a with _ | _ <;> rfl
  | .choose s d cs, stack => by
    rw [Stmt.rebuild, Stmt.resolve, d.resolve_rebuild, resolveCases_rebuild cs, Stmt.resolve]
    rcases d.resolve with _ | _ <;> rcases resolveCases (.switch :: stack) cs with _ | _ <;> rfl
  | .whileLoop s t b, stack => by
    rw [Stmt.rebuild, Stmt.resolve, t.resolve_rebuild, b.resolve_rebuild, Stmt.resolve]
    rcases t.resolve with _ | _ <;> rcases b.resolve (.loop :: stack) with _ | _ <;> rfl
  | .doLoop s b t, stack => by
    rw [Stmt.rebuild, Stmt.resolve, b.resolve_rebuild, t.resolve_rebuild, Stmt.resolve]
    rcases b.resolve (.loop :: stack) with _ | _ <;> rcases t.resolve with _ | _ <;> rfl
  | .forLoop s i t u b, stack => by
    rw [Stmt.rebuild, Stmt.resolve, resolveStmt?_rebuild i, resolveExpr?_rebuild t,
      resolveExpr?_rebuild u, b.resolve_rebuild, Stmt.resolve]
    rcases resolveStmt? (.loop :: stack) i with _ | _ <;> rcases resolveExpr? t with _ | _ <;>
      rcases resolveExpr? u with _ | _ <;> rcases b.resolve (.loop :: stack) with _ | _ <;> rfl
  | .forIn s t e b, stack => by
    rw [Stmt.rebuild, Stmt.resolve, t.resolve_rebuild, e.resolve_rebuild, b.resolve_rebuild,
      Stmt.resolve]
    rcases t.resolve (.loop :: stack) with _ | _ <;> rcases e.resolve with _ | _ <;>
      rcases b.resolve (.loop :: stack) with _ | _ <;> rfl
  | .breakTo s l t, stack => by
    rw [Stmt.rebuild, Stmt.resolve, breakTarget_map, Stmt.resolve]
    rcases breakTarget stack s l with _ | _ <;> rfl
  | .continueTo s l t, stack => by
    rw [Stmt.rebuild, Stmt.resolve, continueTarget_map, Stmt.resolve]
    rcases continueTarget stack s l with _ | _ <;> rfl
  | .giveBack s v, stack => by
    rw [Stmt.rebuild, Stmt.resolve, resolveExpr?_rebuild v, Stmt.resolve]
    rcases resolveExpr? v with _ | _ <;> rfl
  | .raise s v, stack => by
    rw [Stmt.rebuild, Stmt.resolve, v.resolve_rebuild, Stmt.resolve]
    rcases v.resolve with _ | _ <;> rfl
  | .guarded s b hs fin, stack => by
    rw [Stmt.rebuild, Stmt.resolve, b.resolve_rebuild stack, resolveHandlers_rebuild hs,
      resolveBlock?_rebuild fin, Stmt.resolve]
    rcases b.resolve stack with _ | _ <;> rcases resolveHandlers stack hs with _ | _ <;>
      rcases resolveBlock? stack fin with _ | _ <;> rfl
  | .labeled s l b, stack => by
    rw [Stmt.rebuild, Stmt.resolve, b.labelsToLoop_rebuild, b.resolve_rebuild, Stmt.resolve]
    split_ifs with hdup hdup' hdup'
    · rfl
    · exact absurd hdup hdup'
    · exact absurd hdup' hdup
    · rw [Ident.map_name]
      rcases b.resolve (.label l.name (b.labelsToLoop.map (· + 1)) :: stack) with _ | _ <;> rfl
  | .within s o b, stack => by
    rw [Stmt.rebuild, Stmt.resolve, o.resolve_rebuild, b.resolve_rebuild stack, Stmt.resolve]
    rcases o.resolve with _ | _ <;> rcases b.resolve stack with _ | _ <;> rfl
  | .empty _, _ | .debugger _, _ => rfl

lemma resolveStmts_rebuild : ∀ (ss : List (Stmt α)) (stack : List Anchor),
    resolveStmts stack (rebuildStmts f g ss) =
      Resolved.map f (rebuildStmts f g) (resolveStmts stack ss)
  | [], _ => rfl
  | s :: ss, stack => by
    rw [rebuildStmts, resolveStmts, s.resolve_rebuild stack, resolveStmts_rebuild ss stack,
      resolveStmts]
    rcases s.resolve stack with _ | _ <;> rcases resolveStmts stack ss with _ | _ <;> rfl

lemma resolveStmt?_rebuild : ∀ (s : Option (Stmt α)) (stack : List Anchor),
    resolveStmt? stack (rebuildStmt? f g s) =
      Resolved.map f (rebuildStmt? f g) (resolveStmt? stack s)
  | none, _ => rfl
  | some s, stack => by
    rw [rebuildStmt?, resolveStmt?, s.resolve_rebuild stack, resolveStmt?]
    rcases s.resolve stack with _ | _ <;> rfl

lemma Block.resolve_rebuild : ∀ (b : Block α) (stack : List Anchor),
    (b.rebuild f g).resolve stack = Resolved.map f (Block.rebuild f g) (b.resolve stack)
  | .mk _ b, stack => by
    rw [Block.rebuild, Block.resolve, resolveStmts_rebuild b stack, Block.resolve]
    rcases resolveStmts stack b with _ | _ <;> rfl

lemma resolveBlock?_rebuild : ∀ (b : Option (Block α)) (stack : List Anchor),
    resolveBlock? stack (rebuildBlock? f g b) =
      Resolved.map f (rebuildBlock? f g) (resolveBlock? stack b)
  | none, _ => rfl
  | some b, stack => by
    rw [rebuildBlock?, resolveBlock?, b.resolve_rebuild stack, resolveBlock?]
    rcases b.resolve stack with _ | _ <;> rfl

lemma resolveDeclarators_rebuild : ∀ ds : List (Declarator α),
    resolveDeclarators (rebuildDeclarators f g ds) =
      Resolved.map f (rebuildDeclarators f g) (resolveDeclarators ds)
  | [] => rfl
  | .mk _ _ init :: ds => by
    rw [rebuildDeclarators, resolveDeclarators, resolveExpr?_rebuild init,
      resolveDeclarators_rebuild ds, resolveDeclarators]
    rcases resolveExpr? init with _ | _ <;> rcases resolveDeclarators ds with _ | _ <;> rfl

lemma resolveCases_rebuild : ∀ (cs : List (Case α)) (stack : List Anchor),
    resolveCases stack (rebuildCases f g cs) =
      Resolved.map f (rebuildCases f g) (resolveCases stack cs)
  | [], _ => rfl
  | .mk _ t b :: cs, stack => by
    rw [rebuildCases, resolveCases, resolveExpr?_rebuild t, resolveStmts_rebuild b stack,
      resolveCases_rebuild cs stack, resolveCases]
    rcases resolveExpr? t with _ | _ <;> rcases resolveStmts stack b with _ | _ <;>
      rcases resolveCases stack cs with _ | _ <;> rfl

lemma resolveHandlers_rebuild : ∀ (hs : List (Handler α)) (stack : List Anchor),
    resolveHandlers stack (rebuildHandlers f g hs) =
      Resolved.map f (rebuildHandlers f g) (resolveHandlers stack hs)
  | [], _ => rfl
  | .mk _ _ guard b :: hs, stack => by
    rw [rebuildHandlers, resolveHandlers, resolveExpr?_rebuild guard, b.resolve_rebuild stack,
      resolveHandlers_rebuild hs stack, resolveHandlers]
    rcases resolveExpr? guard with _ | _ <;> rcases b.resolve stack with _ | _ <;>
      rcases resolveHandlers stack hs with _ | _ <;> rfl

end

end

end Clearance.Script
