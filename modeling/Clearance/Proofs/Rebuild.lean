/-
# Laws of rebuilding

A tree that is rebuilt with the identity for annotations and for expressions stays as it is. Two
rebuildings one after the other are one (`rebuildStmts_rebuild`), and rebuilding keeps what is
hoisted.
-/
import Clearance.Script.Hoist
import Clearance.Script.Rebuild
import Mathlib.Tactic.Common

namespace Clearance.Script

variable {α : Type}

@[simp] lemma Ident.map_name {β : Type} (f : α → β) (id : Ident α) : (id.map f).name = id.name :=
  rfl

/-! ## Nothing to change -/

mutual

lemma Expr.rebuild_id : ∀ e : Expr α, e.rebuild id id = e
  | .ident _ | .number .. | .string .. | .bool .. | .null _ | .regexp .. | .this _ => rfl
  | .array s es => by rw [Expr.rebuild, rebuildElements_id es]; rfl
  | .object s ms => by rw [Expr.rebuild, rebuildMembers_id ms]; rfl
  | .function fn => by rw [Expr.rebuild, fn.rebuild_id]; rfl
  | .assign s op t v => by rw [Expr.rebuild, t.rebuild_id, v.rebuild_id]; rfl
  | .binary s op l r => by rw [Expr.rebuild, l.rebuild_id, r.rebuild_id]; rfl
  | .logical s op l r => by rw [Expr.rebuild, l.rebuild_id, r.rebuild_id]; rfl
  | .unary s op e => by rw [Expr.rebuild, e.rebuild_id]; rfl
  | .update s op b e => by rw [Expr.rebuild, e.rebuild_id]; rfl
  | .conditional s t c a => by
    rw [Expr.rebuild, t.rebuild_id, c.rebuild_id, a.rebuild_id]; rfl
  | .sequence s es => by rw [Expr.rebuild, rebuildExprs_id es]; rfl
  | .call s c as => by rw [Expr.rebuild, c.rebuild_id, rebuildExprs_id as]; rfl
  | .construct s c as => by rw [Expr.rebuild, c.rebuild_id, rebuildExprs_id as]; rfl
  | .member s o p => by rw [Expr.rebuild, o.rebuild_id]; rfl
  | .index s o k => by rw [Expr.rebuild, o.rebuild_id, k.rebuild_id]; rfl
  | .label s n e => by rw [Expr.rebuild, e.rebuild_id]; rfl

lemma rebuildExprs_id : ∀ es : List (Expr α), rebuildExprs id id es = es
  | [] => rfl
  | e :: es => by rw [rebuildExprs, e.rebuild_id, rebuildExprs_id es]

lemma rebuildExpr?_id : ∀ e : Option (Expr α), rebuildExpr? id id e = e
  | none => rfl
  | some e => by rw [rebuildExpr?, e.rebuild_id]

lemma rebuildElements_id : ∀ es : List (Option (Expr α)), rebuildElements id id es = es
  | [] => rfl
  | e :: es => by rw [rebuildElements, rebuildExpr?_id e, rebuildElements_id es]

lemma rebuildMembers_id : ∀ ms : List (Member α), rebuildMembers id id ms = ms
  | [] => rfl
  | .mk k kind v :: ms => by rw [rebuildMembers, v.rebuild_id, rebuildMembers_id ms]

lemma Function.rebuild_id : ∀ fn : Function α, fn.rebuild id id = fn
  | .mk s n ps b form src => by
    rw [Function.rebuild, rebuildStmts_id b]
    have h : (Ident.map id : Ident α → Ident α) = id := rfl
    rw [h, List.map_id, Option.map_id]
    rfl

lemma Stmt.rebuild_id : ∀ s : Stmt α, s.rebuild id id = s
  | .expr e => by rw [Stmt.rebuild, e.rebuild_id]
  | .block b => by rw [Stmt.rebuild, b.rebuild_id]
  | .declare s k ds => by rw [Stmt.rebuild, rebuildDeclarators_id ds]; rfl
  | .function s fn => by rw [Stmt.rebuild, fn.rebuild_id]; rfl
  | .branch s t c a => by rw [Stmt.rebuild, t.rebuild_id, c.rebuild_id, rebuildStmt?_id a]; rfl
  | .choose s d cs => by rw [Stmt.rebuild, d.rebuild_id, rebuildCases_id cs]; rfl
  | .whileLoop s t b => by rw [Stmt.rebuild, t.rebuild_id, b.rebuild_id]; rfl
  | .doLoop s b t => by rw [Stmt.rebuild, b.rebuild_id, t.rebuild_id]; rfl
  | .forLoop s i t u b => by
    rw [Stmt.rebuild, rebuildStmt?_id i, rebuildExpr?_id t, rebuildExpr?_id u, b.rebuild_id]; rfl
  | .forIn s t e b => by rw [Stmt.rebuild, t.rebuild_id, e.rebuild_id, b.rebuild_id]; rfl
  | .breakTo s l t => by cases l <;> rfl
  | .continueTo s l t => by cases l <;> rfl
  | .giveBack s v => by rw [Stmt.rebuild, rebuildExpr?_id v]; rfl
  | .raise s v => by rw [Stmt.rebuild, v.rebuild_id]; rfl
  | .guarded s b hs fin => by
    rw [Stmt.rebuild, b.rebuild_id, rebuildHandlers_id hs, rebuildBlock?_id fin]; rfl
  | .labeled s l b => by rw [Stmt.rebuild, b.rebuild_id]; rfl
  | .within s o b => by rw [Stmt.rebuild, o.rebuild_id, b.rebuild_id]; rfl
  | .empty _ | .debugger _ => rfl

lemma rebuildStmts_id : ∀ ss : List (Stmt α), rebuildStmts id id ss = ss
  | [] => rfl
  | s :: ss => by rw [rebuildStmts, s.rebuild_id, rebuildStmts_id ss]

lemma rebuildStmt?_id : ∀ s : Option (Stmt α), rebuildStmt? id id s = s
  | none => rfl
  | some s => by rw [rebuildStmt?, s.rebuild_id]

lemma Block.rebuild_id : ∀ b : Block α, b.rebuild id id = b
  | .mk s b => by rw [Block.rebuild, rebuildStmts_id b]; rfl

lemma rebuildBlock?_id : ∀ b : Option (Block α), rebuildBlock? id id b = b
  | none => rfl
  | some b => by rw [rebuildBlock?, b.rebuild_id]

lemma rebuildDeclarators_id : ∀ ds : List (Declarator α), rebuildDeclarators id id ds = ds
  | [] => rfl
  | .mk s i init :: ds => by
    rw [rebuildDeclarators, rebuildExpr?_id init, rebuildDeclarators_id ds]; rfl

lemma rebuildCases_id : ∀ cs : List (Case α), rebuildCases id id cs = cs
  | [] => rfl
  | .mk s t b :: cs => by
    rw [rebuildCases, rebuildExpr?_id t, rebuildStmts_id b, rebuildCases_id cs]; rfl

lemma rebuildHandlers_id : ∀ hs : List (Handler α), rebuildHandlers id id hs = hs
  | [] => rfl
  | .mk s p guard b :: hs => by
    rw [rebuildHandlers, rebuildExpr?_id guard, b.rebuild_id, rebuildHandlers_id hs]; rfl

end

/-! ## One rebuilding after the other -/

/-- Rebuilds what is below an expression: the expression itself is not handed to `g`. -/
def Expr.descend {α β : Type} (f : α → β) (g : Expr β → Expr β) : Expr α → Expr β
  | .ident id => .ident (id.map f)
  | .number s v => .number (f s) v
  | .string s v => .string (f s) v
  | .bool s v => .bool (f s) v
  | .null s => .null (f s)
  | .regexp s p fl => .regexp (f s) p fl
  | .array s es => .array (f s) (rebuildElements f g es)
  | .object s ms => .object (f s) (rebuildMembers f g ms)
  | .function fn => .function (fn.rebuild f g)
  | .this s => .this (f s)
  | .assign s op t v => .assign (f s) op (t.rebuild f g) (v.rebuild f g)
  | .binary s op l r => .binary (f s) op (l.rebuild f g) (r.rebuild f g)
  | .logical s op l r => .logical (f s) op (l.rebuild f g) (r.rebuild f g)
  | .unary s op e => .unary (f s) op (e.rebuild f g)
  | .update s op b e => .update (f s) op b (e.rebuild f g)
  | .conditional s t c a => .conditional (f s) (t.rebuild f g) (c.rebuild f g) (a.rebuild f g)
  | .sequence s es => .sequence (f s) (rebuildExprs f g es)
  | .call s c as => .call (f s) (c.rebuild f g) (rebuildExprs f g as)
  | .construct s c as => .construct (f s) (c.rebuild f g) (rebuildExprs f g as)
  | .member s o p => .member (f s) (o.rebuild f g) (p.map f)
  | .index s o k => .index (f s) (o.rebuild f g) (k.rebuild f g)
  | .label s n e => .label (f s) n (e.rebuild f g)

lemma Expr.rebuild_eq_descend {α β : Type} (f : α → β) (g : Expr β → Expr β) (e : Expr α) :
    e.rebuild f g = g (e.descend f g) := by
  cases e <;> rfl

section

variable {α β γ : Type} {f : α → β} {g : Expr β → Expr β} {f' : β → γ} {g' k : Expr γ → Expr γ}

variable (h : ∀ e : Expr β, (g e).rebuild f' g' = k (e.descend f' g'))

include h

set_option linter.unusedSectionVars false

mutual

lemma Expr.rebuild_rebuild : ∀ e : Expr α, (e.rebuild f g).rebuild f' g' = e.rebuild (f' ∘ f) k
  | .ident _ | .number .. | .string .. | .bool .. | .null _ | .regexp .. | .this _ => h _
  | .array s es => by rw [Expr.rebuild, h, Expr.descend, rebuildElements_rebuild es]; rfl
  | .object s ms => by rw [Expr.rebuild, h, Expr.descend, rebuildMembers_rebuild ms]; rfl
  | .function fn => by rw [Expr.rebuild, h, Expr.descend, fn.rebuild_rebuild]; rfl
  | .assign s op t v => by
    rw [Expr.rebuild, h, Expr.descend, t.rebuild_rebuild, v.rebuild_rebuild]; rfl
  | .binary s op l r => by
    rw [Expr.rebuild, h, Expr.descend, l.rebuild_rebuild, r.rebuild_rebuild]; rfl
  | .logical s op l r => by
    rw [Expr.rebuild, h, Expr.descend, l.rebuild_rebuild, r.rebuild_rebuild]; rfl
  | .unary s op e => by rw [Expr.rebuild, h, Expr.descend, e.rebuild_rebuild]; rfl
  | .update s op b e => by rw [Expr.rebuild, h, Expr.descend, e.rebuild_rebuild]; rfl
  | .conditional s t c a => by
    rw [Expr.rebuild, h, Expr.descend, t.rebuild_rebuild, c.rebuild_rebuild, a.rebuild_rebuild]
    rfl
  | .sequence s es => by rw [Expr.rebuild, h, Expr.descend, rebuildExprs_rebuild es]; rfl
  | .call s c as => by
    rw [Expr.rebuild, h, Expr.descend, c.rebuild_rebuild, rebuildExprs_rebuild as]; rfl
  | .construct s c as => by
    rw [Expr.rebuild, h, Expr.descend, c.rebuild_rebuild, rebuildExprs_rebuild as]; rfl
  | .member s o p => by rw [Expr.rebuild, h, Expr.descend, o.rebuild_rebuild]; rfl
  | .index s o i => by
    rw [Expr.rebuild, h, Expr.descend, o.rebuild_rebuild, i.rebuild_rebuild]; rfl
  | .label s n e => by rw [Expr.rebuild, h, Expr.descend, e.rebuild_rebuild]; rfl

lemma rebuildExprs_rebuild : ∀ es : List (Expr α),
    rebuildExprs f' g' (rebuildExprs f g es) = rebuildExprs (f' ∘ f) k es
  | [] => rfl
  | e :: es => by
    rw [rebuildExprs, rebuildExprs, rebuildExprs, e.rebuild_rebuild, rebuildExprs_rebuild es]

lemma rebuildExpr?_rebuild : ∀ e : Option (Expr α),
    rebuildExpr? f' g' (rebuildExpr? f g e) = rebuildExpr? (f' ∘ f) k e
  | none => rfl
  | some e => by rw [rebuildExpr?, rebuildExpr?, rebuildExpr?, e.rebuild_rebuild]

lemma rebuildElements_rebuild : ∀ es : List (Option (Expr α)),
    rebuildElements f' g' (rebuildElements f g es) = rebuildElements (f' ∘ f) k es
  | [] => rfl
  | e :: es => by
    rw [rebuildElements, rebuildElements, rebuildElements, rebuildExpr?_rebuild e,
      rebuildElements_rebuild es]

lemma rebuildMembers_rebuild : ∀ ms : List (Member α),
    rebuildMembers f' g' (rebuildMembers f g ms) = rebuildMembers (f' ∘ f) k ms
  | [] => rfl
  | .mk _ _ v :: ms => by
    rw [rebuildMembers, rebuildMembers, rebuildMembers, v.rebuild_rebuild,
      rebuildMembers_rebuild ms]

lemma Function.rebuild_rebuild : ∀ fn : Function α,
    (fn.rebuild f g).rebuild f' g' = fn.rebuild (f' ∘ f) k
  | .mk s n ps b form src => by
    rw [Function.rebuild, Function.rebuild, Function.rebuild, rebuildStmts_rebuild b,
      Option.map_map, List.map_map]
    rfl

lemma Stmt.rebuild_rebuild : ∀ s : Stmt α, (s.rebuild f g).rebuild f' g' = s.rebuild (f' ∘ f) k
  | .expr e => by rw [Stmt.rebuild, Stmt.rebuild, Stmt.rebuild, e.rebuild_rebuild]
  | .block b => by rw [Stmt.rebuild, Stmt.rebuild, Stmt.rebuild, b.rebuild_rebuild]
  | .declare s kind ds => by
    rw [Stmt.rebuild, Stmt.rebuild, Stmt.rebuild, rebuildDeclarators_rebuild ds]; rfl
  | .function s fn => by rw [Stmt.rebuild, Stmt.rebuild, Stmt.rebuild, fn.rebuild_rebuild]; rfl
  | .branch s t c a => by
    rw [Stmt.rebuild, Stmt.rebuild, Stmt.rebuild, t.rebuild_rebuild, c.rebuild_rebuild,
      rebuildStmt?_rebuild a]
    rfl
  | .choose s d cs => by
    rw [Stmt.rebuild, Stmt.rebuild, Stmt.rebuild, d.rebuild_rebuild, rebuildCases_rebuild cs]; rfl
  | .whileLoop s t b => by
    rw [Stmt.rebuild, Stmt.rebuild, Stmt.rebuild, t.rebuild_rebuild, b.rebuild_rebuild]; rfl
  | .doLoop s b t => by
    rw [Stmt.rebuild, Stmt.rebuild, Stmt.rebuild, b.rebuild_rebuild, t.rebuild_rebuild]; rfl
  | .forLoop s i t u b => by
    rw [Stmt.rebuild, Stmt.rebuild, Stmt.rebuild, rebuildStmt?_rebuild i, rebuildExpr?_rebuild t,
      rebuildExpr?_rebuild u, b.rebuild_rebuild]
    rfl
  | .forIn s t e b => by
    rw [Stmt.rebuild, Stmt.rebuild, Stmt.rebuild, t.rebuild_rebuild, e.rebuild_rebuild,
      b.rebuild_rebuild]
    rfl
  | .breakTo s l t => by cases l <;> rfl
  | .continueTo s l t => by cases l <;> rfl
  | .giveBack s v => by
    rw [Stmt.rebuild, Stmt.rebuild, Stmt.rebuild, rebuildExpr?_rebuild v]; rfl
  | .raise s v => by rw [Stmt.rebuild, Stmt.rebuild, Stmt.rebuild, v.rebuild_rebuild]; rfl
  | .guarded s b hs fin => by
    rw [Stmt.rebuild, Stmt.rebuild, Stmt.rebuild, b.rebuild_rebuild, rebuildHandlers_rebuild hs,
      rebuildBlock?_rebuild fin]
    rfl
  | .labeled s l b => by rw [Stmt.rebuild, Stmt.rebuild, Stmt.rebuild, b.rebuild_rebuild]; rfl
  | .within s o b => by
    rw [Stmt.rebuild, Stmt.rebuild, Stmt.rebuild, o.rebuild_rebuild, b.rebuild_rebuild]; rfl
  | .empty _ | .debugger _ => rfl

lemma rebuildStmts_rebuild : ∀ ss : List (Stmt α),
    rebuildStmts f' g' (rebuildStmts f g ss) = rebuildStmts (f' ∘ f) k ss
  | [] => rfl
  | s :: ss => by
    rw [rebuildStmts, rebuildStmts, rebuildStmts, s.rebuild_rebuild, rebuildStmts_rebuild ss]

lemma rebuildStmt?_rebuild : ∀ s : Option (Stmt α),
    rebuildStmt? f' g' (rebuildStmt? f g s) = rebuildStmt? (f' ∘ f) k s
  | none => rfl
  | some s => by rw [rebuildStmt?, rebuildStmt?, rebuildStmt?, s.rebuild_rebuild]

lemma Block.rebuild_rebuild : ∀ b : Block α,
    (b.rebuild f g).rebuild f' g' = b.rebuild (f' ∘ f) k
  | .mk _ b => by rw [Block.rebuild, Block.rebuild, Block.rebuild, rebuildStmts_rebuild b]; rfl

lemma rebuildBlock?_rebuild : ∀ b : Option (Block α),
    rebuildBlock? f' g' (rebuildBlock? f g b) = rebuildBlock? (f' ∘ f) k b
  | none => rfl
  | some b => by rw [rebuildBlock?, rebuildBlock?, rebuildBlock?, b.rebuild_rebuild]

lemma rebuildDeclarators_rebuild : ∀ ds : List (Declarator α),
    rebuildDeclarators f' g' (rebuildDeclarators f g ds) = rebuildDeclarators (f' ∘ f) k ds
  | [] => rfl
  | .mk _ _ init :: ds => by
    rw [rebuildDeclarators, rebuildDeclarators, rebuildDeclarators, rebuildExpr?_rebuild init,
      rebuildDeclarators_rebuild ds]
    rfl

lemma rebuildCases_rebuild : ∀ cs : List (Case α),
    rebuildCases f' g' (rebuildCases f g cs) = rebuildCases (f' ∘ f) k cs
  | [] => rfl
  | .mk _ t b :: cs => by
    rw [rebuildCases, rebuildCases, rebuildCases, rebuildExpr?_rebuild t, rebuildStmts_rebuild b,
      rebuildCases_rebuild cs]
    rfl

lemma rebuildHandlers_rebuild : ∀ hs : List (Handler α),
    rebuildHandlers f' g' (rebuildHandlers f g hs) = rebuildHandlers (f' ∘ f) k hs
  | [] => rfl
  | .mk _ _ guard b :: hs => by
    rw [rebuildHandlers, rebuildHandlers, rebuildHandlers, rebuildExpr?_rebuild guard,
      b.rebuild_rebuild, rebuildHandlers_rebuild hs]
    rfl

end

end

/-! ## Declarations -/

section

variable {α β : Type} (f : α → β) (g : Expr β → Expr β)

lemma declaredBy_rebuild (kind : VarKind) (items : List (Declarator α)) :
    declaredBy kind (rebuildDeclarators f g items) = declaredBy kind items := by
  induction items with
  | nil => rfl
  | cons d ds ih =>
    obtain ⟨s, i, init⟩ := d
    have hhead : declaredBy kind (rebuildDeclarators f g (.mk s i init :: ds)) =
        ⟨i.name, kind == .constant⟩ :: declaredBy kind (rebuildDeclarators f g ds) := by
      rw [rebuildDeclarators]
      rfl
    rw [hhead, ih]
    rfl

mutual

lemma Stmt.declared_rebuild : ∀ s : Stmt α, (s.rebuild f g).declared = s.declared
  | .declare _ kind items => by
    rw [Stmt.rebuild, Stmt.declared, Stmt.declared, declaredBy_rebuild]
  | .block b => by rw [Stmt.rebuild, Stmt.declared, Stmt.declared, Block.declared_rebuild b]
  | .branch _ _ c a => by
    rw [Stmt.rebuild, Stmt.declared, Stmt.declared, Stmt.declared_rebuild c, declaredIn?_rebuild a]
  | .choose _ _ cases => by
    rw [Stmt.rebuild, Stmt.declared, Stmt.declared, declaredInCases_rebuild cases]
  | .whileLoop _ _ b => by rw [Stmt.rebuild, Stmt.declared, Stmt.declared, Stmt.declared_rebuild b]
  | .doLoop _ b _ => by rw [Stmt.rebuild, Stmt.declared, Stmt.declared, Stmt.declared_rebuild b]
  | .forLoop _ i _ _ b => by
    rw [Stmt.rebuild, Stmt.declared, Stmt.declared, declaredIn?_rebuild i, Stmt.declared_rebuild b]
  | .forIn _ t _ b => by
    rw [Stmt.rebuild, Stmt.declared, Stmt.declared, Stmt.declared_rebuild t,
      Stmt.declared_rebuild b]
  | .guarded _ b hs fin => by
    rw [Stmt.rebuild, Stmt.declared, Stmt.declared, Block.declared_rebuild b,
      declaredInHandlers_rebuild hs, declaredInBlock?_rebuild fin]
  | .labeled _ _ b => by rw [Stmt.rebuild, Stmt.declared, Stmt.declared, Stmt.declared_rebuild b]
  | .within _ _ b => by rw [Stmt.rebuild, Stmt.declared, Stmt.declared, Stmt.declared_rebuild b]
  | .expr _ | .function .. | .breakTo .. | .continueTo .. | .giveBack .. | .raise .. | .empty _
  | .debugger _ => by simp only [Stmt.rebuild, Stmt.declared]

lemma declaredIn_rebuild : ∀ ss : List (Stmt α), declaredIn (rebuildStmts f g ss) = declaredIn ss
  | [] => by rw [rebuildStmts, declaredIn, declaredIn]
  | s :: ss => by
    rw [rebuildStmts, declaredIn, declaredIn, Stmt.declared_rebuild s, declaredIn_rebuild ss]

lemma declaredIn?_rebuild : ∀ s : Option (Stmt α),
    declaredIn? (rebuildStmt? f g s) = declaredIn? s
  | none => by rw [rebuildStmt?, declaredIn?, declaredIn?]
  | some s => by rw [rebuildStmt?, declaredIn?, declaredIn?, Stmt.declared_rebuild s]

lemma Block.declared_rebuild : ∀ b : Block α, (b.rebuild f g).declared = b.declared
  | .mk _ b => by rw [Block.rebuild, Block.declared, Block.declared, declaredIn_rebuild b]

lemma declaredInBlock?_rebuild : ∀ b : Option (Block α),
    declaredInBlock? (rebuildBlock? f g b) = declaredInBlock? b
  | none => by rw [rebuildBlock?, declaredInBlock?, declaredInBlock?]
  | some b => by rw [rebuildBlock?, declaredInBlock?, declaredInBlock?, Block.declared_rebuild b]

lemma declaredInCases_rebuild : ∀ cs : List (Case α),
    declaredInCases (rebuildCases f g cs) = declaredInCases cs
  | [] => by rw [rebuildCases, declaredInCases, declaredInCases]
  | .mk _ _ b :: cs => by
    rw [rebuildCases, declaredInCases, declaredInCases, declaredIn_rebuild b,
      declaredInCases_rebuild cs]

lemma declaredInHandlers_rebuild : ∀ hs : List (Handler α),
    declaredInHandlers (rebuildHandlers f g hs) = declaredInHandlers hs
  | [] => by rw [rebuildHandlers, declaredInHandlers, declaredInHandlers]
  | .mk _ _ _ b :: hs => by
    rw [rebuildHandlers, declaredInHandlers, declaredInHandlers, Block.declared_rebuild b,
      declaredInHandlers_rebuild hs]

end

lemma hoistedVars_rebuild (ss : List (Stmt α)) :
    hoistedVars (rebuildStmts f g ss) = hoistedVars ss := by
  unfold hoistedVars
  rw [declaredIn_rebuild]

lemma hoistedFunctions_rebuild (ss : List (Stmt α)) :
    hoistedFunctions (rebuildStmts f g ss) = (hoistedFunctions ss).map (·.rebuild f g) := by
  induction ss with
  | nil => rfl
  | cons s ss ih =>
    cases s
    case function s fn =>
      rw [rebuildStmts, Stmt.rebuild]
      exact congrArg (fn.rebuild f g :: ·) ih
    all_goals
      rw [rebuildStmts, Stmt.rebuild]
      exact ih

end

end Clearance.Script
