/-
# Walking over rebuilt trees

What is collected on a walk over a tree is collected on a walk over the tree that it is rebuilt as
(`flatMap_rebuildStmts`), or that it becomes when its jumps are resolved (`flatMap_resolveStmts`),
if every node gives the same before and after.
-/
import Clearance.Proofs.Grammar
import Clearance.Proofs.Jumps

namespace Clearance.Script

variable {α β X : Type}

/-- The node that a walk over an expression starts with. -/
def Expr.node : Expr α → Node α
  | .ident id => .ident id
  | e => .expr e

lemma Function.nodes_eq_cons (into : Bool) (fn : Function α) :
    fn.nodes into = .expr (.function fn) :: (fn.nodes into).tail := by
  cases fn
  rfl

lemma Expr.nodes_eq_cons (into : Bool) (e : Expr α) :
    e.nodes into = e.node :: (e.nodes into).tail := by
  cases e
  case function fn => exact fn.nodes_eq_cons into
  all_goals rfl

lemma Expr.node_mem_nodes (into : Bool) (e : Expr α) : e.node ∈ e.nodes into :=
  e.nodes_eq_cons into ▸ List.mem_cons_self

/-! ## Rebuilding -/

/-- What a walk collects from a node before and after its tree is rebuilt is the same. Of an
expression that is replaced, all nodes count. -/
structure Kept (into : Bool) (f : α → β) (g : Expr β → Expr β) (M : Node α → List X)
    (M' : Node β → List X) : Prop where
  expr : ∀ e : Expr α, ((g (e.descend f g)).nodes into).flatMap M' =
    M e.node ++ ((e.descend f g).nodes into).tail.flatMap M'
  function : ∀ fn : Function α, M' (.expr (.function (fn.rebuild f g))) = M (.expr (.function fn))
  ident : ∀ id : Ident α, M' (.ident (id.map f)) = M (.ident id)
  member : ∀ k kind (v : Expr α), M' (.member (.mk k kind (v.rebuild f g))) =
    M (.member (.mk k kind v))
  stmt : ∀ s : Stmt α, M' (.stmt (s.rebuild f g)) = M (.stmt s)
  block : ∀ b : Block α, M' (.block (b.rebuild f g)) = M (.block b)
  declarator : ∀ kind s id (init : Option (Expr α)),
    M' (.declarator kind (.mk (f s) (id.map f) (rebuildExpr? f g init))) =
      M (.declarator kind (.mk s id init))
  case : ∀ s t (b : List (Stmt α)),
    M' (.case (.mk (f s) (rebuildExpr? f g t) (rebuildStmts f g b))) = M (.case (.mk s t b))
  handler : ∀ s p guard (b : Block α),
    M' (.handler (.mk (f s) (p.map f) (rebuildExpr? f g guard) (b.rebuild f g))) =
      M (.handler (.mk s p guard b))

section

variable {into : Bool} {f : α → β} {g : Expr β → Expr β} {M : Node α → List X}
  {M' : Node β → List X}
  (h : Kept into f g M M')

include h

set_option linter.unusedSectionVars false

lemma Kept.idents (ids : List (Ident α)) :
    ((ids.map (Ident.map f)).map Node.ident).flatMap M' = (ids.map Node.ident).flatMap M := by
  induction ids with
  | nil => rfl
  | cons id ids ih =>
    simp only [List.map_cons, List.flatMap_cons, h.ident, ih]

mutual

lemma Expr.flatMap_rebuild : ∀ e : Expr α,
    ((e.rebuild f g).nodes into).flatMap M' = (e.nodes into).flatMap M
  | .ident _ | .number .. | .string .. | .bool .. | .null _ | .regexp .. | .this _ => by
    rw [Expr.rebuild_eq_descend, h.expr]
    rfl
  | .array s es => by
    rw [Expr.rebuild_eq_descend, h.expr]
    simp only [Expr.descend, Expr.nodes, List.tail_cons, List.flatMap_cons,
      flatMap_rebuildElements es]
    rfl
  | .object s ms => by
    rw [Expr.rebuild_eq_descend, h.expr]
    simp only [Expr.descend, Expr.nodes, List.tail_cons, List.flatMap_cons,
      flatMap_rebuildMembers ms]
    rfl
  | .assign s op t v => by
    rw [Expr.rebuild_eq_descend, h.expr]
    simp only [Expr.descend, Expr.nodes, List.tail_cons, List.flatMap_append, List.flatMap_cons,
      t.flatMap_rebuild, v.flatMap_rebuild]
    rfl
  | .binary s op l r => by
    rw [Expr.rebuild_eq_descend, h.expr]
    simp only [Expr.descend, Expr.nodes, List.tail_cons, List.flatMap_append, List.flatMap_cons,
      l.flatMap_rebuild, r.flatMap_rebuild]
    rfl
  | .logical s op l r => by
    rw [Expr.rebuild_eq_descend, h.expr]
    simp only [Expr.descend, Expr.nodes, List.tail_cons, List.flatMap_append, List.flatMap_cons,
      l.flatMap_rebuild, r.flatMap_rebuild]
    rfl
  | .unary s op e => by
    rw [Expr.rebuild_eq_descend, h.expr]
    simp only [Expr.descend, Expr.nodes, List.tail_cons, List.flatMap_cons,
      e.flatMap_rebuild]
    rfl
  | .update s op b e => by
    rw [Expr.rebuild_eq_descend, h.expr]
    simp only [Expr.descend, Expr.nodes, List.tail_cons, List.flatMap_cons,
      e.flatMap_rebuild]
    rfl
  | .conditional s t c a => by
    rw [Expr.rebuild_eq_descend, h.expr]
    simp only [Expr.descend, Expr.nodes, List.tail_cons, List.flatMap_append, List.flatMap_cons,
      t.flatMap_rebuild, c.flatMap_rebuild, a.flatMap_rebuild]
    rfl
  | .sequence s es => by
    rw [Expr.rebuild_eq_descend, h.expr]
    simp only [Expr.descend, Expr.nodes, List.tail_cons, List.flatMap_cons,
      flatMap_rebuildExprs es]
    rfl
  | .call s c as => by
    rw [Expr.rebuild_eq_descend, h.expr]
    simp only [Expr.descend, Expr.nodes, List.tail_cons, List.flatMap_append, List.flatMap_cons,
      c.flatMap_rebuild, flatMap_rebuildExprs as]
    rfl
  | .construct s c as => by
    rw [Expr.rebuild_eq_descend, h.expr]
    simp only [Expr.descend, Expr.nodes, List.tail_cons, List.flatMap_append, List.flatMap_cons,
      c.flatMap_rebuild, flatMap_rebuildExprs as]
    rfl
  | .member s o p => by
    rw [Expr.rebuild_eq_descend, h.expr]
    simp only [Expr.descend, Expr.nodes, List.tail_cons, List.flatMap_append, List.flatMap_cons,
      o.flatMap_rebuild, h.ident]
    rfl
  | .index s o k => by
    rw [Expr.rebuild_eq_descend, h.expr]
    simp only [Expr.descend, Expr.nodes, List.tail_cons, List.flatMap_append, List.flatMap_cons,
      o.flatMap_rebuild, k.flatMap_rebuild]
    rfl
  | .label s n e => by
    rw [Expr.rebuild_eq_descend, h.expr]
    simp only [Expr.descend, Expr.nodes, List.tail_cons, List.flatMap_cons,
      e.flatMap_rebuild]
    rfl
  | .function fn => by
    rw [Expr.rebuild_eq_descend, h.expr, Expr.nodes, fn.nodes_eq_cons, List.flatMap_cons]
    exact congrArg (M _ ++ ·) fn.flatMap_rebuild

lemma flatMap_rebuildExprs : ∀ es : List (Expr α),
    (nodesOfExprs into (rebuildExprs f g es)).flatMap M' = (nodesOfExprs into es).flatMap M
  | [] => rfl
  | e :: es => by
    simp only [rebuildExprs, nodesOfExprs, List.flatMap_append, e.flatMap_rebuild,
      flatMap_rebuildExprs es]

lemma flatMap_rebuildExpr? : ∀ e : Option (Expr α),
    (nodesOfExpr? into (rebuildExpr? f g e)).flatMap M' = (nodesOfExpr? into e).flatMap M
  | none => rfl
  | some e => e.flatMap_rebuild

lemma flatMap_rebuildElements : ∀ es : List (Option (Expr α)),
    (nodesOfElements into (rebuildElements f g es)).flatMap M' = (nodesOfElements into es).flatMap M
  | [] => rfl
  | e :: es => by
    simp only [rebuildElements, nodesOfElements, List.flatMap_append, flatMap_rebuildExpr? e,
      flatMap_rebuildElements es]

lemma flatMap_rebuildMembers : ∀ ms : List (Member α),
    (nodesOfMembers into (rebuildMembers f g ms)).flatMap M' = (nodesOfMembers into ms).flatMap M
  | [] => rfl
  | .mk k kind v :: ms => by
    simp only [rebuildMembers, nodesOfMembers, List.flatMap_cons, List.flatMap_append, h.member,
      v.flatMap_rebuild, flatMap_rebuildMembers ms]

lemma Function.flatMap_rebuild : ∀ fn : Function α,
    ((fn.rebuild f g).nodes into).tail.flatMap M' = (fn.nodes into).tail.flatMap M
  | .mk s n ps b form src => by
    have hnames :
        (((n.map (Ident.map f)).toList ++ ps.map (Ident.map f)).map Node.ident).flatMap M' =
        ((n.toList ++ ps).map Node.ident).flatMap M := by
      rw [← h.idents, List.map_append (f := Ident.map f), Option.toList_map]
    simp only [Function.rebuild, Function.nodes, List.tail_cons]
    split
    · simp only [List.flatMap_append, hnames, flatMap_rebuildStmts b]
    · rfl

lemma Stmt.flatMap_rebuild : ∀ s : Stmt α,
    ((s.rebuild f g).nodes into).flatMap M' = (s.nodes into).flatMap M
  | .expr e => e.flatMap_rebuild
  | .block b => b.flatMap_rebuild
  | .declare s k ds => by
    have hnode := h.stmt (.declare s k ds)
    rw [Stmt.rebuild] at hnode ⊢
    simp only [Stmt.nodes, List.flatMap_cons, hnode, flatMap_rebuildDeclarators k ds]
  | .branch s t c a => by
    have hnode := h.stmt (.branch s t c a)
    rw [Stmt.rebuild] at hnode ⊢
    simp only [Stmt.nodes, List.flatMap_append, List.flatMap_cons, hnode, t.flatMap_rebuild,
      c.flatMap_rebuild, flatMap_rebuildStmt? a]
  | .choose s d cs => by
    have hnode := h.stmt (.choose s d cs)
    rw [Stmt.rebuild] at hnode ⊢
    simp only [Stmt.nodes, List.flatMap_append, List.flatMap_cons, hnode, d.flatMap_rebuild,
      flatMap_rebuildCases cs]
  | .whileLoop s t b => by
    have hnode := h.stmt (.whileLoop s t b)
    rw [Stmt.rebuild] at hnode ⊢
    simp only [Stmt.nodes, List.flatMap_append, List.flatMap_cons, hnode, t.flatMap_rebuild,
      b.flatMap_rebuild]
  | .doLoop s b t => by
    have hnode := h.stmt (.doLoop s b t)
    rw [Stmt.rebuild] at hnode ⊢
    simp only [Stmt.nodes, List.flatMap_append, List.flatMap_cons, hnode, b.flatMap_rebuild,
      t.flatMap_rebuild]
  | .forLoop s i t u b => by
    have hnode := h.stmt (.forLoop s i t u b)
    rw [Stmt.rebuild] at hnode ⊢
    simp only [Stmt.nodes, List.flatMap_append, List.flatMap_cons, hnode, flatMap_rebuildStmt? i,
      flatMap_rebuildExpr? t, flatMap_rebuildExpr? u, b.flatMap_rebuild]
  | .forIn s t e b => by
    have hnode := h.stmt (.forIn s t e b)
    rw [Stmt.rebuild] at hnode ⊢
    simp only [Stmt.nodes, List.flatMap_append, List.flatMap_cons, hnode, t.flatMap_rebuild,
      e.flatMap_rebuild, b.flatMap_rebuild]
  | .giveBack s v => by
    have hnode := h.stmt (.giveBack s v)
    rw [Stmt.rebuild] at hnode ⊢
    simp only [Stmt.nodes, List.flatMap_cons, hnode, flatMap_rebuildExpr? v]
  | .raise s v => by
    have hnode := h.stmt (.raise s v)
    rw [Stmt.rebuild] at hnode ⊢
    simp only [Stmt.nodes, List.flatMap_cons, hnode, v.flatMap_rebuild]
  | .guarded s b hs fin => by
    have hnode := h.stmt (.guarded s b hs fin)
    rw [Stmt.rebuild] at hnode ⊢
    simp only [Stmt.nodes, List.flatMap_append, List.flatMap_cons, hnode, b.flatMap_rebuild,
      flatMap_rebuildHandlers hs, flatMap_rebuildBlock? fin]
  | .labeled s l b => by
    have hnode := h.stmt (.labeled s l b)
    rw [Stmt.rebuild] at hnode ⊢
    simp only [Stmt.nodes, List.flatMap_cons, hnode, h.ident, b.flatMap_rebuild]
  | .within s o b => by
    have hnode := h.stmt (.within s o b)
    rw [Stmt.rebuild] at hnode ⊢
    simp only [Stmt.nodes, List.flatMap_append, List.flatMap_cons, hnode, o.flatMap_rebuild,
      b.flatMap_rebuild]
  | .function s fn => by
    have hnode := h.stmt (.function s fn)
    rw [Stmt.rebuild] at hnode ⊢
    rw [Stmt.nodes, Stmt.nodes, fn.nodes_eq_cons, (fn.rebuild f g).nodes_eq_cons]
    simp only [List.flatMap_cons, hnode, h.function, fn.flatMap_rebuild]
  | .breakTo s l t => by
    have hnode := h.stmt (.breakTo s l t)
    rw [Stmt.rebuild] at hnode ⊢
    simp only [Stmt.nodes, List.flatMap_cons, hnode, Option.toList_map, h.idents]
  | .continueTo s l t => by
    have hnode := h.stmt (.continueTo s l t)
    rw [Stmt.rebuild] at hnode ⊢
    simp only [Stmt.nodes, List.flatMap_cons, hnode, Option.toList_map, h.idents]
  | .empty s => congrArg (· ++ []) (h.stmt (.empty s))
  | .debugger s => congrArg (· ++ []) (h.stmt (.debugger s))

lemma flatMap_rebuildStmts : ∀ ss : List (Stmt α),
    (nodesOfStmts into (rebuildStmts f g ss)).flatMap M' = (nodesOfStmts into ss).flatMap M
  | [] => rfl
  | s :: ss => by
    simp only [rebuildStmts, nodesOfStmts, List.flatMap_append, s.flatMap_rebuild,
      flatMap_rebuildStmts ss]

lemma flatMap_rebuildStmt? : ∀ s : Option (Stmt α),
    (nodesOfStmt? into (rebuildStmt? f g s)).flatMap M' = (nodesOfStmt? into s).flatMap M
  | none => rfl
  | some s => s.flatMap_rebuild

lemma Block.flatMap_rebuild : ∀ b : Block α,
    ((b.rebuild f g).nodes into).flatMap M' = (b.nodes into).flatMap M
  | .mk s b => by
    have hnode := h.block (.mk s b)
    rw [Block.rebuild] at hnode ⊢
    simp only [Block.nodes, List.flatMap_cons, hnode, flatMap_rebuildStmts b]

lemma flatMap_rebuildBlock? : ∀ b : Option (Block α),
    (nodesOfBlock? into (rebuildBlock? f g b)).flatMap M' = (nodesOfBlock? into b).flatMap M
  | none => rfl
  | some b => b.flatMap_rebuild

lemma flatMap_rebuildDeclarators (kind : VarKind) : ∀ ds : List (Declarator α),
    (nodesOfDeclarators into kind (rebuildDeclarators f g ds)).flatMap M' =
      (nodesOfDeclarators into kind ds).flatMap M
  | [] => rfl
  | .mk s i init :: ds => by
    simp only [rebuildDeclarators, nodesOfDeclarators, List.flatMap_cons, List.flatMap_append,
      h.declarator, h.ident, flatMap_rebuildExpr? init, flatMap_rebuildDeclarators kind ds]

lemma flatMap_rebuildCases : ∀ cs : List (Case α),
    (nodesOfCases into (rebuildCases f g cs)).flatMap M' = (nodesOfCases into cs).flatMap M
  | [] => rfl
  | .mk s t b :: cs => by
    simp only [rebuildCases, nodesOfCases, List.flatMap_cons, List.flatMap_append, h.case,
      flatMap_rebuildExpr? t, flatMap_rebuildStmts b, flatMap_rebuildCases cs]

lemma flatMap_rebuildHandlers : ∀ hs : List (Handler α),
    (nodesOfHandlers into (rebuildHandlers f g hs)).flatMap M' = (nodesOfHandlers into hs).flatMap M
  | [] => rfl
  | .mk s p guard b :: hs => by
    simp only [rebuildHandlers, nodesOfHandlers, List.flatMap_cons, List.flatMap_append, h.handler,
      h.ident, flatMap_rebuildExpr? guard, b.flatMap_rebuild, flatMap_rebuildHandlers hs]

end

end

/-! ## Resolving jumps -/

/-- What a walk collects from a node before and after the jumps in its tree are resolved is the
same. -/
structure Settled (M M' : Node α → List X) : Prop where
  expr : ∀ e e' : Expr α, e.resolve = .ok e' → M' e'.node = M e.node
  ident : ∀ id : Ident α, M' (.ident id) = M (.ident id)
  member : ∀ k kind (v v' : Expr α), v.resolve = .ok v' →
    M' (.member (.mk k kind v')) = M (.member (.mk k kind v))
  stmt : ∀ stack (s s' : Stmt α), s.resolve stack = .ok s' → M' (.stmt s') = M (.stmt s)
  block : ∀ stack (b b' : Block α), b.resolve stack = .ok b' → M' (.block b') = M (.block b)
  declarator : ∀ kind s id (init init' : Option (Expr α)), resolveExpr? init = .ok init' →
    M' (.declarator kind (.mk s id init')) = M (.declarator kind (.mk s id init))
  case : ∀ stack s (t t' : Option (Expr α)) (b b' : List (Stmt α)), resolveExpr? t = .ok t' →
    resolveStmts stack b = .ok b' → M' (.case (.mk s t' b')) = M (.case (.mk s t b))
  handler : ∀ stack s p (t t' : Option (Expr α)) (b b' : Block α), resolveExpr? t = .ok t' →
    b.resolve stack = .ok b' → M' (.handler (.mk s p t' b')) = M (.handler (.mk s p t b))

section

variable {into : Bool} {M M' : Node α → List X} (hM : Settled M M')

include hM

set_option linter.unusedSectionVars false

lemma Settled.idents (ids : List (Ident α)) :
    (ids.map Node.ident).flatMap M' = (ids.map Node.ident).flatMap M := by
  induction ids with
  | nil => rfl
  | cons id ids ih => simp only [List.map_cons, List.flatMap_cons, hM.ident, ih]

mutual

lemma Expr.flatMap_resolve : ∀ (e e' : Expr α), e.resolve = .ok e' →
    (e'.nodes into).flatMap M' = (e.nodes into).flatMap M
  | .ident _, _, h | .number .., _, h | .string .., _, h | .bool .., _, h | .null _, _, h
  | .regexp .., _, h | .this _, _, h => by
    have hnode := hM.expr _ _ h
    cases h
    exact congrArg (· ++ []) hnode
  | .array s es, _, h => by
    have hnode := hM.expr _ _ h
    simp only [Expr.resolve, bind_eq_ok] at h
    obtain ⟨es', hes, ⟨⟩⟩ := h
    simp only [Expr.node] at hnode
    simp only [Expr.nodes, List.flatMap_cons, hnode, flatMap_resolveElements _ _ hes]
  | .object s ms, _, h => by
    have hnode := hM.expr _ _ h
    simp only [Expr.resolve, bind_eq_ok] at h
    obtain ⟨ms', hms, ⟨⟩⟩ := h
    simp only [Expr.node] at hnode
    simp only [Expr.nodes, List.flatMap_cons, hnode, flatMap_resolveMembers _ _ hms]
  | .assign s op t v, _, h => by
    have hnode := hM.expr _ _ h
    simp only [Expr.resolve, bind_eq_ok] at h
    obtain ⟨t', ht, v', hv, ⟨⟩⟩ := h
    simp only [Expr.node] at hnode
    simp only [Expr.nodes, List.flatMap_cons, List.flatMap_append, hnode,
      Expr.flatMap_resolve _ _ ht, Expr.flatMap_resolve _ _ hv]
  | .binary s op l r, _, h => by
    have hnode := hM.expr _ _ h
    simp only [Expr.resolve, bind_eq_ok] at h
    obtain ⟨l', hl, r', hr, ⟨⟩⟩ := h
    simp only [Expr.node] at hnode
    simp only [Expr.nodes, List.flatMap_cons, List.flatMap_append, hnode,
      Expr.flatMap_resolve _ _ hl, Expr.flatMap_resolve _ _ hr]
  | .logical s op l r, _, h => by
    have hnode := hM.expr _ _ h
    simp only [Expr.resolve, bind_eq_ok] at h
    obtain ⟨l', hl, r', hr, ⟨⟩⟩ := h
    simp only [Expr.node] at hnode
    simp only [Expr.nodes, List.flatMap_cons, List.flatMap_append, hnode,
      Expr.flatMap_resolve _ _ hl, Expr.flatMap_resolve _ _ hr]
  | .unary s op e, _, h => by
    have hnode := hM.expr _ _ h
    simp only [Expr.resolve, bind_eq_ok] at h
    obtain ⟨e', he, ⟨⟩⟩ := h
    simp only [Expr.node] at hnode
    simp only [Expr.nodes, List.flatMap_cons, hnode, Expr.flatMap_resolve _ _ he]
  | .update s op b e, _, h => by
    have hnode := hM.expr _ _ h
    simp only [Expr.resolve, bind_eq_ok] at h
    obtain ⟨e', he, ⟨⟩⟩ := h
    simp only [Expr.node] at hnode
    simp only [Expr.nodes, List.flatMap_cons, hnode, Expr.flatMap_resolve _ _ he]
  | .conditional s t c a, _, h => by
    have hnode := hM.expr _ _ h
    simp only [Expr.resolve, bind_eq_ok] at h
    obtain ⟨t', ht, c', hc, a', ha, ⟨⟩⟩ := h
    simp only [Expr.node] at hnode
    simp only [Expr.nodes, List.flatMap_cons, List.flatMap_append, hnode,
      Expr.flatMap_resolve _ _ ht, Expr.flatMap_resolve _ _ hc, Expr.flatMap_resolve _ _ ha]
  | .sequence s es, _, h => by
    have hnode := hM.expr _ _ h
    simp only [Expr.resolve, bind_eq_ok] at h
    obtain ⟨es', hes, ⟨⟩⟩ := h
    simp only [Expr.node] at hnode
    simp only [Expr.nodes, List.flatMap_cons, hnode, flatMap_resolveExprs _ _ hes]
  | .call s c as, _, h => by
    have hnode := hM.expr _ _ h
    simp only [Expr.resolve, bind_eq_ok] at h
    obtain ⟨c', hc, as', has, ⟨⟩⟩ := h
    simp only [Expr.node] at hnode
    simp only [Expr.nodes, List.flatMap_cons, List.flatMap_append, hnode,
      Expr.flatMap_resolve _ _ hc, flatMap_resolveExprs _ _ has]
  | .construct s c as, _, h => by
    have hnode := hM.expr _ _ h
    simp only [Expr.resolve, bind_eq_ok] at h
    obtain ⟨c', hc, as', has, ⟨⟩⟩ := h
    simp only [Expr.node] at hnode
    simp only [Expr.nodes, List.flatMap_cons, List.flatMap_append, hnode,
      Expr.flatMap_resolve _ _ hc, flatMap_resolveExprs _ _ has]
  | .member s o p, _, h => by
    have hnode := hM.expr _ _ h
    simp only [Expr.resolve, bind_eq_ok] at h
    obtain ⟨o', ho, ⟨⟩⟩ := h
    simp only [Expr.node] at hnode
    simp only [Expr.nodes, List.flatMap_cons, List.flatMap_append, List.flatMap_nil,
      hnode, hM.ident, Expr.flatMap_resolve _ _ ho]
  | .index s o k, _, h => by
    have hnode := hM.expr _ _ h
    simp only [Expr.resolve, bind_eq_ok] at h
    obtain ⟨o', ho, k', hk, ⟨⟩⟩ := h
    simp only [Expr.node] at hnode
    simp only [Expr.nodes, List.flatMap_cons, List.flatMap_append, hnode,
      Expr.flatMap_resolve _ _ ho, Expr.flatMap_resolve _ _ hk]
  | .label s n e, _, h => by
    have hnode := hM.expr _ _ h
    simp only [Expr.resolve, bind_eq_ok] at h
    obtain ⟨e', he, ⟨⟩⟩ := h
    simp only [Expr.node] at hnode
    simp only [Expr.nodes, List.flatMap_cons, hnode, Expr.flatMap_resolve _ _ he]
  | .function fn, _, h => by
    have hnode := hM.expr _ _ h
    simp only [Expr.resolve, bind_eq_ok] at h
    obtain ⟨fn', hfn, ⟨⟩⟩ := h
    rw [Expr.nodes, Expr.nodes, fn.nodes_eq_cons, fn'.nodes_eq_cons, List.flatMap_cons,
      List.flatMap_cons, Function.flatMap_resolve _ _ hfn]
    exact congrArg (· ++ _) hnode
termination_by structural x => x

lemma flatMap_resolveExprs : ∀ (es es' : List (Expr α)), resolveExprs es = .ok es' →
    (nodesOfExprs into es').flatMap M' = (nodesOfExprs into es).flatMap M
  | [], _, h => by
    cases h
    rfl
  | e :: es, _, h => by
    simp only [resolveExprs, bind_eq_ok] at h
    obtain ⟨e', he, es', hes, ⟨⟩⟩ := h
    simp only [nodesOfExprs, List.flatMap_append, Expr.flatMap_resolve _ _ he,
      flatMap_resolveExprs _ _ hes]
termination_by structural x => x

lemma flatMap_resolveExpr? : ∀ (e e' : Option (Expr α)), resolveExpr? e = .ok e' →
    (nodesOfExpr? into e').flatMap M' = (nodesOfExpr? into e).flatMap M
  | none, _, h => by
    cases h
    rfl
  | some e, _, h => by
    simp only [resolveExpr?, bind_eq_ok] at h
    obtain ⟨e', he, ⟨⟩⟩ := h
    exact Expr.flatMap_resolve _ _ he
termination_by structural x => x

lemma flatMap_resolveElements : ∀ (es es' : List (Option (Expr α))),
    resolveElements es = .ok es' →
      (nodesOfElements into es').flatMap M' = (nodesOfElements into es).flatMap M
  | [], _, h => by
    cases h
    rfl
  | e :: es, _, h => by
    simp only [resolveElements, bind_eq_ok] at h
    obtain ⟨e', he, es', hes, ⟨⟩⟩ := h
    simp only [nodesOfElements, List.flatMap_append, flatMap_resolveExpr? _ _ he,
      flatMap_resolveElements _ _ hes]
termination_by structural x => x

lemma flatMap_resolveMembers : ∀ (ms ms' : List (Member α)), resolveMembers ms = .ok ms' →
    (nodesOfMembers into ms').flatMap M' = (nodesOfMembers into ms).flatMap M
  | [], _, h => by
    cases h
    rfl
  | .mk k kind v :: ms, _, h => by
    simp only [resolveMembers, bind_eq_ok] at h
    obtain ⟨v', hv, ms', hms, ⟨⟩⟩ := h
    simp only [nodesOfMembers, List.flatMap_cons, List.flatMap_append, hM.member _ _ _ _ hv,
      Expr.flatMap_resolve _ _ hv, flatMap_resolveMembers _ _ hms]
termination_by structural x => x

lemma Function.flatMap_resolve : ∀ (fn fn' : Function α), fn.resolve = .ok fn' →
    (fn'.nodes into).tail.flatMap M' = (fn.nodes into).tail.flatMap M
  | .mk s n ps b form src, _, h => by
    simp only [Function.resolve, bind_eq_ok] at h
    obtain ⟨b', hb, ⟨⟩⟩ := h
    simp only [Function.nodes, List.tail_cons]
    split
    · simp only [List.flatMap_append, hM.idents, flatMap_resolveStmts _ _ _ hb]
    · rfl
termination_by structural x => x

lemma Stmt.flatMap_resolve : ∀ (s : Stmt α) (stack : List Anchor) (s' : Stmt α),
    s.resolve stack = .ok s' → (s'.nodes into).flatMap M' = (s.nodes into).flatMap M
  | .expr e, stack, _, h => by
    simp only [Stmt.resolve, bind_eq_ok] at h
    obtain ⟨e', he, ⟨⟩⟩ := h
    exact Expr.flatMap_resolve _ _ he
  | .block b, stack, _, h => by
    simp only [Stmt.resolve, bind_eq_ok] at h
    obtain ⟨b', hb, ⟨⟩⟩ := h
    exact Block.flatMap_resolve _ _ _ hb
  | .declare s k ds, stack, _, h => by
    have hnode := hM.stmt _ _ _ h
    simp only [Stmt.resolve, bind_eq_ok] at h
    obtain ⟨ds', hds, ⟨⟩⟩ := h
    simp only [Stmt.nodes, List.flatMap_cons, hnode, flatMap_resolveDeclarators k _ _ hds]
  | .branch s t c a, stack, _, h => by
    have hnode := hM.stmt _ _ _ h
    simp only [Stmt.resolve, bind_eq_ok] at h
    obtain ⟨t', ht, c', hc, a', ha, ⟨⟩⟩ := h
    simp only [Stmt.nodes, List.flatMap_cons, List.flatMap_append, hnode,
      Expr.flatMap_resolve _ _ ht, Stmt.flatMap_resolve _ _ _ hc, flatMap_resolveStmt? _ _ _ ha]
  | .choose s d cs, stack, _, h => by
    have hnode := hM.stmt _ _ _ h
    simp only [Stmt.resolve, bind_eq_ok] at h
    obtain ⟨d', hd, cs', hcs, ⟨⟩⟩ := h
    simp only [Stmt.nodes, List.flatMap_cons, List.flatMap_append, hnode,
      Expr.flatMap_resolve _ _ hd, flatMap_resolveCases _ _ _ hcs]
  | .whileLoop s t b, stack, _, h => by
    have hnode := hM.stmt _ _ _ h
    simp only [Stmt.resolve, bind_eq_ok] at h
    obtain ⟨t', ht, b', hb, ⟨⟩⟩ := h
    simp only [Stmt.nodes, List.flatMap_cons, List.flatMap_append, hnode,
      Expr.flatMap_resolve _ _ ht, Stmt.flatMap_resolve _ _ _ hb]
  | .doLoop s b t, stack, _, h => by
    have hnode := hM.stmt _ _ _ h
    simp only [Stmt.resolve, bind_eq_ok] at h
    obtain ⟨b', hb, t', ht, ⟨⟩⟩ := h
    simp only [Stmt.nodes, List.flatMap_cons, List.flatMap_append, hnode,
      Stmt.flatMap_resolve _ _ _ hb, Expr.flatMap_resolve _ _ ht]
  | .forLoop s i t u b, stack, _, h => by
    have hnode := hM.stmt _ _ _ h
    simp only [Stmt.resolve, bind_eq_ok] at h
    obtain ⟨i', hi, t', ht, u', hu, b', hb, ⟨⟩⟩ := h
    simp only [Stmt.nodes, List.flatMap_cons, List.flatMap_append, hnode, flatMap_resolveStmt? _ _ _
      hi, flatMap_resolveExpr? _ _ ht, flatMap_resolveExpr? _ _ hu, Stmt.flatMap_resolve _ _ _ hb]
  | .forIn s t e b, stack, _, h => by
    have hnode := hM.stmt _ _ _ h
    simp only [Stmt.resolve, bind_eq_ok] at h
    obtain ⟨t', ht, e', he, b', hb, ⟨⟩⟩ := h
    simp only [Stmt.nodes, List.flatMap_cons, List.flatMap_append, hnode,
      Stmt.flatMap_resolve _ _ _ ht, Expr.flatMap_resolve _ _ he, Stmt.flatMap_resolve _ _ _ hb]
  | .giveBack s v, stack, _, h => by
    have hnode := hM.stmt _ _ _ h
    simp only [Stmt.resolve, bind_eq_ok] at h
    obtain ⟨v', hv, ⟨⟩⟩ := h
    simp only [Stmt.nodes, List.flatMap_cons, hnode, flatMap_resolveExpr? _ _ hv]
  | .raise s v, stack, _, h => by
    have hnode := hM.stmt _ _ _ h
    simp only [Stmt.resolve, bind_eq_ok] at h
    obtain ⟨v', hv, ⟨⟩⟩ := h
    simp only [Stmt.nodes, List.flatMap_cons, hnode, Expr.flatMap_resolve _ _ hv]
  | .guarded s b hs fin, stack, _, h => by
    have hnode := hM.stmt _ _ _ h
    simp only [Stmt.resolve, bind_eq_ok] at h
    obtain ⟨b', hb, hs', hhs, fin', hfin, ⟨⟩⟩ := h
    simp only [Stmt.nodes, List.flatMap_cons, List.flatMap_append, hnode, Block.flatMap_resolve _ _
      _ hb, flatMap_resolveHandlers _ _ _ hhs, flatMap_resolveBlock? _ _ _ hfin]
  | .within s o b, stack, _, h => by
    have hnode := hM.stmt _ _ _ h
    simp only [Stmt.resolve, bind_eq_ok] at h
    obtain ⟨o', ho, b', hb, ⟨⟩⟩ := h
    simp only [Stmt.nodes, List.flatMap_cons, List.flatMap_append, hnode,
      Expr.flatMap_resolve _ _ ho, Stmt.flatMap_resolve _ _ _ hb]
  | .labeled s l b, stack, _, h => by
    have hnode := hM.stmt _ _ _ h
    rw [Stmt.resolve] at h
    split_ifs at h
    obtain ⟨b', hb, ⟨⟩⟩ := bind_eq_ok.1 h
    simp only [Stmt.nodes, List.flatMap_cons, hnode, hM.ident, Stmt.flatMap_resolve _ _ _ hb]
  | .function s fn, stack, _, h => by
    have hnode := hM.stmt _ _ _ h
    simp only [Stmt.resolve, bind_eq_ok] at h
    obtain ⟨fn', hfn, ⟨⟩⟩ := h
    have hfunction : M' (.expr (.function fn')) = M (.expr (.function fn)) :=
      hM.expr (.function fn) (.function fn') (by simp only [Expr.resolve, hfn]; rfl)
    rw [Stmt.nodes, Stmt.nodes, fn.nodes_eq_cons, fn'.nodes_eq_cons]
    simp only [List.flatMap_cons, hnode, hfunction, Function.flatMap_resolve _ _ hfn]
  | .breakTo s l t, stack, _, h | .continueTo s l t, stack, _, h => by
    have hnode := hM.stmt _ _ _ h
    simp only [Stmt.resolve, bind_eq_ok] at h
    obtain ⟨t', -, ⟨⟩⟩ := h
    simp only [Stmt.nodes, List.flatMap_cons, hnode, hM.idents]
  | .empty s, stack, _, h | .debugger s, stack, _, h => by
    have hnode := hM.stmt _ _ _ h
    cases h
    exact congrArg (· ++ []) hnode
termination_by structural x => x

lemma flatMap_resolveStmts : ∀ (ss : List (Stmt α)) (stack : List Anchor) (ss' : List (Stmt α)),
    resolveStmts stack ss = .ok ss' →
      (nodesOfStmts into ss').flatMap M' = (nodesOfStmts into ss).flatMap M
  | [], _, _, h => by
    cases h
    rfl
  | s :: ss, stack, _, h => by
    simp only [resolveStmts, bind_eq_ok] at h
    obtain ⟨s', hs, ss', hss, ⟨⟩⟩ := h
    simp only [nodesOfStmts, List.flatMap_append, Stmt.flatMap_resolve _ _ _ hs,
      flatMap_resolveStmts _ _ _ hss]
termination_by structural x => x

lemma flatMap_resolveStmt? : ∀ (s : Option (Stmt α)) (stack : List Anchor) (s' : Option (Stmt α)),
    resolveStmt? stack s = .ok s' →
      (nodesOfStmt? into s').flatMap M' = (nodesOfStmt? into s).flatMap M
  | none, _, _, h => by
    cases h
    rfl
  | some s, stack, _, h => by
    simp only [resolveStmt?, bind_eq_ok] at h
    obtain ⟨s', hs, ⟨⟩⟩ := h
    exact Stmt.flatMap_resolve _ _ _ hs
termination_by structural x => x

lemma Block.flatMap_resolve : ∀ (b : Block α) (stack : List Anchor) (b' : Block α),
    b.resolve stack = .ok b' → (b'.nodes into).flatMap M' = (b.nodes into).flatMap M
  | .mk s b, stack, _, h => by
    have hnode := hM.block _ _ _ h
    simp only [Block.resolve, bind_eq_ok] at h
    obtain ⟨b', hb, ⟨⟩⟩ := h
    simp only [Block.nodes, List.flatMap_cons, hnode, flatMap_resolveStmts _ _ _ hb]
termination_by structural x => x

lemma flatMap_resolveBlock? : ∀ (b : Option (Block α)) (stack : List Anchor)
    (b' : Option (Block α)), resolveBlock? stack b = .ok b' →
      (nodesOfBlock? into b').flatMap M' = (nodesOfBlock? into b).flatMap M
  | none, _, _, h => by
    cases h
    rfl
  | some b, stack, _, h => by
    simp only [resolveBlock?, bind_eq_ok] at h
    obtain ⟨b', hb, ⟨⟩⟩ := h
    exact Block.flatMap_resolve _ _ _ hb
termination_by structural x => x

lemma flatMap_resolveDeclarators (kind : VarKind) : ∀ (ds ds' : List (Declarator α)),
    resolveDeclarators ds = .ok ds' →
      (nodesOfDeclarators into kind ds').flatMap M' = (nodesOfDeclarators into kind ds).flatMap M
  | [], _, h => by
    cases h
    rfl
  | .mk s i init :: ds, _, h => by
    simp only [resolveDeclarators, bind_eq_ok] at h
    obtain ⟨init', hi, ds', hds, ⟨⟩⟩ := h
    simp only [nodesOfDeclarators, List.flatMap_cons, List.flatMap_append,
      hM.declarator _ _ _ _ _ hi, hM.ident, flatMap_resolveExpr? _ _ hi,
      flatMap_resolveDeclarators kind _ _ hds]
termination_by structural x => x

lemma flatMap_resolveCases : ∀ (cs : List (Case α)) (stack : List Anchor) (cs' : List (Case α)),
    resolveCases stack cs = .ok cs' →
      (nodesOfCases into cs').flatMap M' = (nodesOfCases into cs).flatMap M
  | [], _, _, h => by
    cases h
    rfl
  | .mk s t b :: cs, stack, _, h => by
    simp only [resolveCases, bind_eq_ok] at h
    obtain ⟨t', ht, b', hb, cs', hcs, ⟨⟩⟩ := h
    simp only [nodesOfCases, List.flatMap_cons, List.flatMap_append,
      hM.case _ _ _ _ _ _ ht hb, flatMap_resolveExpr? _ _ ht, flatMap_resolveStmts _ _ _ hb,
      flatMap_resolveCases _ _ _ hcs]
termination_by structural x => x

lemma flatMap_resolveHandlers : ∀ (hs : List (Handler α)) (stack : List Anchor)
    (hs' : List (Handler α)), resolveHandlers stack hs = .ok hs' →
      (nodesOfHandlers into hs').flatMap M' = (nodesOfHandlers into hs).flatMap M
  | [], _, _, h => by
    cases h
    rfl
  | .mk s p guard b :: hs, stack, _, h => by
    simp only [resolveHandlers, bind_eq_ok] at h
    obtain ⟨guard', hguard, b', hb, hs', hhs, ⟨⟩⟩ := h
    simp only [nodesOfHandlers, List.flatMap_cons, List.flatMap_append,
      hM.handler _ _ _ _ _ _ _ hguard hb, hM.ident, flatMap_resolveExpr? _ _ hguard,
      Block.flatMap_resolve _ _ _ hb, flatMap_resolveHandlers _ _ _ hhs]
termination_by structural x => x

end

end

/-! ## Replacing expressions in two ways -/

section

variable {f : α → β} {g g' : Expr β → Expr β} {allowed : Node α → Prop}
  (h : ∀ e : Expr α, allowed e.node → g (e.descend f g') = g' (e.descend f g'))

include h

set_option linter.unusedSectionVars false

mutual

/-- A tree is rebuilt as the same if the expressions in it are replaced by the same. -/
lemma Expr.rebuild_congr : ∀ e : Expr α, (∀ node ∈ e.nodes true, allowed node) →
    e.rebuild f g = e.rebuild f g'
  | .ident i, hall => h (.ident i) (hall _ (Expr.node_mem_nodes true _))
  | .number s v, hall => h (.number s v) (hall _ (Expr.node_mem_nodes true _))
  | .string s v, hall => h (.string s v) (hall _ (Expr.node_mem_nodes true _))
  | .bool s v, hall => h (.bool s v) (hall _ (Expr.node_mem_nodes true _))
  | .null s, hall => h (.null s) (hall _ (Expr.node_mem_nodes true _))
  | .regexp s p fl, hall => h (.regexp s p fl) (hall _ (Expr.node_mem_nodes true _))
  | .this s, hall => h (.this s) (hall _ (Expr.node_mem_nodes true _))
  | .array s es, hall => by
    simp only [Expr.nodes, List.forall_mem_cons] at hall
    obtain ⟨hnode, hes⟩ := hall
    rw [Expr.rebuild, rebuildElements_congr es hes]
    exact h (.array s es) hnode
  | .object s ms, hall => by
    simp only [Expr.nodes, List.forall_mem_cons] at hall
    obtain ⟨hnode, hms⟩ := hall
    rw [Expr.rebuild, rebuildMembers_congr ms hms]
    exact h (.object s ms) hnode
  | .assign s op t v, hall => by
    simp only [Expr.nodes, List.forall_mem_cons, List.forall_mem_append] at hall
    obtain ⟨hnode, ht, hv⟩ := hall
    rw [Expr.rebuild, t.rebuild_congr ht, v.rebuild_congr hv]
    exact h (.assign s op t v) hnode
  | .binary s op l r, hall => by
    simp only [Expr.nodes, List.forall_mem_cons, List.forall_mem_append] at hall
    obtain ⟨hnode, hl, hr⟩ := hall
    rw [Expr.rebuild, l.rebuild_congr hl, r.rebuild_congr hr]
    exact h (.binary s op l r) hnode
  | .logical s op l r, hall => by
    simp only [Expr.nodes, List.forall_mem_cons, List.forall_mem_append] at hall
    obtain ⟨hnode, hl, hr⟩ := hall
    rw [Expr.rebuild, l.rebuild_congr hl, r.rebuild_congr hr]
    exact h (.logical s op l r) hnode
  | .unary s op e, hall => by
    simp only [Expr.nodes, List.forall_mem_cons] at hall
    obtain ⟨hnode, he⟩ := hall
    rw [Expr.rebuild, e.rebuild_congr he]
    exact h (.unary s op e) hnode
  | .update s op b e, hall => by
    simp only [Expr.nodes, List.forall_mem_cons] at hall
    obtain ⟨hnode, he⟩ := hall
    rw [Expr.rebuild, e.rebuild_congr he]
    exact h (.update s op b e) hnode
  | .sequence s es, hall => by
    simp only [Expr.nodes, List.forall_mem_cons] at hall
    obtain ⟨hnode, hes⟩ := hall
    rw [Expr.rebuild, rebuildExprs_congr es hes]
    exact h (.sequence s es) hnode
  | .call s c as, hall => by
    simp only [Expr.nodes, List.forall_mem_cons, List.forall_mem_append] at hall
    obtain ⟨hnode, hc, has⟩ := hall
    rw [Expr.rebuild, c.rebuild_congr hc, rebuildExprs_congr as has]
    exact h (.call s c as) hnode
  | .construct s c as, hall => by
    simp only [Expr.nodes, List.forall_mem_cons, List.forall_mem_append] at hall
    obtain ⟨hnode, hc, has⟩ := hall
    rw [Expr.rebuild, c.rebuild_congr hc, rebuildExprs_congr as has]
    exact h (.construct s c as) hnode
  | .index s o k, hall => by
    simp only [Expr.nodes, List.forall_mem_cons, List.forall_mem_append] at hall
    obtain ⟨hnode, ho, hk⟩ := hall
    rw [Expr.rebuild, o.rebuild_congr ho, k.rebuild_congr hk]
    exact h (.index s o k) hnode
  | .label s n e, hall => by
    simp only [Expr.nodes, List.forall_mem_cons] at hall
    obtain ⟨hnode, he⟩ := hall
    rw [Expr.rebuild, e.rebuild_congr he]
    exact h (.label s n e) hnode
  | .conditional s t c a, hall => by
    simp only [Expr.nodes, List.forall_mem_cons, List.forall_mem_append] at hall
    obtain ⟨hnode, ⟨ht, hc⟩, ha⟩ := hall
    rw [Expr.rebuild, t.rebuild_congr ht, c.rebuild_congr hc, a.rebuild_congr ha]
    exact h (.conditional s t c a) hnode
  | .member s o p, hall => by
    simp only [Expr.nodes, List.forall_mem_cons, List.forall_mem_append] at hall
    obtain ⟨hnode, ho, -⟩ := hall
    rw [Expr.rebuild, o.rebuild_congr ho]
    exact h (.member s o p) hnode
  | .function fn, hall => by
    rw [Expr.rebuild, fn.rebuild_congr hall]
    exact h (.function fn) (hall _ (Expr.node_mem_nodes true _))
termination_by structural x => x

lemma rebuildExprs_congr : ∀ es : List (Expr α), (∀ node ∈ nodesOfExprs true es, allowed node) →
    rebuildExprs f g es = rebuildExprs f g' es
  | [], _ => rfl
  | e :: es, hall => by
    obtain ⟨he, hes⟩ := List.forall_mem_append.1 hall
    rw [rebuildExprs, rebuildExprs, e.rebuild_congr he, rebuildExprs_congr es hes]
termination_by structural x => x

lemma rebuildExpr?_congr : ∀ e : Option (Expr α),
    (∀ node ∈ nodesOfExpr? true e, allowed node) → rebuildExpr? f g e = rebuildExpr? f g' e
  | none, _ => rfl
  | some e, hall => congrArg some (e.rebuild_congr hall)
termination_by structural x => x

lemma rebuildElements_congr : ∀ es : List (Option (Expr α)),
    (∀ node ∈ nodesOfElements true es, allowed node) →
      rebuildElements f g es = rebuildElements f g' es
  | [], _ => rfl
  | e :: es, hall => by
    obtain ⟨he, hes⟩ := List.forall_mem_append.1 hall
    rw [rebuildElements, rebuildElements, rebuildExpr?_congr e he, rebuildElements_congr es hes]
termination_by structural x => x

lemma rebuildMembers_congr : ∀ ms : List (Member α),
    (∀ node ∈ nodesOfMembers true ms, allowed node) →
      rebuildMembers f g ms = rebuildMembers f g' ms
  | [], _ => rfl
  | .mk k kind v :: ms, hall => by
    simp only [nodesOfMembers, List.forall_mem_cons, List.forall_mem_append] at hall
    obtain ⟨-, hv, hms⟩ := hall
    rw [rebuildMembers, rebuildMembers, v.rebuild_congr hv, rebuildMembers_congr ms hms]
termination_by structural x => x

lemma Function.rebuild_congr : ∀ fn : Function α, (∀ node ∈ fn.nodes true, allowed node) →
    fn.rebuild f g = fn.rebuild f g'
  | .mk s n ps b form src, hall => by
    have hb := (List.forall_mem_append.1 (List.forall_mem_cons.1 hall).2).2
    rw [Function.rebuild, Function.rebuild, rebuildStmts_congr b hb]
termination_by structural x => x

lemma Stmt.rebuild_congr : ∀ s : Stmt α, (∀ node ∈ s.nodes true, allowed node) →
    s.rebuild f g = s.rebuild f g'
  | .expr e, hall => congrArg Stmt.expr (e.rebuild_congr hall)
  | .block b, hall => congrArg Stmt.block (b.rebuild_congr hall)
  | .declare s k ds, hall => by
    rw [Stmt.rebuild, Stmt.rebuild, rebuildDeclarators_congr ds k (List.forall_mem_cons.1 hall).2]
  | .function s fn, hall => by
    rw [Stmt.rebuild, Stmt.rebuild, fn.rebuild_congr (List.forall_mem_cons.1 hall).2]
  | .choose s d cs, hall => by
    simp only [Stmt.nodes, List.forall_mem_cons, List.forall_mem_append] at hall
    obtain ⟨-, hd, hcs⟩ := hall
    rw [Stmt.rebuild, Stmt.rebuild, d.rebuild_congr hd, rebuildCases_congr cs hcs]
  | .whileLoop s t b, hall => by
    simp only [Stmt.nodes, List.forall_mem_cons, List.forall_mem_append] at hall
    obtain ⟨-, ht, hb⟩ := hall
    rw [Stmt.rebuild, Stmt.rebuild, t.rebuild_congr ht, b.rebuild_congr hb]
  | .doLoop s b t, hall => by
    simp only [Stmt.nodes, List.forall_mem_cons, List.forall_mem_append] at hall
    obtain ⟨-, hb, ht⟩ := hall
    rw [Stmt.rebuild, Stmt.rebuild, b.rebuild_congr hb, t.rebuild_congr ht]
  | .giveBack s v, hall => by
    simp only [Stmt.nodes, List.forall_mem_cons] at hall
    obtain ⟨-, hv⟩ := hall
    rw [Stmt.rebuild, Stmt.rebuild, rebuildExpr?_congr v hv]
  | .raise s v, hall => by
    simp only [Stmt.nodes, List.forall_mem_cons] at hall
    obtain ⟨-, hv⟩ := hall
    rw [Stmt.rebuild, Stmt.rebuild, v.rebuild_congr hv]
  | .within s o b, hall => by
    simp only [Stmt.nodes, List.forall_mem_cons, List.forall_mem_append] at hall
    obtain ⟨-, ho, hb⟩ := hall
    rw [Stmt.rebuild, Stmt.rebuild, o.rebuild_congr ho, b.rebuild_congr hb]
  | .branch s t c a, hall => by
    simp only [Stmt.nodes, List.forall_mem_cons, List.forall_mem_append] at hall
    obtain ⟨-, ⟨ht, hc⟩, ha⟩ := hall
    rw [Stmt.rebuild, Stmt.rebuild, t.rebuild_congr ht, c.rebuild_congr hc, rebuildStmt?_congr a ha]
  | .forLoop s i t u b, hall => by
    simp only [Stmt.nodes, List.forall_mem_cons, List.forall_mem_append] at hall
    obtain ⟨-, ⟨⟨hi, ht⟩, hu⟩, hb⟩ := hall
    rw [Stmt.rebuild, Stmt.rebuild, rebuildStmt?_congr i hi, rebuildExpr?_congr t ht,
      rebuildExpr?_congr u hu, b.rebuild_congr hb]
  | .forIn s t e b, hall => by
    simp only [Stmt.nodes, List.forall_mem_cons, List.forall_mem_append] at hall
    obtain ⟨-, ⟨ht, he⟩, hb⟩ := hall
    rw [Stmt.rebuild, Stmt.rebuild, t.rebuild_congr ht, e.rebuild_congr he, b.rebuild_congr hb]
  | .guarded s b hs fin, hall => by
    simp only [Stmt.nodes, List.forall_mem_cons, List.forall_mem_append] at hall
    obtain ⟨-, ⟨hb, hhs⟩, hfin⟩ := hall
    rw [Stmt.rebuild, Stmt.rebuild, b.rebuild_congr hb, rebuildHandlers_congr hs hhs,
      rebuildBlock?_congr fin hfin]
  | .labeled s l b, hall => by
    simp only [Stmt.nodes, List.forall_mem_cons] at hall
    obtain ⟨-, -, hb⟩ := hall
    rw [Stmt.rebuild, Stmt.rebuild, b.rebuild_congr hb]
  | .breakTo .., _ | .continueTo .., _ | .empty _, _ | .debugger _, _ => rfl
termination_by structural x => x

lemma rebuildStmts_congr : ∀ ss : List (Stmt α), (∀ node ∈ nodesOfStmts true ss, allowed node) →
    rebuildStmts f g ss = rebuildStmts f g' ss
  | [], _ => rfl
  | s :: ss, hall => by
    obtain ⟨hs, hss⟩ := List.forall_mem_append.1 hall
    rw [rebuildStmts, rebuildStmts, s.rebuild_congr hs, rebuildStmts_congr ss hss]
termination_by structural x => x

lemma rebuildStmt?_congr : ∀ s : Option (Stmt α),
    (∀ node ∈ nodesOfStmt? true s, allowed node) → rebuildStmt? f g s = rebuildStmt? f g' s
  | none, _ => rfl
  | some s, hall => congrArg some (s.rebuild_congr hall)
termination_by structural x => x

lemma Block.rebuild_congr : ∀ b : Block α, (∀ node ∈ b.nodes true, allowed node) →
    b.rebuild f g = b.rebuild f g'
  | .mk s b, hall => by
    rw [Block.rebuild, Block.rebuild, rebuildStmts_congr b (List.forall_mem_cons.1 hall).2]
termination_by structural x => x

lemma rebuildBlock?_congr : ∀ b : Option (Block α),
    (∀ node ∈ nodesOfBlock? true b, allowed node) → rebuildBlock? f g b = rebuildBlock? f g' b
  | none, _ => rfl
  | some b, hall => congrArg some (b.rebuild_congr hall)
termination_by structural x => x

lemma rebuildDeclarators_congr : ∀ (ds : List (Declarator α)) (kind : VarKind),
    (∀ node ∈ nodesOfDeclarators true kind ds, allowed node) →
      rebuildDeclarators f g ds = rebuildDeclarators f g' ds
  | [], _, _ => rfl
  | .mk s i init :: ds, kind, hall => by
    simp only [nodesOfDeclarators, List.forall_mem_cons, List.forall_mem_append] at hall
    obtain ⟨-, -, hi, hds⟩ := hall
    rw [rebuildDeclarators, rebuildDeclarators, rebuildExpr?_congr init hi,
      rebuildDeclarators_congr ds kind hds]
termination_by structural x => x

lemma rebuildCases_congr : ∀ cs : List (Case α), (∀ node ∈ nodesOfCases true cs, allowed node) →
    rebuildCases f g cs = rebuildCases f g' cs
  | [], _ => rfl
  | .mk s t b :: cs, hall => by
    simp only [nodesOfCases, List.forall_mem_cons, List.forall_mem_append] at hall
    obtain ⟨-, ⟨ht, hb⟩, hcs⟩ := hall
    rw [rebuildCases, rebuildCases, rebuildExpr?_congr t ht, rebuildStmts_congr b hb,
      rebuildCases_congr cs hcs]
termination_by structural x => x

lemma rebuildHandlers_congr : ∀ hs : List (Handler α),
    (∀ node ∈ nodesOfHandlers true hs, allowed node) →
      rebuildHandlers f g hs = rebuildHandlers f g' hs
  | [], _ => rfl
  | .mk s p guard b :: hs, hall => by
    simp only [nodesOfHandlers, List.forall_mem_cons, List.forall_mem_append] at hall
    obtain ⟨-, -, ⟨hguard, hb⟩, hhs⟩ := hall
    rw [rebuildHandlers, rebuildHandlers, rebuildExpr?_congr guard hguard, b.rebuild_congr hb,
      rebuildHandlers_congr hs hhs]
termination_by structural x => x

end

end

end Clearance.Script
