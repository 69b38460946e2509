/-
# Jumps without targets

What a tree is without the targets of its jumps (`Program.unresolved`). Resolving gives jumps their
targets and leaves everything else alone.
-/
import Clearance.Proofs.Grammar
import Clearance.Script.Jumps

namespace Clearance.Script

variable {α : Type}

/-! ## Jumps without targets -/

mutual

/-- An expression in whose functions no jump has a target. -/
def Expr.unresolved : Expr α → Expr α
  | .array s es => .array s (unresolvedElements es)
  | .object s ms => .object s (unresolvedMembers ms)
  | .function f => .function f.unresolved
  | .assign s op t v => .assign s op t.unresolved v.unresolved
  | .binary s op l r => .binary s op l.unresolved r.unresolved
  | .logical s op l r => .logical s op l.unresolved r.unresolved
  | .unary s op e => .unary s op e.unresolved
  | .update s op b e => .update s op b e.unresolved
  | .conditional s t c a => .conditional s t.unresolved c.unresolved a.unresolved
  | .sequence s es => .sequence s (unresolvedExprs es)
  | .call s c as => .call s c.unresolved (unresolvedExprs as)
  | .construct s c as => .construct s c.unresolved (unresolvedExprs as)
  | .member s o p => .member s o.unresolved p
  | .index s o k => .index s o.unresolved k.unresolved
  | .label s n e => .label s n e.unresolved
  | e => e

/-- `Expr.unresolved` on a list. -/
def unresolvedExprs : List (Expr α) → List (Expr α)
  | [] => []
  | e :: es => e.unresolved :: unresolvedExprs es

/-- `Expr.unresolved` on an optional expression. -/
def unresolvedExpr? : Option (Expr α) → Option (Expr α)
  | none => none
  | some e => some e.unresolved

/-- `Expr.unresolved` on the elements of an array literal. -/
def unresolvedElements : List (Option (Expr α)) → List (Option (Expr α))
  | [] => []
  | e :: es => unresolvedExpr? e :: unresolvedElements es

/-- `Expr.unresolved` on the members of an object literal. -/
def unresolvedMembers : List (Member α) → List (Member α)
  | [] => []
  | .mk k kind v :: ms => .mk k kind v.unresolved :: unresolvedMembers ms

/-- A function in which no jump has a target. -/
def Function.unresolved : Function α → Function α
  | .mk s n ps b form src => .mk s n ps (unresolvedStmts b) form src

/-- A statement in which no jump has a target. -/
def Stmt.unresolved : Stmt α → Stmt α
  | .expr e => .expr e.unresolved
  | .block b => .block b.unresolved
  | .declare s k ds => .declare s k (unresolvedDeclarators ds)
  | .function s f => .function s f.unresolved
  | .branch s t c a => .branch s t.unresolved c.unresolved (unresolvedStmt? a)
  | .choose s d cs => .choose s d.unresolved (unresolvedCases cs)
  | .whileLoop s t b => .whileLoop s t.unresolved b.unresolved
  | .doLoop s b t => .doLoop s b.unresolved t.unresolved
  | .forLoop s i t u b =>
    .forLoop s (unresolvedStmt? i) (unresolvedExpr? t) (unresolvedExpr? u) b.unresolved
  | .forIn s t e b => .forIn s t.unresolved e.unresolved b.unresolved
  | .breakTo s l _ => .breakTo s l none
  | .continueTo s l _ => .continueTo s l none
  | .giveBack s v => .giveBack s (unresolvedExpr? v)
  | .raise s v => .raise s v.unresolved
  | .guarded s b hs f => .guarded s b.unresolved (unresolvedHandlers hs) (unresolvedBlock? f)
  | .labeled s l b => .labeled s l b.unresolved
  | .within s o b => .within s o.unresolved b.unresolved
  | .empty s => .empty s
  | .debugger s => .debugger s

/-- `Stmt.unresolved` on a list. -/
def unresolvedStmts : List (Stmt α) → List (Stmt α)
  | [] => []
  | s :: ss => s.unresolved :: unresolvedStmts ss

/-- `Stmt.unresolved` on an optional statement. -/
def unresolvedStmt? : Option (Stmt α) → Option (Stmt α)
  | none => none
  | some s => some s.unresolved

/-- A block in which no jump has a target. -/
def Block.unresolved : Block α → Block α
  | .mk s b => .mk s (unresolvedStmts b)

/-- `Block.unresolved` on an optional block. -/
def unresolvedBlock? : Option (Block α) → Option (Block α)
  | none => none
  | some b => some b.unresolved

/-- `Stmt.unresolved` on declared variables. -/
def unresolvedDeclarators : List (Declarator α) → List (Declarator α)
  | [] => []
  | .mk s id init :: ds => .mk s id (unresolvedExpr? init) :: unresolvedDeclarators ds

/-- `Stmt.unresolved` on the cases of a switch. -/
def unresolvedCases : List (Case α) → List (Case α)
  | [] => []
  | .mk s t b :: cs => .mk s (unresolvedExpr? t) (unresolvedStmts b) :: unresolvedCases cs

/-- `Stmt.unresolved` on catch clauses. -/
def unresolvedHandlers : List (Handler α) → List (Handler α)
  | [] => []
  | .mk s p g b :: hs => .mk s p (unresolvedExpr? g) b.unresolved :: unresolvedHandlers hs

end

/-- A script without targets. -/
def Program.unresolved (p : Program α) : Program α := { p with body := unresolvedStmts p.body }

/-! ## What resolving leaves alone -/

mutual

lemma Expr.unresolved_resolve : ∀ e e' : Expr α, e.resolve = .ok e' → e'.unresolved = e.unresolved
  | .ident _, _, h | .number .., _, h | .string .., _, h | .bool .., _, h | .null _, _, h
  | .regexp .., _, h | .this _, _, h => by
    cases h
    rfl
  | .array s es, _, h => by
    obtain ⟨es', hes, ⟨⟩⟩ := bind_eq_ok.1 h
    exact congrArg (Expr.array s) (unresolved_resolveElements es es' hes)
  | .object s ms, _, h => by
    obtain ⟨ms', hms, ⟨⟩⟩ := bind_eq_ok.1 h
    exact congrArg (Expr.object s) (unresolved_resolveMembers ms ms' hms)
  | .function fn, _, h => by
    obtain ⟨fn', hfn, ⟨⟩⟩ := bind_eq_ok.1 h
    exact congrArg Expr.function (fn.unresolved_resolve fn' hfn)
  | .assign s op l r, _, h | .binary s op l r, _, h | .logical s op l r, _, h
  | .index s l r, _, h => by
    obtain ⟨l', hl, h⟩ := bind_eq_ok.1 h
    obtain ⟨r', hr, ⟨⟩⟩ := bind_eq_ok.1 h
    exact congrArg₂ _ (l.unresolved_resolve l' hl) (r.unresolved_resolve r' hr)
  | .unary s op e, _, h => by
    obtain ⟨e', he, ⟨⟩⟩ := bind_eq_ok.1 h
    exact congrArg (Expr.unary s op) (e.unresolved_resolve e' he)
  | .update s op b e, _, h => by
    obtain ⟨e', he, ⟨⟩⟩ := bind_eq_ok.1 h
    exact congrArg (Expr.update s op b) (e.unresolved_resolve e' he)
  | .member s e p, _, h => by
    obtain ⟨e', he, ⟨⟩⟩ := bind_eq_ok.1 h
    exact congrArg (Expr.member s · p) (e.unresolved_resolve e' he)
  | .label s n e, _, h => by
    obtain ⟨e', he, ⟨⟩⟩ := bind_eq_ok.1 h
    exact congrArg (Expr.label s n) (e.unresolved_resolve e' he)
  | .conditional s t c a, _, h => by
    obtain ⟨t', ht, h⟩ := bind_eq_ok.1 h
    obtain ⟨c', hc, h⟩ := bind_eq_ok.1 h
    obtain ⟨a', ha, ⟨⟩⟩ := bind_eq_ok.1 h
    exact (congr (congrArg₂ (Expr.conditional s) (t.unresolved_resolve t' ht)
      (c.unresolved_resolve c' hc)) (a.unresolved_resolve a' ha) :)
  | .sequence s es, _, h => by
    obtain ⟨es', hes, ⟨⟩⟩ := bind_eq_ok.1 h
    exact congrArg (Expr.sequence s) (unresolved_resolveExprs es es' hes)
  | .call s c as, _, h | .construct s c as, _, h => by
    obtain ⟨c', hc, h⟩ := bind_eq_ok.1 h
    obtain ⟨as', has, ⟨⟩⟩ := bind_eq_ok.1 h
    exact congrArg₂ _ (c.unresolved_resolve c' hc) (unresolved_resolveExprs as as' has)
termination_by structural x => x

lemma unresolved_resolveExprs : ∀ es es' : List (Expr α), resolveExprs es = .ok es' →
    unresolvedExprs es' = unresolvedExprs es
  | [], _, h => by
    cases h
    rfl
  | e :: es, _, h => by
    obtain ⟨e', he, h⟩ := bind_eq_ok.1 h
    obtain ⟨es', hes, ⟨⟩⟩ := bind_eq_ok.1 h
    exact congrArg₂ _ (e.unresolved_resolve e' he) (unresolved_resolveExprs es es' hes)
termination_by structural x => x

lemma unresolved_resolveExpr? : ∀ e e' : Option (Expr α), resolveExpr? e = .ok e' →
    unresolvedExpr? e' = unresolvedExpr? e
  | none, _, h => by
    cases h
    rfl
  | some e, _, h => by
    obtain ⟨e', he, ⟨⟩⟩ := bind_eq_ok.1 h
    exact congrArg some (e.unresolved_resolve e' he)
termination_by structural x => x

lemma unresolved_resolveElements : ∀ es es' : List (Option (Expr α)), resolveElements es = .ok es' →
    unresolvedElements es' = unresolvedElements es
  | [], _, h => by
    cases h
    rfl
  | e :: es, _, h => by
    obtain ⟨e', he, h⟩ := bind_eq_ok.1 h
    obtain ⟨es', hes, ⟨⟩⟩ := bind_eq_ok.1 h
    exact congrArg₂ _ (unresolved_resolveExpr? e e' he) (unresolved_resolveElements es es' hes)
termination_by structural x => x

lemma unresolved_resolveMembers : ∀ ms ms' : List (Member α), resolveMembers ms = .ok ms' →
    unresolvedMembers ms' = unresolvedMembers ms
  | [], _, h => by
    cases h
    rfl
  | .mk k kind v :: ms, _, h => by
    obtain ⟨v', hv, h⟩ := bind_eq_ok.1 h
    obtain ⟨ms', hms, ⟨⟩⟩ := bind_eq_ok.1 h
    exact congrArg₂ (fun v ms => Member.mk k kind v :: ms) (v.unresolved_resolve v' hv)
      (unresolved_resolveMembers ms ms' hms)
termination_by structural x => x

lemma Function.unresolved_resolve : ∀ fn fn' : Function α, fn.resolve = .ok fn' →
    fn'.unresolved = fn.unresolved
  | .mk s n ps b form source, _, h => by
    obtain ⟨b', hb, ⟨⟩⟩ := bind_eq_ok.1 h
    exact congrArg (Function.mk s n ps · form source) (unresolved_resolveStmts b b' [] hb)
termination_by structural x => x

lemma Stmt.unresolved_resolve : ∀ (s s' : Stmt α) (stack : List Anchor), s.resolve stack = .ok s' →
    s'.unresolved = s.unresolved
  | .expr e, _, _, h => by
    obtain ⟨e', he, ⟨⟩⟩ := bind_eq_ok.1 h
    exact congrArg Stmt.expr (e.unresolved_resolve e' he)
  | .block b, _, stack, h => by
    obtain ⟨b', hb, ⟨⟩⟩ := bind_eq_ok.1 h
    exact congrArg Stmt.block (b.unresolved_resolve b' stack hb)
  | .declare s kind ds, _, _, h => by
    obtain ⟨ds', hds, ⟨⟩⟩ := bind_eq_ok.1 h
    exact congrArg (Stmt.declare s kind) (unresolved_resolveDeclarators ds ds' hds)
  | .function s fn, _, _, h => by
    obtain ⟨fn', hfn, ⟨⟩⟩ := bind_eq_ok.1 h
    exact congrArg (Stmt.function s) (fn.unresolved_resolve fn' hfn)
  | .branch s t c a, _, stack, h => by
    obtain ⟨t', ht, h⟩ := bind_eq_ok.1 h
    obtain ⟨c', hc, h⟩ := bind_eq_ok.1 h
    obtain ⟨a', ha, ⟨⟩⟩ := bind_eq_ok.1 h
    exact (congr (congrArg₂ (Stmt.branch s) (t.unresolved_resolve t' ht)
      (c.unresolved_resolve c' stack hc)) (unresolved_resolveStmt? a a' stack ha) :)
  | .choose s d cs, _, stack, h => by
    obtain ⟨d', hd, h⟩ := bind_eq_ok.1 h
    obtain ⟨cs', hcs, ⟨⟩⟩ := bind_eq_ok.1 h
    exact congrArg₂ (Stmt.choose s) (d.unresolved_resolve d' hd)
      (unresolved_resolveCases cs cs' _ hcs)
  | .whileLoop s t b, _, stack, h => by
    obtain ⟨t', ht, h⟩ := bind_eq_ok.1 h
    obtain ⟨b', hb, ⟨⟩⟩ := bind_eq_ok.1 h
    exact congrArg₂ (Stmt.whileLoop s) (t.unresolved_resolve t' ht) (b.unresolved_resolve b' _ hb)
  | .doLoop s b t, _, stack, h => by
    obtain ⟨b', hb, h⟩ := bind_eq_ok.1 h
    obtain ⟨t', ht, ⟨⟩⟩ := bind_eq_ok.1 h
    exact congrArg₂ (Stmt.doLoop s) (b.unresolved_resolve b' _ hb) (t.unresolved_resolve t' ht)
  | .forLoop s i t u b, _, stack, h => by
    obtain ⟨i', hi, h⟩ := bind_eq_ok.1 h
    obtain ⟨t', ht, h⟩ := bind_eq_ok.1 h
    obtain ⟨u', hu, h⟩ := bind_eq_ok.1 h
    obtain ⟨b', hb, ⟨⟩⟩ := bind_eq_ok.1 h
    have hhead := congr (congrArg₂ (Stmt.forLoop s) (unresolved_resolveStmt? i i' _ hi)
      (unresolved_resolveExpr? t t' ht)) (unresolved_resolveExpr? u u' hu)
    exact (congr hhead (b.unresolved_resolve b' _ hb) :)
  | .forIn s t e b, _, stack, h => by
    obtain ⟨t', ht, h⟩ := bind_eq_ok.1 h
    obtain ⟨e', he, h⟩ := bind_eq_ok.1 h
    obtain ⟨b', hb, ⟨⟩⟩ := bind_eq_ok.1 h
    exact (congr (congrArg₂ (Stmt.forIn s) (t.unresolved_resolve t' _ ht)
      (e.unresolved_resolve e' he)) (b.unresolved_resolve b' _ hb) :)
  | .breakTo s l n, _, _, h | .continueTo s l n, _, _, h => by
    obtain ⟨n', -, ⟨⟩⟩ := bind_eq_ok.1 h
    rfl
  | .giveBack s v, _, _, h => by
    obtain ⟨v', hv, ⟨⟩⟩ := bind_eq_ok.1 h
    exact congrArg (Stmt.giveBack s) (unresolved_resolveExpr? v v' hv)
  | .raise s v, _, _, h => by
    obtain ⟨v', hv, ⟨⟩⟩ := bind_eq_ok.1 h
    exact congrArg (Stmt.raise s) (v.unresolved_resolve v' hv)
  | .guarded s b hs f, _, stack, h => by
    obtain ⟨b', hb, h⟩ := bind_eq_ok.1 h
    obtain ⟨hs', hhs, h⟩ := bind_eq_ok.1 h
    obtain ⟨f', hf, ⟨⟩⟩ := bind_eq_ok.1 h
    exact (congr (congrArg₂ (Stmt.guarded s) (b.unresolved_resolve b' stack hb)
      (unresolved_resolveHandlers hs hs' _ hhs)) (unresolved_resolveBlock? f f' _ hf) :)
  | .labeled s l b, _, stack, h => by
    change (if (findLabel l.name stack).isSome then _ else _) = _ at h
    split_ifs at h
    obtain ⟨b', hb, ⟨⟩⟩ := bind_eq_ok.1 h
    exact congrArg (Stmt.labeled s l) (b.unresolved_resolve b' _ hb)
  | .within s o b, _, stack, h => by
    obtain ⟨o', ho, h⟩ := bind_eq_ok.1 h
    obtain ⟨b', hb, ⟨⟩⟩ := bind_eq_ok.1 h
    exact congrArg₂ (Stmt.within s) (o.unresolved_resolve o' ho) (b.unresolved_resolve b' stack hb)
  | .empty _, _, _, h | .debugger _, _, _, h => by
    cases h
    rfl
termination_by structural x => x

lemma unresolved_resolveStmts : ∀ (ss ss' : List (Stmt α)) (stack : List Anchor),
    resolveStmts stack ss = .ok ss' → unresolvedStmts ss' = unresolvedStmts ss
  | [], _, _, h => by
    cases h
    rfl
  | s :: ss, _, stack, h => by
    obtain ⟨s', hs, h⟩ := bind_eq_ok.1 h
    obtain ⟨ss', hss, ⟨⟩⟩ := bind_eq_ok.1 h
    exact congrArg₂ _ (s.unresolved_resolve s' stack hs) (unresolved_resolveStmts ss ss' stack hss)
termination_by structural x => x

lemma unresolved_resolveStmt? : ∀ (s s' : Option (Stmt α)) (stack : List Anchor),
    resolveStmt? stack s = .ok s' → unresolvedStmt? s' = unresolvedStmt? s
  | none, _, _, h => by
    cases h
    rfl
  | some s, _, stack, h => by
    obtain ⟨s', hs, ⟨⟩⟩ := bind_eq_ok.1 h
    exact congrArg some (s.unresolved_resolve s' stack hs)
termination_by structural x => x

lemma Block.unresolved_resolve : ∀ (b b' : Block α) (stack : List Anchor),
    b.resolve stack = .ok b' → b'.unresolved = b.unresolved
  | .mk s b, _, stack, h => by
    obtain ⟨b', hb, ⟨⟩⟩ := bind_eq_ok.1 h
    exact congrArg (Block.mk s) (unresolved_resolveStmts b b' stack hb)
termination_by structural x => x

lemma unresolved_resolveBlock? : ∀ (b b' : Option (Block α)) (stack : List Anchor),
    resolveBlock? stack b = .ok b' → unresolvedBlock? b' = unresolvedBlock? b
  | none, _, _, h => by
    cases h
    rfl
  | some b, _, stack, h => by
    obtain ⟨b', hb, ⟨⟩⟩ := bind_eq_ok.1 h
    exact congrArg some (b.unresolved_resolve b' stack hb)
termination_by structural x => x

lemma unresolved_resolveDeclarators : ∀ ds ds' : List (Declarator α),
    resolveDeclarators ds = .ok ds' → unresolvedDeclarators ds' = unresolvedDeclarators ds
  | [], _, h => by
    cases h
    rfl
  | .mk s id init :: ds, _, h => by
    obtain ⟨init', hinit, h⟩ := bind_eq_ok.1 h
    obtain ⟨ds', hds, ⟨⟩⟩ := bind_eq_ok.1 h
    exact congrArg₂ (fun init ds => Declarator.mk s id init :: ds)
      (unresolved_resolveExpr? init init' hinit) (unresolved_resolveDeclarators ds ds' hds)
termination_by structural x => x

lemma unresolved_resolveCases : ∀ (cs cs' : List (Case α)) (stack : List Anchor),
    resolveCases stack cs = .ok cs' → unresolvedCases cs' = unresolvedCases cs
  | [], _, _, h => by
    cases h
    rfl
  | .mk s t b :: cs, _, stack, h => by
    obtain ⟨t', ht, h⟩ := bind_eq_ok.1 h
    obtain ⟨b', hb, h⟩ := bind_eq_ok.1 h
    obtain ⟨cs', hcs, ⟨⟩⟩ := bind_eq_ok.1 h
    exact (congr (congrArg₂ (fun t b cs => Case.mk s t b :: cs) (unresolved_resolveExpr? t t' ht)
      (unresolved_resolveStmts b b' stack hb)) (unresolved_resolveCases cs cs' stack hcs) :)
termination_by structural x => x

lemma unresolved_resolveHandlers : ∀ (hs hs' : List (Handler α)) (stack : List Anchor),
    resolveHandlers stack hs = .ok hs' → unresolvedHandlers hs' = unresolvedHandlers hs
  | [], _, _, h => by
    cases h
    rfl
  | .mk s p guard b :: hs, _, stack, h => by
    obtain ⟨guard', hguard, h⟩ := bind_eq_ok.1 h
    obtain ⟨b', hb, h⟩ := bind_eq_ok.1 h
    obtain ⟨hs', hhs, ⟨⟩⟩ := bind_eq_ok.1 h
    exact (congr (congrArg₂ (fun g b hs => Handler.mk s p g b :: hs)
      (unresolved_resolveExpr? guard guard' hguard) (b.unresolved_resolve b' stack hb))
      (unresolved_resolveHandlers hs hs' stack hhs) :)
termination_by structural x => x

end

end Clearance.Script
