/-
# Where jumps go

The jumps of a script can be resolved if and only if all its statements have what they need around
them, and then all of them go where they should (`jump_resolution_exact`). Resolving follows the
tree, and what it knows of the statements around a jump describes them (`Nested`): so it finds the
position of the one that the jump goes to.
-/
import Mathlib.Data.List.Chain
import Clearance.Proofs.Resolvable
import Clearance.Proofs.Unresolved

namespace Clearance.Script

variable {α : Type}

/-! ## Where resolved jumps go -/

namespace Stmt

/-- Resolving keeps the number of labels before a loop. -/
lemma labelsToLoop_unresolved : ∀ s : Stmt α, s.unresolved.labelsToLoop = s.labelsToLoop
  | .labeled _ _ b => congrArg (Option.map (· + 1)) b.labelsToLoop_unresolved
  | .whileLoop .. | .doLoop .. | .forLoop .. | .forIn .. | .expr _ | .block _ | .declare ..
  | .function .. | .branch .. | .choose .. | .breakTo .. | .continueTo .. | .giveBack ..
  | .raise .. | .guarded .. | .within .. | .empty _ | .debugger _ => rfl

lemma labelsToLoop_resolve {s s' : Stmt α} {stack : List Anchor} (h : s.resolve stack = .ok s') :
    s'.labelsToLoop = s.labelsToLoop := by
  rw [← s'.labelsToLoop_unresolved, s.unresolved_resolve s' stack h, s.labelsToLoop_unresolved]

/-- A statement right inside a labeled one is the one that the label is on. -/
def SitsIn (s outer : Stmt α) : Prop :=
  match outer with
  | .labeled _ _ b => s = b
  | _ => True

lemma sitsIn_of_label?_eq_none {s outer : Stmt α} (h : outer.label? = none) : s.SitsIn outer := by
  cases outer with
  | labeled => cases h
  | _ => trivial

end Stmt

/-- The statement and those around it sit in each other. -/
def Nested (here : Stmt α) (around : List (Stmt α)) : Prop :=
  (here :: around).IsChain Stmt.SitsIn

namespace Nested

variable {here outer : Stmt α} {around before rest : List (Stmt α)}

lemma cons_unlabeled (h : Nested outer around) (houter : outer.label? = none) :
    Nested here (outer :: around) :=
  List.isChain_cons_cons.2 ⟨Stmt.sitsIn_of_label?_eq_none houter, h⟩

/-- A statement that is no loop and stands behind the labels of a loop stands in the loop. -/
lemma exists_loop {k : Nat} (h : Nested here (before ++ outer :: rest))
    (houter : outer.label?.isSome = true) (hk : outer.labelsToLoop = some k)
    (hhere : here.labelsToLoop = none) :
    ∃ inside t labels, before = inside ++ t :: labels ∧ t.isLoop = true ∧
      (∀ u ∈ labels, u.label?.isSome = true) ∧ outer.unlabeled = t ∧ k = labels.length + 1 := by
  induction before using List.reverseRecOn generalizing outer rest k with
  | nil =>
    obtain ⟨hsits, -⟩ := List.isChain_cons_cons.1 h
    cases outer with
    | labeled s l b =>
      obtain rfl : here = b := hsits
      rw [Stmt.labelsToLoop, hhere] at hk
      cases hk
    | _ => cases houter
  | append_singleton before t ih =>
    rw [List.append_assoc, List.singleton_append] at h
    cases outer with
    | labeled s l b =>
      have hchain : ((here :: before) ++ t :: .labeled s l b :: rest).IsChain Stmt.SitsIn := h
      obtain rfl : t = b := (List.isChain_cons_cons.1 hchain.right_of_append).1
      obtain ⟨m, hm, rfl⟩ := Option.map_eq_some_iff.1 hk
      by_cases hlabeled : t.label?.isSome = true
      · obtain ⟨inside, u, labels, rfl, hu, hlabels, hbehind, rfl⟩ := ih h hlabeled hm
        refine ⟨inside, u, labels ++ [t], by simp, hu, ?_, hbehind, by simp⟩
        exact List.forall_mem_append.2 ⟨hlabels, List.forall_mem_singleton.2 hlabeled⟩
      · -- no further label: the loop is the next statement
        refine ⟨before, t, [], rfl, ?_, nofun, ?_, ?_⟩
        all_goals cases t <;> first | rfl | cases hm | exact absurd rfl hlabeled
        all_goals rfl
    | _ => cases houter

end Nested

section

variable {around : List (Stmt α)} {p : α} {n : Nat}

lemma bound_breakTarget {l : Option (Ident α)} (hd : Distinct around)
    (h : breakTarget (anchors around) p l = .ok n) :
    Site.Bound ⟨around, .breakTo p l (some n)⟩ := by
  cases l with
  | some id =>
    rw [breakTarget, findLabel_anchors] at h
    cases hfound : nearest (Stmt.hasLabel id.name) around with
    | none => rw [hfound] at h; cases h
    | some found =>
      obtain ⟨m, t⟩ := found
      rw [hfound] at h
      cases h
      obtain ⟨before, after, rfl, ht, -, rfl⟩ := exists_of_nearest hfound
      rw [Stmt.hasLabel_iff] at ht
      refine ⟨before, t, after, ⟨rfl, ?_, rfl⟩, ht, hd.only ht⟩
      simp [Stmt.isTarget, ht]
  | none =>
    rw [breakTarget, innermost_anchors] at h
    cases hfound : nearest (Stmt.serves true) around with
    | none => rw [hfound] at h; cases h
    | some found =>
      obtain ⟨m, t⟩ := found
      rw [hfound] at h
      cases h
      obtain ⟨before, after, rfl, ht, hbefore, rfl⟩ := exists_of_nearest hfound
      simp only [Stmt.serves, Bool.true_and, Bool.or_eq_true, Bool.or_eq_false_iff] at ht hbefore
      refine ⟨before, t, after, ⟨rfl, ?_, rfl⟩, ht, hbefore⟩
      simp only [Stmt.isTarget, Bool.or_eq_true]
      exact .inl ht

lemma bound_continueTarget {l : Option (Ident α)} (hd : Distinct around)
    (hn : Nested (.continueTo p l (some n)) around)
    (h : continueTarget (anchors around) p l = .ok n) :
    Site.Bound ⟨around, .continueTo p l (some n)⟩ := by
  cases l with
  | some id =>
    rw [continueTarget, findLabel_anchors] at h
    cases hfound : nearest (Stmt.hasLabel id.name) around with
    | none => rw [hfound] at h; cases h
    | some found =>
      obtain ⟨m, outer⟩ := found
      obtain ⟨before, after, rfl, houter, -, rfl⟩ := exists_of_nearest hfound
      rw [Stmt.hasLabel_iff] at houter
      rw [hfound, Option.map_some] at h
      cases hk : outer.labelsToLoop with
      | none => simp only [hk] at h; cases h
      | some k =>
        simp only [hk] at h
        cases h
        have honly := hd.only houter
        -- between the label and its loop there are further labels at most
        obtain ⟨inside, t, labels, rfl, ht, hlabels, hbehind, rfl⟩ :=
          hn.exists_loop (houter ▸ rfl) hk rfl
        refine ⟨inside, t, labels, outer, after, ⟨by simp, ?_, ?_⟩, ht, hlabels, houter, hbehind,
          honly⟩
        · simp [Stmt.isTarget, ht]
        · have htargets : labels.countP Stmt.isTarget = labels.length :=
            List.countP_eq_length.2 fun u hu => by simp [Stmt.isTarget, hlabels u hu]
          have hreach : t.isTarget = true := by simp [Stmt.isTarget, ht]
          rw [List.countP_append, List.countP_cons_of_pos hreach, htargets, Nat.add_sub_cancel]
  | none =>
    rw [continueTarget, innermost_anchors] at h
    cases hfound : nearest (Stmt.serves false) around with
    | none => rw [hfound] at h; cases h
    | some found =>
      obtain ⟨m, t⟩ := found
      rw [hfound] at h
      cases h
      obtain ⟨before, after, rfl, ht, hbefore, rfl⟩ := exists_of_nearest hfound
      simp only [Stmt.serves, Bool.false_and, Bool.or_false] at ht hbefore
      exact ⟨before, t, after, ⟨rfl, by simp [Stmt.isTarget, ht], rfl⟩, ht, hbefore⟩

end

mutual

lemma Expr.bound_resolve : ∀ e e' : Expr α, e.resolve = .ok e' → ∀ x ∈ e'.sites, x.Bound
  | .ident _, _, h | .number .., _, h | .string .., _, h | .bool .., _, h | .null _, _, h
  | .regexp .., _, h | .this _, _, h => by
    cases h
    exact nofun
  | .array s es, _, h => by
    obtain ⟨es', hes, ⟨⟩⟩ := bind_eq_ok.1 h
    exact bound_resolveElements es es' hes
  | .object s ms, _, h => by
    obtain ⟨ms', hms, ⟨⟩⟩ := bind_eq_ok.1 h
    exact bound_resolveMembers ms ms' hms
  | .function fn, _, h => by
    obtain ⟨fn', hfn, ⟨⟩⟩ := bind_eq_ok.1 h
    exact fn.bound_resolve fn' hfn
  | .assign s op l r, _, h | .binary s op l r, _, h | .logical s op l r, _, h
  | .index s l r, _, h => by
    obtain ⟨l', hl, h⟩ := bind_eq_ok.1 h
    obtain ⟨r', hr, ⟨⟩⟩ := bind_eq_ok.1 h
    exact List.forall_mem_append.2 ⟨l.bound_resolve l' hl, r.bound_resolve r' hr⟩
  | .unary s op e, _, h | .update s op b e, _, h | .member s e p, _, h | .label s n e, _, h => by
    obtain ⟨e', he, ⟨⟩⟩ := bind_eq_ok.1 h
    exact e.bound_resolve e' he
  | .conditional s t c a, _, h => by
    obtain ⟨t', ht, h⟩ := bind_eq_ok.1 h
    obtain ⟨c', hc, h⟩ := bind_eq_ok.1 h
    obtain ⟨a', ha, ⟨⟩⟩ := bind_eq_ok.1 h
    exact List.forall_mem_append.2 ⟨List.forall_mem_append.2
      ⟨t.bound_resolve t' ht, c.bound_resolve c' hc⟩, a.bound_resolve a' ha⟩
  | .sequence s es, _, h => by
    obtain ⟨es', hes, ⟨⟩⟩ := bind_eq_ok.1 h
    exact bound_resolveExprs es es' hes
  | .call s c as, _, h | .construct s c as, _, h => by
    obtain ⟨c', hc, h⟩ := bind_eq_ok.1 h
    obtain ⟨as', has, ⟨⟩⟩ := bind_eq_ok.1 h
    exact List.forall_mem_append.2 ⟨c.bound_resolve c' hc, bound_resolveExprs as as' has⟩
termination_by structural x => x

lemma bound_resolveExprs : ∀ es es' : List (Expr α), resolveExprs es = .ok es' →
    ∀ x ∈ sitesOfExprs es', x.Bound
  | [], _, h => by
    cases h
    exact nofun
  | e :: es, _, h => by
    obtain ⟨e', he, h⟩ := bind_eq_ok.1 h
    obtain ⟨es', hes, ⟨⟩⟩ := bind_eq_ok.1 h
    exact List.forall_mem_append.2 ⟨e.bound_resolve e' he, bound_resolveExprs es es' hes⟩
termination_by structural x => x

lemma bound_resolveExpr? : ∀ e e' : Option (Expr α), resolveExpr? e = .ok e' →
    ∀ x ∈ sitesOfExpr? e', x.Bound
  | none, _, h => by
    cases h
    exact nofun
  | some e, _, h => by
    obtain ⟨e', he, ⟨⟩⟩ := bind_eq_ok.1 h
    exact e.bound_resolve e' he
termination_by structural x => x

lemma bound_resolveElements : ∀ es es' : List (Option (Expr α)), resolveElements es = .ok es' →
    ∀ x ∈ sitesOfElements es', x.Bound
  | [], _, h => by
    cases h
    exact nofun
  | e :: es, _, h => by
    obtain ⟨e', he, h⟩ := bind_eq_ok.1 h
    obtain ⟨es', hes, ⟨⟩⟩ := bind_eq_ok.1 h
    exact List.forall_mem_append.2 ⟨bound_resolveExpr? e e' he, bound_resolveElements es es' hes⟩
termination_by structural x => x

lemma bound_resolveMembers : ∀ ms ms' : List (Member α), resolveMembers ms = .ok ms' →
    ∀ x ∈ sitesOfMembers ms', x.Bound
  | [], _, h => by
    cases h
    exact nofun
  | .mk _ _ v :: ms, _, h => by
    obtain ⟨v', hv, h⟩ := bind_eq_ok.1 h
    obtain ⟨ms', hms, ⟨⟩⟩ := bind_eq_ok.1 h
    exact List.forall_mem_append.2 ⟨v.bound_resolve v' hv, bound_resolveMembers ms ms' hms⟩
termination_by structural x => x

lemma Function.bound_resolve : ∀ fn fn' : Function α, fn.resolve = .ok fn' →
    ∀ x ∈ fn'.sites, x.Bound
  | .mk _ _ _ b _ _, _, h => by
    obtain ⟨b', hb, ⟨⟩⟩ := bind_eq_ok.1 h
    exact bound_resolveStmts b b' [] List.nodup_nil (fun _ => .singleton _) hb
termination_by structural x => x

lemma Stmt.bound_resolve : ∀ (s s' : Stmt α) (around : List (Stmt α)), Distinct around →
    Nested s' around → s.resolve (anchors around) = .ok s' → ∀ x ∈ s'.sites around, x.Bound
  | .expr e, _, around, _, _, h => by
    obtain ⟨e', he, ⟨⟩⟩ := bind_eq_ok.1 h
    exact List.forall_mem_cons.2 ⟨trivial, e.bound_resolve e' he⟩
  | .block b, _, around, hd, hn, h => by
    obtain ⟨b', hb, ⟨⟩⟩ := bind_eq_ok.1 h
    exact List.forall_mem_cons.2 ⟨trivial,
      b.bound_resolve b' _ (hd.cons_unlabeled rfl) (fun _ => hn.cons_unlabeled rfl) hb⟩
  | .declare s kind ds, _, around, _, _, h => by
    obtain ⟨ds', hds, ⟨⟩⟩ := bind_eq_ok.1 h
    exact List.forall_mem_cons.2 ⟨trivial, bound_resolveDeclarators ds ds' hds⟩
  | .function s fn, _, around, _, _, h => by
    obtain ⟨fn', hfn, ⟨⟩⟩ := bind_eq_ok.1 h
    exact List.forall_mem_cons.2 ⟨trivial, fn.bound_resolve fn' hfn⟩
  | .branch s t c a, _, around, hd, hn, h => by
    obtain ⟨t', ht, h⟩ := bind_eq_ok.1 h
    obtain ⟨c', hc, h⟩ := bind_eq_ok.1 h
    obtain ⟨a', ha, ⟨⟩⟩ := bind_eq_ok.1 h
    have hd' : Distinct (.branch s t' c' a' :: around) := hd.cons_unlabeled rfl
    have hn' : ∀ u, Nested u (.branch s t' c' a' :: around) := fun _ => hn.cons_unlabeled rfl
    exact List.forall_mem_cons.2 ⟨trivial, List.forall_mem_append.2 ⟨List.forall_mem_append.2
      ⟨t.bound_resolve t' ht, c.bound_resolve c' _ hd' (hn' _) hc⟩,
      bound_resolveStmt? a a' _ hd' hn' ha⟩⟩
  | .choose s d cs, _, around, hd, hn, h => by
    obtain ⟨d', hd', h⟩ := bind_eq_ok.1 h
    obtain ⟨cs', hcs, ⟨⟩⟩ := bind_eq_ok.1 h
    exact List.forall_mem_cons.2 ⟨trivial, List.forall_mem_append.2 ⟨d.bound_resolve d' hd',
      bound_resolveCases cs cs' _ (hd.cons_unlabeled rfl) (fun _ => hn.cons_unlabeled rfl) hcs⟩⟩
  | .whileLoop s t b, _, around, hd, hn, h => by
    obtain ⟨t', ht, h⟩ := bind_eq_ok.1 h
    obtain ⟨b', hb, ⟨⟩⟩ := bind_eq_ok.1 h
    exact List.forall_mem_cons.2 ⟨trivial, List.forall_mem_append.2 ⟨t.bound_resolve t' ht,
      b.bound_resolve b' (.whileLoop s t' b' :: around) (hd.cons_unlabeled rfl)
        (hn.cons_unlabeled rfl) hb⟩⟩
  | .doLoop s b t, _, around, hd, hn, h => by
    obtain ⟨b', hb, h⟩ := bind_eq_ok.1 h
    obtain ⟨t', ht, ⟨⟩⟩ := bind_eq_ok.1 h
    exact List.forall_mem_cons.2 ⟨trivial, List.forall_mem_append.2
      ⟨b.bound_resolve b' (.doLoop s b' t' :: around) (hd.cons_unlabeled rfl)
        (hn.cons_unlabeled rfl) hb, t.bound_resolve t' ht⟩⟩
  | .forLoop s i t u b, _, around, hd, hn, h => by
    obtain ⟨i', hi, h⟩ := bind_eq_ok.1 h
    obtain ⟨t', ht, h⟩ := bind_eq_ok.1 h
    obtain ⟨u', hu, h⟩ := bind_eq_ok.1 h
    obtain ⟨b', hb, ⟨⟩⟩ := bind_eq_ok.1 h
    have hd' : Distinct (.forLoop s i' t' u' b' :: around) := hd.cons_unlabeled rfl
    have hn' : ∀ v, Nested v (.forLoop s i' t' u' b' :: around) := fun _ => hn.cons_unlabeled rfl
    have hi' := bound_resolveStmt? i i' _ hd' hn' hi
    have hb' := b.bound_resolve b' _ hd' (hn' _) hb
    exact List.forall_mem_cons.2 ⟨trivial, List.forall_mem_append.2 ⟨List.forall_mem_append.2
      ⟨List.forall_mem_append.2 ⟨hi', bound_resolveExpr? t t' ht⟩,
        bound_resolveExpr? u u' hu⟩, hb'⟩⟩
  | .forIn s t e b, _, around, hd, hn, h => by
    obtain ⟨t', ht, h⟩ := bind_eq_ok.1 h
    obtain ⟨e', he, h⟩ := bind_eq_ok.1 h
    obtain ⟨b', hb, ⟨⟩⟩ := bind_eq_ok.1 h
    have hd' : Distinct (.forIn s t' e' b' :: around) := hd.cons_unlabeled rfl
    have hn' : ∀ u, Nested u (.forIn s t' e' b' :: around) := fun _ => hn.cons_unlabeled rfl
    exact List.forall_mem_cons.2 ⟨trivial, List.forall_mem_append.2 ⟨List.forall_mem_append.2
      ⟨t.bound_resolve t' _ hd' (hn' _) ht, e.bound_resolve e' he⟩,
      b.bound_resolve b' _ hd' (hn' _) hb⟩⟩
  | .breakTo s l n, _, around, hd, _, h => by
    obtain ⟨n', hn', ⟨⟩⟩ := bind_eq_ok.1 h
    exact List.forall_mem_singleton.2 (bound_breakTarget hd hn')
  | .continueTo s l n, _, around, hd, hn, h => by
    obtain ⟨n', hn', ⟨⟩⟩ := bind_eq_ok.1 h
    exact List.forall_mem_singleton.2 (bound_continueTarget hd hn hn')
  | .giveBack s v, _, around, _, _, h => by
    obtain ⟨v', hv, ⟨⟩⟩ := bind_eq_ok.1 h
    exact List.forall_mem_cons.2 ⟨trivial, bound_resolveExpr? v v' hv⟩
  | .raise s v, _, around, _, _, h => by
    obtain ⟨v', hv, ⟨⟩⟩ := bind_eq_ok.1 h
    exact List.forall_mem_cons.2 ⟨trivial, v.bound_resolve v' hv⟩
  | .guarded s b hs f, _, around, hd, hn, h => by
    obtain ⟨b', hb, h⟩ := bind_eq_ok.1 h
    obtain ⟨hs', hhs, h⟩ := bind_eq_ok.1 h
    obtain ⟨f', hf, ⟨⟩⟩ := bind_eq_ok.1 h
    have hd' : Distinct (.guarded s b' hs' f' :: around) := hd.cons_unlabeled rfl
    have hn' : ∀ u, Nested u (.guarded s b' hs' f' :: around) := fun _ => hn.cons_unlabeled rfl
    exact List.forall_mem_cons.2 ⟨trivial, List.forall_mem_append.2 ⟨List.forall_mem_append.2
      ⟨b.bound_resolve b' _ hd' hn' hb, bound_resolveHandlers hs hs' _ hd' hn' hhs⟩,
      bound_resolveBlock? f f' _ hd' hn' hf⟩⟩
  | .labeled s l b, _, around, hd, hn, h => by
    change (if (findLabel l.name (anchors around)).isSome then _ else _) = _ at h
    split_ifs at h with hdup
    obtain ⟨b', hb, ⟨⟩⟩ := bind_eq_ok.1 h
    have hnew := isSome_findLabel.1 (Bool.not_eq_true _ ▸ hdup)
    have hd' : Distinct (.labeled s l b' :: around) := hd.cons fun name hname => by
      cases hname
      exact hnew
    have hanchors : anchors (.labeled s l b' :: around) =
        .label l.name (b.labelsToLoop.map (· + 1)) :: anchors around := by
      rw [← Stmt.labelsToLoop_resolve hb]
      rfl
    rw [← hanchors] at hb
    exact List.forall_mem_cons.2 ⟨trivial,
      b.bound_resolve b' _ hd' (List.isChain_cons_cons.2 ⟨rfl, hn⟩) hb⟩
  | .within s o b, _, around, hd, hn, h => by
    obtain ⟨o', ho, h⟩ := bind_eq_ok.1 h
    obtain ⟨b', hb, ⟨⟩⟩ := bind_eq_ok.1 h
    exact List.forall_mem_cons.2 ⟨trivial, List.forall_mem_append.2 ⟨o.bound_resolve o' ho,
      b.bound_resolve b' (.within s o' b' :: around) (hd.cons_unlabeled rfl)
        (hn.cons_unlabeled rfl) hb⟩⟩
  | .empty s, _, around, _, _, h | .debugger s, _, around, _, _, h => by
    cases h
    exact List.forall_mem_singleton.2 trivial
termination_by structural x => x

lemma bound_resolveStmts : ∀ (ss ss' : List (Stmt α)) (around : List (Stmt α)), Distinct around →
    (∀ u, Nested u around) → resolveStmts (anchors around) ss = .ok ss' →
    ∀ x ∈ sitesOfStmts around ss', x.Bound
  | [], _, _, _, _, h => by
    cases h
    exact nofun
  | s :: ss, _, around, hd, hn, h => by
    obtain ⟨s', hs, h⟩ := bind_eq_ok.1 h
    obtain ⟨ss', hss, ⟨⟩⟩ := bind_eq_ok.1 h
    exact List.forall_mem_append.2
      ⟨s.bound_resolve s' around hd (hn _) hs, bound_resolveStmts ss ss' around hd hn hss⟩
termination_by structural x => x

lemma bound_resolveStmt? : ∀ (s s' : Option (Stmt α)) (around : List (Stmt α)), Distinct around →
    (∀ u, Nested u around) → resolveStmt? (anchors around) s = .ok s' →
    ∀ x ∈ sitesOfStmt? around s', x.Bound
  | none, _, _, _, _, h => by
    cases h
    exact nofun
  | some s, _, around, hd, hn, h => by
    obtain ⟨s', hs, ⟨⟩⟩ := bind_eq_ok.1 h
    exact s.bound_resolve s' around hd (hn _) hs
termination_by structural x => x

lemma Block.bound_resolve : ∀ (b b' : Block α) (around : List (Stmt α)), Distinct around →
    (∀ u, Nested u around) → b.resolve (anchors around) = .ok b' →
    ∀ x ∈ b'.sites around, x.Bound
  | .mk _ b, _, around, hd, hn, h => by
    obtain ⟨b', hb, ⟨⟩⟩ := bind_eq_ok.1 h
    exact bound_resolveStmts b b' around hd hn hb
termination_by structural x => x

lemma bound_resolveBlock? : ∀ (b b' : Option (Block α)) (around : List (Stmt α)), Distinct around →
    (∀ u, Nested u around) → resolveBlock? (anchors around) b = .ok b' →
    ∀ x ∈ sitesOfBlock? around b', x.Bound
  | none, _, _, _, _, h => by
    cases h
    exact nofun
  | some b, _, around, hd, hn, h => by
    obtain ⟨b', hb, ⟨⟩⟩ := bind_eq_ok.1 h
    exact b.bound_resolve b' around hd hn hb
termination_by structural x => x

lemma bound_resolveDeclarators : ∀ ds ds' : List (Declarator α),
    resolveDeclarators ds = .ok ds' → ∀ x ∈ sitesOfDeclarators ds', x.Bound
  | [], _, h => by
    cases h
    exact nofun
  | .mk _ _ init :: ds, _, h => by
    obtain ⟨init', hinit, h⟩ := bind_eq_ok.1 h
    obtain ⟨ds', hds, ⟨⟩⟩ := bind_eq_ok.1 h
    exact List.forall_mem_append.2
      ⟨bound_resolveExpr? init init' hinit, bound_resolveDeclarators ds ds' hds⟩
termination_by structural x => x

lemma bound_resolveCases : ∀ (cs cs' : List (Case α)) (around : List (Stmt α)), Distinct around →
    (∀ u, Nested u around) → resolveCases (anchors around) cs = .ok cs' →
    ∀ x ∈ sitesOfCases around cs', x.Bound
  | [], _, _, _, _, h => by
    cases h
    exact nofun
  | .mk _ t b :: cs, _, around, hd, hn, h => by
    obtain ⟨t', ht, h⟩ := bind_eq_ok.1 h
    obtain ⟨b', hb, h⟩ := bind_eq_ok.1 h
    obtain ⟨cs', hcs, ⟨⟩⟩ := bind_eq_ok.1 h
    exact List.forall_mem_append.2 ⟨List.forall_mem_append.2 ⟨bound_resolveExpr? t t' ht,
      bound_resolveStmts b b' around hd hn hb⟩, bound_resolveCases cs cs' around hd hn hcs⟩
termination_by structural x => x

lemma bound_resolveHandlers : ∀ (hs hs' : List (Handler α)) (around : List (Stmt α)),
    Distinct around → (∀ u, Nested u around) → resolveHandlers (anchors around) hs = .ok hs' →
    ∀ x ∈ sitesOfHandlers around hs', x.Bound
  | [], _, _, _, _, h => by
    cases h
    exact nofun
  | .mk _ _ guard b :: hs, _, around, hd, hn, h => by
    obtain ⟨guard', hguard, h⟩ := bind_eq_ok.1 h
    obtain ⟨b', hb, h⟩ := bind_eq_ok.1 h
    obtain ⟨hs', hhs, ⟨⟩⟩ := bind_eq_ok.1 h
    exact List.forall_mem_append.2 ⟨List.forall_mem_append.2
      ⟨bound_resolveExpr? guard guard' hguard, b.bound_resolve b' around hd hn hb⟩,
      bound_resolveHandlers hs hs' around hd hn hhs⟩
termination_by structural x => x

end

/-! ## The result -/

/-- The jumps of a script can be resolved if and only if every statement has what it needs around
it. Resolving sets the targets of jumps and changes nothing else, and every jump then goes to the
statement around it that it should go to. The statements are those that a walk over the whole tree
meets. -/
theorem jump_resolution_exact (p : Program α) :
    p.sites.filterMap Site.statement? = (p.nodes true).filterMap Node.statement? ∧
      ((∃ q, p.resolve = .ok q) ↔ ∀ x ∈ p.sites, x.Valid) ∧
        ∀ q, p.resolve = .ok q → q.unresolved = p.unresolved ∧ ∀ x ∈ q.sites, x.Bound := by
  obtain ⟨source, body⟩ := p
  refine ⟨statementsOfStmts body [], ?_, ?_⟩
  · have hresolve : Succeeds (Program.resolve ⟨source, body⟩) ↔ Succeeds (resolveStmts [] body) :=
      succeeds_map
    exact hresolve.trans (succeeds_resolveStmts body [] List.nodup_nil)
  · intro q hq
    obtain ⟨body', hbody, ⟨⟩⟩ := bind_eq_ok.1 hq
    refine ⟨?_, bound_resolveStmts body body' [] List.nodup_nil (fun _ => .singleton _) hbody⟩
    rw [Program.unresolved, Program.unresolved, unresolved_resolveStmts body body' [] hbody]

/-- `a: b: while (true) { try {} catch (e) { continue a } switch (0) { default: break } break b }`,
where the jumps have the given targets. -/
def nestedJumps (again leave away : Option Nat) : Program Unit :=
  let handler : Handler Unit :=
    .mk () ⟨(), "e"⟩ none (.mk () [.continueTo () (some ⟨(), "a"⟩) again])
  let body : Block Unit := .mk ()
    [.guarded () (.mk () []) [handler] none,
      .choose () (.number () 0) [.mk () none [.breakTo () none leave]],
      .breakTo () (some ⟨(), "b"⟩) away]
  ⟨"", [.labeled () ⟨(), "a"⟩
    (.labeled () ⟨(), "b"⟩ (.whileLoop () (.bool () true) (.block body)))]⟩

/-- The jumps go to the loop, the switch and the label `b`. -/
theorem nestedJumps_resolved :
    (nestedJumps none none none).resolve = .ok (nestedJumps (some 0) (some 0) (some 1)) ∧
      ∀ x ∈ (nestedJumps (some 0) (some 0) (some 1)).sites, x.Bound :=
  ⟨rfl, ((jump_resolution_exact (nestedJumps none none none)).2.2 _ rfl).2⟩

end Clearance.Script
