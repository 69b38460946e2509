/-
# When jumps can be resolved

The statements around a jump are searched for one that it can go to, by its label or its kind. The
search finds the nearest one, and with labels that are not repeated the only one of its name. So the
jumps of a script can be resolved if and only if all its statements have what they need
(`succeeds_resolveStmts`).
-/
import Mathlib.Data.List.Induction
import Clearance.Proofs.Sites
import Clearance.Script.Jumps

namespace Clearance.Script

variable {α : Type}

/-! ## Searching the statements around -/

namespace Stmt

/-- How a statement is kept in mind while the jumps in it are resolved. -/
def anchor? (s : Stmt α) : Option Anchor :=
  match s with
  | .whileLoop .. | .doLoop .. | .forLoop .. | .forIn .. => some .loop
  | .choose .. => some .switch
  | .labeled _ l _ => some (.label l.name s.labelsToLoop)
  | _ => none

/-- A jump without a label can go to the statement. -/
def serves (switches : Bool) (s : Stmt α) : Bool := s.isLoop || switches && s.isSwitch

/-- The label is that of the statement. -/
def hasLabel (name : String) (s : Stmt α) : Bool := s.label? == some name

lemma hasLabel_iff {s : Stmt α} {name : String} :
    s.hasLabel name = true ↔ s.label? = some name := by
  simp [hasLabel]

/-- Behind the labels stands a loop if and only if their number up to a loop is known. -/
lemma isSome_labelsToLoop : ∀ s : Stmt α, s.labelsToLoop.isSome = s.unlabeled.isLoop
  | .labeled _ _ b => (Option.isSome_map ..).trans b.isSome_labelsToLoop
  | .whileLoop .. | .doLoop .. | .forLoop .. | .forIn .. | .expr _ | .block _ | .declare ..
  | .function .. | .branch .. | .choose .. | .breakTo .. | .continueTo .. | .giveBack ..
  | .raise .. | .guarded .. | .within .. | .empty _ | .debugger _ => rfl

end Stmt

/-- The statements that jumps can go to, among those around a statement. -/
def anchors (around : List (Stmt α)) : List Anchor := around.filterMap Stmt.anchor?

/-- The innermost statement of a kind, and how many of those in it jumps can go to. -/
def nearest (kind : Stmt α → Bool) : List (Stmt α) → Option (Nat × Stmt α)
  | [] => none
  | s :: around =>
    if kind s then some (0, s)
    else (nearest kind around).map fun r => (r.1 + if s.isTarget then 1 else 0, r.2)

section

variable {around : List (Stmt α)} {kind : Stmt α → Bool}

lemma nearest_eq_none : nearest kind around = none ↔ ∀ t ∈ around, kind t = false := by
  induction around with
  | nil => simp [nearest]
  | cons s around ih =>
    rw [List.forall_mem_cons, ← ih, nearest]
    cases kind s <;> simp

lemma exists_of_nearest {n : Nat} {t : Stmt α} (h : nearest kind around = some (n, t)) :
    ∃ before after, around = before ++ t :: after ∧ kind t = true ∧
      (∀ u ∈ before, kind u = false) ∧ n = before.countP Stmt.isTarget := by
  induction around generalizing n with
  | nil => cases h
  | cons s around ih =>
    unfold nearest at h
    by_cases hs : kind s = true
    · rw [if_pos hs] at h
      cases h
      exact ⟨[], around, rfl, hs, nofun, rfl⟩
    · rw [if_neg hs] at h
      obtain ⟨⟨m, t'⟩, hm, heq⟩ := Option.map_eq_some_iff.1 h
      cases heq
      obtain ⟨before, after, rfl, ht, hbefore, rfl⟩ := ih hm
      refine ⟨s :: before, after, rfl, ht, ?_, (List.countP_cons ..).symm⟩
      exact List.forall_mem_cons.2 ⟨Bool.not_eq_true _ ▸ hs, hbefore⟩

lemma isSome_nearest : (nearest kind around).isSome = true ↔ ∃ t ∈ around, kind t = true := by
  have hnone : nearest kind around = none ↔ ∀ t ∈ around, kind t = false := nearest_eq_none
  rw [← not_iff_not, Bool.not_eq_true, Option.isSome_eq_false_iff, Option.isNone_iff_eq_none, hnone]
  simp

lemma nearest_skip {s : Stmt α} (hs : kind s = false) (htarget : s.isTarget = false) :
    nearest kind (s :: around) = nearest kind around := by
  rw [nearest, hs, htarget]
  exact Option.map_id' ..

lemma nearest_step {s : Stmt α} (hs : kind s = false) (htarget : s.isTarget = true) :
    nearest kind (s :: around) = (nearest kind around).map fun r => (r.1 + 1, r.2) := by
  rw [nearest, hs, htarget]
  rfl

lemma findLabel_anchors (name : String) : findLabel name (anchors around) =
    (nearest (Stmt.hasLabel name) around).map fun r => (r.1, r.2.labelsToLoop) := by
  induction around with
  | nil => rfl
  | cons s around ih =>
    cases s with
    | labeled p l b =>
      change (if l.name = name then _ else _) = _
      split_ifs with hname
      · have hthis : Stmt.hasLabel name (.labeled p l b) = true :=
          Stmt.hasLabel_iff.2 (congrArg some hname)
        rw [nearest, if_pos hthis]
        rfl
      · have hother : Stmt.hasLabel name (.labeled p l b) = false := by
          simpa [Stmt.hasLabel, Stmt.label?] using hname
        rw [nearest_step hother rfl, Option.map_map]
        exact (congrArg _ ih).trans (Option.map_map ..)
    | whileLoop | doLoop | forLoop | forIn | choose =>
      rw [nearest_step rfl rfl, Option.map_map]
      exact (congrArg _ ih).trans (Option.map_map ..)
    | _ =>
      rw [nearest_skip rfl rfl]
      exact ih

lemma innermost_anchors (switches : Bool) : innermost switches (anchors around) =
    (nearest (Stmt.serves switches) around).map Prod.fst := by
  induction around with
  | nil => rfl
  | cons s around ih =>
    cases s with
    | whileLoop | doLoop | forLoop | forIn => rfl
    | choose =>
      cases switches with
      | true => rfl
      | false =>
        rw [nearest_step rfl rfl, Option.map_map]
        exact (congrArg _ ih).trans (Option.map_map ..)
    | labeled =>
      have hother : ∀ p l b, Stmt.serves switches (.labeled p l b : Stmt α) = false :=
        fun _ _ _ => Bool.and_false _
      rw [nearest_step (hother ..) rfl, Option.map_map]
      exact (congrArg _ ih).trans (Option.map_map ..)
    | _ =>
      rw [nearest_skip (Bool.and_false _) rfl]
      exact ih

end

/-! ## Labels that are not repeated -/

/-- No two statements of the list have the same label. -/
def Distinct (around : List (Stmt α)) : Prop := (around.filterMap Stmt.label?).Nodup

namespace Distinct

variable {around : List (Stmt α)} {name : String}

lemma cons {s : Stmt α} (h : Distinct around)
    (hs : ∀ name, s.label? = some name → ∀ t ∈ around, t.label? ≠ some name) :
    Distinct (s :: around) := by
  unfold Distinct at h ⊢
  cases hlabel : s.label? with
  | none => rwa [List.filterMap_cons_none hlabel]
  | some name =>
    rw [List.filterMap_cons_some hlabel, List.nodup_cons]
    refine ⟨fun hmem => ?_, h⟩
    obtain ⟨t, ht, hname⟩ := List.mem_filterMap.1 hmem
    exact hs name hlabel t ht hname

lemma cons_unlabeled {s : Stmt α} (h : Distinct around) (hs : s.label? = none) :
    Distinct (s :: around) :=
  h.cons fun _ hlabel => by rw [hs] at hlabel; cases hlabel

/-- The others do not have the label of one of them. -/
lemma only {before after : List (Stmt α)} {t : Stmt α} (h : Distinct (before ++ t :: after))
    (ht : t.label? = some name) : Site.Only name (before ++ after) := by
  unfold Distinct at h
  rw [List.filterMap_append, List.filterMap_cons_some ht, List.nodup_append] at h
  obtain ⟨-, hafter, hdisjoint⟩ := h
  intro u hu hname
  rcases List.mem_append.1 hu with hu | hu
  · exact hdisjoint name (List.mem_filterMap.2 ⟨u, hu, hname⟩) name List.mem_cons_self rfl
  · exact (List.nodup_cons.1 hafter).1 (List.mem_filterMap.2 ⟨u, hu, hname⟩)

end Distinct

/-! ## When jumps can be resolved -/

/-- The computation has a result. -/
def Succeeds {ε A : Type} (x : Except ε A) : Prop := ∃ a, x = .ok a

section

variable {ε A B : Type} {x : Except ε A}

lemma succeeds_ok (a : A) : Succeeds (pure a : Except ε A) := ⟨a, rfl⟩

/-- What comes second does not depend on the result of what comes first. -/
lemma succeeds_bind {k : A → Except ε B} {P : Prop} (hk : ∀ a, Succeeds (k a) ↔ P) :
    Succeeds (x >>= k) ↔ Succeeds x ∧ P := by
  cases x with
  | error e =>
    constructor
    · rintro ⟨_, ⟨⟩⟩
    · rintro ⟨⟨_, ⟨⟩⟩, _⟩
  | ok a => exact (hk a).trans ⟨fun h => ⟨⟨a, rfl⟩, h⟩, And.right⟩

lemma succeeds_map {f : A → B} : Succeeds (x >>= fun a => pure (f a)) ↔ Succeeds x :=
  (succeeds_bind fun a => iff_true_intro (succeeds_ok (f a))).trans (and_iff_left trivial)

variable {C D E : Type} {y : Except ε B} {z : Except ε C} {w : Except ε D}
  {xs ys zs ws : List (Site α)}

/-- Both parts of a node can be resolved. -/
lemma succeeds_both {f : A → B → C} (hx : Succeeds x ↔ ∀ u ∈ xs, u.Valid)
    (hy : Succeeds y ↔ ∀ u ∈ ys, u.Valid) :
    Succeeds (x >>= fun a => y >>= fun b => pure (f a b)) ↔ ∀ u ∈ xs ++ ys, u.Valid := by
  rw [succeeds_bind fun _ => succeeds_map, hx, hy, List.forall_mem_append]

/-- All three parts of a node can be resolved. -/
lemma succeeds_three {f : A → B → C → D} (hx : Succeeds x ↔ ∀ u ∈ xs, u.Valid)
    (hy : Succeeds y ↔ ∀ u ∈ ys, u.Valid) (hz : Succeeds z ↔ ∀ u ∈ zs, u.Valid) :
    Succeeds (x >>= fun a => y >>= fun b => z >>= fun c => pure (f a b c)) ↔
      ∀ u ∈ xs ++ ys ++ zs, u.Valid := by
  rw [succeeds_bind fun _ => succeeds_both hy hz, hx, List.append_assoc, ← List.forall_mem_append]

/-- All four parts of a node can be resolved. -/
lemma succeeds_four {f : A → B → C → D → E} (hx : Succeeds x ↔ ∀ u ∈ xs, u.Valid)
    (hy : Succeeds y ↔ ∀ u ∈ ys, u.Valid) (hz : Succeeds z ↔ ∀ u ∈ zs, u.Valid)
    (hw : Succeeds w ↔ ∀ u ∈ ws, u.Valid) :
    Succeeds (x >>= fun a => y >>= fun b => z >>= fun c => w >>= fun d => pure (f a b c d)) ↔
      ∀ u ∈ xs ++ ys ++ zs ++ ws, u.Valid := by
  rw [succeeds_bind fun _ => succeeds_three hy hz hw, hx, ← List.forall_mem_append]
  simp only [List.append_assoc]

/-- A statement that needs nothing. -/
lemma forall_valid_cons {u : Site α} (hu : u.Valid) :
    (∀ v ∈ xs, v.Valid) ↔ ∀ v ∈ u :: xs, v.Valid :=
  (and_iff_right hu).symm.trans List.forall_mem_cons.symm

end

section

variable {around : List (Stmt α)} {p : α}

lemma succeeds_breakTarget {l : Option (Ident α)} {n : Option Nat} :
    Succeeds (breakTarget (anchors around) p l) ↔ Site.Valid ⟨around, .breakTo p l n⟩ := by
  cases l with
  | some id =>
    simp only [breakTarget, findLabel_anchors, Site.Valid, ← Stmt.hasLabel_iff, ← isSome_nearest]
    cases nearest (Stmt.hasLabel id.name) around <;> simp [Succeeds]
  | none =>
    have hserves : ∀ t : Stmt α, t.isLoop = true ∨ t.isSwitch = true ↔ t.serves true = true := by
      simp [Stmt.serves]
    simp only [breakTarget, innermost_anchors, Site.Valid, hserves, ← isSome_nearest]
    cases nearest (Stmt.serves true) around <;> simp [Succeeds]

lemma succeeds_continueTarget {l : Option (Ident α)} {n : Option Nat} (hd : Distinct around) :
    Succeeds (continueTarget (anchors around) p l) ↔ Site.Valid ⟨around, .continueTo p l n⟩ := by
  cases l with
  | some id =>
    simp only [continueTarget, findLabel_anchors, Site.Valid]
    cases h : nearest (Stmt.hasLabel id.name) around with
    | none =>
      have hnone : ∀ t ∈ around, ¬t.label? = some id.name := fun t ht hlabel =>
        Bool.false_ne_true ((nearest_eq_none.1 h t ht).symm.trans (Stmt.hasLabel_iff.2 hlabel))
      simp only [Option.map_none]
      constructor
      · rintro ⟨_, ⟨⟩⟩
      · rintro ⟨t, ht, hlabel, -⟩
        exact absurd hlabel (hnone t ht)
    | some found =>
      obtain ⟨n, t⟩ := found
      obtain ⟨before, after, rfl, ht, -⟩ := exists_of_nearest h
      rw [Stmt.hasLabel_iff] at ht
      -- no other statement has this label
      have honly : ∀ u ∈ before ++ t :: after, u.label? = some id.name → u = t := by
        intro u hu hlabel
        by_contra hne
        refine hd.only ht u ?_ hlabel
        simp only [List.mem_append, List.mem_cons] at hu ⊢
        tauto
      have hloop := Stmt.isSome_labelsToLoop t
      dsimp only [Option.map_some]
      constructor
      · rintro ⟨m, hm⟩
        refine ⟨t, by simp, ht, ?_⟩
        cases hlabels : t.labelsToLoop with
        | none => rw [hlabels] at hm; cases hm
        | some k => rw [← hloop, hlabels]; rfl
      · rintro ⟨u, hu, hlabel, huloop⟩
        rw [honly u hu hlabel, ← hloop] at huloop
        obtain ⟨k, hk⟩ := Option.isSome_iff_exists.1 huloop
        rw [hk]
        exact ⟨_, rfl⟩
  | none =>
    have hserves : ∀ t : Stmt α, t.isLoop = true ↔ t.serves false = true := by
      simp [Stmt.serves]
    simp only [continueTarget, innermost_anchors, Site.Valid, hserves, ← isSome_nearest]
    cases nearest (Stmt.serves false) around <;> simp [Succeeds]

/-- A label that is not found is that of no statement. -/
lemma isSome_findLabel {name : String} : (findLabel name (anchors around)).isSome = false ↔
    ∀ t ∈ around, t.label? ≠ some name := by
  rw [findLabel_anchors, Option.isSome_map, Option.isSome_eq_false_iff, Option.isNone_iff_eq_none,
    nearest_eq_none]
  simp [Stmt.hasLabel]

end

mutual

lemma Expr.succeeds_resolve : ∀ e : Expr α, Succeeds e.resolve ↔ ∀ x ∈ e.sites, x.Valid
  | .ident _ | .number .. | .string .. | .bool .. | .null _ | .regexp .. | .this _ =>
    ⟨fun _ => nofun, fun _ => ⟨_, rfl⟩⟩
  | .array _ es => succeeds_map.trans (succeeds_resolveElements es)
  | .object _ ms => succeeds_map.trans (succeeds_resolveMembers ms)
  | .function fn => succeeds_map.trans fn.succeeds_resolve
  | .assign _ _ l r | .binary _ _ l r | .logical _ _ l r | .index _ l r =>
    succeeds_both l.succeeds_resolve r.succeeds_resolve
  | .unary _ _ e | .update _ _ _ e | .member _ e _ | .label _ _ e =>
    succeeds_map.trans e.succeeds_resolve
  | .conditional _ t c a =>
    succeeds_three t.succeeds_resolve c.succeeds_resolve a.succeeds_resolve
  | .sequence _ es => succeeds_map.trans (succeeds_resolveExprs es)
  | .call _ c as | .construct _ c as =>
    succeeds_both c.succeeds_resolve (succeeds_resolveExprs as)
termination_by structural x => x

lemma succeeds_resolveExprs : ∀ es : List (Expr α),
    Succeeds (resolveExprs es) ↔ ∀ x ∈ sitesOfExprs es, x.Valid
  | [] => ⟨fun _ => nofun, fun _ => ⟨_, rfl⟩⟩
  | e :: es => succeeds_both e.succeeds_resolve (succeeds_resolveExprs es)
termination_by structural x => x

lemma succeeds_resolveExpr? : ∀ e : Option (Expr α),
    Succeeds (resolveExpr? e) ↔ ∀ x ∈ sitesOfExpr? e, x.Valid
  | none => ⟨fun _ => nofun, fun _ => ⟨_, rfl⟩⟩
  | some e => succeeds_map.trans e.succeeds_resolve
termination_by structural x => x

lemma succeeds_resolveElements : ∀ es : List (Option (Expr α)),
    Succeeds (resolveElements es) ↔ ∀ x ∈ sitesOfElements es, x.Valid
  | [] => ⟨fun _ => nofun, fun _ => ⟨_, rfl⟩⟩
  | e :: es => succeeds_both (succeeds_resolveExpr? e) (succeeds_resolveElements es)
termination_by structural x => x

lemma succeeds_resolveMembers : ∀ ms : List (Member α),
    Succeeds (resolveMembers ms) ↔ ∀ x ∈ sitesOfMembers ms, x.Valid
  | [] => ⟨fun _ => nofun, fun _ => ⟨_, rfl⟩⟩
  | .mk _ _ v :: ms => succeeds_both v.succeeds_resolve (succeeds_resolveMembers ms)
termination_by structural x => x

lemma Function.succeeds_resolve : ∀ fn : Function α,
    Succeeds fn.resolve ↔ ∀ x ∈ fn.sites, x.Valid
  | .mk _ _ _ b _ _ => succeeds_map.trans (succeeds_resolveStmts b [] List.nodup_nil)
termination_by structural x => x

lemma Stmt.succeeds_resolve : ∀ (s : Stmt α) (around : List (Stmt α)), Distinct around →
    (Succeeds (s.resolve (anchors around)) ↔ ∀ x ∈ s.sites around, x.Valid)
  | .expr e, _, _ => (succeeds_map.trans e.succeeds_resolve).trans (forall_valid_cons trivial)
  | .block b, around, hd =>
    have hb := b.succeeds_resolve (.block b :: around) (hd.cons_unlabeled rfl)
    (succeeds_map.trans hb).trans (forall_valid_cons trivial)
  | .declare _ _ ds, _, _ =>
    (succeeds_map.trans (succeeds_resolveDeclarators ds)).trans (forall_valid_cons trivial)
  | .function _ fn, _, _ =>
    (succeeds_map.trans fn.succeeds_resolve).trans (forall_valid_cons trivial)
  | .branch s t c a, around, hd =>
    have hd' : Distinct (.branch s t c a :: around) := hd.cons_unlabeled rfl
    have hc := c.succeeds_resolve _ hd'
    have ha := succeeds_resolveStmt? a _ hd'
    (succeeds_three t.succeeds_resolve hc ha).trans (forall_valid_cons trivial)
  | .choose s d cs, around, hd =>
    have hcs := succeeds_resolveCases cs (.choose s d cs :: around) (hd.cons_unlabeled rfl)
    (succeeds_both d.succeeds_resolve hcs).trans (forall_valid_cons trivial)
  | .whileLoop s t b, around, hd =>
    have hb := b.succeeds_resolve (.whileLoop s t b :: around) (hd.cons_unlabeled rfl)
    (succeeds_both t.succeeds_resolve hb).trans (forall_valid_cons trivial)
  | .doLoop s b t, around, hd =>
    have hb := b.succeeds_resolve (.doLoop s b t :: around) (hd.cons_unlabeled rfl)
    (succeeds_both hb t.succeeds_resolve).trans (forall_valid_cons trivial)
  | .forLoop s i t u b, around, hd =>
    have hd' : Distinct (.forLoop s i t u b :: around) := hd.cons_unlabeled rfl
    have hi := succeeds_resolveStmt? i _ hd'
    have hb := b.succeeds_resolve _ hd'
    (succeeds_four hi (succeeds_resolveExpr? t) (succeeds_resolveExpr? u) hb).trans
      (forall_valid_cons trivial)
  | .forIn s t e b, around, hd =>
    have hd' : Distinct (.forIn s t e b :: around) := hd.cons_unlabeled rfl
    have ht := t.succeeds_resolve _ hd'
    have hb := b.succeeds_resolve _ hd'
    (succeeds_three ht e.succeeds_resolve hb).trans (forall_valid_cons trivial)
  | .breakTo _ _ _, _, _ =>
    (succeeds_map.trans succeeds_breakTarget).trans List.forall_mem_singleton.symm
  | .continueTo _ _ _, _, hd =>
    (succeeds_map.trans (succeeds_continueTarget hd)).trans List.forall_mem_singleton.symm
  | .giveBack _ v, _, _ =>
    (succeeds_map.trans (succeeds_resolveExpr? v)).trans (forall_valid_cons trivial)
  | .raise _ v, _, _ => (succeeds_map.trans v.succeeds_resolve).trans (forall_valid_cons trivial)
  | .guarded s b hs f, around, hd =>
    have hd' : Distinct (.guarded s b hs f :: around) := hd.cons_unlabeled rfl
    have hb := b.succeeds_resolve _ hd'
    have hhs := succeeds_resolveHandlers hs _ hd'
    have hf := succeeds_resolveBlock? f _ hd'
    (succeeds_three hb hhs hf).trans (forall_valid_cons trivial)
  | .labeled s l b, around, hd => by
    refine Iff.trans ?_ List.forall_mem_cons.symm
    change Succeeds (if (findLabel l.name (anchors around)).isSome then _ else _) ↔ _
    by_cases hdup : (findLabel l.name (anchors around)).isSome = true
    · -- the label is repeated: neither side holds
      rw [if_pos hdup]
      constructor
      · rintro ⟨_, ⟨⟩⟩
      · rintro ⟨hvalid, -⟩
        rw [isSome_findLabel.2 hvalid] at hdup
        cases hdup
    · rw [if_neg hdup]
      have hnew := isSome_findLabel.1 (Bool.not_eq_true _ ▸ hdup)
      have hd' : Distinct (.labeled s l b :: around) := hd.cons fun name hname => by
        cases hname
        exact hnew
      exact (succeeds_map.trans (b.succeeds_resolve _ hd')).trans (and_iff_right hnew).symm
  | .within s o b, around, hd =>
    have hb := b.succeeds_resolve (.within s o b :: around) (hd.cons_unlabeled rfl)
    (succeeds_both o.succeeds_resolve hb).trans (forall_valid_cons trivial)
  | .empty _, _, _ | .debugger _, _, _ =>
    iff_of_true ⟨_, rfl⟩ (List.forall_mem_singleton.2 trivial)
termination_by structural x => x

lemma succeeds_resolveStmts : ∀ (ss : List (Stmt α)) (around : List (Stmt α)), Distinct around →
    (Succeeds (resolveStmts (anchors around) ss) ↔ ∀ x ∈ sitesOfStmts around ss, x.Valid)
  | [], _, _ => ⟨fun _ => nofun, fun _ => ⟨_, rfl⟩⟩
  | s :: ss, around, hd =>
    succeeds_both (s.succeeds_resolve around hd) (succeeds_resolveStmts ss around hd)
termination_by structural x => x

lemma succeeds_resolveStmt? : ∀ (s : Option (Stmt α)) (around : List (Stmt α)), Distinct around →
    (Succeeds (resolveStmt? (anchors around) s) ↔ ∀ x ∈ sitesOfStmt? around s, x.Valid)
  | none, _, _ => ⟨fun _ => nofun, fun _ => ⟨_, rfl⟩⟩
  | some s, around, hd => succeeds_map.trans (s.succeeds_resolve around hd)
termination_by structural x => x

lemma Block.succeeds_resolve : ∀ (b : Block α) (around : List (Stmt α)), Distinct around →
    (Succeeds (b.resolve (anchors around)) ↔ ∀ x ∈ b.sites around, x.Valid)
  | .mk _ b, around, hd => succeeds_map.trans (succeeds_resolveStmts b around hd)
termination_by structural x => x

lemma succeeds_resolveBlock? : ∀ (b : Option (Block α)) (around : List (Stmt α)), Distinct around →
    (Succeeds (resolveBlock? (anchors around) b) ↔ ∀ x ∈ sitesOfBlock? around b, x.Valid)
  | none, _, _ => ⟨fun _ => nofun, fun _ => ⟨_, rfl⟩⟩
  | some b, around, hd => succeeds_map.trans (b.succeeds_resolve around hd)
termination_by structural x => x

lemma succeeds_resolveDeclarators : ∀ ds : List (Declarator α),
    Succeeds (resolveDeclarators ds) ↔ ∀ x ∈ sitesOfDeclarators ds, x.Valid
  | [] => ⟨fun _ => nofun, fun _ => ⟨_, rfl⟩⟩
  | .mk _ _ init :: ds =>
    succeeds_both (succeeds_resolveExpr? init) (succeeds_resolveDeclarators ds)
termination_by structural x => x

lemma succeeds_resolveCases : ∀ (cs : List (Case α)) (around : List (Stmt α)), Distinct around →
    (Succeeds (resolveCases (anchors around) cs) ↔ ∀ x ∈ sitesOfCases around cs, x.Valid)
  | [], _, _ => ⟨fun _ => nofun, fun _ => ⟨_, rfl⟩⟩
  | .mk _ t b :: cs, around, hd =>
    succeeds_three (succeeds_resolveExpr? t) (succeeds_resolveStmts b around hd)
      (succeeds_resolveCases cs around hd)
termination_by structural x => x

lemma succeeds_resolveHandlers : ∀ (hs : List (Handler α)) (around : List (Stmt α)),
    Distinct around →
    (Succeeds (resolveHandlers (anchors around) hs) ↔ ∀ x ∈ sitesOfHandlers around hs, x.Valid)
  | [], _, _ => ⟨fun _ => nofun, fun _ => ⟨_, rfl⟩⟩
  | .mk _ _ guard b :: hs, around, hd =>
    succeeds_three (succeeds_resolveExpr? guard) (b.succeeds_resolve around hd)
      (succeeds_resolveHandlers hs around hd)
termination_by structural x => x

end

end Clearance.Script
