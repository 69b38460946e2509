/-
# Sorting an array

`sort` reads the elements, compares them, and writes them back. Between the first and the last step
only the comparisons act (`Comparisons`): they may call the comparator, or methods that convert the
elements to texts. Each comparison leaves an answer, the label of what the comparator returned, and
possibly a failure. The answers decide the order (`Quiz.Leads`), the labels are joined, and the
first failure is the failure of the sort.

So a sort does one of three things (`Ref.SortContract`). It fails with the first failure, and
nothing has been written but by the comparisons; or it writes a permutation of the elements back,
all of them with all labels; or a comparison does not come to an end. If the answers agree with a
strict weak order, the permutation is the one sorted list in which equal elements have kept their
order, with the undefined ones at its end.
-/
import Clearance.Proofs.Mutators
import Clearance.Proofs.Stability

namespace Clearance

open Clearance.Action Clearance.Library

/-! ## Comparisons -/

/-- A comparison of two elements, and what is kept of it. -/
structure Comparison where
  first : Value
  second : Value
  /-- The first one is less. -/
  answer : Bool
  /-- The label of what the comparator has returned. -/
  label : Label
  failure : Option Failure

namespace Comparison

/-- The question that has been answered. -/
def step (c : Comparison) : Value × Value × Bool := (c.first, c.second, c.answer)

/-- The first failure of several comparisons. -/
def firstFailure? (log : List Comparison) : Option Failure := log.findSome? (·.failure)

end Comparison

/-- The failure of an attempt. -/
def attemptFailure? {α : Type} : Except Failure α → Option Failure
  | .ok _ => none
  | .error f => some f

/-- How two elements are compared. Undefined is last, and is not compared any further. The others
are compared by the sign of what the comparator returns, or by their texts. What fails counts as
zero, or as the empty text. -/
inductive Compares (serve : Service) (fuel : Nat) (comparator : Option (Ref × Label)) (a b : Value)
    (s : State) : Comparison → State → Prop where
  | undefinedFirst (ha : a.raw.isUndefined = true) :
    Compares serve fuel comparator a b s ⟨a, b, false, .none, none⟩ s
  | undefinedSecond (ha : a.raw.isUndefined = false) (hb : b.raw.isUndefined = true) :
    Compares serve fuel comparator a b s ⟨a, b, true, .none, none⟩ s
  | refused (ha : a.raw.isUndefined = false) (hb : b.raw.isUndefined = false) {f : Ref} {k : Label}
    (hcomparator : comparator = some (f, k)) {e : Failure} {t : State}
    (hcall : (invokeAt k f .undefined [a, b]).run serve fuel s = .failed e t) :
    Compares serve fuel comparator a b s ⟨a, b, false, .none, some e⟩ t
  | sign (ha : a.raw.isUndefined = false) (hb : b.raw.isUndefined = false) {f : Ref} {k : Label}
    (hcomparator : comparator = some (f, k)) {r : Value} {u : State}
    (hcall : (invokeAt k f .undefined [a, b]).run serve fuel s = .done r u)
    {x : Except Failure Float} {t : State}
    (hx : (attempt (numberOf r.raw)).run serve fuel u = .done x t) :
    Compares serve fuel comparator a b s
      ⟨a, b, x.toOption.getD 0.0 < 0.0, r.label, attemptFailure? x⟩ t
  | texts (ha : a.raw.isUndefined = false) (hb : b.raw.isUndefined = false)
    (hcomparator : comparator = none) {x y : Except Failure String} {u t : State}
    (hx : (attempt (stringOf a.raw)).run serve fuel s = .done x u)
    (hy : (attempt (stringOf b.raw)).run serve fuel u = .done y t) :
    Compares serve fuel comparator a b s
      ⟨a, b, x.toOption.getD "" < y.toOption.getD "", .none,
        (attemptFailure? x).or (attemptFailure? y)⟩ t

/-- Comparisons of some elements, one after the other. -/
inductive Comparisons (serve : Service) (fuel : Nat) (comparator : Option (Ref × Label))
    (elements : List Value) : State → List Comparison → State → Prop where
  | nil (s : State) : Comparisons serve fuel comparator elements s [] s
  | cons {a b : Value} {s u t : State} {c : Comparison} {log : List Comparison}
    (ha : a ∈ elements) (hb : b ∈ elements)
    (hfirst : Compares serve fuel comparator a b s c u)
    (hrest : Comparisons serve fuel comparator elements u log t) :
    Comparisons serve fuel comparator elements s (c :: log) t

/-- A comparison of two of the given elements does not come to an end. -/
def Blocks (serve : Service) (fuel : Nat) (comparator : Option (Ref × Label))
    (elements : List Value)
    (s : State) (w : Stuck) (t : State) : Prop :=
  ∃ a ∈ elements, ∃ b ∈ elements, ∀ c,
    ((precedes comparator a b).run c).run serve fuel s = .stuck w t

/-- What has been learned after more comparisons. -/
def Library.Compared.after (c : Compared) (log : List Comparison) : Compared :=
  ⟨log.foldl (fun k e => k.join e.label) c.label, c.failure.or (Comparison.firstFailure? log)⟩

section

variable {serve : Service} {fuel : Nat} {comparator : Option (Ref × Label)} {elements : List Value}

lemma Comparisons.append {s u t : State} {log log' : List Comparison}
    (h : Comparisons serve fuel comparator elements s log u)
    (h' : Comparisons serve fuel comparator elements u log' t) :
    Comparisons serve fuel comparator elements s (log ++ log') t := by
  induction h with
  | nil s => exact h'
  | cons ha hb hfirst _ ih => exact .cons ha hb hfirst (ih h')

lemma after_append (c : Compared) (log log' : List Comparison) :
    c.after (log ++ log') = (c.after log).after log' := by
  unfold Compared.after Comparison.firstFailure?
  rw [List.foldl_append, List.findSome?_append, Option.or_assoc]

section

variable {α : Type} {p : Action α} {otherwise a : α} {f : Failure} {w : Stuck} {s t : State}

lemma run_noted_done (h : p.run serve fuel s = .done a t) (c : Compared) :
    ((noted p otherwise).run c).run serve fuel s = .done (a, c) t :=
  run_bind_done.2 ⟨(.ok a, c), t, run_bind_done.2 ⟨.ok a, t,
    run_attempt_done.2 (.inl ⟨a, rfl, h⟩), rfl⟩, rfl⟩

lemma run_noted_failed (h : p.run serve fuel s = .failed f t) (c : Compared) :
    ((noted p otherwise).run c).run serve fuel s =
      .done (otherwise, { c with failure := c.failure.or (some f) }) t :=
  run_bind_done.2 ⟨(.error f, c), t, run_bind_done.2 ⟨.error f, t,
    run_attempt_done.2 (.inr ⟨f, rfl, h⟩), rfl⟩, rfl⟩

lemma run_noted_stuck (h : p.run serve fuel s = .stuck w t) (c : Compared) :
    ((noted p otherwise).run c).run serve fuel s = .stuck w t := by
  have hattempt : (attempt p).run serve fuel s = .stuck w t := by rw [run_attempt, h]
  exact run_bind_stuck (run_bind_stuck hattempt _) _

/-- What is noted for a comparison: a result and possibly a failure, if it comes to an end. -/
lemma run_noted (p : Action α) (otherwise : α) (s : State) :
    (∃ x t, (attempt p).run serve fuel s = .done x t ∧
      ∀ c : Compared, ((noted p otherwise).run c).run serve fuel s = .done
        (x.toOption.getD otherwise, { c with failure := c.failure.or (attemptFailure? x) }) t) ∨
    ∃ w t, ∀ c : Compared, ((noted p otherwise).run c).run serve fuel s = .stuck w t := by
  cases h : p.run serve fuel s with
  | done a t =>
    refine .inl ⟨.ok a, t, run_attempt_done.2 (.inl ⟨a, rfl, h⟩), fun c => ?_⟩
    rw [run_noted_done h]
    simp [attemptFailure?, Except.toOption]
  | failed f t =>
    exact .inl ⟨.error f, t, run_attempt_done.2 (.inr ⟨f, rfl, h⟩), run_noted_failed h⟩
  | stuck w t => exact .inr ⟨w, t, run_noted_stuck h⟩

end

lemma after_singleton (c : Compared) (e : Comparison) :
    c.after [e] = ⟨c.label.join e.label, c.failure.or e.failure⟩ := by
  unfold Compared.after Comparison.firstFailure?
  cases h : e.failure <;> simp [h]

lemma join_none (k : Label) : k.join .none = k := if_pos (Nat.zero_le _)

/-- A comparison is answered, or it does not come to an end. -/
lemma run_precedes (comparator : Option (Ref × Label)) (a b : Value) (s : State) :
    (∃ e t, Compares serve fuel comparator a b s e t ∧ e.first = a ∧ e.second = b ∧
      ∀ c, ((precedes comparator a b).run c).run serve fuel s = .done (e.answer, c.after [e]) t) ∨
    ∃ w u, ∀ c, ((precedes comparator a b).run c).run serve fuel s = .stuck w u := by
  have hnothing : ∀ (c : Compared) answer, c.after [⟨a, b, answer, .none, none⟩] = c :=
    fun c _ => by
    rw [after_singleton, join_none, Option.or_none]
  -- undefined values come last and are not compared
  unfold precedes
  cases ha : a.raw.isUndefined with
  | true =>
    refine .inl ⟨_, s, .undefinedFirst ha, rfl, rfl, fun c => ?_⟩
    rw [hnothing]
    rfl
  | false =>
  cases hb : b.raw.isUndefined with
  | true =>
    refine .inl ⟨_, s, .undefinedSecond ha hb, rfl, rfl, fun c => ?_⟩
    rw [hnothing]
    rfl
  | false =>
  cases comparator with
  | some fk =>
    obtain ⟨f, k⟩ := fk
    -- a comparator is asked for a number, and may fail or not come back
    cases hcall : (invokeAt k f .undefined [a, b]).run serve fuel s with
    | done r u =>
      have hresult : (some <$> invokeAt k f .undefined [a, b]).run serve fuel s =
          .done (some r) u :=
        run_bind_done.2 ⟨r, u, hcall, rfl⟩
      rcases @run_noted serve fuel _ (numberOf r.raw) 0.0 u with
        ⟨x, t, hx, hnumber⟩ | ⟨w, t, hnumber⟩
      · refine .inl ⟨_, t, .sign ha hb rfl hcall hx, rfl, rfl, fun c => ?_⟩
        rw [after_singleton]
        exact run_bind_done.2 ⟨_, u, run_noted_done hresult c,
          run_bind_done.2 ⟨((), { c with label := c.label.join r.label }), u, rfl,
            run_bind_done.2 ⟨_, t, hnumber _, rfl⟩⟩⟩
      · exact .inr ⟨w, t, fun c =>
          (run_bind_of_done (run_noted_done hresult c) _).trans (run_bind_stuck (hnumber _) _)⟩
    | failed e t =>
      have hresult : (some <$> invokeAt k f .undefined [a, b]).run serve fuel s = .failed e t :=
        run_bind_failed hcall _
      refine .inl ⟨_, t, .refused ha hb rfl hcall, rfl, rfl, fun c => ?_⟩
      rw [after_singleton, join_none]
      exact run_bind_done.2 ⟨_, t, run_noted_failed hresult c, rfl⟩
    | stuck w t =>
      have hresult : (some <$> invokeAt k f .undefined [a, b]).run serve fuel s = .stuck w t :=
        run_bind_stuck hcall _
      exact .inr ⟨w, t, fun c => run_bind_stuck (run_noted_stuck hresult c) _⟩
  | none =>
    -- without a comparator both values are converted to texts, one after the other
    rcases @run_noted serve fuel _ (stringOf a.raw) "" s with
      ⟨x, u, hx, hfirst⟩ | ⟨w, u, hfirst⟩
    · rcases @run_noted serve fuel _ (stringOf b.raw) "" u with
        ⟨y, t, hy, hsecond⟩ | ⟨w, t, hsecond⟩
      · refine .inl ⟨_, t, .texts ha hb rfl hx hy, rfl, rfl, fun c => ?_⟩
        rw [after_singleton, join_none, ← Option.or_assoc]
        exact run_bind_done.2 ⟨_, u, hfirst c, run_bind_done.2 ⟨_, t, hsecond _, rfl⟩⟩
      · exact .inr ⟨w, t, fun c =>
          (run_bind_of_done (hfirst c) _).trans (run_bind_stuck (hsecond _) _)⟩
    · exact .inr ⟨w, u, fun c => run_bind_stuck (hfirst c) _⟩

/-- The outcomes of a run that follows a path of a tree of questions. The run does not fail, for
failures are noted. -/
def Follows {α β : Type} (serve : Service) (fuel : Nat) (comparator : Option (Ref × Label))
    (elements : List Value) (R : α → β → Prop) (q : Sort.Quiz Value β) (c : Compared) (s : State) :
    Outcome (α × Compared) → Prop
  | .done (a, c') t => ∃ b log, R a b ∧ q.Leads (log.map Comparison.step) b ∧
      Comparisons serve fuel comparator elements s log t ∧ c' = c.after log
  | .failed _ _ => False
  | .stuck w u => ∃ log t, Comparisons serve fuel comparator elements s log t ∧
      Blocks serve fuel comparator elements t w u

/-- Runs of actions of the sort, and the trees that they follow. -/
def following (serve : Service) (fuel : Nat) (comparator : Option (Ref × Label))
    (elements : List Value) : Sort.Correspondence Comparing (Sort.Quiz Value) where
  rel R p q := ∀ c s, Follows serve fuel comparator elements R q c s ((p.run c).run serve fuel s)
  pure {α β R a b} h c s :=
    ⟨b, [], h, .done b, .nil s, by simp [Compared.after, Comparison.firstFailure?]⟩
  bind {α β γ δ R S p q k l} hp hk c s := by
    have hfirst := hp c s
    cases hrun : (p.run c).run serve fuel s with
    | done r u =>
      rw [hrun] at hfirst
      obtain ⟨b, log, hr, hleads, hlog, hc⟩ := hfirst
      have hsecond := hk _ b hr r.2 u
      have hboth : ((p >>= k).run c).run serve fuel s = ((k r.1).run r.2).run serve fuel u :=
        run_bind_of_done hrun _
      rw [hboth]
      cases hrest : ((k r.1).run r.2).run serve fuel u with
      | done r' t =>
        rw [hrest] at hsecond
        obtain ⟨b', log', hr', hleads', hlog', hc'⟩ := hsecond
        refine ⟨b', log ++ log', hr', ?_, hlog.append hlog', ?_⟩
        · rw [List.map_append]
          exact hleads.bind hleads'
        · rw [hc', hc, after_append]
      | failed e t =>
        rw [hrest] at hsecond
        exact hsecond
      | stuck w t =>
        rw [hrest] at hsecond
        obtain ⟨log', v, hlog', hblocks⟩ := hsecond
        exact ⟨log ++ log', v, hlog.append hlog', hblocks⟩
    | failed e t =>
      rw [hrun] at hfirst
      exact hfirst.elim
    | stuck w t =>
      have hboth : ((p >>= k).run c).run serve fuel s = .stuck w t := run_bind_stuck hrun _
      rw [hrun] at hfirst
      rw [hboth]
      exact hfirst

/-- A comparison of two elements follows the tree of one question. -/
lemma following_precedes {a b : Value} (ha : a ∈ elements) (hb : b ∈ elements) :
    (following serve fuel comparator elements).rel Eq (precedes comparator a b)
    (.question a b) := by
  intro c s
  rcases run_precedes comparator a b s with ⟨e, t, he, rfl, rfl, hrun⟩ | ⟨w, u, hrun⟩
  · rw [hrun c]
    exact ⟨e.answer, [e], rfl, .ask (.done _), .cons ha hb he (.nil t), rfl⟩
  · rw [hrun c]
    exact ⟨[], s, .nil s, a, ha, b, hb, hrun⟩

/-- The sort of the elements follows the tree of its questions. -/
lemma following_sort (comparator : Option (Ref × Label)) (elements : List Value) (c : Compared)
    (s : State) : Follows serve fuel comparator elements Eq (Sort.sort .question elements) c s
      (((Sort.sort (precedes comparator) elements).run c).run serve fuel s) := by
  have hsort : (following serve fuel comparator elements).rel
      (List.Forall₂ fun a b => a = b ∧ a ∈ elements)
      (Sort.sort (precedes comparator) elements) (Sort.sort .question elements) := by
    refine (following serve fuel comparator elements).sort ?_ ?_
    · rintro a _ ⟨rfl, ha⟩ b _ ⟨rfl, hb⟩
      exact following_precedes ha hb
    · exact List.forall₂_same.2 fun a ha => ⟨rfl, ha⟩
  have hend := hsort c s
  cases hrun : ((Sort.sort (precedes comparator) elements).run c).run serve fuel s with
  | done r t =>
    rw [hrun] at hend
    obtain ⟨sorted, log, hsame, hrest⟩ := hend
    exact ⟨sorted, log, List.forall₂_eq_eq_eq ▸ hsame.imp fun _ _ h => h.1, hrest⟩
  | failed e t =>
    rw [hrun] at hend
    exact hend.elim
  | stuck w t =>
    rw [hrun] at hend
    exact hend

end

/-! ## What the answers say -/

/-- The answer is the one that an order gives. Undefined is not asked about. -/
def Comparison.Agrees (lt : Value → Value → Prop) (c : Comparison) : Prop :=
  c.first.raw.isUndefined = false → c.second.raw.isUndefined = false →
    (c.answer = true ↔ lt c.first c.second)

/-- The join of all labels that a sort meets. -/
def sortLabel (elements : List Value) (log : List Comparison) : Label :=
  log.foldl (fun k c => k.join c.label) (Value.joinLabels elements)

section

variable {serve : Service} {fuel : Nat} {comparator : Option (Ref × Label)} {elements : List Value}
  {s t : State} {log : List Comparison}

lemma Compares.answer_iff {a b : Value} {c : Comparison} {lt : Value → Value → Prop}
    (h : Compares serve fuel comparator a b s c t) (hagrees : c.Agrees lt) :
    c.answer = true ↔ Sort.LastOf (fun v : Value => v.raw.isUndefined) lt c.first c.second := by
  cases h with
  | undefinedFirst ha => simp [Sort.LastOf, ha]
  | undefinedSecond ha hb => simp [Sort.LastOf, ha, hb]
  | refused ha hb | sign ha hb | texts ha hb =>
    rw [hagrees ha hb, Sort.LastOf]
    simp [ha, hb]

lemma Comparisons.exists_compares (h : Comparisons serve fuel comparator elements s log t) :
    ∀ c ∈ log, ∃ a b u v, Compares serve fuel comparator a b u c v := by
  induction h with
  | nil => exact fun _ hc => absurd hc List.not_mem_nil
  | cons _ _ hfirst _ ih => exact List.forall_mem_cons.2 ⟨⟨_, _, _, _, hfirst⟩, ih⟩

/-- A path ends with a permutation, and where the answers agree with a strict weak order, with the
sorted one. -/
lemma sorts_of_leads {sorted : List Value}
    (hleads : (Sort.sort Sort.Quiz.question elements).Leads (log.map Comparison.step) sorted)
    (hlog : Comparisons serve fuel comparator elements s log t) :
    sorted.Perm elements ∧ ∀ lt, IsStrictWeakOrder Value lt → (∀ c ∈ log, c.Agrees lt) →
      ∃ front, sorted = front ++ elements.filter (·.raw.isUndefined) ∧
        Sort.StableSort lt (elements.filter fun v => !v.raw.isUndefined) front := by
  have hany := @Sort.sort_ensures Value False (fun _ _ => False) False.elim elements
  refine ⟨(hleads.of_ensures hany fun _ _ => False.elim).perm, fun lt hlt hagrees => ?_⟩
  have hright := @Sort.sort_ensures Value True (Sort.LastOf (fun v : Value => v.raw.isUndefined) lt)
    (fun _ => inferInstance) elements
  refine (hleads.of_ensures hright fun e he _ => ?_).lastOf
  obtain ⟨c, hc, rfl⟩ := List.mem_map.1 he
  obtain ⟨a, b, u, v, hcompares⟩ := hlog.exists_compares c hc
  exact hcompares.answer_iff (hagrees c hc)

lemma leq_foldl_join {α : Type} (label : α → Label) (xs : List α) (k : Label) :
    k.leq (xs.foldl (fun k x => k.join (label x)) k) = true ∧
      ∀ x ∈ xs, (label x).leq (xs.foldl (fun k x => k.join (label x)) k) = true := by
  induction xs generalizing k with
  | nil => exact ⟨Label.leq_refl k, fun _ hx => absurd hx List.not_mem_nil⟩
  | cons x xs ih =>
    obtain ⟨hjoin, hxs⟩ := ih (k.join (label x))
    have hx : (label x).leq (k.join (label x)) = true := by
      rw [Label.leq_iff, Label.height_join]
      omega
    exact ⟨Label.leq_trans (Label.leq_join_left _ (Label.leq_refl k)) hjoin,
      List.forall_mem_cons.2 ⟨Label.leq_trans hx hjoin, hxs⟩⟩

/-- The elements and what the comparator has returned have labels below the join. -/
lemma leq_sortLabel (elements : List Value) (log : List Comparison) :
    (∀ v ∈ elements, v.label.leq (sortLabel elements log) = true) ∧
      ∀ c ∈ log, c.label.leq (sortLabel elements log) = true := by
  obtain ⟨hjoin, hlog⟩ := leq_foldl_join Comparison.label log (Value.joinLabels elements)
  exact ⟨fun v hv => Label.leq_trans ((leq_foldl_join Value.label elements .none).2 v hv)
    hjoin, hlog⟩

/-! ### Texts -/

lemma run_stringOf_primitive {v : Raw} (hv : v.isPrimitive = true) (s : State) :
    (stringOf v).run serve fuel s = .done (s.store.heap.text v) s := by
  cases v <;> first | rfl | cases hv

lemma Compares.of_primitives {a b : Value} {c : Comparison} (h : Compares serve fuel none a b s c t)
    (ha : a.raw.isPrimitive = true) (hb : b.raw.isPrimitive = true) :
    t = s ∧ c.failure = none ∧
      c.Agrees fun a b => s.store.heap.text a.raw < s.store.heap.text b.raw := by
  cases h with
  | undefinedFirst hu => exact ⟨rfl, rfl, fun hfirst => absurd (hu.symm.trans hfirst) (by decide)⟩
  | undefinedSecond _ hu =>
    exact ⟨rfl, rfl, fun _ hsecond => absurd (hu.symm.trans hsecond) (by decide)⟩
  | refused _ _ hcomparator => cases hcomparator
  | sign _ _ hcomparator => cases hcomparator
  | texts _ _ _ hx hy =>
    rw [run_attempt, run_stringOf_primitive ha] at hx
    cases hx
    rw [run_attempt, run_stringOf_primitive hb] at hy
    cases hy
    exact ⟨rfl, rfl, fun _ _ => decide_eq_true_iff⟩

/-- Comparing primitives by their texts changes nothing and does not fail. -/
lemma Comparisons.of_primitives (h : Comparisons serve fuel none elements s log t)
    (helements : ∀ v ∈ elements, v.raw.isPrimitive = true) :
    t = s ∧ Comparison.firstFailure? log = none ∧
      ∀ c ∈ log, c.Agrees fun a b => s.store.heap.text a.raw < s.store.heap.text b.raw := by
  induction h with
  | nil => exact ⟨rfl, rfl, fun _ hc => absurd hc List.not_mem_nil⟩
  | cons ha hb hfirst _ ih =>
    obtain ⟨rfl, hfailure, hagrees⟩ := hfirst.of_primitives (helements _ ha) (helements _ hb)
    obtain ⟨rfl, hrest, hrest'⟩ := ih
    exact ⟨rfl, by simpa [Comparison.firstFailure?, hfailure] using hrest,
      List.forall_mem_cons.2 ⟨hagrees, hrest'⟩⟩

/-- Comparing primitives by their texts comes to an end. -/
lemma not_blocks_of_primitives {w : Stuck} (helements : ∀ v ∈ elements, v.raw.isPrimitive = true) :
    ¬Blocks serve fuel none elements s w t := by
  rintro ⟨a, ha, b, hb, hstuck⟩
  have hdone : ∃ r, ((precedes none a b).run ⟨.none, none⟩).run serve fuel s = .done r s := by
    have hfirst := @run_stringOf_primitive serve fuel _ (helements a ha) s
    have hsecond := @run_stringOf_primitive serve fuel _ (helements b hb) s
    unfold precedes
    cases a.raw.isUndefined with
    | true => exact ⟨_, rfl⟩
    | false =>
    cases b.raw.isUndefined with
    | true => exact ⟨_, rfl⟩
    | false => exact ⟨_, run_bind_done.2 ⟨_, s, run_noted_done hfirst _,
        run_bind_done.2 ⟨_, s, run_noted_done hsecond _, rfl⟩⟩⟩
  obtain ⟨r, hr⟩ := hdone
  have hboth := hr.symm.trans (hstuck ⟨.none, none⟩)
  cases hboth

/-- Texts are ordered. -/
instance (h : Heap) : IsStrictWeakOrder Value fun a b => h.text a.raw < h.text b.raw where
  irrefl a := lt_irrefl (h.text a.raw)
  trans _ _ _ := lt_trans
  incomp_trans _ _ _ hab hbc := by
    simp only [not_lt] at *
    exact ⟨hbc.1.trans hab.1, hab.2.trans hbc.2⟩

end

/-! ## The contract -/

/-- The comparator that the arguments of a sort choose. -/
inductive Chooses (args : List Value) : Option (Ref × Label) → Prop where
  | texts (h : (argAt args 0).raw.isNullish = true) : Chooses args none
  | function {f : Ref} (h : (argAt args 0).raw.callable? = some f) :
    Chooses args (some (f, (argAt args 0).label))

/-- A permutation of the elements of an array. If the answers agree with a strict weak order, the
undefined elements are at its end, and the others are in front of them, sorted and with tied
elements in the order they had. -/
structure SortsValues (elements : List Value) (log : List Comparison)
    (sorted : List Value) : Prop where
  perm : sorted.Perm elements
  ordered : ∀ lt, IsStrictWeakOrder Value lt → (∀ c ∈ log, c.Agrees lt) → ∃ front,
    sorted = front ++ elements.filter (·.raw.isUndefined) ∧
      Sort.StableSort lt (elements.filter fun v => !v.raw.isUndefined) front

section

variable {serve : Service} {fuel : Nat} {s t : State} {o : Ref} {this : Value} {args : List Value}
  {xs : List (Option Value)} {comparator : Option (Ref × Label)}

/-- What a sort does after its receiver has been read. -/
lemma run_sortArray_sortBy {n : Nat} {elements : List Value} (hchooses : Chooses args comparator)
    (hguard : (mutableArray this "sort").run serve fuel s = .done (o, n) s)
    (helements : (elementsOf o).run serve fuel s = .done elements s) :
    (sortArray this args).run serve fuel s =
      (sortBy this o n elements comparator).run serve fuel s := by
  unfold sortArray
  rw [run_bind_of_done hguard]
  dsimp only
  rw [run_bind_of_done helements]
  cases hchooses with
  | texts hnullish =>
    rw [hnullish, if_pos rfl]
    rfl
  | @function f hf =>
    have hcallback : (callbackAt args 0 "sort").run serve fuel s = .done f s := by
      simp only [callbackAt, hf, run_pure]
    rw [isNullish_of_callable hf, if_neg Bool.false_ne_true, run_bind_of_done hcallback]
    rfl

end

/-- What a sort does. -/
structure Ref.SortContract (o : Ref) (elements : List Value) (comparator : Option (Ref × Label))
    (this : Value) (args : List Value) (serve : Service) (fuel : Nat) (s : State) : Prop where
  /-- Under a program counter above the partition of the array it is refused. -/
  refused : (s.store.heap.get o.id).partition.less s.control.pc = true → ∃ t,
    (sortArray this args).run serve fuel s = .failed (.violation
      ⟨"sort", s.control.pc, (s.store.heap.get o.id).partition, s.control.file, 0⟩) t ∧
    t.store.heap = s.store.heap
  /-- The elements are compared. Unless a comparison does not come to an end, either the first
  failure is the outcome, or a permutation is written back, with the labels of all elements and
  comparisons. -/
  ends : s.control.pc.leq (s.store.heap.get o.id).partition = true →
    ∃ log t, Comparisons serve fuel comparator elements s log t ∧
      ((∃ w u, Blocks serve fuel comparator elements t w u ∧
        (sortArray this args).run serve fuel s = .stuck w u) ∨
      (∃ f, Comparison.firstFailure? log = some f ∧
        (sortArray this args).run serve fuel s = .failed f t) ∨
      (Comparison.firstFailure? log = none ∧ ∃ sorted k, SortsValues elements log sorted ∧
        (∀ v ∈ elements, v.label.leq k = true) ∧ (∀ c ∈ log, c.label.leq k = true) ∧
        ∀ ys, (t.store.heap.get o.id).Holds ys → t.store.heap.Inherits o.id Property.Plain → ∃ h',
          (sortArray this args).run serve fuel s =
            .done ((Raw.object o).labeled this.label) (t.withHeap h') ∧
          t.store.heap.Differs h' o.id Object.SameRest ∧
          (h'.get o.id).Holds (sorted.map fun v => some (v.wrap k))))
  /-- Primitives without a comparator are sorted by their texts. -/
  texts : s.control.pc.leq (s.store.heap.get o.id).partition = true → comparator = none →
    (∀ v ∈ elements, v.raw.isPrimitive = true) → ∃ front k,
      (∀ v ∈ elements, v.label.leq k = true) ∧
      Sort.StableSort (fun a b : Value => s.store.heap.text a.raw < s.store.heap.text b.raw)
        (elements.filter fun v => !v.raw.isUndefined) front ∧
      o.Becomes ((front ++ elements.filter (·.raw.isUndefined)).map fun v => some (v.wrap k))
        (sortArray this args) ((Raw.object o).labeled this.label) serve fuel s

section

variable {serve : Service} {fuel : Nat} {s : State} {o : Ref} {this : Value} {args : List Value}
  {xs : List (Option Value)} {comparator : Option (Ref × Label)} {elements : List Value} {n : Nat}

/-- After the comparisons, the sorted elements are written back, unless one of them failed. -/
lemma sortBy_ends (this : Value) (helements : elements.length ≤ maxLength) (hn : n ≤ maxLength) :
    ∃ log t, Comparisons serve fuel comparator elements s log t ∧
      ((∃ w u, Blocks serve fuel comparator elements t w u ∧
        (sortBy this o n elements comparator).run serve fuel s = .stuck w u) ∨
      (∃ f, Comparison.firstFailure? log = some f ∧
        (sortBy this o n elements comparator).run serve fuel s = .failed f t) ∨
      (Comparison.firstFailure? log = none ∧ ∃ sorted, SortsValues elements log sorted ∧
        ∀ ys, (t.store.heap.get o.id).Holds ys → t.store.heap.Inherits o.id Property.Plain → ∃ h',
          (sortBy this o n elements comparator).run serve fuel s =
            .done ((Raw.object o).labeled this.label) (t.withHeap h') ∧
          t.store.heap.Differs h' o.id Object.SameRest ∧
          (h'.get o.id).Holds (sorted.map fun v => some (v.wrap (sortLabel elements log))))) := by
  have hsort := @following_sort serve fuel comparator elements ⟨Value.joinLabels elements, none⟩ s
  cases hrun : ((Sort.sort (precedes comparator) elements).run
      ⟨Value.joinLabels elements, none⟩).run serve fuel s with
  | failed f t =>
    rw [hrun] at hsort
    exact hsort.elim
  | stuck w u =>
    rw [hrun] at hsort
    obtain ⟨log, t, hlog, hblocks⟩ := hsort
    exact ⟨log, t, hlog, .inl ⟨w, u, hblocks, run_bind_stuck hrun _⟩⟩
  | done r t =>
    rw [hrun] at hsort
    obtain ⟨sorted, compared⟩ := r
    obtain ⟨_, log, rfl, hleads, hlog, rfl⟩ := hsort
    obtain ⟨hperm, hordered⟩ := sorts_of_leads hleads hlog
    refine ⟨log, t, hlog, .inr ?_⟩
    -- the sort itself goes on after a failure, which comes out in the end
    cases hfailure : Comparison.firstFailure? log with
    | some f =>
      refine .inl ⟨f, rfl, (run_bind_of_done hrun _).trans ?_⟩
      simp only [Compared.after, hfailure]
      rfl
    | none =>
      refine .inr ⟨rfl, sorted, ⟨hperm, hordered⟩, fun ys hholds hplain => ?_⟩
      have hback : Leaves serve fuel t o.id
          (writeBack o (sorted.map fun v => v.wrap (sortLabel elements log)) n)
          (fun i => ys[i]?.join) () _ :=
        leaves_writeBack hholds.lt_size hplain _ (by rwa [List.length_map, hperm.length_eq]) hn
      obtain ⟨h', hwrite, hdiffers, hsorted⟩ :=
        (hback.give ((Raw.object o).labeled this.label)).becomes hholds
      rw [List.map_map] at hsorted
      refine ⟨h', (run_bind_of_done hrun _).trans ?_, hdiffers, hsorted⟩
      simp only [Compared.after, hfailure]
      exact hwrite

/-- Sorting an array of plain data: the permutation, its order, the labels and the failures. -/
theorem sort_is_stable_permutation (hthis : this.raw = .object o)
    (hchooses : Chooses args comparator)
    (hholds : (s.store.heap.get o.id).Holds xs) (hplain : s.store.heap.Inherits o.id Property.Plain)
    (hfuel : xs.length < fuel) :
    o.SortContract (s.store.heap.elementsAt o.id xs.length) comparator this args serve fuel s := by
  have hlength : (s.store.heap.elementsAt o.id xs.length).length = xs.length := by
    simp [Heap.elementsAt]
  have hends := @sortBy_ends serve fuel s o comparator _ _ this (hlength.le.trans hholds.bound)
    hholds.bound
  have hrun : s.control.pc.leq (s.store.heap.get o.id).partition = true →
      (sortArray this args).run serve fuel s =
        (sortBy this o xs.length (s.store.heap.elementsAt o.id xs.length) comparator).run serve fuel
          s :=
    fun hpc => run_sortArray_sortBy hchooses (run_mutableArray hthis _ hpc hholds)
      (run_elementsOf_elementsAt hholds hplain hfuel)
  refine ⟨fun hless => ?_, fun hpc => ?_, fun hpc htexts hprimitive => ?_⟩
  · obtain ⟨t, hguard, hheap⟩ := run_mutableArray_refused serve fuel hthis "sort" hless
    exact ⟨t, run_bind_failed hguard _, hheap⟩
  · rw [hrun hpc]
    obtain ⟨log, t, hlog, hstuck | hfailed | ⟨hnone, sorted, hsorted, hback⟩⟩ := hends
    · exact ⟨log, t, hlog, .inl hstuck⟩
    · exact ⟨log, t, hlog, .inr (.inl hfailed)⟩
    · obtain ⟨hlabels, hlabels'⟩ := leq_sortLabel (s.store.heap.elementsAt o.id xs.length) log
      exact ⟨log, t, hlog, .inr (.inr ⟨hnone, sorted, _, hsorted, hlabels, hlabels', hback⟩)⟩
  · subst htexts
    unfold Ref.Becomes
    rw [hrun hpc]
    obtain ⟨log, t, hlog, ⟨w, u, hblocks, -⟩ | ⟨f, hfailure, -⟩ | ⟨-, sorted, hsorted, hback⟩⟩ :=
      hends
    · exact (not_blocks_of_primitives hprimitive hblocks).elim
    · rw [(hlog.of_primitives hprimitive).2.1] at hfailure
      cases hfailure
    · obtain ⟨rfl, -, hagrees⟩ := hlog.of_primitives hprimitive
      obtain ⟨front, rfl, hfront⟩ := hsorted.ordered _ inferInstance hagrees
      exact ⟨front, _, (leq_sortLabel _ log).1, hfront, hback xs hholds hplain⟩

end

/-- The array of three elements, the second of which is a hole, is sorted by texts: its elements are
primitives. -/
theorem holed_array_sorted :
    (⟨0, .plain⟩ : Ref).SortContract
    [(Raw.ofNat 1 : Raw), Value.undefined, (Raw.ofNat 3 : Raw)] none
        (Raw.object ⟨0, .plain⟩) [] (machine .none 50 50) 50 (holdingSession holedArray) ∧
      ∀ v ∈ [(Raw.ofNat 1 : Value), Value.undefined, (Raw.ofNat 3 : Value)],
        v.raw.isPrimitive = true := by
  refine ⟨?_, by decide⟩
  have hholds : ((holdingSession holedArray).store.heap.get 0).Holds
      [some (Raw.ofNat 1), none, some (Raw.ofNat 3)] := holds_holedArray
  have helements : (holdingSession holedArray).store.heap.elementsAt 0 3 =
      [(Raw.ofNat 1 : Value), Value.undefined, (Raw.ofNat 3 : Value)] :=
    elementsAt_of_bare (o := ⟨0, .plain⟩) hholds (inherits_holedArray _)
  rw [← helements]
  exact sort_is_stable_permutation (o := ⟨0, .plain⟩) rfl (.texts rfl) hholds
    (inherits_holedArray _)
    (show 3 < 50 by decide)

end Clearance
