/-
# Code that is selected by a value

The branch of a conditional, the right operand of a short-circuit operation, the cases of a switch,
the rounds of a loop, the bodies of an enumeration, of a `with` statement and of a catch clause, and
the function that is called or constructed from: they run because of a value. `Selects` lists these
places of the evaluator. The code that is selected is started at a program counter that includes
the label of the value, and everything that it starts, functions included, runs there or above.

`Comes` says how an action gets to another one: it runs some of its parts to their ends, and there
are only idle steps in between.

Accessors and conversions are not in the list. They are called at the program counter of the
access, whatever the label of the object is. Nor is the guard of a catch clause, whose label does
not raise the program counter of the body.
-/
import Clearance.Proofs.Assign
import Clearance.Proofs.Moment
import Clearance.Proofs.Started

namespace Clearance

open Clearance.Action Script

/-! ## The course of a run -/

/-- Steps that run no code. -/
inductive Idle : {α : Type} → Action α → Prop
  | give {α : Type} (a : α) : Idle (.give a)
  | current : Idle .current
  | update {α : Type} (f : Store → α × Store) : Idle (.update f)
  | andThen {α β : Type} {p : Action β} {k : β → Action α} :
      Idle p → (∀ b, Idle (k b)) → Idle (.andThen p k)

/-- A part that has been run to its end, and what it has given. -/
structure Part where
  {α : Type}
  action : Action α
  value : α

/-- The rounds that a loop makes before it comes to another one. -/
inductive Rounds (serve : Service) (fuel : Nat) {σ α : Type} (step : σ → Action (σ ⊕ α)) :
    Nat → σ → State → σ → State → Prop
  | none {x : σ} {s : State} : Rounds serve fuel step 0 x s x s
  | next {n : Nat} {x y z : σ} {s u t : State} :
      (step x).run serve fuel s = .done (.inl y) u → Rounds serve fuel step n y u z t →
        Rounds serve fuel step (n + 1) x s z t

/-- An action runs to its end. Apart from idle steps it runs the given parts, in this order. -/
inductive Through (serve : Service) (fuel : Nat) :
    {α : Type} → Action α → State → List Part → α → State → Prop
  | part {α : Type} {p : Action α} {s t : State} {a : α} :
      p.run serve fuel s = .done a t → Through serve fuel p s [⟨p, a⟩] a t
  | idle {α : Type} {p : Action α} {s t : State} {a : α} :
      Idle p → p.run serve fuel s = .done a t → Through serve fuel p s [] a t
  | andThen {α β : Type} {p : Action β} {k : β → Action α} {s u t : State} {ps qs : List Part}
      {b : β} {a : α} :
      Through serve fuel p s ps b u → Through serve fuel (k b) u qs a t →
        Through serve fuel (.andThen p k) s (ps ++ qs) a t
  | attempt {α : Type} {p : Action α} {s t : State} {ps : List Part} {a : α} :
      Through serve fuel p s ps a t → Through serve fuel (.attempt p) s ps (.ok a) t

/-- An action comes to start another one. Apart from idle steps it has run the given parts to their
ends before, and the rounds of a loop that it is in. -/
inductive Comes (serve : Service) (fuel : Nat) :
    {α β : Type} → Action α → State → List Part → Action β → State → Prop
  | start {α : Type} {p : Action α} {s : State} : Comes serve fuel p s [] p s
  | first {α β γ : Type} {p : Action β} {k : β → Action α} {q : Action γ} {s x : State}
      {ps : List Part} :
      Comes serve fuel p s ps q x → Comes serve fuel (.andThen p k) s ps q x
  | rest {α β γ : Type} {p : Action β} {k : β → Action α} {q : Action γ} {s u x : State}
      {ps qs : List Part} {b : β} :
      Through serve fuel p s ps b u → Comes serve fuel (k b) u qs q x →
        Comes serve fuel (.andThen p k) s (ps ++ qs) q x
  | attempt {α γ : Type} {p : Action α} {q : Action γ} {s x : State} {ps : List Part} :
      Comes serve fuel p s ps q x → Comes serve fuel (.attempt p) s ps q x
  | region {α γ : Type} {pc : Label} {scope : Nat} {p : Action α} {q : Action γ} {s x : State}
      {ps : List Part} :
      Comes serve fuel p ⟨{ s.control with pc, scope }, s.store⟩ ps q x →
        Comes serve fuel (.region pc scope p) s ps q x
  | round {σ α γ : Type} {init y : σ} {step : σ → Action (σ ⊕ α)} {q : Action γ} {s u x : State}
      {ps : List Part} {n : Nat} :
      Rounds serve fuel step n init s y u → n < fuel → Comes serve fuel (step y) u ps q x →
        Comes serve fuel (.loop init step) s ps q x

section

variable {serve : Service} {chronicle : Chronicle} {fuel : Nat} {α β γ : Type}

lemma Through.run {p : Action α} {s t : State} {ps : List Part} {a : α}
    (h : Through serve fuel p s ps a t) : p.run serve fuel s = .done a t := by
  induction h with
  | part hrun => exact hrun
  | idle _ hrun => exact hrun
  | andThen _ _ ihp ihk => exact run_bind_done.2 ⟨_, _, ihp, ihk⟩
  | attempt _ ih => exact run_attempt_done.2 (.inl ⟨_, rfl, ih⟩)

/-- The rounds of a loop are among its moments. -/
lemma Rounds.mem_moments {σ : Type} {step : σ → Action (σ ⊕ α)} {n m : Nat} {x y : σ} {s u : State}
    (h : Rounds serve fuel step n x s y u) (hn : n < m) {cs : List Control} :
    (step y).moments serve chronicle fuel cs u ⊆
      iterateMoments (fun x s => (step x).run serve fuel s)
        (fun x s => (step x).moments serve chronicle fuel cs s) m x s := by
  induction h generalizing m with
  | none =>
    obtain ⟨m, rfl⟩ := Nat.exists_eq_succ_of_ne_zero (Nat.ne_of_gt hn)
    exact List.subset_append_left _ _
  | next hround _ ih =>
    obtain ⟨m, rfl⟩ := Nat.exists_eq_succ_of_ne_zero (Nat.ne_zero_of_lt hn)
    rw [iterateMoments, hround]
    exact List.subset_append_of_subset_right _ (ih (Nat.lt_of_succ_lt_succ hn))

namespace Comes

/-- What an action comes to is started in its run, and so is everything that starts there. -/
lemma moments {p : Action α} {q : Action β} {s x : State} {ps : List Part}
    (h : Comes serve fuel p s ps q x) (cs : List Control) :
    q.moments serve chronicle fuel cs x ⊆ p.moments serve chronicle fuel cs s := by
  induction h with
  | start => exact List.Subset.refl _
  | first _ ih => exact fun m hm => mem_moments_first _ (ih hm)
  | rest hthrough _ ih => exact fun m hm => mem_moments_rest hthrough.run (ih hm)
  | attempt _ ih | region _ ih => exact List.subset_cons_of_subset _ ih
  | round hrounds hn _ ih =>
    exact List.subset_cons_of_subset _ (List.Subset.trans ih (hrounds.mem_moments hn))

lemma trans {p : Action α} {q : Action β} {r : Action γ} {s x y : State} {ps qs : List Part}
    (h : Comes serve fuel p s ps q x) (h' : Comes serve fuel q x qs r y) :
    Comes serve fuel p s (ps ++ qs) r y := by
  induction h with
  | start => exact h'
  | first _ ih => exact .first (ih h')
  | rest hthrough _ ih =>
    rw [List.append_assoc]
    exact .rest hthrough (ih h')
  | attempt _ ih => exact .attempt (ih h')
  | region _ ih => exact .region (ih h')
  | round hrounds hn _ ih => exact .round hrounds hn (ih h')

end Comes

/-! ## Idle steps -/

namespace Idle

lemma pure (a : α) : Idle (Pure.pure a : Action α) := .give a

lemma bind {p : Action β} {k : β → Action α} (hp : Idle p) (hk : ∀ b, Idle (k b)) :
    Idle (p >>= k) := .andThen hp hk

lemma look (f : Store → α) : Idle (Action.look f) := .update _

lemma realm : Idle Action.realm := bind .current fun _ => pure _

lemma pc : Idle Action.pc := bind .current fun _ => pure _

lemma trace (e : Event) : Idle (Action.trace e) :=
  bind realm fun _ => by
    split
    · exact .update _
    · exact pure _

lemma raisedPc (kind : String) (line : Nat) (k : Label) :
    Idle (Clearance.raisedPc kind line k) :=
  bind pc fun _ => by
    dsimp only
    split_ifs
    · exact pure _
    · exact bind (trace _) fun _ => pure _
    · exact pure _

lemma newStore (partition : Label) : Idle (Clearance.newStore partition) := .update _

lemma newFrame (parent : Nat) : Idle (Clearance.newFrame parent) :=
  bind realm fun _ => bind (newStore _) fun _ => bind (newStore _) fun _ => .update _

lemma receiverOf (op : Operand) : Idle (Clearance.receiverOf op) := by
  unfold Clearance.receiverOf
  split
  · exact bind (look _) fun _ => by
      split
      · exact pure _
      · exact pure _
  · exact pure _

end Idle

/-! ## Raised program counters -/

/-- A state with another program counter. -/
def State.at (s : State) (pc : Label) : State := ⟨{ s.control with pc }, s.store⟩

/-- An action comes to start another one at a program counter that is at least `k`. -/
def StartsAbove (serve : Service) (fuel : Nat) (p : Action α) (s : State) (ps : List Part)
    (k : Label) (q : Action β) : Prop :=
  ∃ x, Comes serve fuel p s ps q x ∧ k.leq x.control.pc = true

lemma Label.leq_raised (pc k : Label) : k.leq (pc.raised k) = true := by
  rw [leq_iff, height_raised]
  exact Nat.le_max_right _ _

lemma Label.leq_raised_left (pc k : Label) : pc.leq (pc.raised k) = true := by
  rw [leq_iff, height_raised]
  exact Nat.le_max_left _ _

lemma comes_withPc {pc : Label} {p : Action α} {q : Action β} {s x : State} {ps : List Part}
    (h : Comes serve fuel p (s.at pc) ps q x) : Comes serve fuel (withPc pc p) s ps q x :=
  .rest (.idle .current (run_current s)) (.region h)

namespace StartsAbove

variable {k : Label} {q : Action γ} {s u : State} {ps qs : List Part}

lemma rest {p : Action β} {f : β → Action α} {b : β} (hp : Through serve fuel p s ps b u)
    (h : StartsAbove serve fuel (f b) u qs k q) :
    StartsAbove serve fuel (p >>= f) s (ps ++ qs) k q := by
  obtain ⟨x, hcomes, hk⟩ := h
  exact ⟨x, .rest hp hcomes, hk⟩

lemma first {p : Action β} (f : β → Action α) (h : StartsAbove serve fuel p s ps k q) :
    StartsAbove serve fuel (p >>= f) s ps k q := by
  obtain ⟨x, hcomes, hk⟩ := h
  exact ⟨x, .first hcomes, hk⟩

/-- A part is run, and its value decides how it goes on. -/
lemma after {p : Action β} {f : β → Action α} {b : β} (hp : p.run serve fuel s = .done b u)
    (h : StartsAbove serve fuel (f b) u ps k q) :
    StartsAbove serve fuel (p >>= f) s (⟨p, b⟩ :: ps) k q :=
  rest (.part hp) h

lemma idle {p : Action β} {f : β → Action α} {b : β} (hidle : Idle p)
    (hp : p.run serve fuel s = .done b u) (h : StartsAbove serve fuel (f b) u ps k q) :
    StartsAbove serve fuel (p >>= f) s ps k q :=
  rest (.idle hidle hp) h

lemma guarded {p : Action β} {f : β → Action Completion} {b : β} (line : Nat)
    (hp : p.run serve fuel s = .done b u) (h : StartsAbove serve fuel (f b) u ps k q) :
    StartsAbove serve fuel (Clearance.guarded line p f) s (⟨p, b⟩ :: ps) k q :=
  rest (.attempt (.part hp)) h

/-- The selected code begins with an action, which is started with it. -/
lemma begins {p : Action α} {r : Action β} (h : StartsAbove serve fuel p s ps k r)
    (hr : ∀ x, Comes serve fuel r x [] q x) : StartsAbove serve fuel p s ps k q := by
  obtain ⟨x, hcomes, hk⟩ := h
  refine ⟨x, ?_, hk⟩
  rw [← List.append_nil ps]
  exact hcomes.trans (hr x)

/-- A region that is controlled by a label. -/
lemma controlled (kind : String) (line : Nat) (k : Label) (p : Action α) (s : State) :
    StartsAbove serve fuel (Clearance.controlled kind line k p) s [] k p := by
  obtain ⟨store, hrun, -, -⟩ := run_raisedPc serve fuel kind line k s
  exact ⟨_, .rest (.idle (.raisedPc kind line k) hrun) (comes_withPc .start),
    Label.leq_raised s.control.pc k⟩

end StartsAbove

/-! ## Loops -/

/-- The rounds of a loop that is at a label. -/
abbrev LabelRounds (serve : Service) (fuel : Nat) (round : Action (Label ⊕ Completion)) :=
  Rounds serve fuel fun pc => withPc pc round

namespace Rounds

variable {σ : Type} {step : σ → Action (σ ⊕ α)} {n m : Nat} {x y z : σ} {s u t : State}

lemma trans (h : Rounds serve fuel step n x s y u) (h' : Rounds serve fuel step m y u z t) :
    Rounds serve fuel step (n + m) x s z t := by
  induction h with
  | none => rwa [Nat.zero_add]
  | next hround _ ih =>
    rw [Nat.succ_add]
    exact .next hround (ih h')

end Rounds

/-- The labels of a loop rise if those of its rounds do. -/
lemma LabelRounds.rises {round : Action (Label ⊕ Completion)}
    (hround : ∀ l s l' u, (withPc l round).run serve fuel s = .done (.inl l') u →
      l.leq l' = true) {n : Nat} {l l' : Label} {s u : State}
    (h : LabelRounds serve fuel round n l s l' u) : l.leq l' = true := by
  induction h with
  | none => exact Label.leq_refl _
  | next hrun _ ih => exact Label.leq_trans (hround _ _ _ _ hrun) ih

/-- A round is started at the label that the loop has come to. -/
lemma comes_repeated {round : Action (Label ⊕ Completion)} {q : Action γ} {n : Nat} {l : Label}
    {s u x : State} {ps : List Part} (hrounds : LabelRounds serve fuel round n s.control.pc s l u)
    (hn : n < fuel) (h : Comes serve fuel round (u.at l) ps q x) :
    Comes serve fuel (repeated round) s ps q x :=
  .rest (.idle .pc (run_pc s)) (.round hrounds hn (comes_withPc h))

/-- What a test decides. -/
lemma pass_done {t : Test} {kind : String} {line : Nat} {s u : State} {l : Label}
    (hrun : (t.pass kind line).run serve fuel s = .done (.inl l) u) :
    ∃ r v, (valueOf t.action).run serve fuel s = .done r v ∧ l = v.control.pc.raised r.label := by
  obtain ⟨o, v, htest, hrest⟩ := run_bind_done.1 hrun
  rcases run_attempt_done.1 htest with ⟨r, rfl, hr⟩ | ⟨f, rfl, -⟩
  · obtain ⟨store, hraised, -, -⟩ := run_raisedPc serve fuel kind line r.label v
    obtain ⟨l', w, hl, hlast⟩ := run_bind_done.1 hrest
    rw [hraised] at hl
    cases hl
    split_ifs at hlast
    · cases hlast
      exact ⟨r, v, hr, rfl⟩
    · cases hlast
  · obtain ⟨c, w, -, hlast⟩ := run_bind_done.1 hrest
    cases hlast

/-- A test is passed. -/
lemma through_pass {t : Test} {kind : String} {line : Nat} {s v : State} {r : Rated}
    (hr : (valueOf t.action).run serve fuel s = .done r v) (htruth : r.raw.truth = true) :
    ∃ w, Through serve fuel (t.pass kind line) s [⟨valueOf t.action, r⟩]
      (.inl (v.control.pc.raised r.label)) w := by
  obtain ⟨store, hraised, -, -⟩ := run_raisedPc serve fuel kind line r.label v
  refine ⟨_, .andThen (.attempt (.part hr)) (.andThen (.idle (.raisedPc kind line r.label) hraised)
    (.idle (t := ⟨v.control, store⟩) ?_ ?_))⟩
  · rw [if_pos htruth]
    exact .pure _
  · rw [if_pos htruth]
    rfl

lemma run_withPc_done {l : Label} {p : Action α} {s u : State} {a : α}
    (hrun : (withPc l p).run serve fuel s = .done a u) :
    ∃ v, p.run serve fuel (s.at l) = .done a v := by
  rw [run_withPc, run_region, Outcome.mapState_eq_done] at hrun
  obtain ⟨v, hv, -⟩ := hrun
  exact ⟨v, hv⟩

/-- A round that is over hands on the label with which it has been entered. -/
lemma afterTest_done {body : Action Completion} {step : Option Test} {pc l : Label} {s u : State}
    (hrun : (afterTest body step pc).run serve fuel s = .done (.inl l) u) : l = pc := by
  obtain ⟨c, v, -, hrest⟩ := run_bind_done.1 hrun
  split at hrest
  · cases hrest
  · split at hrest
    · cases hrest
      rfl
    · obtain ⟨o, w, -, hlast⟩ := run_bind_done.1 hrest
      cases o with
      | ok r =>
        cases hlast
        rfl
      | error f =>
        obtain ⟨_, _, -, ⟨⟩⟩ := run_bind_done.1 hlast

/-- A round of a loop that tests first hands on its label, raised by that of the test. -/
lemma whileRound_done (hserve : serve.KeepsControl) {kind : String} {line : Nat} {t : Test}
    {body : Action Completion} {step : Option Test} {l l' : Label} {s u : State}
    (hrun : (withPc l (whileRound kind line (some t) body step)).run serve fuel s =
      .done (.inl l') u) :
    ∃ r v, (valueOf t.action).run serve fuel (s.at l) = .done r v ∧ l' = l.raised r.label := by
  obtain ⟨_, hround⟩ := run_withPc_done hrun
  obtain ⟨o, w, hpass, hrest⟩ := run_bind_done.1 hround
  cases o with
  | inr c => cases hrest
  | inl pc =>
    obtain ⟨_, hafter⟩ := run_withPc_done hrest
    obtain ⟨r, v, hr, hpc⟩ := pass_done hpass
    have hcontrol : v.control.pc = l := by rw [run_done_control hserve hr]; rfl
    exact ⟨r, v, hr, by rw [afterTest_done hafter, hpc, hcontrol]⟩

/-- So does a round of a loop that tests last. -/
lemma doRound_done (hserve : serve.KeepsControl) {line : Nat} {body : Action Completion} {t : Test}
    {l l' : Label} {s u : State}
    (hrun : (withPc l (doRound line body t)).run serve fuel s = .done (.inl l') u) :
    ∃ c v r w, body.run serve fuel (s.at l) = .done c v ∧
      (valueOf t.action).run serve fuel v = .done r w ∧ l' = l.raised r.label := by
  obtain ⟨_, hround⟩ := run_withPc_done hrun
  obtain ⟨c, v, hbody, hrest⟩ := run_bind_done.1 hround
  split at hrest
  · cases hrest
  · obtain ⟨r, w, hr, hpc⟩ := pass_done hrest
    have hcontrol : w.control.pc = l := by
      rw [run_done_control hserve hr, run_done_control hserve hbody]
      rfl
    exact ⟨c, v, r, w, hbody, hr, by rw [hpc, hcontrol]⟩

/-- A label that a round has handed on is included in all later rounds. -/
lemma startsAbove_later {round : Action (Label ⊕ Completion)} {k l l' l'' : Label} {n m : Nat}
    {s u v w : State}
    (hrise : ∀ l s l' u, (withPc l round).run serve fuel s = .done (.inl l') u → l.leq l' = true)
    (hrounds : LabelRounds serve fuel round n s.control.pc s l u)
    (hround : (withPc l round).run serve fuel u = .done (.inl l') v) (hk : k.leq l' = true)
    (hlater : LabelRounds serve fuel round m l' v l'' w) (hm : n + (m + 1) < fuel) :
    StartsAbove serve fuel (repeated round) s [] k round :=
  ⟨w.at l'', comes_repeated (hrounds.trans (.next hround hlater)) hm .start,
    Label.leq_trans hk (hlater.rises hrise)⟩

end

/-! ## Selected code -/

/-- A value of label `k` selects code: the action comes to it through the given parts, and the
value decides that it does. -/
inductive Selects (serve : Service) (fuel : Nat) :
    {α β : Type} → Action α → State → List Part → Label → Action β → Prop
  /-- The branch of a conditional statement. -/
  | branch {span : Span} {test : Expr Span} {yes : Stmt Span} {no : Option (Stmt Span)}
      {s u : State} {t : Rated} : (valueOf test.action).run serve fuel s = .done t u →
      Selects serve fuel (Stmt.branch span test yes no).action s [⟨valueOf test.action, t⟩] t.label
        (if t.raw.truth then yes.action else alternative no)
  /-- The branch of a conditional expression. -/
  | conditional {span : Span} {test yes no : Expr Span} {s u : State} {t : Rated} :
      (valueOf test.action).run serve fuel s = .done t u →
      Selects serve fuel (Expr.conditional span test yes no).action s [⟨valueOf test.action, t⟩]
        t.label (valueOf (if t.raw.truth then yes.action else no.action))
  /-- The right operand of a conjunction. -/
  | conjunction {span : Span} {left right : Expr Span} {s u : State} {l : Rated} :
      (valueOf left.action).run serve fuel s = .done l u → l.raw.truth = true →
      Selects serve fuel (Expr.logical span .and left right).action s [⟨valueOf left.action, l⟩]
        l.label (valueOf right.action)
  /-- The right operand of a disjunction. -/
  | disjunction {span : Span} {left right : Expr Span} {s u : State} {l : Rated} :
      (valueOf left.action).run serve fuel s = .done l u → l.raw.truth = false →
      Selects serve fuel (Expr.logical span .or left right).action s [⟨valueOf left.action, l⟩]
        l.label (valueOf right.action)
  /-- The tests and the bodies of a switch, by its value. -/
  | switch {span : Span} {value : Expr Span} {cases : List (Case Span)} {s u : State} {v : Rated} :
      (valueOf value.action).run serve fuel s = .done v u →
      Selects serve fuel (Stmt.choose span value cases).action s [⟨valueOf value.action, v⟩] v.label
        (chooseCase span.start.line v.raw (caseActions cases) (caseActions cases))
  /-- The bodies from a case on, or the further tests, by the test of the case. -/
  | case {line : Nat} {value : Raw} {all cases : List (Case Span)} {span : Span} {test : Expr Span}
      {body : List (Stmt Span)} {s u : State} {t : Rated} :
      (valueOf test.action).run serve fuel s = .done t u →
      Selects serve fuel
        (chooseCase line value (caseActions all) (caseActions (.mk span (some test) body :: cases)))
        s [⟨valueOf test.action, t⟩] t.label
        (if t.raw.same value then runCases (caseActions (.mk span (some test) body :: cases))
          else chooseCase line value (caseActions all) (caseActions cases))
  /-- What is left of a round when the test of a loop has been passed. -/
  | passed {kind : String} {line : Nat} {test : Expr Span} {body : Stmt Span}
      {step : Option (Expr Span)} {n : Nat} {l : Label} {s u v : State} {t : Rated} :
      LabelRounds serve fuel
        (whileRound kind line (some (testOf test)) body.action (step.map testOf)) n
        s.control.pc s l u → n < fuel →
      (valueOf test.action).run serve fuel (u.at l) = .done t v → t.raw.truth = true →
      Selects serve fuel
        (whileLoop kind line (some (testOf test)) body.action (step.map testOf)) s
        [⟨valueOf test.action, t⟩] t.label
        (afterTest body.action (step.map testOf) (v.control.pc.raised t.label))
  /-- The later rounds of a loop that tests first, with their tests. -/
  | again {kind : String} {line : Nat} {test : Expr Span} {body : Stmt Span}
      {step : Option (Expr Span)} {n m : Nat} {l l' l'' : Label} {s u v w x : State} {t : Rated} :
      LabelRounds serve fuel
        (whileRound kind line (some (testOf test)) body.action (step.map testOf)) n
        s.control.pc s l u →
      (valueOf test.action).run serve fuel (u.at l) = .done t v →
      (withPc l (whileRound kind line (some (testOf test)) body.action
        (step.map testOf))).run serve fuel u = .done (.inl l') w →
      LabelRounds serve fuel
        (whileRound kind line (some (testOf test)) body.action (step.map testOf)) m l' w l'' x →
      n + (m + 1) < fuel →
      Selects serve fuel
        (whileLoop kind line (some (testOf test)) body.action (step.map testOf)) s [] t.label
        (whileRound kind line (some (testOf test)) body.action (step.map testOf))
  /-- The later rounds of a loop that tests last. -/
  | doAgain {line : Nat} {test : Expr Span} {body : Stmt Span} {n m : Nat} {l l' l'' : Label}
      {c : Completion} {s u v v' w x : State} {t : Rated} :
      LabelRounds serve fuel (doRound line body.action (testOf test)) n s.control.pc s l u →
      body.action.run serve fuel (u.at l) = .done c v →
      (valueOf test.action).run serve fuel v = .done t v' →
      (withPc l (doRound line body.action (testOf test))).run serve fuel u = .done (.inl l') w →
      LabelRounds serve fuel (doRound line body.action (testOf test)) m l' w l'' x →
      n + (m + 1) < fuel →
      Selects serve fuel (doLoop line body.action (testOf test)) s [] t.label
        (doRound line body.action (testOf test))
  /-- The assignments and the body of an enumeration. -/
  | enumeration {line sourceLine targetLine : Nat} {path : Option String} {source : Expr Span}
      {target body : Stmt Span} {before : Action Completion} {place : Action Operand}
      {s u v : State} {r : Rated} {o : Ref} :
      enumTarget target = .place before targetLine place →
      (valueOf source.action).run serve fuel s = .done r u →
      (r.raw.isNullish && !u.control.realm.strictEnumeration) = false →
      (toObject path r.raw).run serve fuel u = .done o v →
      Selects serve fuel
        (enumeration line sourceLine path source.action targetLine place body.action) s
        [⟨valueOf source.action, r⟩, ⟨toObject path r.raw, o⟩] r.label
        (look (fun s => s.heap.enumerable o.id) >>=
          eachName targetLine o r.label place body.action)
  /-- The body of a `with` statement. -/
  | within {span : Span} {object : Expr Span} {body : Stmt Span} {s u v : State} {r : Rated}
      {o : Ref} : (valueOf object.action).run serve fuel s = .done r u →
      (toObject (path? object) r.raw).run serve fuel u = .done o v →
      Selects serve fuel (Stmt.within span object body).action s
        [⟨valueOf object.action, r⟩, ⟨toObject (path? object) r.raw, o⟩] r.label body.action
  /-- A catch clause, by the thrown value. -/
  | clause {thrown : Value} {line : Nat} {h : Handler Span} {hs : List (Handler Span)} {s : State} :
      Selects serve fuel (handle thrown line (clauses (h :: hs))) s [] thrown.label
        ((clause h).inside thrown)
  /-- The first catch clause of a statement whose block has thrown. -/
  | thrown {span : Span} {body : Block Span} {h : Handler Span} {hs : List (Handler Span)}
      {final : Option (Block Span)} {s u : State} {v : Value} {line : Nat} :
      body.action.run serve fuel s = .done (.thrown v line) u →
      Selects serve fuel (Stmt.guarded span body (h :: hs) final).action s
        [⟨body.action, .thrown v line⟩] v.label ((clause h).inside v)
  /-- The function that is called. -/
  | call {span : Span} {callee : Expr Span} {args : List (Expr Span)} {s u v w x : State}
      {target : Operand} {f : Rated} {vs : List Value} {fn : Ref} {this : Value} :
      callee.action.run serve fuel s = .done target u →
      target.resolve.run serve fuel u = .done f v →
      (valuesOf (actions args)).run serve fuel v = .done vs w →
      f.raw.callable? = some fn → (receiverOf target).run serve fuel w = .done this x →
      Selects serve fuel (Expr.call span callee args).action s
        [⟨callee.action, target⟩, ⟨target.resolve, f⟩, ⟨valuesOf (actions args), vs⟩] f.label
        (call fn this vs)
  /-- The function that is constructed from. -/
  | construct {span : Span} {callee : Expr Span} {args : List (Expr Span)} {s u v : State}
      {f : Rated} {vs : List Value} {fn : Ref} :
      (valueOf callee.action).run serve fuel s = .done f u →
      (valuesOf (actions args)).run serve fuel u = .done vs v →
      f.raw.object? = some fn → v.store.heap.isConstructor f.raw = true →
      Selects serve fuel (Expr.construct span callee args).action s
        [⟨valueOf callee.action, f⟩, ⟨valuesOf (actions args), vs⟩] f.label
        (invoke (.construct fn vs))

section

variable {serve : Service} {fuel : Nat} {α β : Type}

/-- Selected code is composed. -/
lemma Selects.routine {p : Action α} {q : Action β} {s : State} {ps : List Part} {k : Label}
    (h : Selects serve fuel p s ps k q) {site : Site} (hfloor : site.floor = k)
    (hrecording : site.recording = true) {W : Nat → Prop} : Routine site W q := by
  refine Lasting.routine ?_
  cases h with
  | branch => exact .ite (fun _ => neat_stmt hrecording _) fun _ => neat_alternative hrecording _
  | conditional => exact neat_valueOf (.ite (fun _ => neat_expr _) fun _ => neat_expr _)
  | conjunction | disjunction => exact neat_valueOf (neat_expr _)
  | switch => exact neat_chooseCase _ _ (neat_cases hrecording _) (neat_cases hrecording _)
  | case =>
    refine .ite (fun _ => neat_runCases (neat_cases hrecording _)) fun _ => ?_
    exact neat_chooseCase _ _ (neat_cases hrecording _) (neat_cases hrecording _)
  | passed =>
    exact (lasting_afterTest (neat_stmt hrecording _) neat_testOf
      (hfloor ▸ Label.leq_raised _ _)).neat
  | again =>
    exact (lasting_whileRound _ _ (by rintro _ ⟨⟩; exact neat_expr _) (neat_stmt hrecording _)
      neat_testOf).neat
  | doAgain => exact (lasting_doRound _ (neat_stmt hrecording _) (neat_expr _)).neat
  | enumeration htarget =>
    exact .seq (.look _) fun _ => neat_eachName _ _ _ (neat_enumTarget _ htarget).2
      (neat_stmt hrecording _) _
  | within => exact neat_stmt hrecording _
  | clause | thrown => exact neat_clauseInside (neat_clause hrecording _) _
  | call | construct => exact .invoke

lemma startsAbove_runClause (c : Clause) (thrown : Value) (s : State) :
    StartsAbove serve fuel (c.run thrown) s [] thrown.label (c.inside thrown) := by
  obtain ⟨store, hrun, -, -⟩ := run_raisedPc serve fuel "CatchClause" c.line thrown.label s
  rw [Clause.run_eq]
  refine .idle (.raisedPc ..) hrun (.idle .current rfl (.idle (.newFrame _) rfl ?_))
  exact ⟨_, .region .start, Label.leq_raised s.control.pc thrown.label⟩

lemma startsAbove_within (line objectLine : Nat) (path : Option String) {object : Action Operand}
    (body : Action Completion) {s u v : State} {r : Rated} {o : Ref}
    (hobject : (valueOf object).run serve fuel s = .done r u)
    (ho : (toObject path r.raw).run serve fuel u = .done o v) :
    StartsAbove serve fuel (withStatement line objectLine path object body) s
      [⟨valueOf object, r⟩, ⟨toObject path r.raw, o⟩] r.label body := by
  refine .guarded _ hobject (.guarded _ ho ?_)
  obtain ⟨store, hrun, -, -⟩ := run_raisedPc serve fuel "WithStatement" line r.label v
  refine .idle (.raisedPc ..) hrun (.idle .realm (run_realm _) (.idle .current rfl ?_))
  dsimp only
  split_ifs
  all_goals
    refine .idle (.newStore _) rfl (.idle (.pure _) rfl (.idle (.update _) rfl ?_))
    exact ⟨_, .region .start, Label.leq_raised v.control.pc r.label⟩

/-- Selected code is started at the label of the value that selects it. -/
lemma Selects.startsAbove (hserve : serve.KeepsControl) {p : Action α} {q : Action β} {s : State}
    {ps : List Part} {k : Label} (h : Selects serve fuel p s ps k q) :
    StartsAbove serve fuel p s ps k q := by
  cases h with
  | branch htest =>
    rw [Script.Stmt.action]
    exact .guarded _ htest (.controlled ..)
  | conditional htest =>
    rw [Script.Expr.action]
    exact .after htest (.begins (.controlled ..) fun _ => .first .start)
  | conjunction hleft htruth =>
    rw [Script.Expr.action]
    refine .after hleft ?_
    simp only [htruth, if_true]
    exact .begins (.controlled ..) fun _ => .first .start
  | disjunction hleft htruth =>
    rw [Script.Expr.action]
    refine .after hleft ?_
    simp only [htruth, Bool.false_eq_true, if_false]
    exact .begins (.controlled ..) fun _ => .first .start
  | switch hvalue =>
    rw [Script.Stmt.action]
    exact .guarded _ hvalue (.controlled ..)
  | case htest =>
    rw [caseActions, caseAction, chooseCase]
    exact .guarded _ htest (.controlled ..)
  -- the body of a loop starts after a test, of the first round or of a later one
  | passed hrounds hn htest htruth =>
    rw [whileLoop_eq]
    obtain ⟨w, hpass⟩ := through_pass (t := testOf _) htest htruth
    exact ⟨_, comes_repeated hrounds hn (.rest hpass (comes_withPc .start)),
      Label.leq_raised _ _⟩
  | again hrounds htest hround hlater hm =>
    rw [whileLoop_eq]
    refine startsAbove_later (fun l s l' u hrun => ?_) hrounds hround ?_ hlater hm
    · obtain ⟨r, v, -, rfl⟩ := whileRound_done hserve hrun
      exact Label.leq_raised_left l r.label
    · obtain ⟨r, v, hr, rfl⟩ := whileRound_done hserve hround
      have hsame := htest.symm.trans hr
      cases hsame
      exact Label.leq_raised _ _
  | doAgain hrounds hbody htest hround hlater hm =>
    rw [doLoop_eq]
    refine startsAbove_later (fun l s l' u hrun => ?_) hrounds hround ?_ hlater hm
    · obtain ⟨_, _, r, _, -, -, rfl⟩ := doRound_done hserve hrun
      exact Label.leq_raised_left l r.label
    · obtain ⟨_, _, r, _, hc, hr, rfl⟩ := doRound_done hserve hround
      rw [hbody] at hc
      cases hc
      have hsame := htest.symm.trans hr
      cases hsame
      exact Label.leq_raised _ _
  | enumeration _ hsource hnullish ho =>
    refine .guarded _ hsource (.idle .realm (run_realm _) ?_)
    simp only [hnullish, Bool.false_eq_true, if_false]
    exact .guarded _ ho (.controlled ..)
  | within hobject ho =>
    rw [Script.Stmt.action]
    exact startsAbove_within _ _ _ _ hobject ho
  | clause =>
    rw [clauses, handle]
    exact .first _ (startsAbove_runClause ..)
  | thrown hbody =>
    rw [Script.Stmt.action, clauses]
    refine .after hbody (.first _ ?_)
    rw [handle]
    exact .first _ (startsAbove_runClause ..)
  | call hcallee hresolve hargs hfn hthis =>
    rw [Script.Expr.action]
    refine .after hcallee (.after hresolve (.after hargs ?_))
    simp only [hfn]
    exact .idle (.receiverOf _) hthis (.first _ (.controlled ..))
  | construct hcallee hargs hobject hconstructor =>
    rw [Script.Expr.action]
    refine .after hcallee (.after hargs (.idle (.look _) rfl ?_))
    simp only [hobject, hconstructor]
    exact .first _ (.controlled ..)

end

/-- Regions and activations do not sink below their floor. -/
lemma carried_floor (k : Label) : Carried k fun _ c => k.leq c.pc = true :=
  ⟨fun _ hpc => hpc, fun _ hpc _ => hpc⟩

/-- **Selected code runs at the label of what selects it.** Whenever a value of label `k` selects
code in the course of an action, the action comes to start the code, through the given parts, at a
program counter that is at least `k`; and at every moment from then on until the code ends, with all
the functions that it calls, the program counter is at least `k`. -/
theorem selected_above {hosts : Hosts} {k : Label} (hhosts : hosts.Composed k)
    (rounds levels : Nat) {α β : Type} {p : Action α} {q : Action β} {s : State} {ps : List Part}
    (h : Selects (machine hosts rounds levels) rounds p s ps k q) (cs : List Control) :
    ∃ x, Comes (machine hosts rounds levels) rounds p s ps q x ∧ k.leq x.control.pc = true ∧
      q.momentsOn hosts rounds levels cs x ⊆ p.momentsOn hosts rounds levels cs s ∧
      ∀ m ∈ q.momentsOn hosts rounds levels cs x, k.leq m.state.control.pc = true := by
  have hserve := machine_keepsControl hosts rounds levels
  obtain ⟨x, hcomes, hk⟩ := h.startsAbove hserve
  refine ⟨x, hcomes, hk, hcomes.moments cs, ?_⟩
  let site : Site := ⟨k, some x.control.level, true⟩
  have hcovers : site.Covers x.control := ⟨hk, by rintro _ ⟨⟩; rfl⟩
  exact (carried_floor k).moments ((carried_floor k).machineChronicle hhosts rounds levels) hserve
    (h.routine rfl rfl : Routine site (fun _ => True) q) (fun _ => trivial) rfl rfl hcovers hk

/-- The test of a conditional statement is classified. -/
def testsSecret (statement : Stmt Span) (bound : Nat) (s : State) : Bool :=
  match statement with
  | .branch _ test _ _ =>
    match (valueOf test.action).run (machine .none bound bound) bound s with
    | .done t _ => t.label = ⟨2, "H"⟩
    | _ => false
  | _ => false

set_option maxRecDepth 100000 in
/-- A branch that the secret selects runs at the level of the secret. -/
theorem selected_above_by_secret : ∃ span test yes no t u,
    statement? "if (secret) \x7b !public; \x7d" = some (.branch span test yes no) ∧
    (valueOf test.action).run (machine .none 50 50) 50 secretSession = .done t u ∧
    t.label = ⟨2, "H"⟩ ∧
    ∃ x, Comes (machine .none 50 50) 50 (Stmt.branch span test yes no).action secretSession
        [⟨valueOf test.action, t⟩] (if t.raw.truth then yes.action else alternative no) x ∧
      t.label.leq x.control.pc = true ∧
      (if t.raw.truth then yes.action else alternative no).momentsOn .none 50 50 [] x ⊆
        (Stmt.branch span test yes no).action.momentsOn .none 50 50 [] secretSession ∧
      ∀ m ∈ (if t.raw.truth then yes.action else alternative no).momentsOn .none 50 50 [] x,
        t.label.leq m.state.control.pc = true := by
  have hsecret : (statement? "if (secret) \x7b !public; \x7d").any
      (testsSecret · 50 secretSession) = true := by decide +kernel
  cases hstatement : statement? "if (secret) \x7b !public; \x7d" with
  | none => rw [hstatement] at hsecret; cases hsecret
  | some statement =>
    rw [hstatement, Option.any_some] at hsecret
    unfold testsSecret at hsecret
    split at hsecret
    · rename_i span test yes no
      split at hsecret
      · rename_i t u htest
        exact ⟨span, test, yes, no, t, u, rfl, htest, of_decide_eq_true hsecret,
          selected_above (composed_none _) 50 50 (.branch htest) []⟩
      · cases hsecret
    · cases hsecret

/-- A session with an object that is classified and has a getter. -/
def getterSession : State :=
  ((evaluate "var low = false; var o = label('H', \x7bget a() \x7b low = true; \x7d\x7d);" "" 1).run
    (machine .none 50 50) 50 (Session.fresh .standard)).state

/-- A place is found under a label, and reading it runs a function below the label. -/
def readsBelow (e : Expr Span) (bound : Nat) (s : State) : Bool :=
  match e.action.run (machine .none bound bound) bound s with
  | .done (.place p k) u =>
    ((Operand.place p k).resolve.momentsOn .none bound bound [] u).any fun m =>
      !m.contexts.isEmpty && !k.leq m.state.control.pc
  | _ => false

set_option maxRecDepth 100000 in
/-- The property of a classified object is read, and its getter runs below the label of the
object. -/
theorem getter_runs_below_base : ∃ e p k u m, expression? "o.a" = some e ∧
    e.action.run (machine .none 50 50) 50 getterSession = .done (.place p k) u ∧
    m ∈ (Operand.place p k).resolve.momentsOn .none 50 50 [] u ∧
    m.contexts ≠ [] ∧ ¬k.leq m.state.control.pc = true := by
  have hreads : (expression? "o.a").any (readsBelow · 50 getterSession) = true := by
    rw [getterSession, evaluate_ofList]
    decide +kernel
  cases he : expression? "o.a" with
  | none => rw [he] at hreads; cases hreads
  | some e =>
    rw [he, Option.any_some] at hreads
    unfold readsBelow at hreads
    split at hreads
    · rename_i p k u hplace
      obtain ⟨m, hm, hbelow⟩ := List.any_eq_true.1 hreads
      rw [Bool.and_eq_true, Bool.not_eq_true', Bool.not_eq_true'] at hbelow
      refine ⟨e, p, k, u, m, rfl, hplace, hm, ?_, ?_⟩
      · intro hnil
        rw [hnil] at hbelow
        cases hbelow.1
      · rw [hbelow.2]
        exact Bool.false_ne_true
    · cases hreads

end Clearance
