/-
# How actions run

The equations of `Action.run`, one for each way to build an action, and the inversion of a
finished run: a sequence that is done has done its first part and then the rest. Whatever an
action does, it leaves the control as it found it; regions and activations are the only
instructions that change it, and both put it back.

Loops repeat a round, and a catch clause does its work in a frame of its own; both parts get names
here. A script that ends normally has run its body in an activation of its own, from the bottom,
and gives what that activation remembers. An evaluated text does so in the scope of its caller.
-/
import Clearance.Machine.Serve
import Mathlib.Tactic.Common

namespace Clearance

/-- Serving requests leaves the control alone. -/
def Service.KeepsControl (serve : Service) : Prop :=
  ∀ r s, (serve r s).state.control = s.control

namespace Outcome

variable {α : Type}

@[simp] lemma state_done (a : α) (s : State) : (done a s).state = s := rfl

@[simp] lemma state_failed (f : Failure) (s : State) : (failed f s : Outcome α).state = s := rfl

@[simp] lemma state_stuck (w : Stuck) (s : State) : (stuck w s : Outcome α).state = s := rfl

@[simp] lemma state_mapState (g : State → State) (o : Outcome α) :
    (o.mapState g).state = g o.state := by
  cases o <;> rfl

@[simp] lemma mapState_eq_done {g : State → State} {o : Outcome α} {a : α} {t : State} :
    o.mapState g = .done a t ↔ ∃ u, o = .done a u ∧ g u = t := by
  cases o <;> simp [mapState]

end Outcome

namespace Action

variable {α β : Type} {serve : Service} {fuel : Nat}

/-! ## Equations -/

lemma bind_eq (p : Action β) (k : β → Action α) : (p >>= k) = .andThen p k := rfl

@[simp] lemma run_pure (a : α) (s : State) : (pure a : Action α).run serve fuel s = .done a s := rfl

lemma run_bind (p : Action β) (k : β → Action α) (s : State) :
    (p >>= k).run serve fuel s =
      match p.run serve fuel s with
      | .done b u => (k b).run serve fuel u
      | .failed f u => .failed f u
      | .stuck w u => .stuck w u := by
  cases first : p.run serve fuel s <;> simp only [bind_eq, run, first]

section

variable {p : Action β} {s u : State} {b : β} {f : Failure} {w : Stuck}

lemma run_bind_of_done (h : p.run serve fuel s = .done b u) (k : β → Action α) :
    (p >>= k).run serve fuel s = (k b).run serve fuel u := by rw [run_bind, h]

lemma run_bind_failed (h : p.run serve fuel s = .failed f u) (k : β → Action α) :
    (p >>= k).run serve fuel s = .failed f u := by rw [run_bind, h]

lemma run_bind_stuck (h : p.run serve fuel s = .stuck w u) (k : β → Action α) :
    (p >>= k).run serve fuel s = .stuck w u := by rw [run_bind, h]

end

@[simp] lemma run_current (s : State) : current.run serve fuel s = .done s.control s := rfl

@[simp] lemma run_update (f : Store → α × Store) (s : State) :
    (Action.update f).run serve fuel s = .done (f s.store).1 ⟨s.control, (f s.store).2⟩ := rfl

@[simp] lemma run_look (f : Store → α) (s : State) :
    (look f).run serve fuel s = .done (f s.store) s := rfl

@[simp] lemma run_revise (f : Store → Store) (s : State) :
    (revise f).run serve fuel s = .done () ⟨s.control, f s.store⟩ := rfl

@[simp] lemma run_object (id : Nat) (s : State) :
    (object id).run serve fuel s = .done (s.store.heap.get id) s := rfl

@[simp] lemma run_change (id : Nat) (f : Object → Object) (s : State) :
    (change id f).run serve fuel s =
      .done () ⟨s.control, { s.store with heap := s.store.heap.update id f }⟩ := rfl

@[simp] lemma run_allocate (face : Face) (o : Object) (s : State) :
    (allocate face o).run serve fuel s =
      .done ⟨s.store.heap.size, face⟩
        ⟨s.control, { s.store with heap := s.store.heap.push o }⟩ := rfl

@[simp] lemma run_fail (f : Failure) (s : State) :
    (fail f : Action α).run serve fuel s = .failed f s := rfl

@[simp] lemma run_call (f : Ref) (this : Value) (args : List Value) (s : State) :
    (call f this args).run serve fuel s = serve (.call f this args) s := rfl

@[simp] lemma run_realm (s : State) : realm.run serve fuel s = .done s.control.realm s := rfl

@[simp] lemma run_pc (s : State) : pc.run serve fuel s = .done s.control.pc s := rfl

lemma run_attempt (p : Action α) (s : State) :
    (attempt p).run serve fuel s =
      match p.run serve fuel s with
      | .done a u => .done (.ok a) u
      | .failed f u => .done (.error f) u
      | .stuck w u => .stuck w u := rfl

lemma run_region (pc : Label) (scope : Nat) (p : Action α) (s : State) :
    (region pc scope p).run serve fuel s =
      (p.run serve fuel ⟨{ s.control with pc, scope }, s.store⟩).mapState fun u =>
        { u with control := { u.control with pc := s.control.pc, scope := s.control.scope } } :=
  rfl

lemma run_withPc (pc : Label) (p : Action α) (s : State) :
    (withPc pc p).run serve fuel s = (region pc s.control.scope p).run serve fuel s := rfl

lemma run_activation (entry : Control) (p : Action α) (s : State) :
    (activation entry p).run serve fuel s =
      match p.run serve fuel ⟨entry, { s.store with result := .undefined }⟩ with
      | .done a u => .done (a, u.store.result)
          ⟨s.control, { u.store with result := s.store.result }⟩
      | .failed f u => .failed f ⟨s.control, { u.store with result := s.store.result }⟩
      | .stuck w u => .stuck w ⟨s.control, { u.store with result := s.store.result }⟩ := rfl

lemma run_loop {σ : Type} (init : σ) (step : σ → Action (σ ⊕ α)) (s : State) :
    (loop init step).run serve fuel s =
      iterate (fun x u => (step x).run serve fuel u) fuel init s := rfl

lemma run_await (f : Store → Except Stuck α) (s : State) : (await f).run serve fuel s =
    match f s.store with
    | .ok a => .done a s
    | .error w => .stuck w s := rfl

/-- Asking for something changes nothing, also where it is missing. -/
lemma state_run_await (f : Store → Except Stuck α) (s : State) :
    ((await f).run serve fuel s).state = s := by
  rw [run_await]
  split <;> rfl

lemma run_insist_of_holds {text : String} {holds : Store → Bool} {s : State}
    (h : holds s.store = true) : (insist text holds).run serve fuel s = .done () s := by
  unfold insist
  rw [run_await, if_pos h]

lemma run_insist_of_not {text : String} {holds : Store → Bool} {s : State}
    (h : holds s.store = false) :
    (insist text holds).run serve fuel s = .stuck (.panic text) s := by
  unfold insist
  rw [run_await, if_neg (by simp [h])]

/-- An event is added to the recorded ones, if events are recorded. -/
lemma run_trace (e : Event) (s : State) :
    (trace e).run serve fuel s =
      .done () ⟨s.control, if s.control.realm.traced
        then { s.store with events := e :: s.store.events } else s.store⟩ := by
  simp only [trace, run_bind, run_realm]
  split_ifs <;> rfl

/-! ## Inversion -/

lemma run_bind_done {p : Action β} {k : β → Action α} {s t : State} {a : α} :
    (p >>= k).run serve fuel s = .done a t ↔
      ∃ b u, p.run serve fuel s = .done b u ∧ (k b).run serve fuel u = .done a t := by
  rw [run_bind]
  cases h : p.run serve fuel s <;> simp

lemma run_attempt_done {p : Action α} {s t : State} {r : Except Failure α} :
    (attempt p).run serve fuel s = .done r t ↔
      (∃ a, r = .ok a ∧ p.run serve fuel s = .done a t) ∨
        ∃ f, r = .error f ∧ p.run serve fuel s = .failed f t := by
  rw [run_attempt]
  cases h : p.run serve fuel s <;> simp [eq_comm]

/-- What the steps of a loop preserve, of their results and of the states, holds of the result of
the loop. -/
lemma iterate_done_of {σ : Type} {step : σ → State → Outcome (σ ⊕ α)} {I : σ → Prop} {Q : α → Prop}
    {P : State → Prop} (h : ∀ x s r t, I x → P s → step x s = .done r t → Sum.elim I Q r ∧ P t)
    {n : Nat} {x : σ} {s t : State} {a : α} (hx : I x) (hs : P s)
    (hrun : iterate step n x s = .done a t) : Q a := by
  induction n generalizing x s with
  | zero => cases hrun
  | succ n ih =>
    unfold iterate at hrun
    cases ho : step x s with
    | done r u =>
      obtain ⟨hr, hu⟩ := h x s r u hx hs ho
      rw [ho] at hrun
      cases r with
      | inl y => exact ih hr hu hrun
      | inr b => cases hrun; exact hr
    | failed f u => rw [ho] at hrun; cases hrun
    | stuck w u => rw [ho] at hrun; cases hrun

/-- What the steps of a loop preserve holds of its result. -/
lemma iterate_done {σ : Type} {step : σ → State → Outcome (σ ⊕ α)} {I : σ → Prop} {Q : α → Prop}
    (h : ∀ x s r t, I x → step x s = .done r t → Sum.elim I Q r) {n : Nat} {x : σ} {s t : State}
    {a : α} (hx : I x) (hrun : iterate step n x s = .done a t) : Q a :=
  iterate_done_of (P := fun _ => True) (fun x s r t hx _ ho => ⟨h x s r t hx ho, trivial⟩) hx
    trivial hrun

/-! ## The control is put back -/

lemma iterate_control {σ : Type} {step : σ → State → Outcome (σ ⊕ α)}
    (h : ∀ x s, (step x s).state.control = s.control) (n : Nat) (x : σ) (s : State) :
    (iterate step n x s).state.control = s.control := by
  induction n generalizing x s with
  | zero => rfl
  | succ n ih =>
    have hs := h x s
    unfold iterate
    cases ho : step x s with
    | done r u =>
      rw [ho] at hs
      cases r with
      | inl y => exact (ih y u).trans hs
      | inr a => exact hs
    | failed f u => rwa [ho] at hs
    | stuck w u => rwa [ho] at hs

/-- Running an action leaves the control as it was, however the run ends. -/
theorem run_control (hserve : serve.KeepsControl) (p : Action α) (s : State) :
    (p.run serve fuel s).state.control = s.control := by
  induction p generalizing s with
  | andThen p k ihp ihk =>
    have hp := ihp s
    show ((p >>= k).run serve fuel s).state.control = _
    rw [run_bind]
    cases ho : p.run serve fuel s with
    | done b u =>
      rw [ho] at hp
      exact (ihk b u).trans hp
    | failed f u => rwa [ho] at hp
    | stuck w u => rwa [ho] at hp
  | attempt p ih =>
    have hp := ih s
    rw [run_attempt]
    cases ho : p.run serve fuel s <;> rwa [ho] at hp
  | region pc scope p ih =>
    rw [run_region, Outcome.state_mapState, ih]
  | activation entry p ih =>
    rw [run_activation]
    split <;> rfl
  | invoke r => exact hserve r s
  | loop init step ih => exact iterate_control (fun x u => ih x u) fuel init s
  | await f => rw [state_run_await]
  | give | current | update | fail => rfl

lemma run_done_control (hserve : serve.KeepsControl) {p : Action α} {s t : State} {a : α}
    (h : p.run serve fuel s = .done a t) : t.control = s.control := by
  have hc : (p.run serve fuel s).state.control = s.control := run_control hserve p s
  rwa [h] at hc

lemma run_failed_control (hserve : serve.KeepsControl) {p : Action α} {s t : State} {f : Failure}
    (h : p.run serve fuel s = .failed f t) : t.control = s.control := by
  have hc : (p.run serve fuel s).state.control = s.control := run_control hserve p s
  rwa [h] at hc

end Action

lemma machine_succ (hosts : Hosts) (rounds levels : Nat) (r : Request) (s : State) :
    machine hosts rounds (levels + 1) r s =
      (perform hosts r).run (machine hosts rounds levels) rounds s := by
  rw [machine]
  split_ifs <;> rfl

lemma machine_keepsControl (hosts : Hosts) (rounds levels : Nat) :
    Service.KeepsControl (machine hosts rounds levels) := by
  induction levels with
  | zero => exact fun _ _ => rfl
  | succ n ih =>
    intro r s
    unfold machine
    split_ifs <;> exact Action.run_control ih (perform hosts r) s

/-! ## Scripts and evaluated texts -/

open Clearance.Action Script

/-- An exception leaves a statement. -/
def Completion.Thrown (c : Completion) : Prop := ∃ v line, c = .thrown v line

/-- Where a script starts as global code. -/
def Control.entry (c : Control) (file : String) : Control :=
  { c with kind := .global, pc := c.realm.lattice.bottom, scope := c.realm.globalFrame,
           this := Raw.object ⟨c.realm.global, .plain⟩, file }

/-- The state in which a script starts. -/
def State.entered (s : State) (file : String) : State :=
  ⟨s.control.entry file, { s.store with result := .undefined }⟩

/-- Where a text is evaluated that carries a label. -/
def Control.evaluating (c : Control) (k : Label) : Control :=
  { c with kind := .eval, pc := c.pc.join k, depth := c.depth + 1 }

/-! ## The parts of loops and clauses -/

/-- What a loop that tests first does when its test has been passed. The label is the program
counter of the next round. -/
def afterTest (body : Action Completion) (step : Option Test) (pc : Label) :
    Action (Label ⊕ Completion) := do
  match (← body).afterRound with
  | some c => return .inr c
  | none =>
    match step with
    | none => return .inl pc
    | some step =>
      match ← attempt (valueOf step.action) with
      | .ok _ => return .inl pc
      | .error f => return .inr (← completionOf step.line f)

/-- What a loop that tests first does once its test has told whether to go on. -/
def tested (body : Action Completion) (step : Option Test) :
    Label ⊕ Completion → Action (Label ⊕ Completion)
  | .inr c => return .inr c
  | .inl pc => withPc pc (afterTest body step pc)

/-- What a loop that tests first does in a round. -/
def whileRound (kind : String) (line : Nat) (test : Option Test) (body : Action Completion)
    (step : Option Test) : Action (Label ⊕ Completion) := do
  match ← passTest? test kind line with
  | .inr c => return .inr c
  | .inl pc => withPc pc (afterTest body step pc)

lemma whileRound_eq (kind : String) (line : Nat) (test : Option Test) (body : Action Completion)
    (step : Option Test) :
    whileRound kind line test body step = passTest? test kind line >>= tested body step := rfl

/-- Repeats a round, each time at the program counter that the one before has given. -/
def repeated (round : Action (Label ⊕ Completion)) : Action Completion := do
  loop (← pc) fun pc => withPc pc round

lemma whileLoop_eq (kind : String) (line : Nat) (test : Option Test) (body : Action Completion)
    (step : Option Test) :
    whileLoop kind line test body step = repeated (whileRound kind line test body step) := rfl

/-- What a loop that tests last does in a round. -/
def doRound (line : Nat) (body : Action Completion) (test : Test) :
    Action (Label ⊕ Completion) := do
  match (← body).afterRound with
  | some c => return .inr c
  | none => test.pass "DoWhileStatement" line

lemma doLoop_eq (line : Nat) (body : Action Completion) (test : Test) :
    doLoop line body test = repeated (doRound line body test) := rfl

/-- What a catch clause does in its frame. -/
def Clause.inside (c : Clause) (thrown : Value) : Action (Option Completion) := do
  define c.param (.data thrown)
  match c.guard with
  | none => return some (← c.body)
  | some g =>
    match ← attempt (valueOf g.action) with
    | .error f => return some (← completionOf g.line f)
    | .ok r => if r.raw.truth then return some (← c.body) else return none

lemma Clause.run_eq (c : Clause) (thrown : Value) :
    c.run thrown = (do
      let pc ← raisedPc "CatchClause" c.line thrown.label
      let frame ← newFrame (← current).scope
      region pc frame (c.inside thrown)) := rfl

/-! ## Activations that end normally -/

variable {serve : Service} {fuel : Nat} {body : List (Stmt Span)}

/-- An activation that ends normally gives what its body gives and what is remembered. -/
lemma activation_done {α : Type} {entry : Control} {p : Action α} {s t : State} {r : α × Value}
    (h : (activation entry p).run serve fuel s = .done r t) :
    ∃ w, p.run serve fuel ⟨entry, { s.store with result := .undefined }⟩ = .done r.1 w ∧
      r.2 = w.store.result ∧ t = ⟨s.control, { w.store with result := s.store.result }⟩ := by
  rw [run_activation] at h
  split at h
  · rename_i a w hbody
    cases h
    exact ⟨w, hbody, rfl, rfl⟩
  · cases h
  · cases h

/-- A script that ends normally has run its body, and gives the value of its last expression
statement. -/
lemma runProgram_done {s t : State} {file : String} {v : Value}
    (h : (runProgram body file).run serve fuel s = .done v t) :
    ∃ c w, (runBody body).run serve fuel (s.entered file) = .done c w ∧ ¬c.Thrown ∧
      v = w.store.result ∧ t = ⟨s.control, { w.store with result := s.store.result }⟩ := by
  obtain ⟨_, _, ⟨⟩, hrest⟩ := run_bind_done.1 h
  obtain ⟨⟨c, r⟩, a, hactivation, hend⟩ := run_bind_done.1 hrest
  obtain ⟨w, hbody, rfl, rfl⟩ := activation_done hactivation
  refine ⟨c, w, hbody, ?_⟩
  cases c with
  | thrown => cases hend
  | normal | leave | resume | returned =>
    cases hend
    exact ⟨by rintro ⟨v, line, ⟨⟩⟩, rfl, rfl⟩

/-- The body of a script that ends normally. -/
lemma runBody_done {s u w : State} {c : Completion}
    (hinstantiate : (instantiate body).run serve fuel s = .done () u)
    (h : (runBody body).run serve fuel s = .done c w) (hc : ¬c.Thrown)
    (hkind : ∀ d x, (inOrder (stmtActions body)).run serve fuel u = .done d x →
      x.control.kind ≠ .function) :
    (inOrder (stmtActions body)).run serve fuel u = .done .normal w := by
  have hattempt : (attempt (instantiate body)).run serve fuel s = .done (.ok ()) u := by
    rw [run_attempt, hinstantiate]
  rw [runBody, guarded, run_bind, hattempt] at h
  obtain ⟨d, x, hd, hrest⟩ := run_bind_done.1 h
  obtain ⟨_, _, ⟨⟩, hlast⟩ := run_bind_done.1 hrest
  rw [hd]
  cases d with
  | normal =>
    cases hlast
    rfl
  | thrown v line =>
    cases hlast
    exact absurd ⟨v, line, rfl⟩ hc
  | leave | resume => cases hlast
  | returned v =>
    dsimp only at hlast
    rw [if_neg (hkind _ _ hd)] at hlast
    cases hlast

end Clearance
