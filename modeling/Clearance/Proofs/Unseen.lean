/-
# What happens above a level

Code of the core that runs at a program counter above a level does not show below it: the
globals after the run agree with those before it, however it ends. `View.Unseen` says this of an
action, and this file has one rule for each way in which the actions of the core are put
together.
-/
import Clearance.Eval.Stmt
import Clearance.Proofs.Run
import Clearance.Proofs.Agreement
import Clearance.Proofs.Core

namespace Clearance

open Clearance.Action

/-- Who looks at a program: its globals, and the level up to which they are seen. -/
structure View where
  names : List String
  realm : Realm
  level : Label
  /-- The program may jump. -/
  jumps : Bool

/-- What runs actions: a service, what is visited while it serves, and a bound on the rounds of
loops. -/
structure Engine where
  serve : Service
  watch : Watch
  fuel : Nat
  keeps : serve.KeepsControl

namespace View

/-- Global code of the program in a scene. -/
structure Shows (V : View) (s : State) : Prop where
  staged : s.Staged V.names
  realm : s.control.realm = V.realm

/-- A later state that looks the same. -/
structure Follows (V : View) (s t : State) : Prop where
  staged : t.Staged V.names
  agrees : s.Agrees V.level t

/-- Above the level, the action does not show, and its result is as announced. -/
def Unseen (V : View) {α : Type} (p : Action α) (Q : α → Prop) : Prop :=
  ∀ (E : Engine) (s : State), V.Shows s → V.level.less s.control.pc = true →
    V.Follows s (p.run E.serve E.fuel s).state ∧
      ∀ x t, p.run E.serve E.fuel s = .done x t → Q x

/-- An operand of the core. -/
abbrev Known (V : View) : Operand → Prop := Operand.Core V.names V.realm

end View

variable {V : View} {α β : Type}

namespace View

lemma Follows.refl {s : State} (h : V.Shows s) : V.Follows s s := ⟨h.staged, .refl s⟩

lemma Follows.trans {s t u : State} (h : V.Follows s t) (h' : V.Follows t u) : V.Follows s u :=
  ⟨h'.staged, h.agrees.trans h'.agrees⟩

/-- The program counter is the same later on. -/
lemma Follows.above {s t : State} {k : Label} (h : V.Follows s t)
    (hk : k.less s.control.pc = true) : k.less t.control.pc = true := by
  rw [h.agrees.control]
  exact hk

/-- The end of a region. -/
lemma Follows.restore {s u : State} {pc : Label}
    (h : V.Follows ⟨{ s.control with pc, scope := s.control.scope }, s.store⟩ u) :
    V.Follows s { u with control :=
      { u.control with pc := s.control.pc, scope := s.control.scope } } := by
  obtain ⟨control, store⟩ := u
  obtain rfl : control = { s.control with pc, scope := s.control.scope } := h.agrees.control
  exact ⟨⟨h.staged.scope, h.staged.scene⟩, rfl, h.agrees.globals⟩

lemma Shows.of_follows {s t : State} (h : V.Shows s) (h' : V.Follows s t) : V.Shows t :=
  ⟨h'.staged, by rw [h'.agrees.control]; exact h.realm⟩

/-- A change of the store that spares the heap and the frames. -/
lemma Shows.follows {s : State} (h : V.Shows s) {store : Store} (hheap : store.heap = s.store.heap)
    (hframes : store.frames = s.store.frames) : V.Follows s ⟨s.control, store⟩ := by
  refine ⟨⟨h.staged.scope, h.staged.scene.congr hheap hframes⟩, .of_globals rfl ?_⟩
  unfold State.globals
  rw [hheap]

lemma Shows.follows_recorded {s : State} (h : V.Shows s) (e : Event) : V.Follows s (s.recorded e) :=
  h.follows (State.recorded_heap s e) (State.recorded_frames s e)

/-- A new object is not seen. -/
lemma Shows.follows_push {s : State} (h : V.Shows s) (o : Object) :
    V.Follows s ⟨s.control, { s.store with heap := s.store.heap.push o }⟩ := by
  refine ⟨⟨h.staged.scope, h.staged.scene.push o⟩, .of_globals rfl ?_⟩
  exact Heap.get_push_lt h.staged.scene.inside o

namespace Unseen

variable {Q : α → Prop}

/-- An action that always ends normally, in a state that looks the same. -/
lemma of_done {p : Action α}
    (h : ∀ (E : Engine) (s : State), V.Shows s → V.level.less s.control.pc = true →
      ∃ x t, p.run E.serve E.fuel s = .done x t ∧ V.Follows s t ∧ Q x) : V.Unseen p Q := by
  intro E s hs hpc
  obtain ⟨x, t, hrun, hfollows, hx⟩ := h E s hs hpc
  rw [hrun]
  exact ⟨hfollows, by rintro _ _ ⟨⟩; exact hx⟩

lemma of_fixed {p : Action α} (h : Fixed p Q) : V.Unseen p Q := by
  intro E s hs _
  rcases h with ⟨x, hx, hrun⟩ | ⟨m, hrun⟩
  · rw [hrun]
    exact ⟨.refl hs, by rintro _ _ ⟨⟩; exact hx⟩
  · rw [hrun]
    exact ⟨.refl hs, by rintro _ _ ⟨⟩⟩

lemma pure {x : α} (h : Q x) : V.Unseen (Pure.pure x) Q := of_fixed (.pure h)

lemma fail (f : Failure) : V.Unseen (.fail f : Action α) Q :=
  fun _ _ hs _ => ⟨.refl hs, by rintro _ _ ⟨⟩⟩

lemma mono {p : Action α} {R : α → Prop} (h : V.Unseen p R) (hR : ∀ x, R x → Q x) :
    V.Unseen p Q := by
  intro E s hs hpc
  obtain ⟨hfollows, hx⟩ := h E s hs hpc
  exact ⟨hfollows, fun x t hrun => hR x (hx x t hrun)⟩

lemma bind {p : Action β} {k : β → Action α} {R : β → Prop} (hp : V.Unseen p R)
    (hk : ∀ x, R x → V.Unseen (k x) Q) : V.Unseen (p >>= k) Q := by
  intro E s hs hpc
  obtain ⟨hfollows, hx⟩ := hp E s hs hpc
  rw [run_bind]
  cases ho : p.run E.serve E.fuel s with
  | done x u =>
    rw [ho] at hfollows
    obtain ⟨hfollows', hQ⟩ := hk x (hx x u ho) E u (hs.of_follows hfollows)
      (hfollows.above hpc)
    exact ⟨hfollows.trans hfollows', hQ⟩
  | failed f u =>
    rw [ho] at hfollows
    exact ⟨hfollows, by rintro _ _ ⟨⟩⟩
  | stuck w u =>
    rw [ho] at hfollows
    exact ⟨hfollows, by rintro _ _ ⟨⟩⟩

lemma ite {c : Prop} [Decidable c] {p q : Action α} (hp : c → V.Unseen p Q)
    (hq : ¬c → V.Unseen q Q) : V.Unseen (if c then p else q) Q := by
  split_ifs with h
  · exact hp h
  · exact hq h

/-- What is made of a failure does not show either. -/
lemma attempt {p : Action β} {k : Except Failure β → Action α} {R : β → Prop} (hp : V.Unseen p R)
    (hok : ∀ x, R x → V.Unseen (k (.ok x)) Q) (herr : ∀ f, V.Unseen (k (.error f)) Q) :
    V.Unseen (Action.attempt p >>= k) Q := by
  refine bind (R := fun r => ∀ x, r = .ok x → R x) ?_ ?_
  · intro E s hs hpc
    obtain ⟨hfollows, hx⟩ := hp E s hs hpc
    rw [run_attempt]
    cases ho : p.run E.serve E.fuel s with
    | done x u =>
      rw [ho] at hfollows
      exact ⟨hfollows, by rintro _ _ ⟨⟩ _ ⟨⟩; exact hx x u ho⟩
    | failed f u =>
      rw [ho] at hfollows
      exact ⟨hfollows, by rintro _ _ ⟨⟩ _ ⟨⟩⟩
    | stuck w u =>
      rw [ho] at hfollows
      exact ⟨hfollows, by rintro _ _ ⟨⟩⟩
  · intro r hr
    cases r with
    | ok x => exact hok x (hr x rfl)
    | error f => exact herr f

/-- A region above the level does not show, wherever it is entered. -/
lemma run_withPc {pc : Label} {p : Action α} (hp : V.Unseen p Q) (hpc : V.level.less pc = true)
    (E : Engine) {s : State} (hs : V.Shows s) :
    V.Follows s ((Action.withPc pc p).run E.serve E.fuel s).state ∧
      ∀ x t, (Action.withPc pc p).run E.serve E.fuel s = .done x t → Q x := by
  have hinner : V.Shows ⟨{ s.control with pc, scope := s.control.scope }, s.store⟩ :=
    ⟨⟨hs.staged.scope, hs.staged.scene⟩, hs.realm⟩
  obtain ⟨hfollows, hx⟩ := hp E _ hinner hpc
  rw [Action.run_withPc, run_region]
  refine ⟨?_, fun x t hrun => ?_⟩
  · rw [Outcome.state_mapState]
    exact hfollows.restore
  · obtain ⟨u, hu, -⟩ := Outcome.mapState_eq_done.1 hrun
    exact hx x u hu

lemma withPc {pc : Label} {p : Action α} (hpc : V.level.less pc = true) (hp : V.Unseen p Q) :
    V.Unseen (Action.withPc pc p) Q :=
  fun E _ hs _ => hp.run_withPc hpc E hs

lemma loop {σ : Type} {init : σ} {step : σ → Action (σ ⊕ α)} {I : σ → Prop} (hinit : I init)
    (hstep : ∀ x, I x → V.Unseen (step x) (Sum.elim I Q)) : V.Unseen (Action.loop init step) Q := by
  intro E s hs hpc
  rw [run_loop]
  -- the rounds are counted by the fuel, which no step sees
  suffices h : ∀ n x s, I x → V.Shows s → V.level.less s.control.pc = true →
      V.Follows s (iterate (fun x s => (step x).run E.serve E.fuel s) n x s).state ∧
        ∀ y t, iterate (fun x s => (step x).run E.serve E.fuel s) n x s = .done y t → Q y from
    h E.fuel init s hinit hs hpc
  intro n
  induction n with
  | zero => exact fun x s _ hs _ => ⟨.refl hs, by rintro _ _ ⟨⟩⟩
  | succ n ih =>
    intro x s hx hs hpc
    obtain ⟨hfollows, hr⟩ := hstep x hx E s hs hpc
    unfold iterate
    cases ho : (step x).run E.serve E.fuel s with
    | done r u =>
      rw [ho] at hfollows
      have hIQ := hr r u ho
      cases r with
      | inl y =>
        obtain ⟨hfollows', hQ⟩ := ih y u hIQ (hs.of_follows hfollows)
          (hfollows.above hpc)
        exact ⟨hfollows.trans hfollows', hQ⟩
      | inr y => exact ⟨hfollows, by rintro _ _ ⟨⟩; exact hIQ⟩
    | failed f u =>
      rw [ho] at hfollows
      exact ⟨hfollows, by rintro _ _ ⟨⟩⟩
    | stuck w u =>
      rw [ho] at hfollows
      exact ⟨hfollows, by rintro _ _ ⟨⟩⟩

end Unseen
end View

/-! ## Completions -/

/-- The failures that scripts see as thrown values. -/
def Failure.catchable : Failure → Bool
  | .thrown .. | .fault .. => true
  | _ => false

/-- A catchable failure becomes a thrown value; an error object may be made for it. -/
lemma run_completionOf (serve : Service) (fuel : Nat) (line : Nat) {f : Failure}
    (hf : f.catchable = true) (s : State) : ∃ c t, (completionOf line f).run serve fuel s =
      .done c t ∧ c.Thrown ∧
        (t = s ∨ ∃ o, t = ⟨s.control, { s.store with heap := s.store.heap.push o }⟩) := by
  cases f with
  | thrown v file l => exact ⟨_, s, rfl, ⟨_, _, rfl⟩, .inl rfl⟩
  | fault name message => exact ⟨_, _, rfl, ⟨_, _, rfl⟩, .inr ⟨_, rfl⟩⟩
  | violation | overflow | internal | script | quit | host => cases hf

/-- Other failures stay. -/
lemma completionOf_of_not_catchable (line : Nat) {f : Failure} (hf : f.catchable = false) :
    completionOf line f = fail f := by
  cases f <;> first | rfl | cases hf

namespace View

lemma Shows.follows_completionOf {s t : State} (h : V.Shows s)
    (ht : t = s ∨ ∃ o, t = ⟨s.control, { s.store with heap := s.store.heap.push o }⟩) :
    V.Follows s t := by
  rcases ht with rfl | ⟨o, rfl⟩
  · exact .refl h
  · exact h.follows_push o

/-- How statements of a program that does not jump end. -/
def Ending (V : View) (c : Completion) : Prop := V.jumps = false → c = .normal ∨ c.Thrown

/-- A global is read without a change. -/
lemma Shows.run_resolve {s : State} (h : V.Shows s) {n : String} (hn : n ∈ V.names)
    (serve : Service) (fuel : Nat) :
    (Operand.place ⟨some ⟨V.realm.global, .plain⟩, n⟩ .none).resolve.run serve fuel s =
      .done (s.rated n) s := by
  rw [← h.realm]
  exact Clearance.run_resolve h.staged hn

/-- An assignment to a name, in a scene of the program. -/
lemma Shows.core {s : State} (h : V.Shows s) {op : Operand} (hop : V.Known op) :
    Operand.Core V.names s.control.realm op := by
  rw [h.realm]
  exact hop

namespace Unseen

/-! ## Operations of the core -/

lemma pc : V.Unseen Action.pc (V.level.less · = true) :=
  of_done fun _ s hs hpc => ⟨s.control.pc, s, rfl, .refl hs, hpc⟩

lemma setResult (v : Value) : V.Unseen (Clearance.setResult v) fun _ => True :=
  of_done fun _ _ hs _ => ⟨(), _, rfl, hs.follows rfl rfl, trivial⟩

lemma placeOf {n : String} (hn : n ∈ V.names) :
    V.Unseen (Clearance.placeOf n) fun p => V.Known (.place p .none) := by
  refine of_done fun E s hs _ => ?_
  obtain ⟨frames, hrun, hstaged⟩ := run_placeOf hs.staged hn
  refine ⟨_, _, hrun, ⟨hstaged, .of_globals rfl rfl⟩, ?_⟩
  rw [View.Known, ← hs.realm]
  exact core_placed n hn

lemma resolve {op : Operand} (h : V.Known op) :
    V.Unseen op.resolve (·.raw.isPrimitive = true) := by
  cases h with
  | value hv => exact pure hv
  | global hn =>
    exact of_done fun E s hs _ => ⟨_, s, hs.run_resolve hn E.serve E.fuel, .refl hs,
      isPrimitive_rated hs.staged hn⟩
  | nowhere hn => exact bind (fail _) fun _ (h : False) => h.elim

lemma valueOf {p : Action Operand} (h : V.Unseen p V.Known) :
    V.Unseen (Clearance.valueOf p) (·.raw.isPrimitive = true) :=
  bind h fun _ hop => resolve hop

/-- An assignment above the level changes a global that is above it. -/
lemma assign {p : Place} (hp : V.Known (.place p .none)) (line : Nat) {r : Rated}
    (hr : r.raw.isPrimitive = true) (declare : Bool) :
    V.Unseen (Clearance.assign line p .none r declare) (·.raw.isPrimitive = true) := by
  intro E s hs hpc
  rcases run_assign_name hs.staged (hs.core hp) line hr declare with
    ⟨v, e, hrun⟩ | ⟨t, hrun, hwrote, hcontext, -⟩
  · rw [hrun]
    exact ⟨hs.follows_recorded e, by rintro _ _ ⟨⟩⟩
  · rw [hrun]
    obtain ⟨q, hq, hagrees⟩ := assigned_agrees_of_less hs.staged hpc (hs.core hp) r hcontext
    rw [hq] at hwrote
    refine ⟨⟨hwrote.staged, hwrote.agrees_self hq hagrees⟩, ?_⟩
    rintro _ _ ⟨⟩
    rw [Rated.value, Value.labeled_raw]
    exact hr

lemma raisedPc (kind : String) (line : Nat) (k : Label) :
    V.Unseen (Clearance.raisedPc kind line k) (V.level.less · = true) := by
  refine of_done fun E s hs hpc => ?_
  obtain ⟨store, hrun, hheap, hframes⟩ := run_raisedPc E.serve E.fuel kind line k s
  refine ⟨_, _, hrun, hs.follows hheap hframes, ?_⟩
  rw [Label.less_iff] at *
  rw [Label.height_raised]
  omega

lemma controlled {Q : α → Prop} {p : Action α} (kind : String) (line : Nat) (k : Label)
    (hp : V.Unseen p Q) : V.Unseen (Clearance.controlled kind line k p) Q :=
  bind (raisedPc kind line k) fun _ hpc => withPc hpc hp

lemma completionOf (line : Nat) (f : Failure) :
    V.Unseen (Clearance.completionOf line f) Completion.Thrown := by
  by_cases hf : f.catchable = true
  · refine of_done fun E s hs _ => ?_
    obtain ⟨c, t, hrun, hc, ht⟩ := run_completionOf E.serve E.fuel line hf s
    exact ⟨c, t, hrun, hs.follows_completionOf ht, hc⟩
  · rw [completionOf_of_not_catchable line (by simpa using hf)]
    exact fail f

lemma guarded {Q : Completion → Prop} {p : Action β} {k : β → Action Completion} {R : β → Prop}
    (line : Nat) (hp : V.Unseen p R) (hk : ∀ x, R x → V.Unseen (k x) Q)
    (hQ : ∀ c : Completion, c.Thrown → Q c) : V.Unseen (Clearance.guarded line p k) Q :=
  attempt hp hk fun f => mono (completionOf line f) hQ

end Unseen
end View
end Clearance
