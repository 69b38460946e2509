/-
# What scripts give

The value of a script, and of an evaluated text, is the one that its activation remembers last. It
comes from an expression statement that runs in this activation, so it carries the label of that
statement's expression; it does not carry the program counter at which the statement runs.

The proof follows the remembered value through the moments of a run. `Recall` says what a piece of
a run does to it: the value is kept, or it is that of an expression statement, after which it is
kept. Pieces are put together by `Recall.append`. Functions that are called keep the value, since
expression statements run inside activations only, and an activation puts the value back.
-/
import Clearance.Proofs.Moment
import Clearance.Proofs.Run
import Clearance.Proofs.Started

namespace Clearance

open Clearance.Action Script

/-- A single step that may change the remembered value. -/
def Action.Alters : {α : Type} → Action α → Prop
  | _, .update f => ∃ s, (f s).2.result ≠ s.result
  | _, _ => False

/-- The steps of an activation keep the remembered value. -/
def Silent (cs : List Control) (ms : List Moment) : Prop :=
  ∀ m ∈ ms, m.contexts = cs → ¬m.action.Alters

/-- An expression statement of an activation is started, its expression has a value, and this is
the last value that the activation remembers. -/
def Produces (serve : Service) (fuel : Nat) (ms : List Moment) (cs : List Control)
    (e : Expr Span) (s : State) (r : Rated) : Prop :=
  ∃ before after u o o', ms = before ++ ⟨setResult r.value, u, cs, o'⟩ :: after ∧
    ⟨(Stmt.expr e).action, s, cs, o⟩ ∈ before ∧ Silent cs after ∧
    (valueOf e.action).run serve fuel s = .done r u

/-- What becomes of the remembered value in a piece of a run. -/
inductive Recall (serve : Service) (fuel : Nat) (recording : Bool) (cs : List Control)
    (ms : List Moment) (old : Value) : Value → Prop
  | kept : Silent cs ms → Recall serve fuel recording cs ms old old
  | produced {e : Expr Span} {s : State} {r : Rated} : recording = true →
      Produces serve fuel ms cs e s r → Recall serve fuel recording cs ms old r.value

section

variable {serve : Service} {chronicle : Chronicle} {fuel : Nat} {recording : Bool}
  {cs : List Control} {ms ms' : List Moment} {α β : Type}

lemma Silent.append (h : Silent cs ms) (h' : Silent cs ms') : Silent cs (ms ++ ms') :=
  List.forall_mem_append.2 ⟨h, h'⟩

lemma silent_singleton {m : Moment} (h : ¬m.action.Alters) : Silent cs [m] :=
  List.forall_mem_singleton.2 fun _ => h

namespace Produces

variable {e : Expr Span} {s : State} {r : Rated}

lemma after (h : Produces serve fuel ms' cs e s r) (ms : List Moment) :
    Produces serve fuel (ms ++ ms') cs e s r := by
  obtain ⟨before, after, u, o, o', rfl, hstarted, hsilent, hrun⟩ := h
  exact ⟨ms ++ before, after, u, o, o', (List.append_assoc ..).symm,
    List.mem_append_right _ hstarted, hsilent, hrun⟩

lemma before (h : Produces serve fuel ms cs e s r) (h' : Silent cs ms') :
    Produces serve fuel (ms ++ ms') cs e s r := by
  obtain ⟨before, after, u, o, o', rfl, hstarted, hsilent, hrun⟩ := h
  exact ⟨before, after ++ ms', u, o, o', List.append_assoc .., hstarted, hsilent.append h', hrun⟩

/-- It is produced by the first part of a sequence. -/
lemma bind_first {p : Action β} {k : β → Action α} {D : List Control} {t : State}
    (h : Produces serve fuel (p.moments serve chronicle fuel cs t) D e s r)
    (hk : ∀ b u, p.run serve fuel t = .done b u →
      Silent D ((k b).moments serve chronicle fuel cs u)) :
    Produces serve fuel ((p >>= k).moments serve chronicle fuel cs t) D e s r := by
  rw [moments_bind]
  refine (h.before ?_).after [_]
  split
  · exact hk _ _ ‹_›
  · exact List.forall_mem_nil _

/-- It is produced by the rest of a sequence. -/
lemma bind_rest {p : Action β} {k : β → Action α} {D : List Control} {t u : State} {b : β}
    (hp : p.run serve fuel t = .done b u)
    (h : Produces serve fuel ((k b).moments serve chronicle fuel cs u) D e s r) :
    Produces serve fuel ((p >>= k).moments serve chronicle fuel cs t) D e s r := by
  rw [moments_bind, hp]
  exact (h.after _).after [_]

end Produces

namespace Recall

variable {a b c : Value}

/-- Two pieces of a run, one after the other. -/
lemma append (h : Recall serve fuel recording cs ms a b)
    (h' : Recall serve fuel recording cs ms' b c) :
    Recall serve fuel recording cs (ms ++ ms') a c := by
  cases h' with
  | produced hrecording hproduces => exact .produced hrecording (hproduces.after ms)
  | kept hsilent' =>
    cases h with
    | kept hsilent => exact .kept (hsilent.append hsilent')
    | produced hrecording hproduces => exact .produced hrecording (hproduces.before hsilent')

/-- A piece that is started by an action that is no step itself. -/
lemma cons {m : Moment} (hm : ¬m.action.Alters) (h : Recall serve fuel recording cs ms a b) :
    Recall serve fuel recording cs (m :: ms) a b :=
  (kept (silent_singleton hm)).append h

/-- Where no expression statements are run, the value is kept. -/
lemma of_not_recording (h : Recall serve fuel false cs ms a b) : b = a ∧ Silent cs ms := by
  cases h with
  | kept hsilent => exact ⟨rfl, hsilent⟩
  | produced hrecording => cases hrecording

end Recall

/-! ## Runs -/

/-- Serving requests keeps the remembered value, and the activation in which they are served
remembers nothing in the meantime. -/
structure Chronicle.Quiet (chronicle : Chronicle) (serve : Service) : Prop where
  control : serve.KeepsControl
  result : ∀ r s, (serve r s).state.store.result = s.store.result
  silent : ∀ r cs s, Silent cs (chronicle r cs s)
  contexts : ∀ r cs s, ∀ m ∈ chronicle r cs s, cs <:+ m.contexts

lemma recall_iterate {σ : Type} {step : σ → State → Outcome (σ ⊕ α)}
    {seen : σ → State → List Moment} {I : σ → Prop} {P : State → Prop}
    (hseen : ∀ x s, I x → P s → Recall serve fuel recording cs (seen x s) s.store.result
      (step x s).state.store.result)
    (hstep : ∀ x s y t, I x → P s → step x s = .done (.inl y) t → I y ∧ P t) (n : Nat) {x : σ}
    {s : State} (hx : I x) (hs : P s) :
    Recall serve fuel recording cs (iterateMoments step seen n x s) s.store.result
      (iterate step n x s).state.store.result := by
  induction n generalizing x s with
  | zero => exact .kept (List.forall_mem_nil _)
  | succ n ih =>
    have hround := hseen x s hx hs
    rw [iterateMoments, iterate]
    cases ho : step x s with
    | done r u =>
      rw [ho] at hround
      cases r with
      | inl y =>
        obtain ⟨hy, hu⟩ := hstep x s y u hx hs ho
        exact hround.append (ih hy hu)
      | inr a => exact hround.append (.kept (List.forall_mem_nil _))
    | failed f u =>
      rw [ho] at hround
      exact hround.append (.kept (List.forall_mem_nil _))
    | stuck w u =>
      rw [ho] at hround
      exact hround.append (.kept (List.forall_mem_nil _))

/-- A sequence. -/
lemma recall_bind {p : Action β} {k : β → Action α} {s : State}
    (hp : Recall serve fuel recording cs (p.moments serve chronicle fuel cs s) s.store.result
      (p.run serve fuel s).state.store.result)
    (hk : ∀ b u, p.run serve fuel s = .done b u → Recall serve fuel recording cs
      ((k b).moments serve chronicle fuel cs u) u.store.result
      ((k b).run serve fuel u).state.store.result) :
    Recall serve fuel recording cs ((p >>= k).moments serve chronicle fuel cs s) s.store.result
      ((p >>= k).run serve fuel s).state.store.result := by
  rw [moments_bind, run_bind]
  refine .cons (fun h => h) ?_
  cases ho : p.run serve fuel s with
  | done b u =>
    rw [ho] at hp
    exact hp.append (hk b u ho)
  | failed f u =>
    rw [ho] at hp
    exact hp.append (.kept (List.forall_mem_nil _))
  | stuck w u =>
    rw [ho] at hp
    exact hp.append (.kept (List.forall_mem_nil _))

lemma recall_attempt {p : Action α} {s : State}
    (hp : Recall serve fuel recording cs (p.moments serve chronicle fuel cs s) s.store.result
      (p.run serve fuel s).state.store.result) :
    Recall serve fuel recording cs ((attempt p).moments serve chronicle fuel cs s)
      s.store.result ((attempt p).run serve fuel s).state.store.result := by
  have hstate : ((attempt p).run serve fuel s).state = (p.run serve fuel s).state := by
    rw [run_attempt]
    cases p.run serve fuel s <;> rfl
  rw [hstate]
  exact .cons (fun h => h) hp

/-- A step that keeps the value. -/
lemma recall_update {f : Store → α × Store} (h : ∀ s, (f s).2.result = s.result) (s : State) :
    Recall serve fuel recording cs ((Action.update f).moments serve chronicle fuel cs s)
      s.store.result ((Action.update f).run serve fuel s).state.store.result := by
  have hsilent : Silent cs ((Action.update f).moments serve chronicle fuel cs s) :=
    silent_singleton fun ⟨u, hu⟩ => hu (h u)
  rw [run_update, Outcome.state_done, h]
  exact .kept hsilent

/-- An expression statement produces its value, or throws. -/
lemma recall_expression {e : Expr Span} {s : State} (hrecording : recording = true)
    (hp : Recall serve fuel recording cs ((valueOf e.action).moments serve chronicle fuel cs s)
      s.store.result ((valueOf e.action).run serve fuel s).state.store.result)
    (herr : ∀ f u, (valueOf e.action).run serve fuel s = .failed f u →
      Recall serve fuel recording cs
        ((completionOf e.span.start.line f).moments serve chronicle fuel cs u) u.store.result
        ((completionOf e.span.start.line f).run serve fuel u).state.store.result) :
    Recall serve fuel recording cs ((Stmt.expr e).action.moments serve chronicle fuel cs s)
      s.store.result ((Stmt.expr e).action.run serve fuel s).state.store.result := by
  cases hvalue : (valueOf e.action).run serve fuel s with
  | done r u =>
    have hattempt : (attempt (valueOf e.action)).run serve fuel s = .done (.ok r) u := by
      rw [run_attempt, hvalue]
    let remember : Action Completion := do
      setResult r.value
      return .normal
    have hmoments : (Stmt.expr e).action.moments serve chronicle fuel cs s =
        ⟨(Stmt.expr e).action, s, cs, (Stmt.expr e).action.run serve fuel s⟩ ::
          ((attempt (valueOf e.action)).moments serve chronicle fuel cs s ++
            remember.moments serve chronicle fuel cs u) := by
      rw [expressionStatement_action, guarded, moments_bind, hattempt]
    have hrun : (Stmt.expr e).action.run serve fuel s = remember.run serve fuel u := by
      rw [expressionStatement_action, guarded, run_bind, hattempt]
    -- the value is the last one that an expression statement has produced
    have hproduces : Produces serve fuel ((Stmt.expr e).action.moments serve chronicle fuel cs s)
        cs e s r := by
      rw [hmoments]
      let u' : State := ⟨u.control, { u.store with result := r.value }⟩
      refine ⟨⟨(Stmt.expr e).action, s, cs, (Stmt.expr e).action.run serve fuel s⟩ ::
        ((attempt (valueOf e.action)).moments serve chronicle fuel cs s ++
          [⟨remember, u, cs, remember.run serve fuel u⟩]),
        [⟨give Completion.normal, u', cs, .done .normal u'⟩], u,
        (Stmt.expr e).action.run serve fuel s, .done () u', ?_, List.mem_cons_self,
        silent_singleton fun h => h, hvalue⟩
      rw [List.cons_append, List.append_assoc]
      rfl
    rw [hrun]
    exact .produced hrecording hproduces
  | failed f u =>
    have hattempt : (attempt (valueOf e.action)).run serve fuel s = .done (.error f) u := by
      rw [run_attempt, hvalue]
    rw [expressionStatement_action]
    refine recall_bind (recall_attempt hp) fun r x hr => ?_
    rw [hattempt] at hr
    cases hr
    exact herr f u hvalue
  | stuck w u =>
    rw [expressionStatement_action]
    refine recall_bind (recall_attempt hp) fun r x hr => ?_
    rw [run_attempt, hvalue] at hr
    cases hr

/-- What composed actions do to the remembered value. -/
theorem recall_moments (hquiet : chronicle.Quiet serve) {site : Site} {W : Nat → Prop}
    {p : Action α} {Q : α → Prop} (h : Composed site W p Q) (hW : ∀ id, W id) {s : State}
    (hs : site.Covers s.control) :
    Recall serve fuel site.recording cs (p.moments serve chronicle fuel cs s) s.store.result
      (p.run serve fuel s).state.store.result := by
  have hserve := hquiet.control
  induction h generalizing cs s with
  | give | current | fail => exact .kept (silent_singleton fun h => h)
  | await =>
    rw [state_run_await]
    exact .kept (silent_singleton fun h => h)
  | note _ _ hresult => exact recall_update hresult s
  | touch _ _ hresult => exact recall_update hresult s
  | allocate => exact recall_update (fun _ => rfl) s
  | mono _ _ ih => exact ih hW hs
  | guard _ ih => exact ih (fun _ => trivial) hs
  | checked _ _ ih => exact ih (fun _ => trivial) hs
  | andThen hp _ ihp ihk =>
    exact recall_bind (ihp hW hs) fun b u hb =>
      ihk b (composed_result hserve hp hW hs hb) hW (hs.of_done hserve hb)
  | pass hp _ _ _ ihp ihok iherr | silence hp _ _ _ ihp ihok iherr =>
    refine recall_bind (recall_attempt (ihp hW hs)) fun r u hr => ?_
    rcases run_attempt_done.1 hr with ⟨b, rfl, hb⟩ | ⟨f, rfl, -⟩
    · exact ihok b (composed_result hserve hp hW hs hb) hW (hs.of_done hserve hr)
    · exact iherr f hW (hs.of_done hserve hr)
  | region hpc _ ih =>
    rw [run_region, Outcome.state_mapState]
    exact .cons (fun h => h) (ih hW ⟨hpc, hs.level⟩)
  | @activation _ _ _ entry p _ _ _ _ =>
    -- what is remembered inside belongs to another activation
    have hinside : Silent cs (p.moments serve chronicle fuel (entry :: cs)
        ⟨entry, { s.store with result := .undefined }⟩) := by
      intro m hm hcontexts
      have hlonger := (contexts_of_mem_moments hquiet.contexts p _ _ m hm).length_le
      rw [hcontexts, List.length_cons] at hlonger
      omega
    have hresult : ((activation entry p).run serve fuel s).state.store.result = s.store.result := by
      rw [run_activation]
      split <;> rfl
    rw [hresult]
    exact .cons (fun h => h) (.kept hinside)
  | @invoke _ _ r =>
    have hresult : ((invoke r).run serve fuel s).state.store.result = s.store.result :=
      hquiet.result r s
    rw [hresult]
    exact .cons (fun h => h) (.kept (hquiet.silent r cs s))
  | @loop site _ _ _ _ _ I _ hinit hstep ih =>
    refine .cons (fun h => h) (recall_iterate (I := I) (P := fun u => site.Covers u.control)
      (fun x u hx hu => ih x hx hW hu) (fun x u y v hx hu hr => ?_) _ hinit hs)
    exact ⟨composed_result hserve (hstep x hx) hW hu hr, hu.of_done hserve hr⟩
  | expression hrecording _ _ ihp iherr =>
    refine recall_expression hrecording (ihp hW hs) fun f u hfailed => iherr f hW ?_
    rwa [run_failed_control hserve hfailed]

/-- An activation that is done gives what one of its expression statements has produced. -/
lemma produced_activation (hquiet : chronicle.Quiet serve) {body : List (Stmt Span)}
    {entry : Control} {s t : State} {c : Completion} {v : Value}
    (hrun : (activation entry (runBody body)).run serve fuel s = .done (c, v) t) :
    v = .undefined ∨ ∃ e x r, v = r.value ∧
      Produces serve fuel ((activation entry (runBody body)).moments serve chronicle fuel cs s)
        (entry :: cs) e x r := by
  obtain ⟨w, hbody, hv, -⟩ := activation_done hrun
  let site : Site := ⟨.none, none, true⟩
  let s' : State := ⟨entry, { s.store with result := .undefined }⟩
  have hcovers : site.Covers s'.control := ⟨Label.none_leq _, by rintro _ ⟨⟩⟩
  have hroutine : Routine site (fun _ => True) (runBody body) :=
    (neat_runBody rfl body).routine
  have hrecall : Recall serve fuel true (entry :: cs)
      ((runBody body).moments serve chronicle fuel (entry :: cs) s') .undefined
      ((runBody body).run serve fuel s').state.store.result :=
    recall_moments hquiet hroutine (fun _ => trivial) hcovers
  rw [hbody, Outcome.state_done, ← hv] at hrecall
  cases hrecall with
  | kept => exact .inl rfl
  | produced _ hproduces => exact .inr ⟨_, _, _, rfl, hproduces.after [_]⟩

end

lemma machineChronicle_quiet {hosts : Hosts} (h : hosts.Composed .none) (rounds levels : Nat) :
    (machineChronicle hosts rounds levels).Quiet (machine hosts rounds levels) := by
  induction levels with
  | zero =>
    exact ⟨machine_keepsControl hosts rounds 0, fun _ _ => rfl, fun _ _ _ => List.forall_mem_nil _,
      fun _ _ _ => List.forall_mem_nil _⟩
  | succ n ih =>
    have hrecall : ∀ r cs s, Recall (machine hosts rounds n) rounds false cs
        (machineChronicle hosts rounds (n + 1) r cs s) s.store.result
        (machine hosts rounds (n + 1) r s).state.store.result := by
      intro r cs s
      let site : Site := ⟨.none, none, false⟩
      have hcovers : site.Covers s.control := ⟨Label.none_leq _, by rintro _ ⟨⟩⟩
      rw [machine_succ]
      exact recall_moments ih (routine_perform h r : Routine site (fun _ => True) _)
        (fun _ => trivial) hcovers
    exact ⟨machine_keepsControl hosts rounds (n + 1),
      fun r s => (hrecall r [] s).of_not_recording.1,
      fun r cs s => (hrecall r cs s).of_not_recording.2,
      fun r cs s => contexts_of_mem_moments ih.contexts (perform hosts r) cs s⟩

/-! ## Scripts and evaluated texts -/

/-- A script or an evaluated text, with the label that its source carries. -/
inductive Reports : Action Value → Label → Prop
  | script (source file : String) (line : Int) : Reports (evaluate source file line) .none
  | text (source : String) (k : Label) (this : Value) (rest : List Value) :
      Reports (Library.run .eval this (⟨.string source, k⟩ :: rest)) k

section

variable {serve : Service} {chronicle : Chronicle} {fuel : Nat} {cs : List Control} {s t : State}
  {v : Value}

/-- What a script gives has been produced in its activation. -/
lemma produced_runProgram (hquiet : chronicle.Quiet serve) {body : List (Stmt Span)}
    {file : String} (hrun : (runProgram body file).run serve fuel s = .done v t) :
    v = .undefined ∨ ∃ entry e x r, v = r.value ∧
      Produces serve fuel ((runProgram body file).moments serve chronicle fuel cs s)
        (entry :: cs) e x r := by
  obtain ⟨_, _, ⟨⟩, hrest⟩ := run_bind_done.1 hrun
  obtain ⟨⟨c, w⟩, u, hactivation, hend⟩ := run_bind_done.1 hrest
  obtain rfl : w = v := by
    cases c with
    | thrown => cases hend
    | normal | leave | resume | returned => cases hend; rfl
  rcases produced_activation hquiet hactivation with rfl | ⟨e, x, r, rfl, hproduces⟩
  · exact .inl rfl
  · refine .inr ⟨_, e, x, r, rfl, .bind_rest (run_current s) (.bind_first hproduces ?_)⟩
    rintro ⟨c, w⟩ u -
    cases c <;> exact silent_singleton fun h => h

/-- What an evaluated text gives has been produced in its activation, and carries the label of the
text. -/
lemma produced_evalText (hquiet : chronicle.Quiet serve) {source : String} {k : Label}
    (hrun : (evalText source k).run serve fuel s = .done v t) :
    v = Value.undefined.wrap k ∨ ∃ entry e x r, v = r.value.wrap k ∧
      Produces serve fuel ((evalText source k).moments serve chronicle fuel cs s)
        (entry :: cs) e x r := by
  obtain ⟨_, _, ⟨⟩, hrest⟩ := run_bind_done.1 hrun
  suffices hproduced : v = Value.undefined.wrap k ∨ ∃ entry e x r, v = r.value.wrap k ∧
      Produces serve fuel (Action.moments serve chronicle fuel _ cs s) (entry :: cs) e x r from
    hproduced.imp_right fun ⟨entry, e, x, r, hv, h⟩ =>
      ⟨entry, e, x, r, hv, .bind_rest (run_current s) h⟩
  split_ifs at hrest ⊢ with hroom
  · cases hrest
  cases hparse : Script.parse defaultIntrinsic s.control.file source 1 with
  | error e =>
    rw [hparse] at hrest
    cases hrest
  | ok program =>
    rw [hparse] at hrest
    obtain ⟨_, u, htrace, hlast⟩ := run_bind_done.1 hrest
    obtain ⟨o, w, hattempt, hend⟩ := run_bind_done.1 hlast
    rcases run_attempt_done.1 hattempt with ⟨⟨c, value⟩, rfl, hactivation⟩ | ⟨f, rfl, -⟩
    · have hreturned : v = value.wrap k ∧ ∀ v line, c ≠ .thrown v line := by
        cases c with
        | thrown => cases hend
        | normal | leave | resume | returned =>
          cases hend
          exact ⟨rfl, by rintro v line ⟨⟩⟩
      obtain ⟨rfl, hc⟩ := hreturned
      rcases produced_activation hquiet hactivation with rfl | ⟨e, x, r, rfl, hproduces⟩
      · exact .inl rfl
      · refine .inr ⟨s.control.evaluating k, e, x, r, rfl, ?_⟩
        refine .bind_rest htrace (.bind_first (hproduces.after [_]) fun o w' hw' => ?_)
        rw [hattempt] at hw'
        cases hw'
        cases c with
        | thrown v line => exact absurd rfl (hc v line)
        | normal | leave | resume | returned => exact silent_singleton fun h => h
    · cases f <;> cases hend

end

/-- A value that carries its effective label carries no less without one more. -/
lemma Rated.wrap_none_value (r : Rated) : r.value.wrap .none = r.value := by
  unfold Rated.value Raw.labeled Value.wrap
  simp only [Value.plain_raw, Value.plain_label]
  split_ifs <;> simp_all [Label.join_none]

/-- **Results are classified.** A script, or a text that carries a label, has run to its end. What
it gives is undefined, or it is the value of an expression statement of its activation, the last one
that this activation has remembered. It then carries the label of that statement's expression
and the label of the text. The program counter at which the statement has run is included as far as
these two labels include it. -/
theorem result_classified {hosts : Hosts} (hhosts : hosts.Composed .none) {p : Action Value}
    {k : Label} (hp : Reports p k) (rounds levels : Nat) (cs : List Control) {s t : State}
    {v : Value}
    (hrun : p.run (machine hosts rounds levels) rounds s = .done v t) :
    v = Value.undefined.wrap k ∨ ∃ entry e x r,
      Produces (machine hosts rounds levels) rounds (p.momentsOn hosts rounds levels cs s)
        (entry :: cs) e x r ∧
      v.raw = r.raw ∧ (r.label.join k).leq v.label = true ∧
      (x.control.pc.leq (r.label.join k) = true → x.control.pc.leq v.label = true) := by
  have hquiet := machineChronicle_quiet hhosts rounds levels
  have hproduced : v = Value.undefined.wrap k ∨ ∃ entry e x r, v = r.value.wrap k ∧
      Produces (machine hosts rounds levels) rounds (p.momentsOn hosts rounds levels cs s)
        (entry :: cs) e x r := by
    cases hp with
    | script source file line =>
      unfold evaluate at hrun ⊢
      cases hparse : Script.parse defaultIntrinsic file source line with
      | error e =>
        rw [hparse] at hrun
        cases hrun
      | ok program =>
        rw [hparse] at hrun
        rcases produced_runProgram hquiet hrun with rfl | ⟨entry, e, x, r, rfl, hproduces⟩
        · exact .inl rfl
        · exact .inr ⟨entry, e, x, r, (Rated.wrap_none_value r).symm, hproduces⟩
    | text source k this rest => exact produced_evalText hquiet hrun
  rcases hproduced with hv | ⟨entry, e, x, r, rfl, hproduces⟩
  · exact .inl hv
  · have hlabel : (r.label.join k).leq (r.value.wrap k).label = true := by
      rw [Label.leq_iff, Label.height_join, Value.height_wrap]
      have hheight : r.value.label.height = r.label.height := Value.height_labeled r.raw r.label
      omega
    exact .inr ⟨entry, e, x, r, hproduces, by simp [Rated.value], hlabel,
      fun hpc => Label.leq_trans hpc hlabel⟩

/-- A script runs to its end and gives a value under a label that is not at the bottom. -/
def givesLabeled (p : Action Value) (bound : Nat) (s : State) : Bool :=
  match p.run (machine .none bound bound) bound s with
  | .done v _ => v.isLabeled
  | _ => false

lemma exists_of_givesLabeled {p : Action Value} {bound : Nat} {s : State}
    (h : givesLabeled p bound s = true) :
    ∃ v t, p.run (machine .none bound bound) bound s = .done v t ∧ v.isLabeled = true := by
  unfold givesLabeled at h
  split at h
  · rename_i v t hrun
    exact ⟨v, t, hrun, h⟩
  · cases h

/-- A script whose value is the secret. -/
def secretScript : Action Value := evaluate "public = true; !secret" "" 1

set_option maxRecDepth 100000 in
/-- The script gives a classified value, which one of its expression statements has produced. -/
theorem result_classified_of_secret : ∃ v t,
    secretScript.run (machine .none 50 50) 50 secretSession = .done v t ∧ v.isLabeled = true ∧
    (v = Value.undefined.wrap .none ∨ ∃ entry e x r,
      Produces (machine .none 50 50) 50 (secretScript.momentsOn .none 50 50 [] secretSession)
        [entry] e x r ∧
      v.raw = r.raw ∧ (r.label.join .none).leq v.label = true ∧
      (x.control.pc.leq (r.label.join .none) = true → x.control.pc.leq v.label = true)) := by
  have hgives : givesLabeled secretScript 50 secretSession = true := by decide +kernel
  obtain ⟨v, t, hrun, hlabeled⟩ := exists_of_givesLabeled hgives
  exact ⟨v, t, hrun, hlabeled,
    result_classified (composed_none .none) (.script "public = true; !secret" "" 1) 50 50 [] hrun⟩

/-- A truth value without a label. -/
def Value.isTruth (v : Value) (b : Bool) : Bool :=
  match v.raw with
  | .bool b' => b' == b && v.label.isNone
  | _ => false

lemma Value.of_isTruth {v : Value} {b : Bool} (h : v.isTruth b = true) :
    v.raw = .bool b ∧ v.label.isNone = true := by
  unfold isTruth at h
  split at h
  · rename_i b' hraw
    rw [Bool.and_eq_true, beq_iff_eq] at h
    exact ⟨by rw [hraw, h.1], h.2⟩
  · cases h

/-- A script runs to its end and gives a truth value without a label. -/
def givesTruth (p : Action Value) (bound : Nat) (s : State) (b : Bool) : Bool :=
  match p.run (machine .none bound bound) bound s with
  | .done v _ => v.isTruth b
  | _ => false

lemma exists_of_givesTruth {p : Action Value} {bound : Nat} {s : State} {b : Bool}
    (h : givesTruth p bound s b = true) :
    ∃ v t, p.run (machine .none bound bound) bound s = .done v t ∧ v.raw = .bool b ∧
      v.label.isNone = true := by
  unfold givesTruth at h
  split at h
  · rename_i v t hrun
    exact ⟨v, t, hrun, Value.of_isTruth h⟩
  · cases h

/-- A step at a program counter makes the remembered value a truth value without a label. -/
def Moment.remembersPlain (m : Moment) (pc : Label) (b : Bool) : Bool :=
  match m.action with
  | .update f =>
    m.state.control.pc = pc && !m.state.store.result.isTruth b &&
      (f m.state.store).2.result.isTruth b
  | _ => false

lemma Moment.alters_of_remembersPlain {m : Moment} {pc : Label} {b : Bool}
    (h : m.remembersPlain pc b = true) : m.state.control.pc = pc ∧ m.action.Alters := by
  obtain ⟨action, state, contexts, outcome⟩ := m
  cases action with
  | update f =>
    simp only [remembersPlain, Bool.and_eq_true, decide_eq_true_eq, Bool.not_eq_true'] at h
    refine ⟨h.1.1, state.store, fun hsame => ?_⟩
    rw [hsame, h.1.2] at h
    cases h.2
  | _ => cases h

/-- A script whose expression statement runs in a branch that the secret controls. -/
def branchScript : Action Value := evaluate "if (secret) \x7b true; \x7d" "" 1

set_option maxRecDepth 100000 in
/-- The statement runs at the level of the secret, and its value is given without a label. -/
theorem branch_result_unlabeled :
    (∃ m ∈ branchScript.momentsOn .none 50 50 [] secretSession,
      m.state.control.pc = ⟨2, "H"⟩ ∧ m.action.Alters) ∧
    ∃ v t, branchScript.run (machine .none 50 50) 50 secretSession = .done v t ∧
      v.raw = .bool true ∧ v.label.isNone = true := by
  obtain ⟨hmoment, hgives⟩ : (branchScript.momentsOn .none 50 50 [] secretSession).any
        (·.remembersPlain ⟨2, "H"⟩ true) = true ∧
      givesTruth branchScript 50 secretSession true = true := by decide +kernel
  obtain ⟨m, hm, hremembers⟩ := List.any_eq_true.1 hmoment
  exact ⟨⟨m, hm, Moment.alters_of_remembersPlain hremembers⟩, exists_of_givesTruth hgives⟩

end Clearance
