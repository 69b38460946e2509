/-
# Activations in progress, and their bound

At every moment of a run the depth that the machine counts is the number of the activations of
functions and of evaluated texts in progress, it is within the bound of the realm, and the action
that is started leaves the control as it finds it (`evaluation_balanced`). The count is carried
along by composed actions: an activation is entered from the level at which the machine is, and only
where there is room for it.

The machine admits so many activations and no more. A run that is refused none of them does not
notice: on a machine that admits more, it takes the same steps, through the same stores, to the same
end (`bound_only_cuts_off`).

The bound is part of the control, which actions may ask for, so this is no matter of course. It
holds since everything that scripts do is built in the ways of `Built`: what is done with the
control does not depend on the bound, but where an activation is entered. There, one that is
admitted under the lower bound is admitted under the higher one.
-/
import Clearance.Proofs.Moment
import Clearance.Proofs.Violation
import Clearance.Session
import Mathlib.Data.List.Forall2

namespace Clearance

open Clearance.Action

/-! ## The count -/

/-- How many of the activations are those of functions and of evaluated texts. -/
def inProgress (cs : List Control) : Nat := cs.countP fun c => c.kind ≠ .global

/-- The depth counts the activations in progress, and is within its bound. -/
structure Control.Counts (c : Control) (cs : List Control) : Prop where
  depth : c.depth = inProgress cs
  bounded : c.depth ≤ c.realm.maxDepth

/-- The depth is right when an action starts, and the action leaves the control as it finds it. -/
structure Moment.Balanced (m : Moment) : Prop where
  counts : m.state.control.Counts m.contexts
  restored : m.outcome.state.control = m.state.control

/-! ### One activation more -/

/-- The step that counts: an activation is entered. -/
lemma Control.Counts.activation {c entry : Control} {cs : List Control} (h : c.Counts cs)
    (hentry : c.level.Opens entry) : entry.Counts (entry :: cs) := by
  have hdepth : entry.depth = if entry.kind = .global then c.depth else c.depth + 1 :=
    hentry.depth
  have hrealm : entry.realm = c.realm := hentry.realm
  have hroom : entry.kind ≠ .global → c.depth < c.realm.maxDepth := hentry.room
  have hbounded := h.bounded
  by_cases hkind : entry.kind = .global
  · rw [if_pos hkind] at hdepth
    refine ⟨?_, ?_⟩
    · rw [hdepth, h.depth]
      simp [inProgress, hkind]
    · rw [hdepth, hrealm]
      exact hbounded
  · rw [if_neg hkind] at hdepth
    have hless := hroom hkind
    refine ⟨?_, ?_⟩
    · rw [hdepth, h.depth]
      simp [inProgress, hkind]
    · rw [hdepth, hrealm]
      exact hless

/-- The count is carried along: a region is as deep as what surrounds it. -/
lemma carried_counts : Carried .none fun cs c => c.Counts cs :=
  ⟨fun h _ => ⟨h.depth, h.bounded⟩, fun h _ hentry => h.activation hentry⟩

/-! ### Evaluation -/

/-- What is evaluated: expressions, statements, calls and constructions, evaluated texts, callbacks
of native functions, and scripts. -/
inductive Evaluates : {α : Type} → Action α → Prop
  | expression (e : Script.Expr Script.Span) : Evaluates e.action
  | statement (s : Script.Stmt Script.Span) : Evaluates s.action
  | call (fn : Ref) (this : Value) (args : List Value) : Evaluates (call fn this args)
  | construct (fn : Ref) (args : List Value) : Evaluates (invoke (.construct fn args))
  | eval (this : Value) (args : List Value) : Evaluates (Library.run .eval this args)
  | callback (k : Label) (fn : Ref) (this : Value) (args : List Value) :
      Evaluates (invokeAt k fn this args)
  | script (source file : String) (line : Int) : Evaluates (evaluate source file line)

lemma Evaluates.routine {α : Type} {p : Action α} (h : Evaluates p) {site : Site}
    (hfloor : site.floor = .none) (hrecording : site.recording = true) {W : Nat → Prop} :
    Routine site W p := by
  refine Lasting.routine ?_
  cases h with
  | expression e => exact neat_expr e
  | statement s => exact neat_stmt hrecording s
  | call | construct => exact .invoke
  | eval this args => exact Library.neat_run .eval this args
  | callback => exact neat_invokeAt ..
  | script source file line =>
    unfold evaluate
    split
    · exact .fail
    · exact neat_runProgram hfloor ..

/-- **Evaluation restores the control.** Whatever is evaluated, in a state whose depth counts the
activations in progress, and however the evaluation ends: the control is what it was before, and so
it is after everything that was started in the meantime. At all these moments the depth is the
number of the activations of functions and of evaluated texts in progress, and within its
bound. -/
theorem evaluation_balanced {hosts : Hosts} (hhosts : hosts.Composed .none) {α : Type}
    {p : Action α} (hp : Evaluates p) (rounds levels : Nat) {cs : List Control} {s : State}
    (hs : s.control.Counts cs) :
    (p.run (machine hosts rounds levels) rounds s).state.control = s.control ∧
      ∀ m ∈ p.momentsOn hosts rounds levels cs s, m.Balanced := by
  refine ⟨run_control (machine_keepsControl hosts rounds levels) p s, fun m hm => ?_⟩
  obtain ⟨n, hwithin⟩ := mem_momentsOn hm
  refine ⟨?_, ?_⟩
  · let site : Site := ⟨.none, some s.control.level, true⟩
    have hcovers : site.Covers s.control := ⟨Label.none_leq _, by rintro _ ⟨⟩; rfl⟩
    exact carried_counts.moments (carried_counts.machineChronicle hhosts rounds levels)
      (machine_keepsControl hosts rounds levels)
      (hp.routine rfl rfl : Routine site (fun _ => True) p) (fun _ => trivial) rfl rfl hcovers hs
      m hm
  · rw [hwithin.outcome]
    exact run_control (machine_keepsControl hosts rounds n) m.action m.state

/-- Nothing is in progress in a session in which nothing has run. -/
lemma Session.counts_fresh (o : Library.Options) : (fresh o).control.Counts [] := by
  have hdepth : (fresh o).control.depth = 0 := by
    unfold fresh
    generalize (Library.install o).run #[] = r
    rfl
  exact ⟨hdepth, by rw [hdepth]; exact Nat.zero_le _⟩

/-- A function that evaluates a text. -/
def nestedScript : Action Value :=
  evaluate "function f(text) \x7b return eval(text); \x7d f('1')" "" 1

set_option maxRecDepth 100000 in
/-- Two activations are in progress at some moment of the script, and all moments are balanced. -/
theorem evaluation_balanced_in_session :
    (∃ m ∈ nestedScript.momentsOn .none 50 50 [] (Session.fresh .standard),
      inProgress m.contexts = 2) ∧
    ∀ m ∈ nestedScript.momentsOn .none 50 50 [] (Session.fresh .standard), m.Balanced := by
  have hnested : (nestedScript.momentsOn .none 50 50 [] (Session.fresh .standard)).any
      (fun m => inProgress m.contexts = 2) = true := by
    rw [nestedScript, evaluate_ofList]
    decide +kernel
  obtain ⟨m, hm, htwo⟩ := List.any_eq_true.1 hnested
  refine ⟨⟨m, hm, of_decide_eq_true htwo⟩, ?_⟩
  exact (evaluation_balanced (composed_none .none) (.script ..) 50 50
    (Session.counts_fresh .standard)).2

/-! ## The bound -/

/-- The state on a machine that admits another number of activations. -/
def State.bounded (n : Nat) (s : State) : State := ⟨s.control.bounded n, s.store⟩

@[simp] lemma State.bounded_maxDepth (n : Nat) (s : State) :
    (s.bounded n).control.realm.maxDepth = n := rfl

@[simp] lemma State.bounded_bounded (m n : Nat) (s : State) :
    (s.bounded m).bounded n = s.bounded n := rfl

/-- The actions that enter an activation if there is room for one more. -/
inductive Enters : {α : Type} → Action α → Prop
  | call (f : Ref) (fn : Script.Function Script.Span) (scope : Nat) (this : Value)
      (args : List Value) : Enters (callClosure f fn scope this args)
  | text (source : String) (k : Label) : Enters (evalText source k)

/-- An activation is refused. -/
structure Moment.Refused (m : Moment) : Prop where
  enters : Enters m.action
  full : m.state.control.realm.maxDepth ≤ m.state.control.depth

/-- The same step of two runs: it starts and ends alike, but for the bound. -/
structure Moment.SameStep (n : Nat) (m m' : Moment) : Prop where
  state : m'.state = m.state.bounded n
  contexts : m'.contexts = m.contexts.map (Control.bounded n)
  finish : m'.outcome.state = m.outcome.state.bounded n

/-- Two runs end alike and take the same steps, but for the bound. -/
structure SameRun (n : Nat) {α : Type} (o o' : Outcome α) (ms ms' : List Moment) : Prop where
  outcome : o' = o.mapState (State.bounded n)
  steps : List.Forall₂ (Moment.SameStep n) ms ms'

/-- The second action runs under the bound as the first one runs, if that is refused nothing. -/
def Mirrors (n : Nat) (serve : Service) (chronicle : Chronicle) (fuel : Nat) {α : Type}
    (p q : Action α) (cs : List Control) (s : State) : Prop :=
  s.control.realm.maxDepth ≤ n → (∀ m ∈ p.moments serve chronicle fuel cs s, ¬m.Refused) →
    SameRun n (p.run serve fuel s) (q.run serve fuel (s.bounded n))
      (p.moments serve chronicle fuel cs s)
      (q.moments serve chronicle fuel (cs.map (Control.bounded n)) (s.bounded n))

/-- What is served under the bound is served as it is without. -/
structure Service.Mirrors (n : Nat) (serve : Service) (chronicle : Chronicle) : Prop where
  keeps : serve.KeepsControl
  same : ∀ (r : Request) (cs : List Control) (s : State), s.control.realm.maxDepth ≤ n →
    (∀ m ∈ chronicle r cs s, ¬m.Refused) →
      SameRun n (serve r s) (serve r (s.bounded n)) (chronicle r cs s)
        (chronicle r (cs.map (Control.bounded n)) (s.bounded n))

variable {n : Nat} {α β : Type}

/-- A step is taken before others. -/
lemma SameRun.cons {o o' : Outcome α} {ms ms' : List Moment} {p q : Action α} {cs : List Control}
    {s : State} (ho : o' = o.mapState (State.bounded n))
    (hms : List.Forall₂ (Moment.SameStep n) ms ms') :
    SameRun n o o' (⟨p, s, cs, o⟩ :: ms)
      (⟨q, s.bounded n, cs.map (Control.bounded n), o'⟩ :: ms') := by
  refine ⟨ho, .cons ⟨rfl, rfl, ?_⟩ hms⟩
  show o'.state = o.state.bounded n
  rw [ho, Outcome.state_mapState]

namespace Mirrors

variable {serve : Service} {chronicle : Chronicle} {fuel : Nat} {cs : List Control} {s : State}

/-- An instruction that starts no other one, and looks at the store only. -/
lemma single {p : Action α} (hmoments : ∀ cs u, p.moments serve chronicle fuel cs u =
      [⟨p, u, cs, p.run serve fuel u⟩])
    (hrun : p.run serve fuel (s.bounded n) = (p.run serve fuel s).mapState (State.bounded n)) :
    Mirrors n serve chronicle fuel p p cs s := by
  intro _ _
  rw [hmoments, hmoments]
  exact .cons hrun .nil

/-- An instruction that asks where the machine is goes on with the answers. -/
lemma ask {k k' : Control → Action α}
    (hk : Mirrors n serve chronicle fuel (k s.control) (k' (s.control.bounded n)) cs s) :
    Mirrors n serve chronicle fuel (.andThen .current k) (.andThen .current k') cs s := by
  intro hn hfree
  have hrest := hk hn fun m hm => hfree m (mem_moments_rest (p := .current) rfl hm)
  exact .cons hrest.outcome (.cons ⟨rfl, rfl, rfl⟩ hrest.steps)

lemma askRealm {k k' : Realm → Action α}
    (hk : Mirrors n serve chronicle fuel (k s.control.realm) (k' (s.bounded n).control.realm) cs
      s) :
    Mirrors n serve chronicle fuel (Action.realm >>= k) (Action.realm >>= k') cs s := by
  intro hn hfree
  have hrest := hk hn fun m hm => hfree m (mem_moments_rest (p := Action.realm) rfl hm)
  exact .cons hrest.outcome
    (.cons ⟨rfl, rfl, rfl⟩ (.cons ⟨rfl, rfl, rfl⟩ (.cons ⟨rfl, rfl, rfl⟩ hrest.steps)))

lemma bind (hserve : serve.KeepsControl) {p p' : Action β} {k k' : β → Action α}
    (hp : Mirrors n serve chronicle fuel p p' cs s)
    (hk : ∀ b u, p.run serve fuel s = .done b u →
      Mirrors n serve chronicle fuel (k b) (k' b) cs u) :
    Mirrors n serve chronicle fuel (p >>= k) (p' >>= k') cs s := by
  intro hn hfree
  have hfirst := hp hn fun m hm => hfree m (mem_moments_first k hm)
  rw [moments_bind, moments_bind, run_bind p k, run_bind p' k', hfirst.outcome]
  cases ho : p.run serve fuel s with
  | done b u =>
    have hu : u.control.realm.maxDepth ≤ n := by
      rw [run_done_control hserve ho]
      exact hn
    have hrest := hk b u ho hu fun m hm => hfree m (mem_moments_rest ho hm)
    exact .cons hrest.outcome (List.rel_append hfirst.steps hrest.steps)
  | failed f u | stuck w u => exact .cons rfl (List.rel_append hfirst.steps .nil)

lemma attempt {p p' : Action α} (hp : Mirrors n serve chronicle fuel p p' cs s) :
    Mirrors n serve chronicle fuel (.attempt p) (.attempt p') cs s := by
  intro hn hfree
  have hsame := hp hn fun m hm => hfree m (List.mem_cons_of_mem _ hm)
  refine .cons ?_ hsame.steps
  rw [run_attempt, run_attempt, hsame.outcome]
  cases p.run serve fuel s <;> rfl

lemma region {pc : Label} {scope : Nat} {p : Action α}
    (hp : Mirrors n serve chronicle fuel p p cs ⟨{ s.control with pc, scope }, s.store⟩) :
    Mirrors n serve chronicle fuel (.region pc scope p) (.region pc scope p) cs s := by
  intro hn hfree
  have hsame := hp hn fun m hm => hfree m (List.mem_cons_of_mem _ hm)
  refine .cons ?_ hsame.steps
  have houtcome : p.run serve fuel ⟨{ (s.bounded n).control with pc, scope }, s.store⟩ =
      (p.run serve fuel ⟨{ s.control with pc, scope }, s.store⟩).mapState (State.bounded n) :=
    hsame.outcome
  rw [run_region, run_region]
  show Outcome.mapState _ (p.run serve fuel ⟨{ (s.bounded n).control with pc, scope }, s.store⟩) = _
  rw [houtcome]
  cases p.run serve fuel ⟨{ s.control with pc, scope }, s.store⟩ <;> rfl

/-- The entries of the activations differ in the bound as the runs do. -/
lemma activation {entry : Control} (hrealm : entry.realm = s.control.realm) {p : Action α}
    (hp : Mirrors n serve chronicle fuel p p (entry :: cs)
      ⟨entry, { s.store with result := .undefined }⟩) :
    Mirrors n serve chronicle fuel (.activation entry p) (.activation (entry.bounded n) p) cs
      s := by
  intro hn hfree
  have hsame := hp (by rw [← hrealm] at hn; exact hn)
    fun m hm => hfree m (List.mem_cons_of_mem _ hm)
  refine .cons ?_ hsame.steps
  have houtcome : p.run serve fuel
      ⟨entry.bounded n, { (s.bounded n).store with result := .undefined }⟩ =
        (p.run serve fuel ⟨entry, { s.store with result := .undefined }⟩).mapState
          (State.bounded n) := hsame.outcome
  rw [run_activation, run_activation, houtcome]
  cases p.run serve fuel ⟨entry, { s.store with result := .undefined }⟩ <;> rfl

lemma invoke (hserve : serve.Mirrors n chronicle) (r : Request) :
    Mirrors n serve chronicle fuel (.invoke r) (.invoke r) cs s := by
  intro hn hfree
  have hsame := hserve.same r cs s hn fun m hm => hfree m (List.mem_cons_of_mem _ hm)
  exact .cons hsame.outcome hsame.steps

/-- The rounds of a loop, by induction on their number. -/
lemma loop (hserve : serve.KeepsControl) {σ : Type} {step : σ → Action (σ ⊕ α)} {I : σ → Prop}
    {P : State → Prop}
    (hround : ∀ x u, I x → P u → Mirrors n serve chronicle fuel (step x) (step x) cs u)
    (hkeep : ∀ x u y v, I x → P u → (step x).run serve fuel u = .done (.inl y) v → I y ∧ P v)
    {x : σ} (hx : I x) (hs : P s) :
    Mirrors n serve chronicle fuel (.loop x step) (.loop x step) cs s := by
  suffices h : ∀ rounds x u, I x → P u → u.control.realm.maxDepth ≤ n →
      (∀ m ∈ iterateMoments (fun x u => (step x).run serve fuel u)
        (fun x u => (step x).moments serve chronicle fuel cs u) rounds x u, ¬m.Refused) →
      SameRun n (iterate (fun x u => (step x).run serve fuel u) rounds x u)
        (iterate (fun x u => (step x).run serve fuel u) rounds x (u.bounded n))
        (iterateMoments (fun x u => (step x).run serve fuel u)
          (fun x u => (step x).moments serve chronicle fuel cs u) rounds x u)
        (iterateMoments (fun x u => (step x).run serve fuel u)
          (fun x u => (step x).moments serve chronicle fuel (cs.map (Control.bounded n)) u) rounds x
          (u.bounded n)) by
    intro hn hfree
    have hsame := h fuel x s hx hs hn fun m hm => hfree m (List.mem_cons_of_mem _ hm)
    exact .cons hsame.outcome hsame.steps
  -- on the rounds, which leave the bound of the state as it is
  intro rounds
  induction rounds with
  | zero => exact fun _ _ _ _ _ _ => ⟨rfl, .nil⟩
  | succ rounds ih =>
    intro x u hx hu hn hfree
    unfold iterateMoments at hfree ⊢
    unfold iterate
    have hfirst := hround x u hx hu hn fun m hm => hfree m (List.mem_append_left _ hm)
    rw [hfirst.outcome]
    cases ho : (step x).run serve fuel u with
    | done r v =>
      cases r with
      | inl y =>
        obtain ⟨hy, hv⟩ := hkeep x u y v hx hu ho
        have hvn : v.control.realm.maxDepth ≤ n := by
          rw [run_done_control hserve ho]
          exact hn
        have hrest := ih y v hy hv hvn fun m hm => hfree m (List.mem_append_right _ (by
          rw [ho]
          exact hm))
        exact ⟨hrest.outcome, List.rel_append hfirst.steps hrest.steps⟩
      | inr a => exact ⟨rfl, List.rel_append hfirst.steps .nil⟩
    | failed f v | stuck w v => exact ⟨rfl, List.rel_append hfirst.steps .nil⟩

/-! ## Activations -/

lemma give (a : α) : Mirrors n serve chronicle fuel (.give a) (.give a) cs s :=
  .single (fun _ _ => rfl) rfl

lemma fail (f : Failure) : Mirrors n serve chronicle fuel (.fail f : Action α) (.fail f) cs s :=
  .single (fun _ _ => rfl) rfl

lemma update (f : Store → α × Store) :
    Mirrors n serve chronicle fuel (.update f) (.update f) cs s := .single (fun _ _ => rfl) rfl

/-- Whether events are recorded does not depend on the bound. -/
lemma trace (e : Event) :
    Mirrors n serve chronicle fuel (Action.trace e) (Action.trace e) cs s := by
  refine .askRealm ?_
  show Mirrors _ _ _ _ (if s.control.realm.traced then _ else _)
    (if s.control.realm.traced then _ else _) _ _
  split
  · exact .update _
  · exact .give _

/-- The value that an activation has thrown is thrown again. -/
lemma rethrow (hserve : serve.KeepsControl) (v : Value) (line : Nat) :
    Mirrors n serve chronicle fuel (thrownFailure v line >>= fun f => (Action.fail f : Action α))
      (thrownFailure v line >>= fun f => Action.fail f) cs s :=
  .bind hserve (.ask (.give _)) fun f _ _ => .fail f

/-- There is room for an activation that has not been refused, under the higher bound too. -/
lemma room {p : Action α} (hp : Enters p) (hn : s.control.realm.maxDepth ≤ n)
    (hfree : ∀ m ∈ p.moments serve chronicle fuel cs s, ¬m.Refused) :
    ¬s.control.depth ≥ s.control.realm.maxDepth ∧ ¬s.control.depth ≥ n := by
  have hless : s.control.depth < s.control.realm.maxDepth :=
    Nat.lt_of_not_le fun hfull => hfree _ (mem_moments_self p cs s) ⟨hp, hfull⟩
  omega

lemma callClosure (hserve : serve.KeepsControl) {f : Ref} {fn : Script.Function Script.Span}
    {scope : Nat} {this : Value} {args : List Value}
    (hactivate : Mirrors n serve chronicle fuel (activate f fn scope args s.control.pc)
      (activate f fn scope args s.control.pc) cs s)
    (hbody : ∀ entry u, Mirrors n serve chronicle fuel (runBody fn.body) (runBody fn.body)
      (entry :: cs) ⟨entry, u⟩) :
    Mirrors n serve chronicle fuel (Clearance.callClosure f fn scope this args)
      (Clearance.callClosure f fn scope this args) cs s := by
  intro hn hfree
  obtain ⟨hroom, hroom'⟩ := room (.call f fn scope this args) hn hfree
  refine Mirrors.ask ?_ hn hfree
  have hroom'' : ¬(s.control.bounded n).depth ≥ (s.control.bounded n).realm.maxDepth := hroom'
  rw [if_neg hroom, if_neg hroom'']
  refine .bind hserve hactivate fun frame u hu => ?_
  have hcontrol : u.control = s.control := run_done_control hserve hu
  refine .bind hserve (.activation (by rw [hcontrol]) (hbody _ _)) fun r v hv => ?_
  split
  · exact .rethrow hserve _ _
  · exact .give _
  · exact .give _

lemma evalText (hserve : serve.KeepsControl) {source : String} {k : Label}
    (hbody : ∀ file program, Script.parse Script.defaultIntrinsic file source 1 = .ok program →
      ∀ entry u, Mirrors n serve chronicle fuel (runBody program.body) (runBody program.body)
        (entry :: cs) ⟨entry, u⟩) :
    Mirrors n serve chronicle fuel (Clearance.evalText source k) (Clearance.evalText source k) cs
      s := by
  intro hn hfree
  obtain ⟨hroom, hroom'⟩ := room (.text source k) hn hfree
  refine Mirrors.ask ?_ hn hfree
  have hroom'' : ¬(s.control.bounded n).depth ≥ (s.control.bounded n).realm.maxDepth := hroom'
  rw [if_neg hroom, if_neg hroom'']
  cases hparse : Script.parse Script.defaultIntrinsic s.control.file source 1 with
  | error e =>
    have hparse' :
        Script.parse Script.defaultIntrinsic (s.control.bounded n).file source 1 = .error e :=
      hparse
    rw [hparse']
    exact .fail _
  | ok program =>
    have hparse' :
        Script.parse Script.defaultIntrinsic (s.control.bounded n).file source 1 = .ok program :=
      hparse
    rw [hparse']
    refine .bind hserve (.trace _) fun _ u hu => ?_
    have hcontrol : u.control = s.control := run_done_control hserve hu
    refine .bind hserve (.attempt (.activation (by rw [hcontrol]) (hbody _ _ hparse _ _)))
      fun r v hv => ?_
    split
    · exact .fail _
    · exact .fail _
    · exact .rethrow hserve _ _
    · exact .give _

lemma runProgram (hserve : serve.KeepsControl) {body : List (Script.Stmt Script.Span)}
    {file : String} (hbody : ∀ entry u, Mirrors n serve chronicle fuel (runBody body) (runBody body)
      (entry :: cs) ⟨entry, u⟩) :
    Mirrors n serve chronicle fuel (Clearance.runProgram body file)
      (Clearance.runProgram body file) cs s := by
  refine .ask (.bind hserve (.activation (by rfl) (hbody _ _)) fun r v hv => ?_)
  split
  · exact .fail _
  · exact .give _

end Mirrors

variable {serve : Service} {chronicle : Chronicle} {fuel : Nat}

/-- Whatever is built in these ways runs under the bound as it runs without, by induction on how it
is built. -/
theorem Built.mirrors (hserve : serve.Mirrors n chronicle) {site : Site} {W N : Nat → Prop}
    {p : Action α} {Q : α → Prop} (h : Built site W N p Q) (hW : ∀ id, W id) (hN : ∀ id, N id)
    {cs : List Control} {s : State} (hs : site.Covers s.control) :
    Mirrors n serve chronicle fuel p p cs s := by
  have hkeeps := hserve.keeps
  induction h generalizing cs s with
  | give => exact .give _
  | note | allocate | touch => exact .update _
  | fail => exact .fail _
  | @await _ _ _ _ f =>
    refine .single (fun _ _ => rfl) ?_
    have hstore : (s.bounded n).store = s.store := rfl
    rw [run_await, run_await, hstore]
    cases f s.store <;> rfl
  | mono _ _ ih => exact ih hW hN hs
  | guard _ ih | checked _ _ ih => exact ih (fun _ => trivial) hN hs
  | whole _ _ ih => exact ih hW (fun _ => trivial) hs
  -- whoever asks for the control does the same whatever the bound is
  | ask hk _ ih =>
    have hsame := hk s.control n
    refine .ask ?_
    rw [hsame]
    exact ih _ hs hW hN hs
  | askRealm hk _ ih =>
    have hsame := hk s.control.realm n
    refine .askRealm ?_
    have hrealm : (s.bounded n).control.realm = { s.control.realm with maxDepth := n } := rfl
    rw [hrealm, hsame]
    exact ih _ hW hN hs
  | andThen hp _ ihp ihk =>
    refine .bind hkeeps (ihp hW hN hs) fun b u hb => ?_
    exact ihk b (composed_result hkeeps (hp.composed hN) hW hs hb) hW hN (hs.of_done hkeeps hb)
  | pass hp _ _ _ ihp ihok iherr | silence hp _ _ _ ihp ihok iherr =>
    refine .bind hkeeps (.attempt (ihp hW hN hs)) fun r u hr => ?_
    rcases run_attempt_done.1 hr with ⟨b, rfl, hb⟩ | ⟨f, rfl, -⟩
    · exact ihok b (composed_result hkeeps (hp.composed hN) hW hs hb) hW hN (hs.of_done hkeeps hr)
    · exact iherr f hW hN (hs.of_done hkeeps hr)
  | region hpc _ ih => exact .region (ih hW hN ⟨hpc, hs.level⟩)
  | invoke => exact .invoke hserve _
  | @loop site _ _ _ _ _ _ I _ hinit hstep ih =>
    refine .loop hkeeps (I := I) (P := fun u => site.Covers u.control)
      (fun x u hx hu => ih x hx hW hN hu) (fun x u y v hx hu hr => ?_) hinit hs
    exact ⟨composed_result hkeeps ((hstep x hx).composed hN) hW hu hr, hu.of_done hkeeps hr⟩
  | expression _ _ _ ihp iherr =>
    rw [expressionStatement_action]
    refine .bind hkeeps (.attempt (ihp hW hN hs)) fun r u hr => ?_
    rcases run_attempt_done.1 hr with ⟨b, rfl, hb⟩ | ⟨f, rfl, -⟩
    · exact .bind hkeeps (.update _) fun _ _ _ => .give _
    · exact iherr f hW hN (hs.of_done hkeeps hr)
  | enter _ _ ihactivate ihbody =>
    refine .callClosure hkeeps (ihactivate _ hW hN hs) fun entry u => ?_
    exact ihbody ⟨.none, none, true⟩ rfl hW hN ⟨Label.none_leq _, by rintro _ ⟨⟩⟩
  | enterText _ ih =>
    refine .evalText hkeeps fun file program hprogram entry u => ?_
    exact ih file program hprogram ⟨.none, none, true⟩ rfl hW hN ⟨Label.none_leq _, by rintro _ ⟨⟩⟩
  | enterScript _ _ ih =>
    refine .runProgram hkeeps fun entry u => ?_
    exact ih ⟨.none, none, true⟩ rfl hW hN ⟨Label.none_leq _, by rintro _ ⟨⟩⟩

/-- The machine serves under the bound as it does without, by induction on its levels. -/
theorem machine_mirrors {hosts : Hosts} (hhosts : hosts.Built) (n rounds levels : Nat) :
    (machine hosts rounds levels).Mirrors n (machineChronicle hosts rounds levels) := by
  refine ⟨machine_keepsControl hosts rounds levels, ?_⟩
  induction levels with
  | zero => exact fun _ _ _ _ _ => ⟨rfl, .nil⟩
  | succ levels ih =>
    intro r cs s hn hfree
    rw [machine_succ, machine_succ]
    have hbuilt : Ordinary ⟨.none, none, false⟩ (fun _ => True) (fun _ => True) (perform hosts r) :=
      ordinary_perform hhosts rfl r
    exact hbuilt.mirrors ⟨machine_keepsControl hosts rounds levels, ih⟩ (fun _ => trivial)
      (fun _ => trivial) ⟨Label.none_leq _, by rintro _ ⟨⟩⟩ hn hfree

/-! ## Sessions -/

/-- The realm of a machine for which another bound is asked. -/
def Realm.limited (m : Int) (r : Realm) : Realm :=
  { r with maxDepth := if m ≤ 0 then Library.defaultDepth else m.toNat }

namespace Library

variable (m : Int)

/-- What is installed first does not depend on the bound. -/
lemma run_bind_limited {p : Build α} {k k' : α → Build Realm}
    (hk : ∀ a heap, (k a).run heap = Prod.map (Realm.limited m) id ((k' a).run heap))
    (heap : Heap) :
    (p >>= k).run heap = Prod.map (Realm.limited m) id ((p >>= k').run heap) := hk _ _

lemma install_limited (o : Options) (heap : Heap) :
    (install { o with maxDepth := m }).run heap =
      Prod.map (Realm.limited m) id ((install o).run heap) := by
  unfold install
  repeat refine run_bind_limited m (fun _ _ => ?_) _
  rfl

end Library

/-- Sessions that are set up with different bounds differ in the bound only. -/
theorem Session.fresh_bounded (o : Library.Options) (hn : 0 < n) :
    Session.fresh { o with maxDepth := n } = (Session.fresh o).bounded n := by
  unfold Session.fresh
  rw [Library.install_limited]
  generalize (Library.install o).run #[] = r
  simp only [Prod.map, Realm.limited]
  rw [if_neg (by omega)]
  rfl


/-! ## Runs under two bounds -/

/-- **The bound only cuts runs off.** Whatever a host has run, on a machine of any size and in any
state: if no activation is refused, then under a higher bound the run has the same result or the
same failure, leaves the same store behind, and takes the same steps. -/
theorem bound_only_cuts_off {hosts : Hosts} (hhosts : hosts.Built) {p : Action Value}
    (hp : HostEntry p) (rounds levels : Nat) {s : State} {n : Nat}
    (hn : s.control.realm.maxDepth ≤ n)
    (hfree : ∀ m ∈ p.momentsOn hosts rounds levels [] s, ¬m.Refused) :
    p.run (machine hosts rounds levels) rounds (s.bounded n) =
        (p.run (machine hosts rounds levels) rounds s).mapState (State.bounded n) ∧
      List.Forall₂ (Moment.SameStep n) (p.momentsOn hosts rounds levels [] s)
        (p.momentsOn hosts rounds levels [] (s.bounded n)) := by
  have hbuilt : Ordinary ⟨.none, none, false⟩ (fun _ => True) (fun _ => True) p := hp.built rfl
  have hsame := hbuilt.mirrors (machine_mirrors hhosts n rounds levels) (fun _ => trivial)
    (fun _ => trivial) ⟨Label.none_leq s.control.pc, by rintro _ ⟨⟩⟩ hn hfree
  exact ⟨hsame.outcome, hsame.steps⟩

/-- Sessions that admit so many activations. -/
def Session.admitting (n : Nat) : State := fresh { Library.Options.standard with maxDepth := n }

set_option maxRecDepth 100000 in
/-- A script with two activations in progress, in sessions that admit three and nine of them. -/
theorem bound_only_cuts_off_in_session :
    (∃ m ∈ nestedScript.momentsOn .none 50 50 [] (Session.admitting 3),
      inProgress m.contexts = 2) ∧
    nestedScript.run (machine .none 50 50) 50 (Session.admitting 9) =
      (nestedScript.run (machine .none 50 50) 50 (Session.admitting 3)).mapState
        (State.bounded 9) := by
  have hthree : Session.admitting 3 = (Session.fresh .standard).bounded 3 :=
    Session.fresh_bounded .standard (by decide)
  have hnine : Session.admitting 9 = ((Session.fresh .standard).bounded 3).bounded 9 := by
    rw [State.bounded_bounded]
    exact Session.fresh_bounded .standard (by decide)
  rw [hthree, hnine]
  obtain ⟨hnested, hroom⟩ :
      (nestedScript.momentsOn .none 50 50 [] ((Session.fresh .standard).bounded 3)).any
        (fun m => inProgress m.contexts = 2) = true ∧
      (nestedScript.momentsOn .none 50 50 [] ((Session.fresh .standard).bounded 3)).all
        (fun m => m.state.control.depth < m.state.control.realm.maxDepth) = true := by
    rw [nestedScript, evaluate_ofList]
    decide +kernel
  have hhigher : ((Session.fresh .standard).bounded 3).control.realm.maxDepth ≤ 9 := by
    rw [State.bounded_maxDepth]
    decide
  obtain ⟨m, hm, htwo⟩ := List.any_eq_true.1 hnested
  refine ⟨⟨m, hm, of_decide_eq_true htwo⟩, ?_⟩
  refine (bound_only_cuts_off built_none (.evaluate ..) 50 50 hhigher fun m hm hrefused => ?_).1
  have hless : m.state.control.depth < m.state.control.realm.maxDepth :=
    of_decide_eq_true (List.all_eq_true.1 hroom m hm)
  exact Nat.not_le_of_lt hless hrefused.full

end Clearance
