/-
# Trails of single steps

The objects and the frames are only changed by the single steps of a run, and the moments of the run
are in order: each one starts from the objects and the frames that the steps before it have left
behind. So the moments leave a trail from the start of the run to its end, and what every step
preserves holds all along it.

An invariant says something of the stores of a run from the start of the run on. What single steps
do is to be known of every step, also of those before which nothing is known of the store: the run
may have been in progress when there was something to know. `Abides D E` says that in every run
whose moments satisfy `D` they also satisfy `E`, and that the run ends with a result that satisfies
`Q`.
-/
import Clearance.Proofs.Moment

namespace Clearance

open Clearance.Action

/-- The same objects and the same frames. -/
structure Store.Same (s t : Store) : Prop where
  heap : t.heap = s.heap
  frames : t.frames = s.frames

namespace Store.Same

variable {s t u : Store}

lemma refl (s : Store) : s.Same s := ⟨rfl, rfl⟩

lemma symm (h : s.Same t) : t.Same s := ⟨h.heap.symm, h.frames.symm⟩

lemma trans (h : s.Same t) (h' : t.Same u) : s.Same u :=
  ⟨h'.heap.trans h.heap, h'.frames.trans h.frames⟩

end Store.Same

/-- What an instruction does to the store by itself. -/
def Action.step {α : Type} : Action α → Store → Store
  | .update f, s => (f s).2
  | _, s => s

/-- What the action of a moment by itself makes of the store. -/
def Moment.next (m : Moment) : Store := m.action.step m.state.store

/-- Moments that lead from one store to another one, each by what its action does by itself. -/
def Trail : Store → List Moment → Store → Prop
  | s, [], t => s.Same t
  | s, m :: ms, t => s.Same m.state.store ∧ Trail m.next ms t

namespace Trail

variable {s s' t t' u : Store} {ms ms' : List Moment} {m : Moment}

lemma nil (h : s.Same t) : Trail s [] t := h

lemma congr_left (hs : s'.Same s) (h : Trail s ms t) : Trail s' ms t := by
  cases ms with
  | nil => exact hs.trans h
  | cons m ms => exact ⟨hs.trans h.1, h.2⟩

lemma congr_right (h : Trail s ms t) (ht : t.Same t') : Trail s ms t' := by
  induction ms generalizing s with
  | nil => exact Store.Same.trans h ht
  | cons m ms ih => exact ⟨h.1, ih h.2⟩

lemma append (h : Trail s ms t) (h' : Trail t ms' u) : Trail s (ms ++ ms') u := by
  induction ms generalizing s with
  | nil => exact h'.congr_left h
  | cons m ms ih => exact ⟨h.1, ih h.2⟩

/-- A trail can be left anywhere. -/
lemma of_append (h : Trail s (ms ++ ms') u) : ∃ t, Trail s ms t ∧ Trail t ms' u := by
  induction ms generalizing s with
  | nil => exact ⟨s, .refl s, h⟩
  | cons m ms ih =>
    obtain ⟨t, ht, hrest⟩ := ih h.2
    exact ⟨t, ⟨h.1, ht⟩, hrest⟩

/-- Moments lead to one store only. -/
lemma unique (h : Trail s ms t) (h' : Trail s ms t') : t.Same t' := by
  induction ms generalizing s with
  | nil => exact Store.Same.trans (Store.Same.symm h) h'
  | cons m ms ih => exact ih h.2 h'.2

/-- What matters about a store is said of its objects and its frames. -/
def Structural (P : Store → Prop) : Prop := ∀ s t : Store, s.Same t → P s → P t

/-- What the steps preserve holds all along a trail. -/
lemma preserves {P : Store → Prop} (hP : Structural P) (h : Trail s ms t)
    (hsteps : ∀ m ∈ ms, P m.state.store → P m.next) (hs : P s) :
    P t ∧ ∀ m ∈ ms, P m.state.store := by
  induction ms generalizing s with
  | nil => exact ⟨hP _ _ h hs, List.forall_mem_nil _⟩
  | cons m ms ih =>
    obtain ⟨hm, hrest⟩ := List.forall_mem_cons.1 hsteps
    have hstart := hP _ _ h.1 hs
    obtain ⟨ht, hms⟩ := ih h.2 hrest (hm hstart)
    exact ⟨ht, List.forall_mem_cons.2 ⟨hstart, hms⟩⟩

end Trail

/-! ## The moments of a run are a trail -/

/-- What is served leaves a trail. -/
def Service.Trails (serve : Service) (chronicle : Chronicle) : Prop :=
  ∀ r cs s, Trail s.store (chronicle r cs s) (serve r s).state.store

section

variable {serve : Service} {chronicle : Chronicle} {fuel : Nat} {α : Type}

/-- An instruction that does nothing by itself. -/
lemma trail_cons {p : Action α} {cs : List Control} {s : State} {o : Outcome α}
    {ms : List Moment} {t : Store} (hstep : p.step s.store = s.store) (h : Trail s.store ms t) :
    Trail s.store (⟨p, s, cs, o⟩ :: ms) t := by
  refine ⟨.refl _, ?_⟩
  show Trail (p.step s.store) ms t
  rw [hstep]
  exact h

/-- The rounds of a loop. -/
lemma trail_iterate {σ : Type} {step : σ → State → Outcome (σ ⊕ α)}
    {seen : σ → State → List Moment}
    (hstep : ∀ x s, Trail s.store (seen x s) (step x s).state.store) (n : Nat) (x : σ) (s : State) :
    Trail s.store (iterateMoments step seen n x s) (iterate step n x s).state.store := by
  -- the rounds are counted by the fuel
  induction n generalizing x s with
  | zero => exact .refl _
  | succ n ih =>
    have hround := hstep x s
    unfold iterate iterateMoments
    cases ho : step x s with
    | done r t =>
      rw [ho] at hround
      cases r with
      | inl y => exact hround.append (ih y t)
      | inr a => exact hround.append (.nil (.refl _))
    | failed f t | stuck w t =>
      rw [ho] at hround
      exact hround.append (.nil (.refl _))

/-- **The moments of a run lead from its start to its end.** -/
theorem Action.trail (hserve : serve.Trails chronicle) (p : Action α) (cs : List Control)
    (s : State) : Trail s.store (p.moments serve chronicle fuel cs s)
      (p.run serve fuel s).state.store := by
  induction p generalizing cs s with
  | give | current | fail => exact trail_cons rfl (.nil (.refl _))
  | update f => exact ⟨.refl _, .refl _⟩
  | await f =>
    refine trail_cons rfl (.nil ?_)
    rw [state_run_await]
    exact .refl _
  | andThen p k ihp ihk =>
    have hp := ihp cs s
    have hrun : (Action.andThen p k).run serve fuel s = _ := run_bind p k s
    rw [← bind_eq, moments_bind, bind_eq, hrun]
    cases ho : p.run serve fuel s with
    | done b u =>
      rw [ho] at hp
      exact trail_cons rfl (hp.append (ihk b cs u))
    | failed f u | stuck w u =>
      rw [ho] at hp
      exact trail_cons rfl (hp.append (.nil (.refl _)))
  | attempt p ih =>
    have hp := ih cs s
    refine trail_cons rfl (hp.congr_right ?_)
    rw [run_attempt]
    cases p.run serve fuel s <;> exact .refl _
  | region pc scope p ih =>
    refine trail_cons rfl (Trail.congr_right (ih cs ⟨{ s.control with pc, scope }, s.store⟩) ?_)
    rw [run_region, Outcome.state_mapState]
    exact .refl _
  | activation entry p ih =>
    have hp := ih (entry :: cs) ⟨entry, { s.store with result := .undefined }⟩
    have hentered : s.store.Same { s.store with result := .undefined } := ⟨rfl, rfl⟩
    refine trail_cons rfl ((hp.congr_left hentered).congr_right ?_)
    rw [run_activation]
    cases p.run serve fuel ⟨entry, { s.store with result := .undefined }⟩ <;> exact ⟨rfl, rfl⟩
  | invoke r => exact trail_cons rfl (hserve r cs s)
  | loop init step ih => exact trail_cons rfl (trail_iterate (fun x u => ih x cs u) fuel init s)

end

/-- What the machine serves leaves a trail. -/
theorem machine_trails (hosts : Hosts) (rounds levels : Nat) :
    (machine hosts rounds levels).Trails (machineChronicle hosts rounds levels) := by
  induction levels with
  | zero => exact fun _ _ _ => .refl _
  | succ n ih =>
    intro r cs s
    rw [machine_succ]
    exact (perform hosts r).trail ih cs s

/-- The moments of a run on the machine lead from where it starts to where it ends. -/
lemma Trail.of_momentsOn {α : Type} {p : Action α} {hosts : Hosts} {rounds levels : Nat}
    {cs : List Control} {s : State} {t u : Store}
    (h : Trail t (p.momentsOn hosts rounds levels cs s) u) :
    t.Same s.store ∧ (p.run (machine hosts rounds levels) rounds s).state.store.Same u := by
  obtain ⟨rest, hrest⟩ : ∃ rest, p.momentsOn hosts rounds levels cs s =
      ⟨p, s, cs, p.run (machine hosts rounds levels) rounds s⟩ :: rest := exists_moments_eq ..
  have hstart : t.Same s.store := by
    rw [hrest] at h
    exact h.1
  exact ⟨hstart, (p.trail (machine_trails hosts rounds levels) cs s).unique
    (h.congr_left hstart.symm)⟩

/-! ## What all steps of a run keep to -/

/-- In a run whose moments satisfy `D`, they satisfy `E`, and the result satisfies `Q`. -/
def Abides (D E : Moment → Prop) (serve : Service) (chronicle : Chronicle) (fuel : Nat) {α : Type}
    (p : Action α) (Q : α → Prop) (cs : List Control) (s : State) : Prop :=
  (∀ m ∈ p.moments serve chronicle fuel cs s, D m) →
    (∀ m ∈ p.moments serve chronicle fuel cs s, E m) ∧ ∀ a t, p.run serve fuel s = .done a t → Q a

/-- The same of what is served. -/
structure Service.Abides (D E : Moment → Prop) (serve : Service)
    (chronicle : Chronicle) : Prop where
  keeps : serve.KeepsControl
  moments : ∀ r cs s, (∀ m ∈ chronicle r cs s, D m) → ∀ m ∈ chronicle r cs s, E m

/-- Nothing is asked of moments that by themselves leave the objects and the frames alone. -/
def ForSteps (E : Moment → Prop) : Prop := ∀ m : Moment, m.state.store.Same m.next → E m

/-- An instruction that does nothing by itself. -/
lemma Store.Same.of_step {α : Type} {p : Action α} {s : State} {cs : List Control} {o : Outcome α}
    (h : p.step s.store = s.store) : s.store.Same (Moment.next ⟨p, s, cs, o⟩) := by
  show s.store.Same (p.step s.store)
  rw [h]
  exact .refl _

namespace Abides

variable {D E : Moment → Prop} {serve : Service} {chronicle : Chronicle} {fuel : Nat}
  {α β : Type} {Q : α → Prop} {cs : List Control} {s : State}

lemma mono {p : Action α} {R : α → Prop} (hp : Abides D E serve chronicle fuel p R cs s)
    (h : ∀ a, R a → Q a) : Abides D E serve chronicle fuel p Q cs s := by
  intro hD
  obtain ⟨hmoments, hresult⟩ := hp hD
  exact ⟨hmoments, fun a t ha => h a (hresult a t ha)⟩

/-- A step on the store. -/
lemma update {f : Store → α × Store}
    (h : D ⟨.update f, s, cs, .done (f s.store).1 ⟨s.control, (f s.store).2⟩⟩ →
      E ⟨.update f, s, cs, .done (f s.store).1 ⟨s.control, (f s.store).2⟩⟩ ∧ Q (f s.store).1) :
    Abides D E serve chronicle fuel (.update f) Q cs s := by
  intro hD
  obtain ⟨hstep, hresult⟩ := h (hD _ (mem_moments_self _ cs s))
  exact ⟨List.forall_mem_singleton.2 hstep, fun a t ha => by cases ha; exact hresult⟩

section

variable (hE : ForSteps E)
include hE

/-- An instruction that starts no other one. -/
lemma single {p : Action α} (hstep : p.step s.store = s.store)
    (hmoments : p.moments serve chronicle fuel cs s = [⟨p, s, cs, p.run serve fuel s⟩])
    (h : ∀ a t, p.run serve fuel s = .done a t → Q a) :
    Abides D E serve chronicle fuel p Q cs s := by
  intro _
  rw [hmoments, List.forall_mem_singleton]
  exact ⟨hE _ (.of_step hstep), h⟩

/-- An instruction that starts others. -/
lemma cons {p : Action α} {ms : List Moment} (hstep : p.step s.store = s.store)
    (hmoments : p.moments serve chronicle fuel cs s = ⟨p, s, cs, p.run serve fuel s⟩ :: ms)
    (h : (∀ m ∈ ms, D m) → (∀ m ∈ ms, E m) ∧ ∀ a t, p.run serve fuel s = .done a t → Q a) :
    Abides D E serve chronicle fuel p Q cs s := by
  intro hD
  rw [hmoments, List.forall_mem_cons] at hD
  obtain ⟨hms, hresult⟩ := h hD.2
  rw [hmoments, List.forall_mem_cons]
  exact ⟨⟨hE _ (.of_step hstep), hms⟩, hresult⟩

lemma give {a : α} (ha : Q a) : Abides D E serve chronicle fuel (.give a) Q cs s :=
  single hE rfl rfl fun _ _ h => by cases h; exact ha

lemma fail {f : Failure} : Abides D E serve chronicle fuel (.fail f : Action α) Q cs s :=
  single hE rfl rfl fun _ _ h => by cases h

lemma look (f : Store → α) (hf : Q (f s.store)) :
    Abides D E serve chronicle fuel (Action.look f) Q cs s :=
  update fun _ => ⟨hE _ (.refl _), hf⟩

lemma await {f : Store → Except Stuck α} :
    Abides D E serve chronicle fuel (.await f) (fun _ => True) cs s :=
  single hE rfl rfl fun _ _ _ => trivial

lemma bind {p : Action β} {k : β → Action α} {R : β → Prop}
    (hp : Abides D E serve chronicle fuel p R cs s)
    (hk : ∀ b u, p.run serve fuel s = .done b u → R b →
      Abides D E serve chronicle fuel (k b) Q cs u) :
    Abides D E serve chronicle fuel (p >>= k) Q cs s := by
  refine cons hE rfl (moments_bind p k cs s) fun hD => ?_
  rw [List.forall_mem_append] at hD
  obtain ⟨hms, hresult⟩ := hp hD.1
  rw [run_bind, List.forall_mem_append]
  cases ho : p.run serve fuel s with
  | done b u =>
    have hD' := hD.2
    rw [ho] at hD'
    obtain ⟨hrest, hend⟩ := hk b u ho (hresult b u ho) hD'
    exact ⟨⟨hms, hrest⟩, hend⟩
  | failed | stuck => exact ⟨⟨hms, List.forall_mem_nil _⟩, fun _ _ h => by cases h⟩

/-- A step tells what follows it only that it is done. -/
lemma seq {p : Action β} {k : β → Action α}
    (hp : Abides D E serve chronicle fuel p (fun _ => True) cs s)
    (hk : ∀ b u, p.run serve fuel s = .done b u → Abides D E serve chronicle fuel (k b) Q cs u) :
    Abides D E serve chronicle fuel (p >>= k) Q cs s :=
  bind hE hp fun b u hb _ => hk b u hb

/-- What is seen in the store is known to what follows. -/
lemma observe {f : Store → β} {k : β → Action α}
    (hk : Abides D E serve chronicle fuel (k (f s.store)) Q cs s) :
    Abides D E serve chronicle fuel (Action.look f >>= k) Q cs s :=
  seq hE (look hE f trivial) fun _ _ hu => by cases hu; exact hk

lemma ask {k : Control → Action α} (hk : Abides D E serve chronicle fuel (k s.control) Q cs s) :
    Abides D E serve chronicle fuel (.andThen .current k) Q cs s :=
  seq (p := .current) hE (single hE rfl rfl fun _ _ _ => trivial)
    fun c u h => by cases h; exact hk

lemma askRealm {k : Realm → Action α}
    (hk : Abides D E serve chronicle fuel (k s.control.realm) Q cs s) :
    Abides D E serve chronicle fuel (Action.realm >>= k) Q cs s :=
  seq hE (ask hE (give hE trivial)) fun r u h => by cases h; exact hk

lemma trace (e : Event) :
    Abides D E serve chronicle fuel (Action.trace e) (fun _ => True) cs s := by
  refine askRealm hE ?_
  split_ifs
  · exact update fun _ => ⟨hE _ ⟨rfl, rfl⟩, trivial⟩
  · exact give hE trivial

lemma attempt {p : Action α} {R : Except Failure α → Prop}
    (hp : Abides D E serve chronicle fuel p Q cs s) (hok : ∀ a, Q a → R (.ok a))
    (herror : ∀ f, R (.error f)) : Abides D E serve chronicle fuel (.attempt p) R cs s := by
  refine cons hE rfl rfl fun hD => ⟨(hp hD).1, fun r t hr => ?_⟩
  rcases run_attempt_done.1 hr with ⟨a, rfl, ha⟩ | ⟨f, rfl, -⟩
  · exact hok a ((hp hD).2 a t ha)
  · exact herror f

lemma region {pc : Label} {scope : Nat} {p : Action α}
    (hp : Abides D E serve chronicle fuel p Q cs ⟨{ s.control with pc, scope }, s.store⟩) :
    Abides D E serve chronicle fuel (.region pc scope p) Q cs s := by
  refine cons hE rfl rfl fun hD => ⟨(hp hD).1, fun a t ha => ?_⟩
  rw [run_region, Outcome.mapState_eq_done] at ha
  obtain ⟨u, hu, -⟩ := ha
  exact (hp hD).2 a u hu

lemma activation {entry : Control} {p : Action α}
    (hp : Abides D E serve chronicle fuel p Q (entry :: cs)
      ⟨entry, { s.store with result := .undefined }⟩) :
    Abides D E serve chronicle fuel (.activation entry p) (fun r => Q r.1) cs s := by
  refine cons hE rfl rfl fun hD => ⟨(hp hD).1, fun r t hr => ?_⟩
  rw [run_activation] at hr
  split at hr
  · rename_i a u hu
    cases hr
    exact (hp hD).2 a u hu
  · cases hr
  · cases hr

lemma invoke (hserve : serve.Abides D E chronicle) (r : Request) :
    Abides D E serve chronicle fuel (.invoke r) (fun _ => True) cs s :=
  cons hE rfl rfl fun hD => ⟨hserve.moments r cs s hD, fun _ _ _ => trivial⟩

/-- The rounds of a loop, by induction on their number. -/
lemma loop {σ : Type} {step : σ → Action (σ ⊕ α)} {I : σ → Prop} {A : State → Prop}
    (hround : ∀ x u, I x → A u → Abides D E serve chronicle fuel (step x) (Sum.elim I Q) cs u)
    (hkeep : ∀ x u r v, A u → (step x).run serve fuel u = .done r v → A v) {x : σ} (hx : I x)
    (hs : A s) : Abides D E serve chronicle fuel (.loop x step) Q cs s := by
  suffices h : ∀ rounds x u, I x → A u →
      (∀ m ∈ iterateMoments (fun x u => (step x).run serve fuel u)
        (fun x u => (step x).moments serve chronicle fuel cs u) rounds x u, D m) →
      (∀ m ∈ iterateMoments (fun x u => (step x).run serve fuel u)
        (fun x u => (step x).moments serve chronicle fuel cs u) rounds x u, E m) ∧
      ∀ a t, iterate (fun x u => (step x).run serve fuel u) rounds x u = .done a t → Q a from
    cons hE rfl rfl fun hD => h fuel x s hx hs hD
  intro rounds
  induction rounds with
  | zero => exact fun x u _ _ _ => ⟨List.forall_mem_nil _, fun _ _ h => by cases h⟩
  | succ rounds ih =>
    intro x u hx hA hD
    unfold iterateMoments at hD ⊢
    unfold iterate
    rw [List.forall_mem_append] at hD ⊢
    obtain ⟨hms, hresult⟩ := hround x u hx hA hD.1
    cases ho : (step x).run serve fuel u with
    | done r v =>
      have hr := hresult r v ho
      cases r with
      | inl y =>
        have hrest := hD.2
        rw [ho] at hrest
        obtain ⟨hms', hresult'⟩ := ih y v hr (hkeep x u _ v hA ho) hrest
        exact ⟨⟨hms, hms'⟩, hresult'⟩
      | inr a => exact ⟨⟨hms, List.forall_mem_nil _⟩, fun b t hb => by cases hb; exact hr⟩
    | failed | stuck => exact ⟨⟨hms, List.forall_mem_nil _⟩, fun b t hb => by cases hb⟩

/-! ### Activations -/

lemma callClosure {f : Ref} {fn : Script.Function Script.Span} {scope : Nat} {this : Value}
    {args : List Value}
    (hactivate : Abides D E serve chronicle fuel (activate f fn scope args s.control.pc)
      (fun _ => True) cs s)
    (hbody : ∀ entry u, Abides D E serve chronicle fuel (runBody fn.body) (fun _ => True)
      (entry :: cs) ⟨entry, u⟩) :
    Abides D E serve chronicle fuel (callClosure f fn scope this args) (fun _ => True) cs s := by
  refine ask hE ?_
  split
  · exact fail hE
  · extract_lets receiver
    refine seq hE hactivate fun frame u _ => seq hE (activation hE (hbody _ _)) fun r v _ => ?_
    split
    · exact seq hE (ask hE (give hE trivial)) fun _ _ _ => fail hE
    · exact give hE trivial
    · exact give hE trivial

lemma evalText {source : String} {k : Label}
    (hbody : ∀ file program, Script.parse Script.defaultIntrinsic file source 1 = .ok program →
      ∀ entry u, Abides D E serve chronicle fuel (runBody program.body) (fun _ => True)
        (entry :: cs) ⟨entry, u⟩) :
    Abides D E serve chronicle fuel (evalText source k) (fun _ => True) cs s := by
  refine ask hE ?_
  split_ifs
  · exact fail hE
  · split
    · exact fail hE
    · rename_i program hprogram
      refine seq hE (trace hE _) fun _ _ _ => seq hE ?_ fun r v _ => ?_
      · exact attempt hE (activation hE (hbody _ _ hprogram _ _)) (fun _ _ => trivial)
          fun _ => trivial
      · split
        · exact fail hE
        · exact fail hE
        · exact seq hE (ask hE (give hE trivial)) fun _ _ _ => fail hE
        · exact give hE trivial

lemma runProgram {body : List (Script.Stmt Script.Span)} {file : String}
    (hbody : ∀ entry u, Abides D E serve chronicle fuel (runBody body) (fun _ => True)
      (entry :: cs) ⟨entry, u⟩) :
    Abides D E serve chronicle fuel (runProgram body file) (fun _ => True) cs s := by
  refine ask hE (seq hE (activation hE (hbody _ _)) fun r v _ => ?_)
  split
  · exact fail hE
  · exact give hE trivial

end

end Abides

end Clearance
