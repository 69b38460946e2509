/-
# Invariants of the store

What is said of the store, and is kept by every step of an action, holds at all moments of a run. In
an invariant of programs that is kept under a condition, the condition is one on the moments of the
run: `Maintains D P Q` says that an action keeps `P` in every run whose moments satisfy `D`, and
ends with a result that satisfies `Q`.
-/
import Clearance.Proofs.Moment

namespace Clearance

open Clearance.Action

/-- In a run whose moments satisfy `D`, the stores satisfy `P`, and the result satisfies `Q`. -/
def Maintains (D : Moment → Prop) (P : Store → Prop) (serve : Service) (chronicle : Chronicle)
    (fuel : Nat) {α : Type} (p : Action α) (Q : α → Prop) (cs : List Control) (s : State) : Prop :=
  P s.store → (∀ m ∈ p.moments serve chronicle fuel cs s, D m) →
    (∀ m ∈ p.moments serve chronicle fuel cs s, P m.state.store ∧ P m.outcome.state.store) ∧
      ∀ a t, p.run serve fuel s = .done a t → Q a

/-- The same of what is served. -/
structure Service.Maintains (D : Moment → Prop) (P : Store → Prop) (serve : Service)
    (chronicle : Chronicle) : Prop where
  keeps : serve.KeepsControl
  finish : ∀ r cs s, P s.store → (∀ m ∈ chronicle r cs s, D m) → P (serve r s).state.store
  moments : ∀ r cs s, P s.store → (∀ m ∈ chronicle r cs s, D m) →
    ∀ m ∈ chronicle r cs s, P m.state.store ∧ P m.outcome.state.store

namespace Maintains

variable {D : Moment → Prop} {P : Store → Prop} {serve : Service} {chronicle : Chronicle}
  {fuel : Nat} {α β : Type} {Q : α → Prop} {cs : List Control} {s : State}

lemma mono {p : Action α} {R : α → Prop} (hp : Maintains D P serve chronicle fuel p R cs s)
    (h : ∀ a, R a → Q a) : Maintains D P serve chronicle fuel p Q cs s := by
  intro hs hD
  obtain ⟨hmoments, hresult⟩ := hp hs hD
  exact ⟨hmoments, fun a t ha => h a (hresult a t ha)⟩

/-- The invariant holds where the run ends. -/
lemma finish {p : Action α} (hp : Maintains D P serve chronicle fuel p Q cs s) (hs : P s.store)
    (hD : ∀ m ∈ p.moments serve chronicle fuel cs s, D m) : P (p.run serve fuel s).state.store :=
  ((hp hs hD).1 _ (mem_moments_self p cs s)).2

/-- An instruction that starts no other one. -/
lemma single {p : Action α} (hmoments : p.moments serve chronicle fuel cs s =
      [⟨p, s, cs, p.run serve fuel s⟩])
    (h : P s.store → D ⟨p, s, cs, p.run serve fuel s⟩ → P (p.run serve fuel s).state.store ∧
      ∀ a t, p.run serve fuel s = .done a t → Q a) :
    Maintains D P serve chronicle fuel p Q cs s := by
  intro hs hD
  obtain ⟨hend, hresult⟩ := h hs (hD _ (mem_moments_self p cs s))
  refine ⟨?_, hresult⟩
  rw [hmoments, List.forall_mem_singleton]
  exact ⟨hs, hend⟩

/-- An instruction that starts others. -/
lemma cons {p : Action α} {ms : List Moment} (hmoments : p.moments serve chronicle fuel cs s =
      ⟨p, s, cs, p.run serve fuel s⟩ :: ms)
    (h : P s.store → (∀ m ∈ ms, D m) →
      (∀ m ∈ ms, P m.state.store ∧ P m.outcome.state.store) ∧
        P (p.run serve fuel s).state.store ∧ ∀ a t, p.run serve fuel s = .done a t → Q a) :
    Maintains D P serve chronicle fuel p Q cs s := by
  intro hs hD
  rw [hmoments, List.forall_mem_cons] at hD
  obtain ⟨hms, hend, hresult⟩ := h hs hD.2
  refine ⟨?_, hresult⟩
  rw [hmoments, List.forall_mem_cons]
  exact ⟨⟨hs, hend⟩, hms⟩

lemma give {a : α} (ha : Q a) : Maintains D P serve chronicle fuel (.give a) Q cs s :=
  .single rfl fun hs _ => ⟨hs, fun _ _ h => by cases h; exact ha⟩

lemma fail {f : Failure} : Maintains D P serve chronicle fuel (.fail f : Action α) Q cs s :=
  .single rfl fun hs _ => ⟨hs, fun _ _ h => by cases h⟩

lemma look (f : Store → α) (hf : Q (f s.store)) :
    Maintains D P serve chronicle fuel (Action.look f) Q cs s :=
  .single rfl fun hs _ => ⟨hs, fun _ _ h => by cases h; exact hf⟩

/-- A step that leads from stores with the invariant to such stores. -/
lemma update {f : Store → α × Store} (h : P s.store →
      D ⟨.update f, s, cs, .done (f s.store).1 ⟨s.control, (f s.store).2⟩⟩ → P (f s.store).2)
    (hf : Q (f s.store).1) : Maintains D P serve chronicle fuel (.update f) Q cs s :=
  .single rfl fun hs hD => ⟨h hs hD, fun _ _ h => by cases h; exact hf⟩

lemma await {f : Store → Except Stuck α} :
    Maintains D P serve chronicle fuel (.await f) (fun _ => True) cs s := by
  refine .single rfl fun hs _ => ⟨?_, fun _ _ _ => trivial⟩
  rw [state_run_await]
  exact hs

lemma bind {p : Action β} {k : β → Action α} {R : β → Prop}
    (hp : Maintains D P serve chronicle fuel p R cs s)
    (hk : ∀ b u, p.run serve fuel s = .done b u → R b →
      Maintains D P serve chronicle fuel (k b) Q cs u) :
    Maintains D P serve chronicle fuel (p >>= k) Q cs s := by
  refine .cons (moments_bind p k cs s) fun hs hD => ?_
  rw [List.forall_mem_append] at hD
  obtain ⟨hms, hresult⟩ := hp hs hD.1
  have hend : P (p.run serve fuel s).state.store := hp.finish hs hD.1
  rw [run_bind, List.forall_mem_append]
  cases ho : p.run serve fuel s with
  | done b u =>
    rw [ho] at hend
    have hrest := hk b u ho (hresult b u ho)
    have hDrest : ∀ m ∈ (k b).moments serve chronicle fuel cs u, D m := by
      have hD' := hD.2
      rwa [ho] at hD'
    exact ⟨⟨hms, (hrest hend hDrest).1⟩, hrest.finish hend hDrest, (hrest hend hDrest).2⟩
  | failed f u | stuck w u =>
    rw [ho] at hend
    exact ⟨⟨hms, List.forall_mem_nil _⟩, hend, fun _ _ h => by cases h⟩

/-- A step tells what follows it only that it is done. -/
lemma seq {p : Action β} {k : β → Action α}
    (hp : Maintains D P serve chronicle fuel p (fun _ => True) cs s)
    (hk : ∀ b u, p.run serve fuel s = .done b u →
      Maintains D P serve chronicle fuel (k b) Q cs u) :
    Maintains D P serve chronicle fuel (p >>= k) Q cs s :=
  .bind hp fun b u hb _ => hk b u hb

/-- What is seen in the store is known to what follows. -/
lemma observe {f : Store → β} {k : β → Action α}
    (hk : Maintains D P serve chronicle fuel (k (f s.store)) Q cs s) :
    Maintains D P serve chronicle fuel (Action.look f >>= k) Q cs s :=
  .seq (.look f trivial) fun _ _ hu => by cases hu; exact hk

lemma ask {k : Control → Action α} (hk : Maintains D P serve chronicle fuel (k s.control) Q cs s) :
    Maintains D P serve chronicle fuel (.andThen .current k) Q cs s :=
  .bind (p := .current) (R := fun _ => True)
    (.single rfl fun hs _ => ⟨hs, fun _ _ _ => trivial⟩) fun c u h _ => by cases h; exact hk

lemma askRealm {k : Realm → Action α}
    (hk : Maintains D P serve chronicle fuel (k s.control.realm) Q cs s) :
    Maintains D P serve chronicle fuel (Action.realm >>= k) Q cs s :=
  .bind (R := fun _ => True) (.ask (.give trivial)) fun r u h _ => by cases h; exact hk

lemma trace (hevents : ∀ (st : Store) (es : List Event), P st → P { st with events := es })
    (e : Event) : Maintains D P serve chronicle fuel (Action.trace e) (fun _ => True) cs s := by
  refine .askRealm ?_
  split_ifs
  · exact .update (fun hs _ => hevents _ _ hs) trivial
  · exact .give trivial

lemma attempt {p : Action α} {R : Except Failure α → Prop}
    (hp : Maintains D P serve chronicle fuel p Q cs s) (hok : ∀ a, Q a → R (.ok a))
    (herror : ∀ f, R (.error f)) : Maintains D P serve chronicle fuel (.attempt p) R cs s := by
  refine .cons rfl fun hs hD => ⟨(hp hs hD).1, ?_, fun r t hr => ?_⟩
  · have hend : P (p.run serve fuel s).state.store := hp.finish hs hD
    rw [run_attempt]
    cases ho : p.run serve fuel s <;> rwa [ho] at hend
  · rcases run_attempt_done.1 hr with ⟨a, rfl, ha⟩ | ⟨f, rfl, -⟩
    · exact hok a ((hp hs hD).2 a t ha)
    · exact herror f

lemma region {pc : Label} {scope : Nat} {p : Action α}
    (hp : Maintains D P serve chronicle fuel p Q cs ⟨{ s.control with pc, scope }, s.store⟩) :
    Maintains D P serve chronicle fuel (.region pc scope p) Q cs s := by
  refine .cons rfl fun hs hD => ⟨(hp hs hD).1, ?_, fun a t ha => ?_⟩
  · rw [run_region, Outcome.state_mapState]
    exact hp.finish hs hD
  · rw [run_region, Outcome.mapState_eq_done] at ha
    obtain ⟨u, hu, -⟩ := ha
    exact (hp hs hD).2 a u hu

/-- An activation remembers another value, which the invariant does not look at. -/
lemma activation (hP : ∀ (st : Store) (v : Value), P st → P { st with result := v })
    {entry : Control} {p : Action α}
    (hp : Maintains D P serve chronicle fuel p Q (entry :: cs)
      ⟨entry, { s.store with result := .undefined }⟩) :
    Maintains D P serve chronicle fuel (.activation entry p) (fun r => Q r.1) cs s := by
  refine .cons rfl fun hs hD => ?_
  obtain ⟨hms, hresult⟩ := hp (hP _ _ hs) hD
  have hend := hp.finish (hP _ _ hs) hD
  rw [run_activation]
  cases ho : p.run serve fuel ⟨entry, { s.store with result := .undefined }⟩ with
  | done a u =>
    rw [ho] at hend
    exact ⟨hms, hP _ _ hend, fun r t hr => by cases hr; exact hresult a u ho⟩
  | failed f u | stuck w u =>
    rw [ho] at hend
    exact ⟨hms, hP _ _ hend, fun r t hr => by cases hr⟩

lemma invoke (hserve : serve.Maintains D P chronicle) (r : Request) :
    Maintains D P serve chronicle fuel (.invoke r) (fun _ => True) cs s :=
  .cons rfl fun hs hD =>
    ⟨hserve.moments r cs s hs hD, hserve.finish r cs s hs hD, fun _ _ _ => trivial⟩

/-- The rounds of a loop, by induction on their number. -/
lemma loop {σ : Type} {step : σ → Action (σ ⊕ α)} {I : σ → Prop} {A : State → Prop}
    (hround : ∀ x u, I x → A u → Maintains D P serve chronicle fuel (step x) (Sum.elim I Q) cs u)
    (hkeep : ∀ x u r v, A u → (step x).run serve fuel u = .done r v → A v) {x : σ} (hx : I x)
    (hs : A s) : Maintains D P serve chronicle fuel (.loop x step) Q cs s := by
  suffices h : ∀ rounds x u, I x → A u → P u.store →
      (∀ m ∈ iterateMoments (fun x u => (step x).run serve fuel u)
        (fun x u => (step x).moments serve chronicle fuel cs u) rounds x u, D m) →
      (∀ m ∈ iterateMoments (fun x u => (step x).run serve fuel u)
        (fun x u => (step x).moments serve chronicle fuel cs u) rounds x u,
          P m.state.store ∧ P m.outcome.state.store) ∧
      P (iterate (fun x u => (step x).run serve fuel u) rounds x u).state.store ∧
      ∀ a t, iterate (fun x u => (step x).run serve fuel u) rounds x u = .done a t → Q a from
    .cons rfl fun hP hD => h fuel x s hx hs hP hD
  intro rounds
  induction rounds with
  | zero => exact fun x u _ _ hu _ => ⟨List.forall_mem_nil _, hu, fun _ _ h => by cases h⟩
  | succ rounds ih =>
    intro x u hx hA hu hD
    unfold iterateMoments at hD ⊢
    unfold iterate
    rw [List.forall_mem_append] at hD ⊢
    have hfirst := hround x u hx hA
    have hend := hfirst.finish hu hD.1
    obtain ⟨hms, hresult⟩ := hfirst hu hD.1
    cases ho : (step x).run serve fuel u with
    | done r v =>
      have hr := hresult r v ho
      rw [ho] at hend
      cases r with
      | inl y =>
        have hrest := hD.2
        rw [ho] at hrest
        obtain ⟨hms', hend', hresult'⟩ := ih y v hr (hkeep x u _ v hA ho) hend hrest
        exact ⟨⟨hms, hms'⟩, hend', hresult'⟩
      | inr a =>
        exact ⟨⟨hms, List.forall_mem_nil _⟩, hend, fun b t hb => by cases hb; exact hr⟩
    | failed f v | stuck w v =>
      rw [ho] at hend
      exact ⟨⟨hms, List.forall_mem_nil _⟩, hend, fun b t hb => by cases hb⟩

/-! ## Activations -/

section Activations

-- the invariant does not look at the value that is remembered
variable (hP : ∀ (st : Store) (v : Value), P st → P { st with result := v })

include hP

lemma callClosure {f : Ref} {fn : Script.Function Script.Span} {scope : Nat} {this : Value}
    {args : List Value}
    (hactivate : Maintains D P serve chronicle fuel (activate f fn scope args s.control.pc)
      (fun _ => True) cs s)
    (hbody : ∀ entry u, Maintains D P serve chronicle fuel (runBody fn.body) (fun _ => True)
      (entry :: cs) ⟨entry, u⟩) :
    Maintains D P serve chronicle fuel (callClosure f fn scope this args) (fun _ => True) cs s := by
  refine .ask ?_
  split
  · exact .fail
  · extract_lets receiver
    refine .seq hactivate fun frame u _ => .seq (.activation hP (hbody _ _)) fun r v _ => ?_
    split
    · exact .seq (.ask (.give trivial)) fun _ _ _ => .fail
    · exact .give trivial
    · exact .give trivial

lemma evalText (hevents : ∀ (st : Store) (es : List Event), P st → P { st with events := es })
    {source : String} {k : Label}
    (hbody : ∀ file program, Script.parse Script.defaultIntrinsic file source 1 = .ok program →
      ∀ entry u, Maintains D P serve chronicle fuel (runBody program.body) (fun _ => True)
        (entry :: cs) ⟨entry, u⟩) :
    Maintains D P serve chronicle fuel (evalText source k) (fun _ => True) cs s := by
  refine .ask ?_
  split_ifs
  · exact .fail
  · split
    · exact .fail
    · rename_i program hprogram
      refine .seq (.trace hevents _) fun _ _ _ => .seq ?_ fun r v _ => ?_
      · exact .attempt (.activation hP (hbody _ _ hprogram _ _)) (fun _ _ => trivial)
          fun _ => trivial
      · split
        · exact .fail
        · exact .fail
        · exact .seq (.ask (.give trivial)) fun _ _ _ => .fail
        · exact .give trivial

lemma runProgram {body : List (Script.Stmt Script.Span)} {file : String}
    (hbody : ∀ entry u, Maintains D P serve chronicle fuel (runBody body) (fun _ => True)
      (entry :: cs) ⟨entry, u⟩) :
    Maintains D P serve chronicle fuel (runProgram body file) (fun _ => True) cs s := by
  refine .ask (.seq (.activation hP (hbody _ _)) fun r v _ => ?_)
  split
  · exact .fail
  · exact .give trivial

end Activations

end Maintains

end Clearance
