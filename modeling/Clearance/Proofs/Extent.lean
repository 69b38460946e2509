/-
# Objects and frames stay

Objects are never dropped, and nothing but their properties ever changes: a heap is extended by
all heaps that come after it, as frames are followed by those that come after them. So the last
store of a run knows of every object that the run makes what it is, its class and its partition
included, before the object is there. Statements about all moments of a run use it as an oracle.
-/
import Clearance.Proofs.Heap
import Clearance.Proofs.Moment

namespace Clearance

open Clearance.Action

/-- A heap that comes after another one. -/
structure Heap.Extends (h h' : Heap) : Prop where
  size : h.size ≤ h'.size
  shell : ∀ id < h.size, (h.get id).SameShell (h'.get id)

namespace Heap.Extends

variable {h h' h'' : Heap}

lemma refl (h : Heap) : h.Extends h := ⟨Nat.le_refl _, fun _ _ => .refl _⟩

lemma of_eq (heq : h' = h) : h.Extends h' := by
  rw [heq]
  exact refl h

lemma trans (hh : h.Extends h') (hh' : h'.Extends h'') : h.Extends h'' :=
  ⟨Nat.le_trans hh.size hh'.size,
    fun id hid => (hh.shell id hid).trans (hh'.shell id (Nat.lt_of_lt_of_le hid hh.size))⟩

lemma push (h : Heap) (o : Object) : h.Extends (h.push o) := by
  refine ⟨by simp, fun id hid => ?_⟩
  rw [Heap.get_push_lt hid]
  exact .refl _

lemma update {id : Nat} {f : Object → Object} (hf : (h.get id).SameShell (f (h.get id))) :
    h.Extends (h.update id f) := by
  refine ⟨by simp, fun j _ => ?_⟩
  rw [Heap.get_update]
  split_ifs with hj
  · obtain ⟨rfl, -⟩ := hj
    exact hf
  · exact .refl _

end Heap.Extends

/-- A store that comes after another one. -/
structure Store.Precedes (s t : Store) : Prop where
  heap : s.heap.Extends t.heap
  frames : s.frames.Follow t.frames

namespace Store.Precedes

variable {s t u : Store}

lemma refl (s : Store) : s.Precedes s := ⟨.refl _, .refl _⟩

lemma trans (h : s.Precedes t) (h' : t.Precedes u) : s.Precedes u :=
  ⟨h.heap.trans h'.heap, h.frames.trans h'.frames⟩

/-- Neither the objects nor the frames are changed. -/
lemma of_eq (hheap : t.heap = s.heap) (hframes : t.frames = s.frames) : s.Precedes t := by
  refine ⟨.of_eq hheap, ?_⟩
  rw [hframes]
  exact .refl _

end Store.Precedes

/-- A moment of a run from one store to another one. -/
structure Moment.Between (m : Moment) (s t : Store) : Prop where
  start : s.Precedes m.state.store
  during : m.state.store.Precedes m.outcome.state.store
  finish : m.outcome.state.store.Precedes t

lemma Moment.Between.widen {m : Moment} {s s' t t' : Store} (h : m.Between s t)
    (hs : s'.Precedes s) (ht : t.Precedes t') : m.Between s' t' :=
  ⟨hs.trans h.start, h.during, h.finish.trans ht⟩

/-- The store at the end of a run comes after the one at its start, and so it is of all runs that
its moments start. -/
structure Grows (serve : Service) (chronicle : Chronicle) (fuel : Nat) {α : Type} (p : Action α)
    (cs : List Control) (s : State) : Prop where
  start : s.store.Precedes (p.run serve fuel s).state.store
  moments : ∀ m ∈ p.moments serve chronicle fuel cs s,
    m.Between s.store (p.run serve fuel s).state.store

/-- The same of what is served. -/
structure Service.Grows (serve : Service) (chronicle : Chronicle) : Prop where
  keeps : serve.KeepsControl
  start : ∀ (r : Request) (s : State), s.store.Precedes (serve r s).state.store
  moments : ∀ (r : Request) (cs : List Control) (s : State), ∀ m ∈ chronicle r cs s,
    m.Between s.store (serve r s).state.store

namespace Grows

variable {serve : Service} {chronicle : Chronicle} {fuel : Nat} {α β : Type} {cs : List Control}
  {s : State}

/-- An instruction that starts no other one. -/
lemma single {p : Action α} (hmoments : p.moments serve chronicle fuel cs s =
    [⟨p, s, cs, p.run serve fuel s⟩])
    (h : s.store.Precedes (p.run serve fuel s).state.store) :
    Grows serve chronicle fuel p cs s := by
  refine ⟨h, ?_⟩
  rw [hmoments, List.forall_mem_singleton]
  exact ⟨.refl _, h, .refl _⟩

/-- An instruction that starts others, and ends where they end. -/
lemma cons {p : Action α} {ms : List Moment} (hmoments : p.moments serve chronicle fuel cs s =
    ⟨p, s, cs, p.run serve fuel s⟩ :: ms)
    (hstart : s.store.Precedes (p.run serve fuel s).state.store)
    (hms : ∀ m ∈ ms, m.Between s.store (p.run serve fuel s).state.store) :
    Grows serve chronicle fuel p cs s := by
  refine ⟨hstart, ?_⟩
  rw [hmoments, List.forall_mem_cons]
  exact ⟨⟨.refl _, hstart, .refl _⟩, hms⟩

lemma bind {p : Action β} {k : β → Action α} (hp : Grows serve chronicle fuel p cs s)
    (hk : ∀ b u, p.run serve fuel s = .done b u → Grows serve chronicle fuel (k b) cs u) :
    Grows serve chronicle fuel (p >>= k) cs s := by
  have hrun : (p >>= k).run serve fuel s = _ := run_bind p k s
  cases ho : p.run serve fuel s with
  | done b u =>
    have hb := hk b u ho
    obtain ⟨hstart, hmoments⟩ := hp
    rw [ho] at hstart hmoments
    simp only [ho] at hrun
    refine cons (moments_bind ..) (by rw [hrun]; exact hstart.trans hb.start) ?_
    rw [hrun, List.forall_mem_append]
    refine ⟨fun m hm => (hmoments m hm).widen (.refl _) hb.start, ?_⟩
    simp only [ho]
    exact fun m hm => (hb.moments m hm).widen hstart (.refl _)
  | failed f u | stuck w u =>
    obtain ⟨hstart, hmoments⟩ := hp
    rw [ho] at hstart hmoments
    simp only [ho] at hrun
    refine cons (moments_bind ..) (by rw [hrun]; exact hstart) ?_
    rw [hrun, List.forall_mem_append]
    simp only [ho]
    exact ⟨hmoments, List.forall_mem_nil _⟩

lemma attempt {p : Action α} (hp : Grows serve chronicle fuel p cs s) :
    Grows serve chronicle fuel (.attempt p) cs s := by
  have hstate : ((Action.attempt p).run serve fuel s).state = (p.run serve fuel s).state := by
    rw [run_attempt]
    cases p.run serve fuel s <;> rfl
  exact cons rfl (by rw [hstate]; exact hp.start) (by rw [hstate]; exact hp.moments)

/-- The rounds of a loop, each of which starts where the one before ended. -/
lemma loop {σ : Type} {step : σ → Action (σ ⊕ α)} {I : σ → Prop} {P : State → Prop}
    (hround : ∀ x u, I x → P u → Grows serve chronicle fuel (step x) cs u)
    (hkeep : ∀ x u y v, I x → P u → (step x).run serve fuel u = .done (.inl y) v → I y ∧ P v)
    {x : σ} (hx : I x) (hs : P s) : Grows serve chronicle fuel (.loop x step) cs s := by
  suffices h : ∀ n x u, I x → P u →
      let t := (iterate (fun x u => (step x).run serve fuel u) n x u).state.store
      u.store.Precedes t ∧
      ∀ m ∈ iterateMoments (fun x u => (step x).run serve fuel u)
          (fun x u => (step x).moments serve chronicle fuel cs u) n x u, m.Between u.store t by
    obtain ⟨hstart, hmoments⟩ := h fuel x s hx hs
    exact cons rfl hstart hmoments
  intro n
  -- the rounds are counted by the fuel, which no step sees
  induction n with
  | zero => exact fun x u _ _ => ⟨.refl _, List.forall_mem_nil _⟩
  | succ n ih =>
    intro x u hx hu
    obtain ⟨hstart, hmoments⟩ := hround x u hx hu
    unfold iterate iterateMoments
    cases ho : (step x).run serve fuel u with
    | done r v =>
      rw [ho] at hstart hmoments
      cases r with
      | inl y =>
        obtain ⟨hy, hv⟩ := hkeep x u y v hx hu ho
        obtain ⟨hrest, hrests⟩ := ih y v hy hv
        dsimp only
        rw [List.forall_mem_append]
        exact ⟨hstart.trans hrest, fun m hm => (hmoments m hm).widen (.refl _) hrest,
          fun m hm => (hrests m hm).widen hstart (.refl _)⟩
      | inr a =>
        dsimp only
        rw [List.append_nil]
        exact ⟨hstart, hmoments⟩
    | failed f v | stuck w v =>
      rw [ho] at hstart hmoments
      dsimp only
      rw [List.append_nil]
      exact ⟨hstart, hmoments⟩

end Grows

variable {serve : Service} {chronicle : Chronicle} {fuel : Nat} {α : Type}

/-- Whatever a composed action does, the objects and the frames stay. -/
theorem Composed.grows (hserve : serve.Grows chronicle) {site : Site} {W : Nat → Prop}
    {p : Action α} {Q : α → Prop} (h : Composed site W p Q) (hW : ∀ id, W id) {cs : List Control}
    {s : State} (hs : site.Covers s.control) : Grows serve chronicle fuel p cs s := by
  induction h generalizing cs s with
  | give | current | fail => exact .single rfl (.refl _)
  | note hheap hframes => exact .single rfl ⟨.of_eq (hheap _), hframes _⟩
  | allocate => exact .single rfl ⟨.push _ _, .refl _⟩
  | touch htouch hframes =>
    obtain ⟨id, g, -, hshell, hheap⟩ := htouch s.store
    refine .single rfl ⟨?_, hframes _⟩
    rw [run_update, Outcome.state_done, hheap]
    exact .update hshell
  | await =>
    refine .single rfl ?_
    rw [state_run_await]
    exact .refl _
  | mono _ _ ih => exact ih hW hs
  | guard _ ih | checked _ _ ih => exact ih (fun _ => trivial) hs
  | andThen hp _ ihp ihk =>
    refine .bind (ihp hW hs) fun b u hb => ?_
    exact ihk b (composed_result hserve.keeps hp hW hs hb) hW (hs.of_done hserve.keeps hb)
  | pass hp _ _ _ ihp ihok iherr | silence hp _ _ _ ihp ihok iherr =>
    refine .bind (ihp hW hs).attempt fun r u hr => ?_
    rcases run_attempt_done.1 hr with ⟨b, rfl, hb⟩ | ⟨f, rfl, -⟩
    · exact ihok b (composed_result hserve.keeps hp hW hs hb) hW (hs.of_done hserve.keeps hr)
    · exact iherr f hW (hs.of_done hserve.keeps hr)
  | @region site _ _ pc scope p _ hpc _ ih =>
    have hp := @ih hW cs ⟨{ s.control with pc, scope }, s.store⟩ ⟨hpc, hs.level⟩
    have hstate : ((Action.region pc scope p).run serve fuel s).state.store =
        (p.run serve fuel ⟨{ s.control with pc, scope }, s.store⟩).state.store := by
      rw [run_region, Outcome.state_mapState]
    exact .cons rfl (by rw [hstate]; exact hp.start) (by rw [hstate]; exact hp.moments)
  | @activation site _ _ entry p _ hopens _ ih =>
    have hp := @ih hW (entry :: cs) ⟨entry, { s.store with result := .undefined }⟩ hopens.covers
    have hstate : ∃ v, ((Action.activation entry p).run serve fuel s).state.store =
        { (p.run serve fuel ⟨entry, { s.store with result := .undefined }⟩).state.store with
          result := v } := by
      rw [run_activation]
      cases p.run serve fuel ⟨entry, { s.store with result := .undefined }⟩ <;> exact ⟨_, rfl⟩
    obtain ⟨v, hv⟩ := hstate
    -- the register for results is no part of what grows
    have hentered : s.store.Precedes { s.store with result := .undefined } := .of_eq rfl rfl
    refine .cons rfl ?_ fun m hm => (hp.moments m hm).widen hentered ?_
    · rw [hv]
      exact hentered.trans (hp.start.trans (.of_eq rfl rfl))
    · rw [hv]
      exact .of_eq rfl rfl
  | invoke => exact .cons rfl (hserve.start _ s) (hserve.moments _ cs s)
  | @loop site _ _ _ _ _ I _ hinit hstep ih =>
    refine .loop (I := I) (P := fun u => site.Covers u.control) (fun x u hx hu => ih x hx hW hu)
      (fun x u y v hx hu hr => ?_) hinit hs
    exact ⟨composed_result hserve.keeps (hstep x hx) hW hu hr, hu.of_done hserve.keeps hr⟩
  | expression _ _ _ ihp iherr =>
    rw [expressionStatement_action]
    refine .bind (ihp hW hs).attempt fun r u hr => ?_
    rcases run_attempt_done.1 hr with ⟨b, rfl, hb⟩ | ⟨f, rfl, -⟩
    · exact .bind (.single rfl (.of_eq rfl rfl)) fun _ _ _ => .single rfl (.refl _)
    · exact iherr f hW (hs.of_done hserve.keeps hr)

/-- The machine drops no objects and no frames, if its hosts are composed. -/
theorem machine_grows {hosts : Hosts} (hhosts : hosts.Composed .none) (rounds levels : Nat) :
    (machine hosts rounds levels).Grows (machineChronicle hosts rounds levels) := by
  induction levels with
  | zero => exact ⟨machine_keepsControl _ _ _, fun _ s => .refl _, fun _ _ _ =>
    List.forall_mem_nil _⟩
  | succ n ih =>
    have hrequest : ∀ r cs s, Grows (machine hosts rounds n)
        (machineChronicle hosts rounds n) rounds
        (perform hosts r) cs s := fun r cs s =>
      Composed.grows ih (routine_perform hhosts r : Routine ⟨.none, none, false⟩ _ _)
        (fun _ => trivial) ⟨Label.none_leq _, by rintro _ ⟨⟩⟩
    refine ⟨machine_keepsControl _ _ _, fun r s => ?_, fun r cs s m hm => ?_⟩
    · rw [machine_succ]
      exact (hrequest r [] s).start
    · rw [machine_succ]
      exact (hrequest r cs s).moments m hm

/-! ## The runs that moments start -/

/-- Wherever the action of the moment is run, the objects and the frames stay. -/
def Moment.Steady (m : Moment) : Prop :=
  ∀ (serve : Service) (chronicle : Chronicle) (fuel : Nat), serve.Grows chronicle →
    Grows serve chronicle fuel m.action m.contexts m.state

/-- The moments of a composed action are steady. -/
theorem Composed.steady (hserve : serve.Grows chronicle)
    (hchronicle : ∀ r cs s, ∀ m ∈ chronicle r cs s, m.Steady) {site : Site} {W : Nat → Prop}
    {p : Action α} {Q : α → Prop} (h : Composed site W p Q) (hW : ∀ id, W id) {cs : List Control}
    {s : State} (hs : site.Covers s.control) :
    ∀ m ∈ p.moments serve chronicle fuel cs s, m.Steady := by
  have first : ∀ {α : Type} {site : Site} {W : Nat → Prop} {p : Action α} {Q : α → Prop} {cs s o},
      Composed site W p Q → (∀ id, W id) → site.Covers s.control →
        Moment.Steady ⟨p, s, cs, o⟩ := fun h hW hs _ _ _ hserve => h.grows hserve hW hs
  -- the steps of a sequence: the second part starts where the first one is done
  have sequence : ∀ {α β : Type} {p : Action β} {k : β → Action α} {cs : List Control} {s : State},
      (∀ o, Moment.Steady ⟨p >>= k, s, cs, o⟩) →
      (∀ m ∈ p.moments serve chronicle fuel cs s, m.Steady) →
      (∀ b u, p.run serve fuel s = .done b u →
        ∀ m ∈ (k b).moments serve chronicle fuel cs u, m.Steady) →
      ∀ m ∈ (p >>= k).moments serve chronicle fuel cs s, m.Steady := by
    intro α β p k cs s htop hp hk
    rw [moments_bind, List.forall_mem_cons, List.forall_mem_append]
    refine ⟨htop _, hp, ?_⟩
    cases ho : p.run serve fuel s with
    | done b u => exact hk b u ho
    | failed | stuck => exact List.forall_mem_nil _
  induction h generalizing cs s with
  | give hQ => exact List.forall_mem_singleton.2 (first (.give hQ) hW hs)
  | current => exact List.forall_mem_singleton.2 (first .current hW hs)
  | fail => exact List.forall_mem_singleton.2 (first (Q := fun _ => True) .fail hW hs)
  | note hheap hframes hresult =>
    exact List.forall_mem_singleton.2 (first (.note hheap hframes hresult) hW hs)
  | allocate => exact List.forall_mem_singleton.2 (first .allocate hW hs)
  | touch htouch hframes hresult =>
    exact List.forall_mem_singleton.2 (first (.touch htouch hframes hresult) hW hs)
  | await => exact List.forall_mem_singleton.2 (first .await hW hs)
  | mono _ _ ih => exact ih hW hs
  | guard _ ih | checked _ _ ih => exact ih (fun _ => trivial) hs
  | andThen hp hk ihp ihk =>
    refine sequence (fun o => first (.andThen hp hk) hW hs) (ihp hW hs) fun b u hb => ?_
    exact ihk b (composed_result hserve.keeps hp hW hs hb) hW (hs.of_done hserve.keeps hb)
  | pass hp hok herr hv ihp ihok iherr =>
    refine sequence (fun o => first (.pass hp hok herr hv) hW hs)
      (List.forall_mem_cons.2 ⟨fun _ _ _ hserve => (hp.grows hserve hW hs).attempt, ihp hW hs⟩)
      fun r u hr => ?_
    rcases run_attempt_done.1 hr with ⟨b, rfl, hb⟩ | ⟨f, rfl, -⟩
    · exact ihok b (composed_result hserve.keeps hp hW hs hb) hW (hs.of_done hserve.keeps hr)
    · exact iherr f hW (hs.of_done hserve.keeps hr)
  | silence hp hok herr hv ihp ihok iherr =>
    refine sequence (fun o => first (.silence hp hok herr hv) hW hs)
      (List.forall_mem_cons.2 ⟨fun _ _ _ hserve => (hp.grows hserve hW hs).attempt, ihp hW hs⟩)
      fun r u hr => ?_
    rcases run_attempt_done.1 hr with ⟨b, rfl, hb⟩ | ⟨f, rfl, -⟩
    · exact ihok b (composed_result hserve.keeps hp hW hs hb) hW (hs.of_done hserve.keeps hr)
    · exact iherr f hW (hs.of_done hserve.keeps hr)
  | region hpc hp ih =>
    exact List.forall_mem_cons.2 ⟨first (.region hpc hp) hW hs, ih hW ⟨hpc, hs.level⟩⟩
  | activation hopens hp ih =>
    exact List.forall_mem_cons.2 ⟨first (.activation hopens hp) hW hs, ih hW hopens.covers⟩
  | invoke => exact List.forall_mem_cons.2 ⟨first .invoke hW hs, hchronicle _ _ _⟩
  | @loop site _ _ _ _ _ I _ hinit hstep ih =>
    refine List.forall_mem_cons.2 ⟨first (.loop hinit hstep) hW hs, ?_⟩
    refine forall_mem_iterateMoments (I := I) (P := fun u => site.Covers u.control)
      (fun x u hx hu => ih x hx hW hu) (fun x u y v hx hu hr => ?_) _ hinit hs
    exact ⟨composed_result hserve.keeps (hstep x hx) hW hu hr, hu.of_done hserve.keeps hr⟩
  | expression hrecording hp herr ihp iherr =>
    have h := Composed.expression hrecording hp herr
    rw [expressionStatement_action] at h ⊢
    refine sequence (fun o => first h hW hs)
      (List.forall_mem_cons.2 ⟨fun _ _ _ hserve => (hp.grows hserve hW hs).attempt, ihp hW hs⟩)
      fun r u hr => ?_
    rcases run_attempt_done.1 hr with ⟨b, rfl, hb⟩ | ⟨f, rfl, -⟩
    · have hset : ∀ {v : Value} {u : State} {o}, Moment.Steady ⟨setResult v, u, cs, o⟩ :=
        fun _ _ _ _ => .single rfl (.of_eq rfl rfl)
      have hnormal : ∀ {u : State} {o},
          Moment.Steady ⟨(Pure.pure Completion.normal : Action Completion), u, cs, o⟩ :=
        fun _ _ _ _ => .single rfl (.refl _)
      exact sequence (fun _ _ _ _ _ => .bind (.single rfl (.of_eq rfl rfl)) fun _ _ _ =>
        .single rfl (.refl _)) (List.forall_mem_singleton.2 hset)
        fun _ _ _ => List.forall_mem_singleton.2 hnormal
    · exact iherr f hW (hs.of_done hserve.keeps hr)

/-- The moments of what the machine serves are steady. -/
lemma machineChronicle_steady {hosts : Hosts} (hhosts : hosts.Composed .none)
    (rounds levels : Nat) :
    ∀ r cs s, ∀ m ∈ machineChronicle hosts rounds levels r cs s, m.Steady := by
  induction levels with
  | zero => exact fun _ _ _ => List.forall_mem_nil _
  | succ n ih =>
    exact fun r cs s => Composed.steady (machine_grows hhosts rounds n) ih
      (routine_perform hhosts r : Routine ⟨.none, none, false⟩ _ _) (fun _ => trivial)
        ⟨Label.none_leq _, by rintro _ ⟨⟩⟩

end Clearance
