/-
# The moments of a run

While an action runs, other actions are started, and activations of functions, of evaluated texts
and of scripts are entered and left. `Action.moments` lists the actions that are started, as
`Action.visits` does, and with each of them the activations in progress and how the action ends.

A moment is the start of a run of its own, so its moments are moments of the whole run
(`mem_momentsOn`). What is said of the control and of the activations in progress, and is kept when
a region or an activation is entered, holds at all moments of a composed action
(`Carried.moments`).
-/
import Clearance.Proofs.Scripted.Serve

namespace Clearance

open Clearance.Action

/-- The start of an action in the course of a run, and how the action ends. -/
structure Moment where
  {α : Type}
  action : Action α
  /-- The state in which the action starts. -/
  state : State
  /-- The activations in progress, innermost first, as they were entered. -/
  contexts : List Control
  outcome : Outcome α

/-- The moments while a request is served. -/
abbrev Chronicle := Request → List Control → State → List Moment

/-- The moments of a repeated step. -/
def iterateMoments {σ α : Type} (step : σ → State → Outcome (σ ⊕ α))
    (seen : σ → State → List Moment) : Nat → σ → State → List Moment
  | 0, _, _ => []
  | fuel + 1, x, s =>
    seen x s ++ match step x s with
      | .done (.inl y) s => iterateMoments step seen fuel y s
      | _ => []

/-- The moments of a run, in order. -/
def Action.moments (serve : Service) (chronicle : Chronicle) (fuel : Nat) :
    {α : Type} → Action α → List Control → State → List Moment
  | _, .andThen p k, cs, s =>
    ⟨.andThen p k, s, cs, run serve fuel (.andThen p k) s⟩ ::
      (moments serve chronicle fuel p cs s ++
        match run serve fuel p s with
        | .done b s => moments serve chronicle fuel (k b) cs s
        | _ => [])
  | _, .attempt p, cs, s =>
    ⟨.attempt p, s, cs, run serve fuel (.attempt p) s⟩ :: moments serve chronicle fuel p cs s
  | _, .region pc scope p, cs, s =>
    ⟨.region pc scope p, s, cs, run serve fuel (.region pc scope p) s⟩ ::
      moments serve chronicle fuel p cs ⟨{ s.control with pc, scope }, s.store⟩
  | _, .activation entry p, cs, s =>
    ⟨.activation entry p, s, cs, run serve fuel (.activation entry p) s⟩ ::
      moments serve chronicle fuel p (entry :: cs)
        ⟨entry, { s.store with result := .undefined }⟩
  | _, .invoke r, cs, s => ⟨.invoke r, s, cs, run serve fuel (.invoke r) s⟩ :: chronicle r cs s
  | _, .loop init step, cs, s =>
    ⟨.loop init step, s, cs, run serve fuel (.loop init step) s⟩ ::
      iterateMoments (fun x s => run serve fuel (step x) s)
        (fun x s => moments serve chronicle fuel (step x) cs s) fuel init s
  | _, p, cs, s => [⟨p, s, cs, run serve fuel p s⟩]

/-- The moments while the machine serves a request. -/
def machineChronicle (hosts : Hosts) (rounds : Nat) : Nat → Chronicle
  | 0, _, _, _ => []
  | levels + 1, r, cs, s =>
    (perform hosts r).moments (machine hosts rounds levels) (machineChronicle hosts rounds levels)
      rounds cs s

/-- The moments of a run on a machine with the given bounds. -/
def Action.momentsOn {α : Type} (p : Action α) (hosts : Hosts) (rounds levels : Nat)
    (cs : List Control) (s : State) : List Moment :=
  p.moments (machine hosts rounds levels) (machineChronicle hosts rounds levels) rounds cs s

section

variable {serve : Service} {chronicle : Chronicle} {fuel : Nat} {α β : Type}

lemma moments_bind (p : Action β) (k : β → Action α) (cs : List Control) (s : State) :
    (p >>= k).moments serve chronicle fuel cs s =
      ⟨p >>= k, s, cs, (p >>= k).run serve fuel s⟩ :: (p.moments serve chronicle fuel cs s ++
        match p.run serve fuel s with
        | .done b u => (k b).moments serve chronicle fuel cs u
        | _ => []) := by
  rw [bind_eq, moments]

/-- The start of an action is its first moment. -/
lemma exists_moments_eq (p : Action α) (cs : List Control) (s : State) :
    ∃ rest, p.moments serve chronicle fuel cs s = ⟨p, s, cs, p.run serve fuel s⟩ :: rest := by
  unfold moments
  cases p <;> exact ⟨_, rfl⟩

lemma mem_moments_self (p : Action α) (cs : List Control) (s : State) :
    ⟨p, s, cs, p.run serve fuel s⟩ ∈ p.moments serve chronicle fuel cs s := by
  obtain ⟨rest, hrest⟩ := exists_moments_eq p cs s
  rw [hrest]
  exact List.mem_cons_self

lemma infix_moments_first (p : Action β) (k : β → Action α) (cs : List Control) (s : State) :
    p.moments serve chronicle fuel cs s <:+: (p >>= k).moments serve chronicle fuel cs s := by
  rw [moments_bind]
  exact List.infix_cons (List.prefix_append _ _).isInfix

lemma infix_moments_rest {p : Action β} {b : β} {s u : State} (hp : p.run serve fuel s = .done b u)
    (k : β → Action α) (cs : List Control) :
    (k b).moments serve chronicle fuel cs u <:+: (p >>= k).moments serve chronicle fuel cs s := by
  rw [moments_bind, hp]
  exact List.infix_cons (List.suffix_append _ _).isInfix

lemma mem_moments_first {p : Action β} (k : β → Action α) {cs : List Control} {s : State}
    {m : Moment} (h : m ∈ p.moments serve chronicle fuel cs s) :
    m ∈ (p >>= k).moments serve chronicle fuel cs s :=
  (infix_moments_first p k cs s).subset h

lemma mem_moments_rest {p : Action β} {k : β → Action α} {cs : List Control} {s u : State} {b : β}
    {m : Moment} (hp : p.run serve fuel s = .done b u)
    (h : m ∈ (k b).moments serve chronicle fuel cs u) :
    m ∈ (p >>= k).moments serve chronicle fuel cs s :=
  (infix_moments_rest hp k cs).subset h

/-- What holds of the moments of all rounds holds of the moments of a loop. -/
lemma forall_mem_iterateMoments {σ : Type} {step : σ → State → Outcome (σ ⊕ α)}
    {seen : σ → State → List Moment} {I : σ → Prop} {P : State → Prop} {D : Moment → Prop}
    (hseen : ∀ x s, I x → P s → ∀ m ∈ seen x s, D m)
    (hstep : ∀ x s y t, I x → P s → step x s = .done (.inl y) t → I y ∧ P t) (n : Nat) {x : σ}
    {s : State} (hx : I x) (hs : P s) : ∀ m ∈ iterateMoments step seen n x s, D m := by
  induction n generalizing x s with
  | zero => exact List.forall_mem_nil _
  | succ n ih =>
    rw [iterateMoments, List.forall_mem_append]
    refine ⟨hseen x s hx hs, ?_⟩
    split
    · rename_i y u ho
      obtain ⟨hy, hu⟩ := hstep x s y u hx hs ho
      exact ih hy hu
    · exact List.forall_mem_nil _

/-- A moment of a loop is one of a round, all of whose moments are moments of the loop. -/
lemma mem_iterateMoments {σ : Type} {step : σ → State → Outcome (σ ⊕ α)}
    {seen : σ → State → List Moment} {n : Nat} {x : σ} {s : State} {m : Moment}
    (hm : m ∈ iterateMoments step seen n x s) :
    ∃ y u, m ∈ seen y u ∧ seen y u ⊆ iterateMoments step seen n x s := by
  induction n generalizing x s with
  | zero => cases hm
  | succ n ih =>
    rw [iterateMoments] at hm ⊢
    rcases List.mem_append.1 hm with hm | hm
    · exact ⟨x, s, hm, List.subset_append_left _ _⟩
    · split at hm
      · obtain ⟨y, u, hmem, hsubset⟩ := ih hm
        exact ⟨y, u, hmem, List.subset_append_of_subset_right _ hsubset⟩
      · cases hm

/-! ## Moments are runs -/

/-- A moment whose action is run as it is recorded, and which shows all its moments. -/
structure Moment.Within (m : Moment) (serve : Service) (chronicle : Chronicle) (fuel : Nat)
    (ms : List Moment) : Prop where
  outcome : m.outcome = m.action.run serve fuel m.state
  moments : m.action.moments serve chronicle fuel m.contexts m.state ⊆ ms

/-- A moment of an action starts a run of its own, here or while a request is served. -/
def Moment.Recorded (m : Moment) (serve : Service) (chronicle : Chronicle) (fuel : Nat)
    (ms : List Moment) : Prop :=
  m.Within serve chronicle fuel ms ∨ ∃ r cs s, m ∈ chronicle r cs s ∧ chronicle r cs s ⊆ ms

lemma Moment.Recorded.mono {m : Moment} {ms ms' : List Moment}
    (h : m.Recorded serve chronicle fuel ms) (hsubset : ms ⊆ ms') :
    m.Recorded serve chronicle fuel ms' := by
  rcases h with h | ⟨r, cs, s, hm, hr⟩
  · exact .inl ⟨h.outcome, List.Subset.trans h.moments hsubset⟩
  · exact .inr ⟨r, cs, s, hm, List.Subset.trans hr hsubset⟩

lemma recorded_self (p : Action α) (cs : List Control) (s : State) :
    Moment.Recorded ⟨p, s, cs, p.run serve fuel s⟩ serve chronicle fuel
      (p.moments serve chronicle fuel cs s) :=
  .inl ⟨rfl, List.Subset.refl _⟩

/-- An action that starts another one, whose moments follow its own start. -/
lemma recorded_cons {p : Action α} {cs : List Control} {s : State} {ms : List Moment}
    (hmoments : p.moments serve chronicle fuel cs s = ⟨p, s, cs, p.run serve fuel s⟩ :: ms)
    (h : ∀ m ∈ ms, m.Recorded serve chronicle fuel ms) :
    ∀ m ∈ p.moments serve chronicle fuel cs s,
      m.Recorded serve chronicle fuel (p.moments serve chronicle fuel cs s) := by
  intro m hm
  rw [hmoments] at hm
  rcases List.mem_cons.1 hm with rfl | hm
  · exact recorded_self p cs s
  · rw [hmoments]
    exact (h m hm).mono (List.subset_cons_self _ _)

/-- Every moment of an action is recorded with its run and its moments. -/
lemma recorded_moments (p : Action α) (cs : List Control) (s : State) :
    ∀ m ∈ p.moments serve chronicle fuel cs s,
      m.Recorded serve chronicle fuel (p.moments serve chronicle fuel cs s) := by
  induction p generalizing cs s with
  | andThen p k ihp ihk =>
    rw [← bind_eq]
    refine recorded_cons (moments_bind p k cs s) fun m hm => ?_
    rcases List.mem_append.1 hm with hm | hm
    · exact (ihp cs s m hm).mono (List.subset_append_left _ _)
    · split at hm
      · exact (ihk _ cs _ m hm).mono (List.subset_append_right _ _)
      · cases hm
  | attempt p ih | region pc scope p ih | activation entry p ih =>
    exact recorded_cons rfl (ih _ _)
  | invoke r =>
    exact recorded_cons rfl fun m hm => .inr ⟨r, cs, s, hm, List.Subset.refl _⟩
  | loop init step ih =>
    refine recorded_cons rfl fun m hm => ?_
    obtain ⟨x, u, hround, hsubset⟩ := mem_iterateMoments hm
    exact (ih x cs u m hround).mono hsubset
  | give | current | update | fail | await =>
    exact List.forall_mem_singleton.2 (recorded_self _ cs s)

/-- The activations in progress when an action starts are in progress at all its moments. -/
lemma contexts_of_mem_moments
    (hchronicle : ∀ r cs s, ∀ m ∈ chronicle r cs s, cs <:+ m.contexts) (p : Action α)
    (cs : List Control) (s : State) :
    ∀ m ∈ p.moments serve chronicle fuel cs s, cs <:+ m.contexts := by
  induction p generalizing cs s with
  | andThen p k ihp ihk =>
    rw [← bind_eq, moments_bind, List.forall_mem_cons, List.forall_mem_append]
    refine ⟨List.suffix_rfl, ihp _ _, ?_⟩
    split
    · exact ihk _ _ _
    · exact List.forall_mem_nil _
  | attempt p ih | region pc scope p ih =>
    exact List.forall_mem_cons.2 ⟨List.suffix_rfl, ih _ _⟩
  | activation entry p ih =>
    refine List.forall_mem_cons.2 ⟨List.suffix_rfl, fun m hm => ?_⟩
    exact (List.suffix_cons entry cs).trans (ih _ _ m hm)
  | invoke r => exact List.forall_mem_cons.2 ⟨List.suffix_rfl, hchronicle _ _ _⟩
  | loop init step ih =>
    refine List.forall_mem_cons.2 ⟨List.suffix_rfl, ?_⟩
    exact forall_mem_iterateMoments (I := fun _ => True) (P := fun _ => True)
      (fun x s _ _ => ih x cs s) (fun _ _ _ _ _ _ _ => ⟨trivial, trivial⟩) fuel trivial trivial
  | give | current | update | fail | await =>
    exact List.forall_mem_singleton.2 List.suffix_rfl

end

/-- A moment of a run on a machine starts a run on a machine with fewer levels, and the moments of
that run are moments of the whole one. -/
theorem mem_momentsOn {hosts : Hosts} {rounds levels : Nat} {α : Type} {p : Action α}
    {cs : List Control} {s : State} {m : Moment} (hm : m ∈ p.momentsOn hosts rounds levels cs s) :
    ∃ n, m.Within (machine hosts rounds n) (machineChronicle hosts rounds n) rounds
      (p.momentsOn hosts rounds levels cs s) := by
  induction levels generalizing α p cs s with
  | zero =>
    rcases recorded_moments p cs s m hm with hwithin | ⟨r, ds, u, hserved, -⟩
    · exact ⟨0, hwithin⟩
    · cases hserved
  | succ n ih =>
    rcases recorded_moments p cs s m hm with hwithin | ⟨r, ds, u, hserved, hsubset⟩
    · exact ⟨n + 1, hwithin⟩
    · obtain ⟨n', hwithin⟩ := ih (p := perform hosts r) hserved
      exact ⟨n', hwithin.outcome, List.Subset.trans hwithin.moments hsubset⟩

/-! ## What is carried along -/

section

variable {serve : Service} {chronicle : Chronicle} {fuel : Nat} {α : Type}

/-- Where an action is done, the machine is still at its site. -/
lemma Site.Covers.of_done {site : Site} (hserve : serve.KeepsControl) {p : Action α} {s t : State}
    {a : α} (hs : site.Covers s.control) (hrun : p.run serve fuel s = .done a t) :
    site.Covers t.control := by
  rwa [run_done_control hserve hrun]

/-- The machine enters the site of an activation. -/
lemma Site.Opens.covers {site : Site} {entry : Control} (h : site.Opens entry) :
    (site.inside entry).Covers entry := by
  refine ⟨h.floor, fun l hl => ?_⟩
  obtain ⟨_, _, rfl⟩ := Option.map_eq_some_iff.1 hl
  rfl

/-- The result of a composed action is as announced, where everything may be written. -/
lemma composed_result (hserve : serve.KeepsControl) {site : Site} {W : Nat → Prop} {p : Action α}
    {Q : α → Prop} (h : Composed site W p Q) (hW : ∀ id, W id) {s t : State} {a : α}
    (hs : site.Covers s.control) (hrun : p.run serve fuel s = .done a t) : Q a := by
  induction h generalizing s t with
  | give hQ => cases hrun; exact hQ
  | current => cases hrun; exact hs
  | allocate => exact hW _
  | guard => exact hW _
  | note | touch | checked | invoke | await | expression => trivial
  | fail => cases hrun
  | mono _ hmono ih => exact hmono _ (ih hW hs hrun)
  | andThen _ _ ihp ihk =>
    obtain ⟨b, u, hp, hk⟩ := run_bind_done.1 hrun
    exact ihk b (ihp hW hs hp) hW (hs.of_done hserve hp) hk
  | pass _ _ _ _ ihp ihok iherr | silence _ _ _ _ ihp ihok iherr =>
    obtain ⟨r, u, hp, hk⟩ := run_bind_done.1 hrun
    rcases run_attempt_done.1 hp with ⟨b, rfl, hb⟩ | ⟨f, rfl, -⟩
    · exact ihok b (ihp hW hs hb) hW (hs.of_done hserve hp) hk
    · exact iherr f hW (hs.of_done hserve hp) hk
  | @region _ _ _ pc scope _ _ hpc _ ih =>
    rw [run_region, Outcome.mapState_eq_done] at hrun
    obtain ⟨u, hu, -⟩ := hrun
    exact ih hW (s := ⟨{ s.control with pc, scope }, s.store⟩) ⟨hpc, hs.level⟩ hu
  | activation hopens _ ih =>
    rw [run_activation] at hrun
    split at hrun
    · rename_i hu
      cases hrun
      exact ih hW hopens.covers hu
    · cases hrun
    · cases hrun
  | @loop site _ _ _ _ _ _ _ hinit _ ih =>
    refine iterate_done_of (P := fun u => site.Covers u.control) (fun x u r v hx hu hr => ?_)
      hinit hs hrun
    exact ⟨ih x hx hW hu hr, hu.of_done hserve hr⟩

/-- What is said of the activations in progress and of the control, and is kept when a region or an
activation is entered at a program counter above the floor. -/
structure Carried (floor : Label) (K : List Control → Control → Prop) : Prop where
  region : ∀ {cs c pc scope}, K cs c → floor.leq pc = true → K cs { c with pc, scope }
  activation : ∀ {cs c entry}, K cs c → floor.leq entry.pc = true → c.level.Opens entry →
    K (entry :: cs) entry

/-- It holds at all moments of what is served. -/
def Chronicle.Carries (chronicle : Chronicle) (floor : Label)
    (K : List Control → Control → Prop) : Prop :=
  ∀ r cs s, floor.leq s.control.pc = true → K cs s.control →
    ∀ m ∈ chronicle r cs s, K m.contexts m.state.control

variable {floor : Label} {K : List Control → Control → Prop}

/-- The moments of a sequence. -/
lemma carried_bind {β : Type} {p : Action β} {k : β → Action α} {cs : List Control} {s : State}
    (hs : K cs s.control)
    (hp : ∀ m ∈ p.moments serve chronicle fuel cs s, K m.contexts m.state.control)
    (hk : ∀ b u, p.run serve fuel s = .done b u →
      ∀ m ∈ (k b).moments serve chronicle fuel cs u, K m.contexts m.state.control) :
    ∀ m ∈ (p >>= k).moments serve chronicle fuel cs s, K m.contexts m.state.control := by
  rw [moments_bind, List.forall_mem_cons, List.forall_mem_append]
  refine ⟨hs, hp, ?_⟩
  cases ho : p.run serve fuel s with
  | done b u => exact hk b u ho
  | failed | stuck => exact List.forall_mem_nil _

/-- What is carried along holds at all moments of a composed action. -/
theorem Carried.moments (hK : Carried floor K) (hchronicle : chronicle.Carries floor K)
    (hserve : serve.KeepsControl) {site : Site} {W : Nat → Prop} {p : Action α} {Q : α → Prop}
    (h : Composed site W p Q) (hW : ∀ id, W id) (hfloor : site.floor = floor)
    (hlevel : site.level.isSome = true) {cs : List Control} {s : State}
    (hs : site.Covers s.control) (hcs : K cs s.control) :
    ∀ m ∈ p.moments serve chronicle fuel cs s, K m.contexts m.state.control := by
  -- the control changes where a region or an activation is entered, and nowhere else
  induction h generalizing cs s with
  | give | current | note | allocate | touch | fail | await =>
    exact List.forall_mem_singleton.2 hcs
  | mono _ _ ih => exact ih hW hfloor hlevel hs hcs
  | guard _ ih => exact ih (fun _ => trivial) hfloor hlevel hs hcs
  | checked _ _ ih => exact ih (fun _ => trivial) hfloor hlevel hs hcs
  | andThen hp _ ihp ihk =>
    refine carried_bind hcs (ihp hW hfloor hlevel hs hcs) fun b u hb => ?_
    exact ihk b (composed_result hserve hp hW hs hb) hW hfloor hlevel (hs.of_done hserve hb)
      (by rwa [run_done_control hserve hb])
  | pass hp _ _ _ ihp ihok iherr | silence hp _ _ _ ihp ihok iherr =>
    refine carried_bind hcs (List.forall_mem_cons.2 ⟨hcs, ihp hW hfloor hlevel hs hcs⟩)
      fun r u hr => ?_
    have hu : K cs u.control := by rwa [run_done_control hserve hr]
    rcases run_attempt_done.1 hr with ⟨b, rfl, hb⟩ | ⟨f, rfl, -⟩
    · exact ihok b (composed_result hserve hp hW hs hb) hW hfloor hlevel (hs.of_done hserve hr) hu
    · exact iherr f hW hfloor hlevel (hs.of_done hserve hr) hu
  | region hpc _ ih =>
    refine List.forall_mem_cons.2 ⟨hcs, ?_⟩
    exact ih hW hfloor hlevel ⟨hpc, hs.level⟩ (hK.region hcs (hfloor ▸ hpc))
  | @activation site _ _ entry _ _ hopens _ ih =>
    refine List.forall_mem_cons.2 ⟨hcs, ?_⟩
    obtain ⟨l, hl⟩ := Option.isSome_iff_exists.1 hlevel
    obtain rfl := hs.level l hl
    refine ih hW hfloor ?_ hopens.covers
      (hK.activation hcs (hfloor ▸ hopens.floor) (hopens.level _ hl))
    rw [Site.inside, Option.isSome_map, hlevel]
  | invoke =>
    exact List.forall_mem_cons.2 ⟨hcs, hchronicle _ _ _ (hfloor ▸ hs.floor) hcs⟩
  | @loop site _ _ _ _ _ I _ hinit hstep ih =>
    refine List.forall_mem_cons.2 ⟨hcs, ?_⟩
    refine forall_mem_iterateMoments (I := I)
      (P := fun u => site.Covers u.control ∧ K cs u.control)
      (fun x u hx hu => ih x hx hW hfloor hlevel hu.1 hu.2) (fun x u y v hx hu hr => ?_) _ hinit
      ⟨hs, hcs⟩
    exact ⟨composed_result hserve (hstep x hx) hW hu.1 hr, hu.1.of_done hserve hr,
      by rw [run_done_control hserve hr]; exact hu.2⟩
  | expression _ _ _ ihp iherr =>
    rw [expressionStatement_action]
    refine carried_bind hcs (List.forall_mem_cons.2 ⟨hcs, ihp hW hfloor hlevel hs hcs⟩)
      fun r u hr => ?_
    have hu : K cs u.control := by rwa [run_done_control hserve hr]
    rcases run_attempt_done.1 hr with ⟨b, rfl, hb⟩ | ⟨f, rfl, -⟩
    · exact carried_bind hu (List.forall_mem_singleton.2 hu) fun _ _ hset =>
        List.forall_mem_singleton.2 (by rwa [run_done_control hserve hset])
    · exact iherr f hW hfloor hlevel (hs.of_done hserve hr) hu

end

/-- What is carried along holds at all moments of what the machine serves. -/
lemma Carried.machineChronicle {floor : Label} {K : List Control → Control → Prop}
    (hK : Carried floor K) {hosts : Hosts} (hhosts : hosts.Composed floor) (rounds levels : Nat) :
    (machineChronicle hosts rounds levels).Carries floor K := by
  induction levels with
  | zero => exact fun _ _ _ _ _ => List.forall_mem_nil _
  | succ n ih =>
    intro r cs s hpc hs
    let site : Site := ⟨floor, some s.control.level, false⟩
    have hcovers : site.Covers s.control := ⟨hpc, by rintro _ ⟨⟩; rfl⟩
    exact hK.moments ih (machine_keepsControl hosts rounds n)
      (routine_perform hhosts r : Routine site (fun _ => True) _) (fun _ => trivial) rfl rfl
      hcovers hs

end Clearance
