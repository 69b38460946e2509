/-
# Runs of a serial executor

The steps of a serial executor can come in any order in which each is possible, so what holds of all
runs is shown for one step first (`Serial.Kept.step`) and then for any number of them. A log is kept
beside the state: it tells what has happened to which job, in the order in which it happened. The
log and the state always say the same about the jobs in progress, and from that follows what clients
can rely on (`Serial.Orderly`).

Handles are numbers here. A job is submitted with one that has not been given out before.
-/
import Clearance.Jobs.Serial
import Mathlib.Data.List.Nodup
import Mathlib.Data.List.Perm.Basic
import Mathlib.Tactic.Common

namespace Clearance.Jobs

variable {α : Type}

/-! ## Logs -/

/-- What has happened to the jobs of a serial executor, each list in the order in which it
happened. -/
structure Log (α : Type) where
  accepted : List (Job α)
  /-- The jobs that were submitted when the executor was closed. -/
  refused : List (Job α)
  taken : List (Job α)
  /-- The jobs that were run, with the contexts that were cancelled by then. -/
  ran : List (Job α × List Nat)
  /-- The jobs whose handles the worker has settled, with the results. -/
  ended : List (Job α × Settlement α)
  /-- The jobs that the worker is done with. -/
  finished : List (Job α)

/-- The log of an executor to which nothing has happened. -/
def Log.empty : Log α := ⟨[], [], [], [], [], []⟩

/-- Writes down what a step does that leads from one state to another. -/
def Log.note (l : Log α) (s s' : Serial α) : SerialStep α → Log α
  | .submit j =>
    if s.closed then { l with refused := l.refused ++ [j] }
    else { l with accepted := l.accepted ++ [j] }
  | .take =>
    match s'.worker with
    | .taken j => { l with taken := l.taken ++ [j] }
    | _ => l
  | .run =>
    match s.worker with
    | .taken j => { l with ran := l.ran ++ [(j, s.cancelled)] }
    | _ => l
  | .settle =>
    match s.worker with
    | .ran j r => { l with ended := l.ended ++ [(j, r)] }
    | _ => l
  | .finish =>
    match s.worker with
    | .settled j => { l with finished := l.finished ++ [j] }
    | _ => l
  | .close | .cancel _ | .leave | .flushed => l

/-- The log after several steps from a state. -/
def Log.after (l : Log α) (s : Serial α) : List (SerialStep α) → Log α
  | [] => l
  | a :: rest =>
    match s.step? a with
    | some s' => (l.note s s' a).after s' rest
    | none => l

/-- The log of several steps of a fresh executor. -/
def Serial.log (steps : List (SerialStep α)) : Log α := Log.empty.after .fresh steps

/-- The job that a client submits with a step. -/
def SerialStep.job? : SerialStep α → Option (Job α)
  | .submit j => some j
  | _ => none

/-- The step that closes the executor. -/
def SerialStep.isClose : SerialStep α → Bool
  | .close => true
  | _ => false

/-- The jobs that are submitted, in this order. -/
def submitted (steps : List (SerialStep α)) : List (Job α) := steps.filterMap SerialStep.job?

/-- The jobs that are submitted before the executor is closed. -/
def submittedOpen (steps : List (SerialStep α)) : List (Job α) :=
  submitted (steps.takeWhile fun a => !a.isClose)

/-- The jobs that are submitted after the executor was closed. -/
def submittedClosed (steps : List (SerialStep α)) : List (Job α) :=
  submitted (steps.dropWhile fun a => !a.isClose)

/-- A step of the worker. -/
def SerialStep.isWork : SerialStep α → Bool
  | .take | .run | .settle | .finish | .leave => true
  | _ => false

/-- The job that the worker has taken and not run. -/
def Worker.untried : Worker α → List (Job α)
  | .taken j => [j]
  | _ => []

/-- The job that the worker has run, and whose handle is open. -/
def Worker.unsettled : Worker α → List (Job α × Settlement α)
  | .ran j r => [(j, r)]
  | _ => []

/-- The job in progress, if there is one. -/
def Worker.current : Worker α → List (Job α)
  | .taken j | .ran j _ | .settled j => [j]
  | _ => []

/-- What the handle of a refused job is settled with. -/
def Job.refusal (j : Job α) : Nat × Settlement α := (j.handle, .error .canceled)

/-! ## One step -/

namespace Serial

/-- Each job is submitted with a handle of its own. -/
def Distinct (l : Log α) : Prop := ((l.accepted ++ l.refused).map Job.handle).Nodup

/-- The log and the state say the same about every job. -/
structure Kept (l : Log α) (s : Serial α) : Prop where
  distinct : Distinct l
  order : l.taken ++ s.queue = l.accepted
  tried : l.ran.map Prod.fst ++ s.worker.untried = l.taken
  ended : l.ended ++ s.worker.unsettled = l.ran.map fun r => (r.1, r.1.invoke r.2)
  finished : l.finished ++ s.worker.current = l.taken
  settled : s.settled.Perm (l.refused.map Job.refusal ++ l.ended.map fun e => (e.1.handle, e.2))
  gone : s.worker = .gone → s.queue = [] ∧ s.closed = true

lemma kept_fresh : Kept (α := α) .empty .fresh :=
  ⟨List.nodup_nil, rfl, rfl, rfl, rfl, .refl _, nofun⟩

variable {l : Log α} {s s' : Serial α} {a : SerialStep α}

/-- A job that is submitted has a new handle. It is accepted or refused. -/
lemma exists_of_submit {j : Job α} (hstep : s.step? (.submit j) = some s') :
    j.handle ∉ s.handles ∧
      (s.closed = true ∧ s' = { s with settled := j.refusal :: s.settled } ∨
        s.closed = false ∧ s' = { s with queue := s.queue ++ [j] }) := by
  simp only [step?] at hstep
  split_ifs at hstep with hnew hclosed
  · exact ⟨hnew, .inl ⟨hclosed, (Option.some.inj hstep).symm⟩⟩
  · exact ⟨hnew, .inr ⟨by simpa using hclosed, (Option.some.inj hstep).symm⟩⟩

/-- The handles of all jobs of the log have been given out. -/
lemma Kept.mem_handles (h : Kept l s) {j : Job α} (hj : j ∈ l.accepted ++ l.refused) :
    j.handle ∈ s.handles := by
  have hsettled : ∀ r, (j.handle, r) ∈ s.settled → j.handle ∈ s.handles := fun r hr =>
    List.mem_append_right _ (List.mem_map.2 ⟨_, hr, rfl⟩)
  rcases List.mem_append.1 hj with hj | hj
  · rw [← h.order, ← h.tried] at hj
    rcases List.mem_append.1 hj with hj | hj
    · rcases List.mem_append.1 hj with hj | hj
      · obtain ⟨⟨j, c⟩, hran, rfl⟩ := List.mem_map.1 hj
        have hran : (j, j.invoke c) ∈ l.ended ++ s.worker.unsettled :=
          h.ended ▸ List.mem_map.2 ⟨(j, c), hran, rfl⟩
        rcases List.mem_append.1 hran with hended | hopen
        · exact hsettled _ (h.settled.mem_iff.2 (List.mem_append_right _
            (List.mem_map.2 ⟨_, hended, rfl⟩)))
        · refine List.mem_append_left _ (List.mem_append_right _ ?_)
          cases hworker : s.worker <;> rw [hworker] at hopen <;> simp_all [Worker.unsettled,
            Worker.handles]
      · refine List.mem_append_left _ (List.mem_append_right _ ?_)
        cases hworker : s.worker <;> rw [hworker] at hj <;> simp_all [Worker.untried,
          Worker.handles]
    · exact List.mem_append_left _ (List.mem_append_left _ (List.mem_map_of_mem hj))
  · exact hsettled _ (h.settled.mem_iff.2 (List.mem_append_left _ (List.mem_map_of_mem hj)))

/-- A job with a new handle is another job than those of the log. -/
lemma Kept.nodup_cons (h : Kept l s) {j : Job α} (hnew : j.handle ∉ s.handles) :
    ((j :: (l.accepted ++ l.refused)).map Job.handle).Nodup := by
  refine List.nodup_cons.2 ⟨fun hmem => ?_, h.distinct⟩
  obtain ⟨j', hj', hhandle⟩ := List.mem_map.1 hmem
  exact hnew (hhandle ▸ h.mem_handles hj')

/-- What a step does is what is written down about it. -/
lemma Kept.step (h : Kept l s) (hstep : s.step? a = some s') : Kept (l.note s s' a) s' := by
  have hcons := fun j => h.nodup_cons (j := j)
  obtain ⟨queue, worker, closed, cancelled, settled⟩ := s
  obtain ⟨hdistinct, horder, htried, hended, hfinished, hsettled, hgone⟩ := h
  dsimp only at horder htried hended hfinished hsettled hgone
  cases a with
  | submit j =>
    obtain ⟨hnew, ⟨hclosed, rfl⟩ | ⟨hclosed, rfl⟩⟩ := exists_of_submit hstep
    · cases hclosed
      refine ⟨?_, horder, htried, hended, hfinished, ?_, hgone⟩
      · have hperm : (l.accepted ++ (l.refused ++ [j])).Perm (j :: (l.accepted ++ l.refused)) := by
          rw [← List.append_assoc]
          exact List.perm_append_singleton ..
        exact (hperm.map _).nodup_iff.2 (hcons j hnew)
      · have hmore := hsettled.cons j.refusal
        simp only [Log.note, if_true, List.map_append, List.map_cons, List.map_nil,
          List.append_assoc]
        exact hmore.trans List.perm_middle.symm
    · cases hclosed
      refine ⟨?_, ?_, htried, hended, hfinished, hsettled, fun hw => ?_⟩
      · have hperm : (l.accepted ++ [j] ++ l.refused).Perm (j :: (l.accepted ++ l.refused)) := by
          rw [List.append_assoc]
          exact List.perm_middle
        exact (hperm.map _).nodup_iff.2 (hcons j hnew)
      · exact (List.append_assoc ..).symm.trans (congrArg (· ++ [j]) horder)
      · cases (hgone hw).2
  | close =>
    cases hstep
    exact ⟨hdistinct, horder, htried, hended, hfinished, hsettled, fun hw => ⟨(hgone hw).1, rfl⟩⟩
  | cancel context =>
    cases hstep
    exact ⟨hdistinct, horder, htried, hended, hfinished, hsettled, hgone⟩
  | take =>
    cases worker <;> cases queue <;> cases hstep
    rename_i j rest
    have htaken := (List.append_nil _).symm.trans htried
    have hdone := (List.append_nil _).symm.trans hfinished
    refine ⟨hdistinct, ?_, ?_, hended, ?_, hsettled, nofun⟩
    · exact (List.append_assoc ..).trans horder
    · exact congrArg (· ++ [j]) htaken
    · exact congrArg (· ++ [j]) hdone
  | run =>
    cases worker <;> cases hstep
    rename_i j
    refine ⟨hdistinct, horder, ?_, ?_, hfinished, hsettled, nofun⟩
    · simpa [Log.note, Worker.untried] using htried
    · simpa [Log.note, Worker.unsettled] using hended
  | settle =>
    cases worker <;> cases hstep
    rename_i j r
    refine ⟨hdistinct, horder, htried, ?_, hfinished, ?_, nofun⟩
    · exact (List.append_nil _).trans hended
    · have hcons := hsettled.cons (j.handle, r)
      simp only [Log.note, List.map_append, List.map_cons, List.map_nil, ← List.append_assoc]
      exact hcons.trans (List.perm_append_singleton ..).symm
  | finish =>
    cases worker <;> cases hstep
    rename_i j
    refine ⟨hdistinct, horder, htried, hended, ?_, hsettled, nofun⟩
    exact (List.append_nil _).trans hfinished
  | leave =>
    cases worker <;> cases queue <;> cases closed <;> cases hstep
    exact ⟨hdistinct, horder, htried, hended, hfinished, hsettled, fun _ => ⟨rfl, rfl⟩⟩
  | flushed =>
    have hsame : s' = ⟨queue, worker, closed, cancelled, settled⟩ := by
      simp only [step?] at hstep
      split at hstep
      · exact (Option.some.inj hstep).symm
      · cases hstep
    subst hsame
    exact ⟨hdistinct, horder, htried, hended, hfinished, hsettled, hgone⟩

/-! ## Runs -/

/-- The first step of a run, and the rest. -/
lemma steps?_cons {steps : List (SerialStep α)} :
    s.steps? (a :: steps) = (s.step? a).bind fun t => t.steps? steps := rfl

/-- What one step keeps is kept by any number of them, by induction on the steps. -/
lemma Kept.steps (steps : List (SerialStep α)) : ∀ {l : Log α} {s s' : Serial α}, Kept l s →
    s.steps? steps = some s' → Kept (l.after s steps) s' := by
  induction steps with
  | nil =>
    intro l s s' h hrun
    cases hrun
    exact h
  | cons a steps ih =>
    intro l s s' h hrun
    obtain ⟨t, hstep, hrest⟩ := Option.bind_eq_some_iff.1 hrun
    have hlog : l.after s (a :: steps) = (l.note s t a).after t steps := by
      rw [Log.after, hstep]
    rw [hlog]
    exact ih (h.step hstep) hrest

/-- An executor is closed once a client has closed it. -/
lemma closed_step (hstep : s.step? a = some s') :
    s'.closed = true ↔ s.closed = true ∨ a = .close := by
  obtain ⟨queue, worker, closed, cancelled, settled⟩ := s
  cases a with
  | submit j =>
    obtain ⟨-, ⟨hclosed, rfl⟩ | ⟨hclosed, rfl⟩⟩ := exists_of_submit hstep
    all_goals simp
  | close | cancel =>
    cases hstep
    simp
  | take =>
    cases worker <;> cases queue <;> cases hstep
    simp
  | run | settle | finish =>
    cases worker <;> cases hstep
    simp
  | leave =>
    cases worker <;> cases queue <;> cases closed <;> cases hstep
    simp
  | flushed =>
    simp only [step?] at hstep
    split at hstep <;> cases hstep
    simp

lemma closed_steps (steps : List (SerialStep α)) : ∀ {s s' : Serial α},
    s.steps? steps = some s' → (s'.closed = true ↔ s.closed = true ∨ SerialStep.close ∈ steps) := by
  induction steps with
  | nil =>
    intro s s' hrun
    cases hrun
    simp
  | cons a steps ih =>
    intro s s' hrun
    obtain ⟨t, hstep, hrest⟩ := Option.bind_eq_some_iff.1 hrun
    rw [ih hrest, closed_step hstep, List.mem_cons, or_assoc, eq_comm (a := a)]

lemma submitted_cons {steps : List (SerialStep α)} :
    submitted (a :: steps) = a.job?.toList ++ submitted steps := by
  unfold submitted
  rw [List.filterMap_cons]
  cases a.job? <;> rfl

/-- The step that counts: a job is accepted or refused. -/
lemma submitted_note (l : Log α) (s s' : Serial α) (a : SerialStep α) :
    (l.note s s' a).accepted = l.accepted ++ (if s.closed then [] else a.job?.toList) ∧
    (l.note s s' a).refused = l.refused ++ (if s.closed then a.job?.toList else []) := by
  have hnothing : l.accepted = l.accepted ++ (if s.closed then [] else []) ∧
      l.refused = l.refused ++ (if s.closed then [] else []) := by simp
  cases a with
  | submit j =>
    simp only [Log.note]
    split_ifs <;> simp [SerialStep.job?]
  | take | run | settle | finish =>
    simp only [Log.note]
    split <;> exact hnothing
  | close | cancel | leave | flushed => exact hnothing

/-- A closed executor refuses all jobs. -/
lemma submitted_after_closed (steps : List (SerialStep α)) : ∀ {l : Log α} {s s' : Serial α},
    s.closed = true → s.steps? steps = some s' → (l.after s steps).accepted = l.accepted ∧
      (l.after s steps).refused = l.refused ++ submitted steps := by
  induction steps with
  | nil => exact fun _ _ => ⟨rfl, (List.append_nil _).symm⟩
  | cons a steps ih =>
    intro l s s' hclosed hrun
    obtain ⟨t, hstep, hrest⟩ := Option.bind_eq_some_iff.1 hrun
    have hlog : l.after s (a :: steps) = (l.note s t a).after t steps := by
      rw [Log.after, hstep]
    obtain ⟨hacc, href⟩ := submitted_note l s t a
    rw [hclosed] at hacc href
    obtain ⟨hacc', href'⟩ := ih (l := l.note s t a) ((closed_step hstep).2 (.inl hclosed)) hrest
    rw [hlog, hacc', href', hacc, href, submitted_cons, ← List.append_assoc]
    exact ⟨List.append_nil _, rfl⟩

/-- An open executor accepts jobs until it is closed, and refuses them from then on. -/
lemma submitted_after (steps : List (SerialStep α)) : ∀ {l : Log α} {s s' : Serial α},
    s.closed = false → s.steps? steps = some s' →
      (l.after s steps).accepted = l.accepted ++ submittedOpen steps ∧
      (l.after s steps).refused = l.refused ++ submittedClosed steps := by
  induction steps with
  | nil => exact fun _ _ => ⟨(List.append_nil _).symm, (List.append_nil _).symm⟩
  | cons a steps ih =>
    intro l s s' hopen hrun
    obtain ⟨t, hstep, hrest⟩ := Option.bind_eq_some_iff.1 hrun
    have hlog : l.after s (a :: steps) = (l.note s t a).after t steps := by
      rw [Log.after, hstep]
    obtain ⟨hacc, href⟩ := submitted_note l s t a
    rw [hopen] at hacc href
    rw [hlog]
    cases hclose : a.isClose with
    | true =>
      have ha : a = .close := by
        cases a <;> first | rfl | cases hclose
      subst ha
      obtain ⟨hacc', href'⟩ := submitted_after_closed (l := l.note s t .close) steps
        ((closed_step hstep).2 (.inr rfl)) hrest
      rw [hacc', href']
      exact ⟨(List.append_nil _).symm, rfl⟩
    | false =>
      have ht : t.closed = false := by
        rw [← Bool.not_eq_true, closed_step hstep, hopen]
        rintro (h | rfl)
        · cases h
        · cases hclose
      obtain ⟨hacc', href'⟩ := ih (l := l.note s t a) ht hrest
      have hfirst : submittedOpen (a :: steps) = a.job?.toList ++ submittedOpen steps := by
        rw [submittedOpen, List.takeWhile_cons, hclose]
        exact submitted_cons
      have hlast : submittedClosed (a :: steps) = submittedClosed steps := by
        rw [submittedClosed, List.dropWhile_cons, hclose]
        rfl
      rw [hacc', href', hacc, href, hfirst, hlast, ← List.append_assoc]
      exact ⟨rfl, congrArg (· ++ _) (List.append_nil _)⟩

/-! ## Coming to rest -/

/-- An idle worker deals with all waiting jobs, by induction on the queue. -/
lemma exists_rest_of_idle (queue : List (Job α)) : ∀ (closed : Bool) (cancelled : List Nat)
    (settled : Settled α), ∃ steps t, (∀ a ∈ steps, a.isWork = true) ∧
      steps? ⟨queue, .idle, closed, cancelled, settled⟩ steps = some t ∧ t.isQuiet = true := by
  induction queue with
  | nil => exact fun closed cancelled settled => ⟨[], _, nofun, rfl, rfl⟩
  | cons j queue ih =>
    intro closed cancelled settled
    obtain ⟨steps, t, hwork, hrun, ht⟩ :=
      ih closed cancelled ((j.handle, j.invoke cancelled) :: settled)
    refine ⟨.take :: .run :: .settle :: .finish :: steps, t, ?_, hrun, ht⟩
    simpa [SerialStep.isWork] using hwork

/-- However its jobs end, the worker comes to rest by steps of its own. -/
lemma Kept.exists_rest (h : Kept l s) : ∃ steps t, (∀ a ∈ steps, a.isWork = true) ∧
    s.steps? steps = some t ∧ t.isQuiet = true := by
  obtain ⟨queue, worker, closed, cancelled, settled⟩ := s
  cases worker with
  | idle => exact exists_rest_of_idle queue closed cancelled settled
  | taken j =>
    obtain ⟨steps, t, hwork, hrun, ht⟩ := exists_rest_of_idle queue closed cancelled
      ((j.handle, j.invoke cancelled) :: settled)
    exact ⟨.run :: .settle :: .finish :: steps, t, by simpa [SerialStep.isWork] using hwork,
      hrun, ht⟩
  | ran j r =>
    obtain ⟨steps, t, hwork, hrun, ht⟩ := exists_rest_of_idle queue closed cancelled
      ((j.handle, r) :: settled)
    exact ⟨.settle :: .finish :: steps, t, by simpa [SerialStep.isWork] using hwork, hrun, ht⟩
  | settled j =>
    obtain ⟨steps, t, hwork, hrun, ht⟩ := exists_rest_of_idle queue closed cancelled settled
    exact ⟨.finish :: steps, t, by simpa [SerialStep.isWork] using hwork, hrun, ht⟩
  | gone =>
    obtain ⟨hqueue, -⟩ := h.gone rfl
    dsimp only at hqueue
    subst hqueue
    exact ⟨[], _, nofun, rfl, rfl⟩

/-! ## What clients can rely on -/

/-- The handle of the job is settled with the result of running it. -/
def Settles (l : Log α) (s : Serial α) (j : Job α) : Prop :=
  ∃ c, (j, c) ∈ l.ran ∧ (j.handle, j.invoke c) ∈ s.settled

/-- The jobs whose work has been done: that of a job whose context is cancelled is not. -/
def started (l : Log α) : List (Job α) := (l.ran.filter fun r => r.1.context ∉ r.2).map Prod.fst

/-- The jobs that have been run are those accepted first. -/
lemma Kept.ran_prefix (h : Kept l s) : l.ran.map Prod.fst <+: l.accepted :=
  (show l.ran.map Prod.fst <+: l.taken from ⟨_, h.tried⟩).trans ⟨_, h.order⟩

lemma Kept.ended_prefix (h : Kept l s) : l.ended.map Prod.fst <+: l.ran.map Prod.fst := by
  have hended := congrArg (List.map Prod.fst) h.ended
  rw [List.map_append, List.map_map] at hended
  exact ⟨_, hended⟩

/-- A quiet executor has settled the handles of all jobs that it has accepted. -/
lemma Kept.settles_of_isQuiet (h : Kept l s) (hquiet : s.isQuiet = true) :
    ∀ j ∈ l.accepted, Settles l s j := by
  obtain ⟨queue, worker, closed, cancelled, settled⟩ := s
  obtain ⟨hqueue, hworker⟩ := Bool.and_eq_true_iff.1 hquiet
  have hnothing : worker.untried = [] ∧ worker.unsettled = [] := by
    cases worker <;> cases hworker <;> exact ⟨rfl, rfl⟩
  have haccepted : l.ran.map Prod.fst = l.accepted := by
    have htried := h.tried
    have horder := h.order
    rw [hnothing.1, List.append_nil] at htried
    rw [List.isEmpty_iff.1 hqueue, List.append_nil] at horder
    rw [htried, horder]
  have hended : l.ended = l.ran.map fun r => (r.1, r.1.invoke r.2) := by
    have hended := h.ended
    rwa [hnothing.2, List.append_nil] at hended
  intro j hj
  rw [← haccepted] at hj
  obtain ⟨⟨j, c⟩, hran, rfl⟩ := List.mem_map.1 hj
  refine ⟨c, hran, h.settled.mem_iff.2 (List.mem_append_right _
    (List.mem_map.2 ⟨(j, j.invoke c), ?_, rfl⟩))⟩
  rw [hended]
  exact List.mem_map.2 ⟨_, hran, rfl⟩

/-- The worker accepts no jobs. -/
lemma accepted_after_work (steps : List (SerialStep α)) : ∀ {l : Log α} {s s' : Serial α},
    (∀ a ∈ steps, a.isWork = true) → s.steps? steps = some s' →
      (l.after s steps).accepted = l.accepted := by
  induction steps with
  | nil => exact fun _ _ => rfl
  | cons a steps ih =>
    intro l s s' hwork hrun
    obtain ⟨ha, hsteps⟩ := List.forall_mem_cons.1 hwork
    obtain ⟨t, hstep, hrest⟩ := Option.bind_eq_some_iff.1 hrun
    have hnote : (l.note s t a).accepted = l.accepted := by
      cases a <;> cases ha <;> simp only [Log.note] <;> split <;> rfl
    rw [Log.after, hstep]
    exact (ih hsteps hrest).trans hnote

/-- No handle is settled twice. -/
lemma Kept.nodup_settled (h : Kept l s) : (s.settled.map Prod.fst).Nodup := by
  have hended : (l.ended.map fun e => e.1.handle).Sublist (l.accepted.map Job.handle) := by
    have hsub := (h.ended_prefix.trans h.ran_prefix).sublist.map Job.handle
    rwa [List.map_map] at hsub
  have hnodup : (l.refused.map Job.handle ++ l.accepted.map Job.handle).Nodup := by
    rw [← List.map_append]
    exact (List.perm_append_comm.map _).nodup_iff.1 h.distinct
  have hsettled := h.settled.map Prod.fst
  rw [List.map_append, List.map_map, List.map_map] at hsettled
  exact hsettled.nodup_iff.2 (hnodup.sublist ((List.Sublist.refl _).append hended))

lemma Distinct.accepted (h : Distinct l) : (l.accepted.map Job.handle).Nodup :=
  h.sublist ((List.sublist_append_left ..).map _)

/-- A job that was accepted and one that was refused have different handles. -/
lemma Distinct.ne (h : Distinct l) {j j' : Job α} (hj : j ∈ l.accepted) (hj' : j' ∈ l.refused) :
    j.handle ≠ j'.handle := by
  unfold Distinct at h
  rw [List.map_append, List.nodup_append] at h
  exact h.2.2 _ (List.mem_map_of_mem hj) _ (List.mem_map_of_mem hj')

/-- A job is run once: its handle tells which entry of the log is about it. -/
lemma Kept.ran_inj (h : Kept l s) {e e' : Job α × List Nat} (he : e ∈ l.ran)
    (he' : e' ∈ l.ran) (hhandle : e.1.handle = e'.1.handle) : e = e' := by
  have hnodup : (l.ran.map fun r => r.1.handle).Nodup := by
    have hsub := h.ran_prefix.sublist.map Job.handle
    rw [List.map_map] at hsub
    exact h.distinct.accepted.sublist hsub
  exact List.inj_on_of_nodup_map hnodup he he' hhandle

/-- The handle of a job that was run is settled with the result of that. -/
lemma Kept.eq_invoke (h : Kept l s) {j : Job α} {c : List Nat}
    (hran : (j, c) ∈ l.ran) {r : Settlement α} (hr : (j.handle, r) ∈ s.settled) :
    r = j.invoke c := by
  have haccepted : j ∈ l.accepted := h.ran_prefix.subset (List.mem_map_of_mem hran)
  rcases List.mem_append.1 (h.settled.mem_iff.1 hr) with hr | hr
  · obtain ⟨j', hj', heq⟩ := List.mem_map.1 hr
    exact absurd (congrArg Prod.fst heq).symm (h.distinct.ne haccepted hj')
  · obtain ⟨⟨j', r'⟩, hended, heq⟩ := List.mem_map.1 hr
    obtain ⟨hhandle, rfl⟩ := Prod.mk.inj heq
    have hmem : (j', r') ∈ l.ran.map fun r => (r.1, r.1.invoke r.2) :=
      h.ended ▸ List.mem_append_left _ hended
    obtain ⟨⟨j'', c'⟩, hran', heq'⟩ := List.mem_map.1 hmem
    obtain ⟨rfl, rfl⟩ := Prod.mk.inj heq'
    obtain ⟨rfl, rfl⟩ := Prod.mk.inj (h.ran_inj hran hran' hhandle.symm)
    rfl

/-- What clients can rely on, when the steps of a fresh executor have led to a state. -/
structure Orderly (steps : List (SerialStep α)) (l : Log α) (s : Serial α) : Prop where
  /-- Jobs are accepted until the executor is closed, and refused from then on. -/
  submitted : l.accepted = submittedOpen steps ∧ l.refused = submittedClosed steps
  /-- No handle is settled twice. -/
  once : (s.settled.map Prod.fst).Nodup
  /-- Jobs are taken in the order in which they were accepted, each at most once. -/
  inOrder : l.taken ++ s.queue = l.accepted
  /-- At most one job is in progress: taken, and not finished. -/
  alone : ∃ current, current.length ≤ 1 ∧ l.taken = l.finished ++ current
  /-- The worker leaves after the executor was closed, when all accepted jobs have been run and
  their handles are settled. -/
  leaves : s.worker = .gone → SerialStep.close ∈ steps ∧ ∀ j ∈ l.accepted, Settles l s j
  /-- The handle of a job that is refused is settled at once, and its work is never done. -/
  refused : ∀ j ∈ l.refused,
    (j.handle, .error .canceled) ∈ s.settled ∧ j.handle ∉ (started l).map Job.handle
  /-- The work of a job whose context was cancelled before it started is never done, and its handle
  is settled with the error of the context. -/
  cancelled : ∀ j c, (j, c) ∈ l.ran → j.context ∈ c →
    j.handle ∉ (started l).map Job.handle ∧
      ∀ r, (j.handle, r) ∈ s.settled → r = .error .canceled
  /-- The handle of a job that broke down is settled with an error. -/
  crashed : ∀ j text, j ∈ started l → j.work.get = .crashed text →
    ∀ r, (j.handle, r) ∈ s.settled → r = .error (.crashed text)
  /-- However the jobs end, the worker can go on until all accepted jobs have been run. -/
  goesOn : ∃ more t, (∀ a ∈ more, a.isWork = true) ∧ s.steps? more = some t ∧
    ∀ j ∈ l.accepted, Settles (l.after s more) t j
  /-- When a flush returns, the handles of all jobs accepted so far are settled. -/
  flushed : (s.step? .flushed).isSome → ∀ j ∈ l.accepted, Settles l s j

/-- Whatever the order in which clients and the worker take their steps, jobs are dealt with one
after the other, in the order of their submission. -/
theorem orderly_run {steps : List (SerialStep α)} {s : Serial α}
    (hrun : fresh.steps? steps = some s) : Orderly steps (log steps) s := by
  have h : Kept (log steps) s := kept_fresh.steps steps hrun
  have hsubmitted : (log steps).accepted = submittedOpen steps ∧
      (log steps).refused = submittedClosed steps := submitted_after steps rfl hrun
  have hclosed : s.closed = true ↔ SerialStep.close ∈ steps := by
    rw [closed_steps steps hrun]
    simp [fresh]
  generalize log steps = l at h hsubmitted ⊢
  -- a job has been started if it has been run while its context was not cancelled
  have hstarted : ∀ {j}, j ∈ started l → ∃ c, (j, c) ∈ l.ran ∧ j.context ∉ c := by
    intro j hj
    obtain ⟨⟨j, c⟩, hmem, rfl⟩ := List.mem_map.1 hj
    obtain ⟨hran, hc⟩ := List.mem_filter.1 hmem
    exact ⟨c, hran, of_decide_eq_true hc⟩
  exact
    { submitted := hsubmitted
      once := h.nodup_settled
      inOrder := h.order
      alone := ⟨s.worker.current, by cases s.worker <;> simp [Worker.current], h.finished.symm⟩
      leaves := by
        intro hgone
        obtain ⟨hqueue, hc⟩ := h.gone hgone
        exact ⟨hclosed.1 hc, h.settles_of_isQuiet (by simp [isQuiet, hqueue, hgone])⟩
      refused := by
        intro j hj
        refine ⟨h.settled.mem_iff.2 (List.mem_append_left _ (List.mem_map_of_mem hj)),
          fun hmem => ?_⟩
        obtain ⟨j', hj', hhandle⟩ := List.mem_map.1 hmem
        obtain ⟨c, hran, -⟩ := hstarted hj'
        exact h.distinct.ne (h.ran_prefix.subset (List.mem_map_of_mem hran)) hj hhandle
      cancelled := by
        intro j c hran hc
        refine ⟨fun hmem => ?_, fun r hr => ?_⟩
        · obtain ⟨j', hj', hhandle⟩ := List.mem_map.1 hmem
          obtain ⟨c', hran', hc'⟩ := hstarted hj'
          obtain ⟨rfl, rfl⟩ := Prod.mk.inj (h.ran_inj hran' hran hhandle)
          exact hc' hc
        · rw [h.eq_invoke hran hr, Job.invoke, if_pos hc]
      crashed := by
        intro j text hj hwork r hr
        obtain ⟨c, hran, hc⟩ := hstarted hj
        rw [h.eq_invoke hran hr, Job.invoke, if_neg hc, hwork]
        rfl
      goesOn := by
        obtain ⟨more, t, hwork, hmore, ht⟩ := h.exists_rest
        refine ⟨more, t, hwork, hmore, ?_⟩
        rw [← accepted_after_work more hwork hmore]
        exact (h.steps more hmore).settles_of_isQuiet ht
      flushed := by
        intro hflushed
        refine h.settles_of_isQuiet ?_
        by_contra hquiet
        rw [step?, if_neg hquiet] at hflushed
        cases hflushed }

/-- Three jobs, of which the second one breaks down and the third one's context is cancelled, and
one that comes too late. -/
def demonstration : List (SerialStep Nat) :=
  [.submit ⟨0, 0, Thunk.pure (.returned 7)⟩, .submit ⟨1, 1, Thunk.pure (.crashed "kaboom")⟩,
    .take, .submit ⟨2, 2, Thunk.pure (.returned 8)⟩, .run, .cancel 2, .settle, .close, .finish,
    .submit ⟨3, 3, Thunk.pure (.returned 9)⟩] ++ round ++ round ++ [.flushed, .leave]

theorem orderly_demonstration : ∃ s, fresh.steps? demonstration = some s ∧
    Orderly demonstration (log demonstration) s ∧ s.worker = .gone ∧
    s.settled = [(2, .error .canceled), (1, .error (.crashed "kaboom")), (3, .error .canceled),
      (0, .ok 7)] :=
  ⟨_, rfl, orderly_run rfl, rfl, rfl⟩

end Serial

end Clearance.Jobs
