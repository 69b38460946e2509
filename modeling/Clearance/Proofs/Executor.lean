/-
# Executors under any schedule

A serial executor and a pool take different steps, but a client sees the same of both: jobs that are
submitted, contexts that are cancelled, handles that are settled. Here the steps of either are the
steps of an executor, and what the runs of both have in common is shown once: a settled handle shows
what its own job came to, or that the job was cancelled or refused (`Executor.Fair.settled`), a
settled handle stays as it is (`Executor.settled_suffix`), and the workers come to rest after a
bounded number of steps of their own (`Executor.length_le_toGo`, `Executor.exists_rest`), when all
handles are settled (`Executor.Fair.rest`). Submitting jobs in turn and waiting for all of them is
one such run (`Executor.Waits.submits`, `Executor.Waits.drain`).
-/
import Clearance.Jobs.Executor
import Clearance.Proofs.Pool
import Clearance.Proofs.Serial
import Mathlib.Algebra.BigOperators.Group.List.Basic
import Mathlib.Algebra.GroupWithZero.Nat
import Mathlib.Data.List.TakeWhile

namespace Clearance.Jobs

variable {α : Type}

/-! ## Steps -/

/-- A step of an executor. -/
inductive ExecutorStep (α : Type) where
  | serial (a : SerialStep α)
  | pool (a : PoolStep α)

namespace ExecutorStep

/-- The job that a client submits with a step. -/
def job? : ExecutorStep α → Option (Job α)
  | .serial a => a.job?
  | .pool a => a.job?

/-- The context that a client cancels with a step. -/
def cancelled? : ExecutorStep α → Option Nat
  | .serial (.cancel context) | .pool (.cancel context) => some context
  | _ => none

/-- The step closes the executor. -/
def isClose : ExecutorStep α → Bool
  | .serial a => a.isClose
  | .pool _ => false

/-- A step of a worker. -/
def isWork : ExecutorStep α → Bool
  | .serial a => a.isWork
  | .pool a => a.move?.isSome

/-- Workers submit nothing, cancel nothing and close nothing. -/
lemma of_isWork {a : ExecutorStep α} (h : a.isWork = true) :
    a.job? = none ∧ a.cancelled? = none ∧ a.isClose = false := by
  rcases a with a | a <;> cases a <;> first | exact ⟨rfl, rfl, rfl⟩ | cases h

end ExecutorStep

/-- The jobs that clients submit, in order. -/
def jobsOf (steps : List (ExecutorStep α)) : List (Job α) := steps.filterMap ExecutorStep.job?

/-- The contexts that clients cancel. -/
def cancelledBy (steps : List (ExecutorStep α)) : List Nat :=
  steps.filterMap ExecutorStep.cancelled?

/-- The jobs that are submitted after the executor was closed. -/
def refusedIn (steps : List (ExecutorStep α)) : List (Job α) :=
  jobsOf (steps.dropWhile fun a => !a.isClose)

namespace Executor

/-- The state after a step, if the step is possible. -/
def step? : Executor α → ExecutorStep α → Option (Executor α)
  | .serial s, .serial a => (s.step? a).map .serial
  | .pool p, .pool a => (p.step? a).map .pool
  | _, _ => none

/-- The state after several steps, if all are possible in turn. -/
def steps? (e : Executor α) (steps : List (ExecutorStep α)) : Option (Executor α) :=
  steps.foldlM step? e

/-- An executor to which nothing has happened. -/
inductive IsFresh : Executor α → Prop
  | serial : IsFresh (.serial .fresh)
  | pool (limit : Nat) : IsFresh (.pool (.fresh limit))

/-- No worker can go on. -/
def AtRest (e : Executor α) : Prop := ∀ a : ExecutorStep α, a.isWork = true → e.step? a = none

variable {e e' : Executor α} {a : ExecutorStep α}

lemma steps?_cons {steps : List (ExecutorStep α)} :
    e.steps? (a :: steps) = (e.step? a).bind fun t => t.steps? steps := rfl

lemma steps?_append {steps more : List (ExecutorStep α)} :
    e.steps? (steps ++ more) = (e.steps? steps).bind fun t => t.steps? more := by
  unfold steps?
  rw [List.foldlM_append]
  rfl

lemma steps?_serial (as : List (SerialStep α)) : ∀ {s : Serial α},
    (Executor.serial s).steps? (as.map .serial) = (s.steps? as).map .serial := by
  induction as with
  | nil => exact rfl
  | cons a as ih =>
    intro s
    rw [List.map_cons, steps?_cons, step?, Option.bind_map, Serial.steps?_cons, Option.map_bind]
    exact congrArg _ (funext fun s => ih)

lemma steps?_pool (as : List (PoolStep α)) : ∀ {p : Pool α},
    (Executor.pool p).steps? (as.map .pool) = (p.steps? as).map .pool := by
  induction as with
  | nil => exact rfl
  | cons a as ih =>
    intro p
    have hcons : p.steps? (a :: as) = (p.step? a).bind fun t => t.steps? as := rfl
    rw [List.map_cons, steps?_cons, step?, Option.bind_map, hcons, Option.map_bind]
    exact congrArg _ (funext fun p => ih)

/-- A run of a serial executor consists of its own steps. -/
lemma exists_of_serial (steps : List (ExecutorStep α)) : ∀ {s : Serial α} {e : Executor α},
    (Executor.serial s).steps? steps = some e →
      ∃ as s', steps = as.map .serial ∧ s.steps? as = some s' ∧ e = .serial s' := by
  induction steps with
  | nil =>
    intro s e hrun
    cases hrun
    exact ⟨[], s, rfl, rfl, rfl⟩
  | cons a steps ih =>
    intro s e hrun
    obtain ⟨t, hstep, hrest⟩ := Option.bind_eq_some_iff.1 hrun
    cases a with
    | pool a => cases hstep
    | serial a =>
      obtain ⟨s₁, hs₁, rfl⟩ := Option.map_eq_some_iff.1 hstep
      obtain ⟨as, s', rfl, has, rfl⟩ := ih hrest
      exact ⟨a :: as, s', rfl, Option.bind_eq_some_iff.2 ⟨s₁, hs₁, has⟩, rfl⟩

/-- A run of a pool consists of its own steps. -/
lemma exists_of_pool (steps : List (ExecutorStep α)) : ∀ {p : Pool α} {e : Executor α},
    (Executor.pool p).steps? steps = some e →
      ∃ as p', steps = as.map .pool ∧ p.steps? as = some p' ∧ e = .pool p' := by
  induction steps with
  | nil =>
    intro p e hrun
    cases hrun
    exact ⟨[], p, rfl, rfl, rfl⟩
  | cons a steps ih =>
    intro p e hrun
    obtain ⟨t, hstep, hrest⟩ := Option.bind_eq_some_iff.1 hrun
    cases a with
    | serial a => cases hstep
    | pool a =>
      obtain ⟨p₁, hp₁, rfl⟩ := Option.map_eq_some_iff.1 hstep
      obtain ⟨as, p', rfl, has, rfl⟩ := ih hrest
      exact ⟨a :: as, p', rfl, Option.bind_eq_some_iff.2 ⟨p₁, hp₁, has⟩, rfl⟩

end Executor

/-! ## What the runs of a serial executor show -/

/-- How many steps the worker has to go until it has left, the waiting jobs left aside. -/
def Worker.toGo : Worker α → Nat
  | .taken _ => 4
  | .ran .. => 3
  | .settled _ => 2
  | .idle => 1
  | .gone => 0

namespace Serial

variable {l : Log α} {s s' : Serial α} {a : SerialStep α} {contexts : List Nat}

/-- No context counts as cancelled, now or when a job was run, but the given ones. -/
structure Timely (contexts : List Nat) (l : Log α) (s : Serial α) : Prop where
  now : s.cancelled ⊆ contexts
  ran : ∀ r ∈ l.ran, r.2 ⊆ contexts

lemma Timely.step (h : Timely contexts l s) (hstep : s.step? a = some s')
    (ha : ∀ context, a = .cancel context → context ∈ contexts) :
    Timely contexts (l.note s s' a) s' := by
  obtain ⟨queue, worker, closed, cancelled, settled⟩ := s
  obtain ⟨hnow, hran⟩ := h
  cases a with
  | submit j =>
    obtain ⟨-, ⟨hclosed, rfl⟩ | ⟨hclosed, rfl⟩⟩ := exists_of_submit hstep
    all_goals
      cases hclosed
      exact ⟨hnow, hran⟩
  | close =>
    cases hstep
    exact ⟨hnow, hran⟩
  | cancel context =>
    cases hstep
    exact ⟨List.cons_subset.2 ⟨ha context rfl, hnow⟩, hran⟩
  | take =>
    cases worker <;> cases queue <;> cases hstep
    exact ⟨hnow, hran⟩
  | run =>
    cases worker <;> cases hstep
    rename_i j
    refine ⟨hnow, fun r hr => ?_⟩
    rcases List.mem_append.1 hr with hr | hr
    · exact hran r hr
    · rw [List.mem_singleton.1 hr]
      exact hnow
  | settle | finish =>
    cases worker <;> cases hstep
    exact ⟨hnow, hran⟩
  | leave =>
    cases worker <;> cases queue <;> cases closed <;> cases hstep
    exact ⟨hnow, hran⟩
  | flushed =>
    simp only [step?] at hstep
    split at hstep <;> cases hstep
    exact ⟨hnow, hran⟩

lemma Timely.steps (steps : List (SerialStep α)) : ∀ {l : Log α} {s s' : Serial α},
    Timely contexts l s → s.steps? steps = some s' →
      (∀ context, SerialStep.cancel context ∈ steps → context ∈ contexts) →
      Timely contexts (l.after s steps) s' := by
  induction steps with
  | nil =>
    intro l s s' h hrun _
    cases hrun
    exact h
  | cons a steps ih =>
    intro l s s' h hrun hcancel
    obtain ⟨t, hstep, hrest⟩ := Option.bind_eq_some_iff.1 hrun
    rw [Log.after, hstep]
    refine ih (h.step hstep ?_) hrest fun c hc => hcancel c (List.mem_cons_of_mem _ hc)
    rintro context rfl
    exact hcancel context List.mem_cons_self

/-- What a handle is settled with: the result of the job that was run, or the error of a context
that was cancelled, if the job was refused. -/
lemma Kept.settled_cases (h : Kept l s) (ht : Timely contexts l s) {handle : Nat}
    {r : Settlement α} (hr : (handle, r) ∈ s.settled) :
    (∃ j ∈ l.refused, j.handle = handle ∧ r = .error .canceled) ∨
    ∃ j ∈ l.accepted, j.handle = handle ∧
      (j.context ∈ contexts ∧ r = .error .canceled ∨ r = j.work.get.settlement) := by
  rcases List.mem_append.1 (h.settled.mem_iff.1 hr) with hr | hr
  · obtain ⟨j, hj, heq⟩ := List.mem_map.1 hr
    cases heq
    exact .inl ⟨j, hj, rfl, rfl⟩
  · obtain ⟨⟨j, r⟩, hended, heq⟩ := List.mem_map.1 hr
    cases heq
    have hmem : (j, r) ∈ l.ran.map fun r => (r.1, r.1.invoke r.2) :=
      h.ended ▸ List.mem_append_left _ hended
    obtain ⟨⟨j, c⟩, hran, heq⟩ := List.mem_map.1 hmem
    cases heq
    refine .inr ⟨j, h.ran_prefix.subset (List.mem_map_of_mem hran), rfl, ?_⟩
    unfold Job.invoke
    split_ifs with hc
    · exact .inl ⟨ht.ran _ hran hc, rfl⟩
    · exact .inr rfl

/-- How many steps the worker has to go at most, if no more jobs are submitted. -/
def toGo (s : Serial α) : Nat := 4 * s.queue.length + s.worker.toGo

lemma toGo_step (hstep : s.step? a = some s') (ha : a.isWork = true) : s'.toGo < s.toGo := by
  obtain ⟨queue, worker, closed, cancelled, settled⟩ := s
  cases a <;> cases ha
  case take =>
    cases worker <;> cases queue <;> cases hstep
    simp only [toGo, Worker.toGo, List.length_cons]
    omega
  case leave =>
    cases worker <;> cases queue <;> cases closed <;> cases hstep
    simp [toGo, Worker.toGo]
  all_goals
    cases worker <;> cases hstep
    simp [toGo, Worker.toGo]

/-- A worker that cannot go on has nothing to do. -/
lemma Kept.isQuiet_of_rest (h : Kept l s) (hrest : ∀ a, a.isWork = true → s.step? a = none) :
    s.isQuiet = true := by
  obtain ⟨queue, worker, closed, cancelled, settled⟩ := s
  cases worker with
  | idle =>
    cases queue with
    | nil => rfl
    | cons j queue => cases hrest .take rfl
  | taken j => cases hrest .run rfl
  | ran j r => cases hrest .settle rfl
  | settled j => cases hrest .finish rfl
  | gone =>
    obtain ⟨hqueue, -⟩ := h.gone rfl
    dsimp only at hqueue
    subst hqueue
    rfl

/-- A step settles at most one handle more. -/
lemma settled_suffix_step (hstep : s.step? a = some s') : s.settled <:+ s'.settled := by
  obtain ⟨queue, worker, closed, cancelled, settled⟩ := s
  cases a with
  | submit j =>
    obtain ⟨-, ⟨-, rfl⟩ | ⟨-, rfl⟩⟩ := exists_of_submit hstep
    · exact List.suffix_cons ..
    · exact List.suffix_rfl
  | close | cancel =>
    cases hstep
    exact List.suffix_rfl
  | take =>
    cases worker <;> cases queue <;> cases hstep
    exact List.suffix_rfl
  | run | finish =>
    cases worker <;> cases hstep
    exact List.suffix_rfl
  | settle =>
    cases worker <;> cases hstep
    exact List.suffix_cons ..
  | leave =>
    cases worker <;> cases queue <;> cases closed <;> cases hstep
    exact List.suffix_rfl
  | flushed =>
    simp only [step?] at hstep
    split at hstep <;> cases hstep
    exact List.suffix_rfl

end Serial

/-! ## What the runs of a pool show -/

/-- How many steps a worker has to go at most. -/
def Phase.toGo : Phase α → Nat
  | .waiting => 5
  | .entered => 4
  | .ran _ => 3
  | .settled => 2
  | .released => 1
  | .gone => 0

namespace Pool

variable {limit : Nat} {steps : List (PoolStep α)} {p p' : Pool α} {a : PoolStep α}

/-- Nothing but a client's cancelling makes a context count as cancelled. -/
lemma cancelled_step (hstep : p.step? a = some p') {contexts : List Nat}
    (h : p.cancelled ⊆ contexts) (ha : ∀ context, a = .cancel context → context ∈ contexts) :
    p'.cancelled ⊆ contexts := by
  rcases exists_of_step? hstep with ⟨j, rfl, rfl⟩ | ⟨context, rfl, rfl⟩ | ⟨rfl, rfl⟩ |
    ⟨i, j, phase, m, phase', r, -, -, -, rfl⟩
  · exact h
  · exact List.cons_subset.2 ⟨ha context rfl, h⟩
  · exact h
  · exact h

lemma cancelled_steps (steps : List (PoolStep α)) {contexts : List Nat} : ∀ {p p' : Pool α},
    p.steps? steps = some p' → p.cancelled ⊆ contexts →
      (∀ context, PoolStep.cancel context ∈ steps → context ∈ contexts) →
      p'.cancelled ⊆ contexts := by
  induction steps with
  | nil =>
    intro p p' hrun h _
    cases hrun
    exact h
  | cons a steps ih =>
    intro p p' hrun h hcancel
    obtain ⟨t, hstep, hrest⟩ := Option.bind_eq_some_iff.1 hrun
    refine ih hrest (cancelled_step hstep h ?_) fun c hc => hcancel c (List.mem_cons_of_mem _ hc)
    rintro context rfl
    exact hcancel context List.mem_cons_self

/-- What a handle is settled with: the result of its own job. -/
lemma Kept.settled_cases (h : Kept limit steps p) {handle : Nat} {r : Settlement α}
    (hr : (handle, r) ∈ p.settled) : ∃ j ∈ steps.filterMap PoolStep.job?, j.handle = handle ∧
      (j.context ∈ p.cancelled ∧ r = .error .canceled ∨ r = j.work.get.settlement) := by
  obtain ⟨i, j, phase, hi, hhandle, hresult⟩ := h.results handle r hr
  refine ⟨j, ?_, hhandle, ?_⟩
  · rw [← h.jobs]
    exact List.mem_map_of_mem (List.mem_of_getElem? hi)
  · rcases hresult with ⟨-, hc, hcancelled⟩ | ⟨-, hown⟩
    · exact .inl ⟨hc, hcancelled⟩
    · exact hown

/-- How many steps the workers have to go at most, if no more jobs are submitted. -/
def toGo (p : Pool α) : Nat := (p.workers.map fun w => w.2.toGo).sum

lemma toGo_step (hstep : p.step? a = some p') (ha : a.move?.isSome = true) : p'.toGo < p.toGo := by
  rcases exists_of_step? hstep with ⟨j, rfl, rfl⟩ | ⟨context, rfl, rfl⟩ | ⟨rfl, rfl⟩ |
    ⟨i, j, phase, m, phase', r, -, hi, hgoes, rfl⟩
  · cases ha
  · cases ha
  · cases ha
  · obtain ⟨rest, hbefore, hafter⟩ := exists_rest hi
    have hbefore := (hbefore.map fun w => w.2.toGo).sum_eq
    have hafter := ((hafter phase').map fun w => w.2.toGo).sum_eq
    have hless : phase'.toGo < phase.toGo := by
      cases hgoes <;> simp [Phase.toGo]
    unfold toGo moved
    dsimp only
    rw [hbefore, hafter]
    simpa using hless

/-- Workers that cannot go on have left. -/
lemma left_of_rest (hrest : ∀ a : PoolStep α, a.move?.isSome = true → p.step? a = none) :
    p.left = 0 := by
  by_contra hleft
  obtain ⟨i, j, phase, hi, hphase, hslot⟩ := exists_busy (p := p) (Nat.pos_of_ne_zero hleft)
  have hgo : ∃ m phase' r, phase.Goes p j m phase' r := by
    cases phase with
    | waiting => exact ⟨_, _, _, .enter (hslot rfl)⟩
    | entered => exact ⟨_, _, _, .run⟩
    | ran r => exact ⟨_, _, _, .settle r⟩
    | settled => exact ⟨_, _, _, .release⟩
    | released => exact ⟨_, _, _, .leave⟩
    | gone => cases hphase
  obtain ⟨m, phase', r, hgoes⟩ := hgo
  have hnone := hrest (m.step i) (by cases m <;> rfl)
  rw [step_of_goes hi hgoes] at hnone
  cases hnone

/-- A step settles at most one handle more. -/
lemma settled_suffix_step (hstep : p.step? a = some p') : p.settled <:+ p'.settled := by
  rcases exists_of_step? hstep with ⟨j, rfl, rfl⟩ | ⟨context, rfl, rfl⟩ | ⟨rfl, rfl⟩ |
    ⟨i, j, phase, m, phase', r, -, -, -, rfl⟩
  · exact List.suffix_rfl
  · exact List.suffix_rfl
  · exact List.suffix_rfl
  · exact List.suffix_append ..

end Pool

/-! ## What the runs of both show -/

/-- What stands under a key of a list without repeated keys. -/
lemma lookup_of_mem {r : Settlement α} {handle : Nat} {settled : Settled α}
    (hnodup : (settled.map Prod.fst).Nodup) (hr : (handle, r) ∈ settled) :
    settled.lookup handle = some r := by
  obtain ⟨before, after, rfl⟩ := List.append_of_mem hr
  refine List.lookup_eq_some_iff.2 ⟨before, after, rfl, fun q hq => ?_⟩
  rw [List.map_append, List.nodup_append] at hnodup
  have hne := hnodup.2.2 q.1 (List.mem_map_of_mem hq) handle (by simp)
  simpa using Ne.symm hne

lemma mem_of_lookup {r : Settlement α} {handle : Nat} {settled : Settled α}
    (hr : settled.lookup handle = some r) : (handle, r) ∈ settled := by
  obtain ⟨before, after, rfl, -⟩ := List.lookup_eq_some_iff.1 hr
  simp

namespace Executor

variable {e e' : Executor α} {a : ExecutorStep α} {steps : List (ExecutorStep α)}

/-- What the steps of a run tell about the executor that they have led to. -/
structure Fair (steps : List (ExecutorStep α)) (e : Executor α) : Prop where
  /-- No handle is settled twice. -/
  once : (e.settled.map Prod.fst).Nodup
  /-- A handle is settled with what its own job comes to, unless the context of the job is cancelled
  or the executor has refused it. -/
  settled : ∀ handle r, (handle, r) ∈ e.settled → ∃ j ∈ jobsOf steps, j.handle = handle ∧
    (r = j.work.get.settlement ∨
      r = .error .canceled ∧ (j.context ∈ cancelledBy steps ∨ j ∈ refusedIn steps))
  /-- When the workers are at rest, all handles are settled. -/
  rest : e.AtRest → ∀ j ∈ jobsOf steps, j.handle ∈ e.settled.map Prod.fst

lemma jobsOf_serial (as : List (SerialStep α)) : jobsOf (as.map .serial) = submitted as :=
  List.filterMap_map

lemma jobsOf_pool (as : List (PoolStep α)) :
    jobsOf (as.map .pool) = as.filterMap PoolStep.job? :=
  List.filterMap_map

lemma refusedIn_serial (as : List (SerialStep α)) :
    refusedIn (as.map .serial) = submittedClosed as := by
  rw [refusedIn, List.dropWhile_map, jobsOf_serial]
  rfl

lemma mem_cancelledBy {context : Nat} (ha : a ∈ steps) (hcancel : a.cancelled? = some context) :
    context ∈ cancelledBy steps :=
  List.mem_filterMap.2 ⟨a, ha, hcancel⟩

lemma fair_serial {as : List (SerialStep α)} {s : Serial α}
    (hrun : Serial.fresh.steps? as = some s) : Fair (as.map .serial) (.serial s) := by
  have hkept : Serial.Kept (Serial.log as) s := Serial.kept_fresh.steps as hrun
  have htimely : Serial.Timely (cancelledBy (as.map .serial)) (Serial.log as) s := by
    refine Serial.Timely.steps as ⟨List.nil_subset _, nofun⟩ hrun fun context hc => ?_
    exact mem_cancelledBy (List.mem_map_of_mem hc) rfl
  obtain ⟨haccepted, hrefused⟩ : (Serial.log as).accepted = submittedOpen as ∧
      (Serial.log as).refused = submittedClosed as := Serial.submitted_after as rfl hrun
  have hall : submitted as = submittedOpen as ++ submittedClosed as := by
    rw [submittedOpen, submittedClosed, submitted, submitted, submitted, ← List.filterMap_append,
      List.takeWhile_append_dropWhile]
  refine ⟨hkept.nodup_settled, fun handle r hr => ?_, fun hrest j hj => ?_⟩
  · rw [jobsOf_serial, refusedIn_serial, hall]
    rcases hkept.settled_cases htimely hr with ⟨j, hj, hhandle, hresult⟩ |
      ⟨j, hj, hhandle, ⟨hcancelled, hresult⟩ | hresult⟩
    · rw [hrefused] at hj
      exact ⟨j, List.mem_append_right _ hj, hhandle, .inr ⟨hresult, .inr hj⟩⟩
    · rw [haccepted] at hj
      exact ⟨j, List.mem_append_left _ hj, hhandle, .inr ⟨hresult, .inl hcancelled⟩⟩
    · rw [haccepted] at hj
      exact ⟨j, List.mem_append_left _ hj, hhandle, .inl hresult⟩
  · have hquiet : s.isQuiet = true := hkept.isQuiet_of_rest fun a ha => by
      have hnone := hrest (.serial a) ha
      exact Option.map_eq_none_iff.1 hnone
    rw [jobsOf_serial, hall] at hj
    rcases List.mem_append.1 hj with hj | hj
    · obtain ⟨c, -, hsettled⟩ := hkept.settles_of_isQuiet hquiet j (haccepted ▸ hj)
      exact List.mem_map_of_mem (f := Prod.fst) hsettled
    · have hsettled : j.refusal ∈ s.settled :=
        hkept.settled.mem_iff.2 (List.mem_append_left _ (List.mem_map_of_mem (hrefused ▸ hj)))
      exact List.mem_map_of_mem (f := Prod.fst) hsettled

lemma fair_pool {limit : Nat} {as : List (PoolStep α)} {p : Pool α}
    (hrun : (Pool.fresh limit).steps? as = some p) : Fair (as.map .pool) (.pool p) := by
  have hkept : Pool.Kept limit as p := Pool.kept_fresh.run as hrun
  have hcancelled : p.cancelled ⊆ cancelledBy (as.map .pool) := by
    refine Pool.cancelled_steps as hrun (List.nil_subset _) fun context hc => ?_
    exact mem_cancelledBy (List.mem_map_of_mem hc) rfl
  refine ⟨hkept.nodup_settled, fun handle r hr => ?_, fun hrest j hj => ?_⟩
  · rw [jobsOf_pool]
    obtain ⟨j, hj, hhandle, ⟨hc, hresult⟩ | hresult⟩ := hkept.settled_cases hr
    · exact ⟨j, hj, hhandle, .inr ⟨hresult, .inl (hcancelled hc)⟩⟩
    · exact ⟨j, hj, hhandle, .inl hresult⟩
  · have hleft : p.left = 0 := Pool.left_of_rest fun a ha => by
      have hnone := hrest (.pool a) ha
      exact Option.map_eq_none_iff.1 hnone
    rw [jobsOf_pool, ← hkept.jobs] at hj
    obtain ⟨w, hw, rfl⟩ := List.mem_map.1 hj
    exact hkept.mem_settled hw (Pool.isSettled_of_isGone (Pool.isGone_of_left hleft w hw))

/-- Jobs are settled with their own results, on every executor and in whatever order clients and
workers take their steps. -/
theorem IsFresh.fair {e₀ : Executor α} (hfresh : e₀.IsFresh) (hrun : e₀.steps? steps = some e) :
    Fair steps e := by
  cases hfresh with
  | serial =>
    obtain ⟨as, s, rfl, has, rfl⟩ := exists_of_serial steps hrun
    exact fair_serial has
  | pool limit =>
    obtain ⟨as, p, rfl, has, rfl⟩ := exists_of_pool steps hrun
    exact fair_pool has

/-! ## Handles stay settled -/

lemma settled_suffix_step (hstep : e.step? a = some e') : e.settled <:+ e'.settled := by
  cases e with
  | serial s =>
    cases a with
    | pool a => cases hstep
    | serial a =>
      obtain ⟨s', hs', rfl⟩ := Option.map_eq_some_iff.1 hstep
      exact Serial.settled_suffix_step hs'
  | pool p =>
    cases a with
    | serial a => cases hstep
    | pool a =>
      obtain ⟨p', hp', rfl⟩ := Option.map_eq_some_iff.1 hstep
      exact Pool.settled_suffix_step hp'

lemma settled_suffix (more : List (ExecutorStep α)) : ∀ {e e' : Executor α},
    e.steps? more = some e' → e.settled <:+ e'.settled := by
  induction more with
  | nil =>
    intro e e' hrun
    cases hrun
    exact List.suffix_rfl
  | cons a more ih =>
    intro e e' hrun
    obtain ⟨t, hstep, hrest⟩ := Option.bind_eq_some_iff.1 hrun
    exact (settled_suffix_step hstep).trans (ih hrest)

/-! ## Coming to rest -/

/-- How many steps the workers have to go at most, if no more jobs are submitted. -/
def toGo : Executor α → Nat
  | .serial s => s.toGo
  | .pool p => p.toGo

lemma toGo_step (hstep : e.step? a = some e') (ha : a.isWork = true) : e'.toGo < e.toGo := by
  cases e with
  | serial s =>
    cases a with
    | pool a => cases hstep
    | serial a =>
      obtain ⟨s', hs', rfl⟩ := Option.map_eq_some_iff.1 hstep
      exact Serial.toGo_step hs' ha
  | pool p =>
    cases a with
    | serial a => cases hstep
    | pool a =>
      obtain ⟨p', hp', rfl⟩ := Option.map_eq_some_iff.1 hstep
      exact Pool.toGo_step hp' ha

/-- The workers can only go on for so long. -/
lemma length_le_toGo (more : List (ExecutorStep α)) : ∀ {e e' : Executor α},
    (∀ a ∈ more, a.isWork = true) → e.steps? more = some e' → more.length ≤ e.toGo := by
  induction more with
  | nil => exact fun _ _ => Nat.zero_le _
  | cons a more ih =>
    intro e e' hwork hrun
    obtain ⟨ha, hmore⟩ := List.forall_mem_cons.1 hwork
    obtain ⟨t, hstep, hrest⟩ := Option.bind_eq_some_iff.1 hrun
    have hless := toGo_step hstep ha
    have hlength := ih hmore hrest
    rw [List.length_cons]
    omega

/-- The workers can go on until they come to rest, by induction on how many steps they have to
go. -/
lemma exists_rest (n : Nat) : ∀ {e : Executor α}, e.toGo = n →
    ∃ more e', (∀ a ∈ more, ExecutorStep.isWork a = true) ∧ e.steps? more = some e' ∧
      e'.AtRest := by
  induction n using Nat.strongRecOn with
  | ind n ih =>
    intro e hn
    by_cases hrest : e.AtRest
    · exact ⟨[], e, nofun, rfl, hrest⟩
    · obtain ⟨a, ha, hpossible⟩ : ∃ a : ExecutorStep α, a.isWork = true ∧ e.step? a ≠ none := by
        simpa [AtRest] using hrest
      obtain ⟨t, hstep⟩ := Option.ne_none_iff_exists'.1 hpossible
      obtain ⟨more, e', hwork, hmore, hrest'⟩ := ih t.toGo (hn ▸ toGo_step hstep ha) rfl
      exact ⟨a :: more, e', List.forall_mem_cons.2 ⟨ha, hwork⟩,
        Option.bind_eq_some_iff.2 ⟨t, hstep, hmore⟩, hrest'⟩

/-! ## Clients that submit jobs and wait -/

/-- The executor is open, and jobs wait for workers that have not begun. -/
inductive Waits : List (Job α) → Executor α → Prop
  | serial (js : List (Job α)) (cancelled : List Nat) :
    Waits js (.serial ⟨js, .idle, false, cancelled, []⟩)
  | pool (js : List (Job α)) (limit : Nat) (cancelled : List Nat) :
    Waits js (.pool ⟨limit, js.map (·, .waiting), cancelled, []⟩)

variable {js : List (Job α)}

lemma IsFresh.waits (h : e.IsFresh) : Waits [] e := by
  cases h with
  | serial => exact .serial [] []
  | pool limit => exact .pool [] limit []

lemma Waits.cancel (h : Waits js e) (context : Nat) :
    Waits js (e.serve (.cancel context)) ∧ ∃ a : ExecutorStep α, a.job? = none ∧
      a.isClose = false ∧ e.step? a = some (e.serve (.cancel context)) := by
  cases h with
  | serial => exact ⟨.serial .., .serial (.cancel context), rfl, rfl, rfl⟩
  | pool => exact ⟨.pool .., .pool (.cancel context), rfl, rfl, rfl⟩

lemma Waits.submit (h : Waits js e) {j : Job α} (hnew : j.handle ∉ js.map Job.handle) :
    Waits (js ++ [j]) (e.serve (.submit j)) ∧ ∃ a : ExecutorStep α, a.job? = some j ∧
      a.cancelled? = none ∧ a.isClose = false ∧ e.step? a = some (e.serve (.submit j)) := by
  cases h with
  | serial cancelled =>
    have hhandles : j.handle ∉ (⟨js, .idle, false, cancelled, []⟩ : Serial α).handles := by
      simpa [Serial.handles, Worker.handles] using hnew
    have hstep : (⟨js, .idle, false, cancelled, []⟩ : Serial α).step? (.submit j) =
        some ⟨js ++ [j], .idle, false, cancelled, []⟩ := if_neg hhandles
    have hserve : (Executor.serial ⟨js, .idle, false, cancelled, []⟩).serve (.submit j) =
        .serial ⟨js ++ [j], .idle, false, cancelled, []⟩ := by
      rw [serve, hstep, Option.getD_some]
    rw [hserve]
    exact ⟨.serial .., .serial (.submit j), rfl, rfl, rfl, congrArg (Option.map _) hstep⟩
  | pool limit cancelled =>
    have hhandles : j.handle ∉
        (⟨limit, js.map (·, .waiting), cancelled, []⟩ : Pool α).handles := by
      simpa [Pool.handles, Function.comp_def] using hnew
    have hstep : (⟨limit, js.map (·, .waiting), cancelled, []⟩ : Pool α).step? (.submit j) =
        some ⟨limit, (js ++ [j]).map (·, .waiting), cancelled, []⟩ := by
      rw [List.map_append]
      exact if_neg hhandles
    have hserve : (Executor.pool ⟨limit, js.map (·, .waiting), cancelled, []⟩).serve (.submit j) =
        .pool ⟨limit, (js ++ [j]).map (·, .waiting), cancelled, []⟩ := by
      rw [serve, hstep, Option.getD_some]
    rw [hserve]
    exact ⟨.pool .., .pool (.submit j), rfl, rfl, rfl, congrArg (Option.map _) hstep⟩

/-- Submitting jobs one after the other is a run of steps. -/
lemma Waits.submits (more : List (Job α)) : ∀ {js : List (Job α)} {e : Executor α}, Waits js e →
    ((js ++ more).map Job.handle).Nodup → ∃ steps, jobsOf steps = more ∧ cancelledBy steps = [] ∧
      (∀ a ∈ steps, ExecutorStep.isClose a = false) ∧
      e.steps? steps = some ((more.map Order.submit).foldl serve e) ∧
      Waits (js ++ more) ((more.map Order.submit).foldl serve e) := by
  induction more with
  | nil =>
    intro js e h _
    exact ⟨[], rfl, rfl, nofun, rfl, (List.append_nil js).symm ▸ h⟩
  | cons j more ih =>
    intro js e h hdistinct
    rw [List.append_cons] at hdistinct
    have hnew : j.handle ∉ js.map Job.handle := by
      rw [List.map_append, List.map_append, List.append_assoc, List.nodup_append] at hdistinct
      exact fun hmem => hdistinct.2.2 _ hmem _ List.mem_cons_self rfl
    obtain ⟨hwaits, a, hjob, hcancel, hclose, hstep⟩ := h.submit hnew
    obtain ⟨steps, hjobs, hcancels, hcloses, hrun, hwaits'⟩ := ih hwaits hdistinct
    refine ⟨a :: steps, ?_, ?_, List.forall_mem_cons.2 ⟨hclose, hcloses⟩, ?_, ?_⟩
    · rw [jobsOf, List.filterMap_cons, hjob]
      exact congrArg _ hjobs
    · rw [cancelledBy, List.filterMap_cons, hcancel]
      exact hcancels
    · exact Option.bind_eq_some_iff.2 ⟨_, hstep, hrun⟩
    · rw [List.append_cons]
      exact hwaits'

lemma refusedIn_open (h : ∀ a ∈ steps, a.isClose = false) : refusedIn steps = [] := by
  have hnone : (steps.dropWhile fun a => !a.isClose) = [] :=
    List.dropWhile_eq_nil_iff.2 fun a ha => by rw [h a ha]; rfl
  rw [refusedIn, hnone]
  rfl

end Executor

namespace Serial

/-- The worker of an open executor deals with all waiting jobs, by induction on these. -/
lemma drain_steps (js : List (Job α)) : ∀ (cancelled : List Nat) (settled : Settled α),
    ∃ more settled', (∀ a ∈ more, SerialStep.isWork (α := α) a = true) ∧
      steps? ⟨js, .idle, false, cancelled, settled⟩ more =
        some ⟨[], .idle, false, cancelled, settled'⟩ ∧
      work js.length ⟨js, .idle, false, cancelled, settled⟩ =
        ⟨[], .idle, false, cancelled, settled'⟩ := by
  -- one round of the worker for each job in the queue
  induction js with
  | nil => exact fun _ settled => ⟨[], settled, nofun, rfl, rfl⟩
  | cons j js ih =>
    intro cancelled settled
    obtain ⟨more, settled', hwork, hrun, heq⟩ :=
      ih cancelled ((j.handle, j.invoke cancelled) :: settled)
    have hround : ∀ a ∈ round, SerialStep.isWork (α := α) a = true := by
      simp [round, SerialStep.isWork]
    refine ⟨round ++ more, settled', List.forall_mem_append.2 ⟨hround, hwork⟩, ?_, heq⟩
    · rw [steps?, List.foldlM_append]
      exact hrun

lemma rest_of_idle {cancelled : List Nat} {settled : Settled α} (a : SerialStep α)
    (ha : a.isWork = true) : step? ⟨[], .idle, false, cancelled, settled⟩ a = none := by
  cases a <;> first | rfl | cases ha

end Serial

namespace Pool

variable {p : Pool α}

/-- A worker that finds a slot goes through its lifetime. -/
lemma steps?_lifetime {i : Nat} {j : Job α} (hi : p.workers[i]? = some (j, .waiting))
    (hslot : p.hasSlot = true) : p.steps? (lifetime i) = some { p with
      workers := p.workers.set i (j, .gone)
      settled := (j.handle, j.invoke p.cancelled) :: p.settled } := by
  have hself : ∀ (phase : Phase α) (settled : Settled α), ({ p with
      workers := p.workers.set i (j, phase), settled } : Pool α).workers[i]? = some (j, phase) :=
    fun phase _ => List.getElem?_set_self (List.getElem?_eq_some_iff.1 hi).1
  -- each move finds the worker where the last one has left it
  have henter := step_of_goes hi (.enter hslot)
  have hrun := step_of_goes (hself .entered p.settled) .run
  have hsettle := step_of_goes (hself (.ran (j.invoke p.cancelled)) p.settled) (.settle _)
  have hrelease := step_of_goes (hself .settled ((j.handle, j.invoke p.cancelled) :: p.settled))
    .release
  have hleave := step_of_goes (hself .released ((j.handle, j.invoke p.cancelled) :: p.settled))
    .leave
  simp only [moved, List.set_set, Option.map_none, Option.map_some, Option.toList_none,
    Option.toList_some, List.nil_append, List.cons_append] at henter hrun hsettle hrelease hleave
  exact Option.bind_eq_some_iff.2 ⟨_, henter, Option.bind_eq_some_iff.2 ⟨_, hrun,
    Option.bind_eq_some_iff.2 ⟨_, hsettle, Option.bind_eq_some_iff.2 ⟨_, hrelease,
      Option.bind_eq_some_iff.2 ⟨_, hleave, rfl⟩⟩⟩⟩⟩

/-- Workers that wait go through their lifetimes one after the other, by induction on how many of
them there are. Those before them have left and hold no slots. -/
lemma drain_steps (limit : Nat) (cancelled : List Nat) (js : List (Job α)) :
    ∀ (past : List (Job α × Phase α)) (settled : Settled α), (∀ w ∈ past, w.2.isGone = true) →
      ∃ more p', (∀ a ∈ more, (PoolStep.move? (α := α) a).isSome = true) ∧
        steps? ⟨limit, past ++ js.map (·, .waiting), cancelled, settled⟩ more = some p' ∧
        work (List.range' past.length js.length)
          ⟨limit, past ++ js.map (·, .waiting), cancelled, settled⟩ = p' ∧
        ∀ w ∈ p'.workers, w.2.isGone = true := by
  induction js with
  | nil =>
    intro past settled hpast
    refine ⟨[], _, nofun, rfl, rfl, ?_⟩
    rw [List.map_nil, List.append_nil]
    exact hpast
  | cons j js ih =>
    intro past settled hpast
    have hi : (past ++ (j :: js).map fun j => (j, Phase.waiting (α := α)))[past.length]? =
        some (j, .waiting) := by simp
    have hslot : (⟨limit, past ++ (j :: js).map (·, .waiting), cancelled, settled⟩ :
        Pool α).hasSlot = true := by
      have hnone : (⟨limit, past ++ (j :: js).map (·, .waiting), cancelled, settled⟩ :
          Pool α).inUse = 0 := by
        refine List.countP_eq_zero.2 fun w hw => ?_
        rcases List.mem_append.1 hw with hw | hw
        · have hgone := hpast w hw
          cases hphase : w.2 <;> rw [hphase] at hgone <;>
            first | exact Bool.false_ne_true | cases hgone
        · obtain ⟨j, -, rfl⟩ := List.mem_map.1 hw
          exact Bool.false_ne_true
      rw [hasSlot, hnone]
      cases limit <;> simp
    have hlife := steps?_lifetime hi hslot
    have hworkers : (past ++ (j :: js).map fun j => (j, Phase.waiting (α := α))).set past.length
        (j, .gone) = (past ++ [(j, .gone)]) ++ js.map (·, .waiting) := by simp
    dsimp only at hlife
    rw [hworkers] at hlife
    obtain ⟨more, p'', hmoves, hrun, hwork, hgone⟩ := ih (past ++ [(j, .gone)])
      ((j.handle, j.invoke cancelled) :: settled)
      (List.forall_mem_append.2 ⟨hpast, List.forall_mem_singleton.2 rfl⟩)
    have hlifetime : ∀ a ∈ lifetime past.length, (PoolStep.move? (α := α) a).isSome = true := by
      simp [lifetime, PoolStep.move?]
    refine ⟨lifetime past.length ++ more, p'',
      List.forall_mem_append.2 ⟨hlifetime, hmoves⟩, ?_, ?_, hgone⟩
    · rw [steps?, List.foldlM_append]
      exact Option.bind_eq_some_iff.2 ⟨_, hlife, hrun⟩
    · rw [List.length_cons, List.range'_succ, work, hlife, Option.getD_some, ← hwork,
        List.length_append]
      rfl

lemma rest_of_gone (h : ∀ w ∈ p.workers, w.2.isGone = true) (a : PoolStep α)
    (ha : a.move?.isSome = true) : p.step? a = none := by
  refine Option.eq_none_iff_forall_not_mem.2 fun p' hp' => ?_
  rcases exists_of_step? hp' with ⟨j, rfl, rfl⟩ | ⟨context, rfl, rfl⟩ | ⟨rfl, rfl⟩ |
    ⟨i, j, phase, m, phase', r, -, hi, hgoes, rfl⟩
  · cases ha
  · cases ha
  · cases ha
  · have hgone := h _ (List.mem_of_getElem? hi)
    cases hgoes <;> cases hgone

end Pool

namespace Executor

/-- Waiting for all jobs is a run of steps of the workers, after which they are at rest. -/
lemma Waits.drain {e : Executor α} {js : List (Job α)} (h : Waits js e) :
    ∃ more, (∀ a ∈ more, ExecutorStep.isWork a = true) ∧ e.steps? more = some e.drain ∧
      e.drain.AtRest := by
  cases h with
  | serial cancelled =>
    obtain ⟨more, settled', hwork, hrun, heq⟩ := Serial.drain_steps js cancelled []
    refine ⟨more.map .serial, ?_, ?_, ?_⟩
    · exact List.forall_mem_map.2 hwork
    · rw [steps?_serial, hrun, Executor.drain, Serial.drain, heq]
      rfl
    · intro a ha
      rw [Executor.drain, Serial.drain, heq]
      cases a with
      | serial a => exact Option.map_eq_none_iff.2 (Serial.rest_of_idle a ha)
      | pool a => rfl
  | pool limit cancelled =>
    obtain ⟨more, p', hmoves, hrun, heq, hgone⟩ := Pool.drain_steps limit cancelled js [] [] nofun
    have hdrain : Pool.drain ⟨limit, js.map (·, .waiting), cancelled, []⟩ = p' := by
      rw [Pool.drain, List.length_map, List.range_eq_range']
      exact heq
    refine ⟨more.map .pool, ?_, ?_, ?_⟩
    · exact List.forall_mem_map.2 hmoves
    · rw [steps?_pool, Executor.drain, hdrain]
      exact congrArg _ hrun
    · intro a ha
      rw [Executor.drain, hdrain]
      cases a with
      | serial a => rfl
      | pool a => exact Option.map_eq_none_iff.2 (Pool.rest_of_gone hgone a ha)

end Executor
end Clearance.Jobs
