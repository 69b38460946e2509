/-
# Runs of a pool

Workers of a pool go through phases, each at its own pace, and the steps of different workers can
come in any order. What a step does is said once (`Pool.exists_of_step?`): a client's step moves no
worker, and a worker's step moves one worker by one of six moves (`Phase.Goes`). From that follows
what holds of every run: the moves of a worker make up a course that fits its phase, the slots in
use are those that were taken and not given back, and the settled handles are those of the workers
that are past settling them (`Pool.Kept`).

Handles are numbers here. A job is submitted with one that has not been given out before.
-/
import Clearance.Jobs.Pool
import Mathlib.Data.List.Nodup
import Mathlib.Data.List.Perm.Basic
import Mathlib.Tactic.Common

namespace Clearance.Jobs

variable {α : Type}

/-! ## Moves -/

/-- What a worker does in one step. -/
inductive Move where
  /-- It takes a slot. -/
  | enter
  /-- It gives up waiting for a slot. -/
  | refuse
  | run
  | settle
  /-- It gives its slot back. -/
  | release
  | leave
deriving DecidableEq, Repr

/-- The worker that a step moves, and how. -/
def PoolStep.move? : PoolStep α → Option (Nat × Move)
  | .enter i => some (i, .enter)
  | .refuse i => some (i, .refuse)
  | .run i => some (i, .run)
  | .settle i => some (i, .settle)
  | .release i => some (i, .release)
  | .leave i => some (i, .leave)
  | .submit _ | .cancel _ | .flushed => none

/-- The step by which a worker makes a move. -/
def Move.step (i : Nat) : Move → PoolStep α
  | .enter => .enter i
  | .refuse => .refuse i
  | .run => .run i
  | .settle => .settle i
  | .release => .release i
  | .leave => .leave i

/-- The job that a client submits with a step. -/
def PoolStep.job? : PoolStep α → Option (Job α)
  | .submit j => some j
  | _ => none

/-- The moves of one worker, in order. -/
def movesOf (i : Nat) (steps : List (PoolStep α)) : List Move :=
  steps.filterMap fun a => a.move?.bind fun m => if m.1 = i then some m.2 else none

/-- How often workers have made a move. -/
def timesMoved (m : Move) (steps : List (PoolStep α)) : Nat :=
  steps.countP fun a => (a.move?.map Prod.snd) == some m

/-- The moves with which a worker can have come to a phase. -/
def Phase.courses : Phase α → List (List Move)
  | .waiting => [[]]
  | .entered => [[.enter]]
  | .ran _ => [[.enter, .run]]
  | .settled => [[.enter, .run, .settle]]
  | .released => [[.enter, .run, .settle, .release], [.refuse]]
  | .gone => [[.enter, .run, .settle, .release, .leave], [.refuse, .leave]]

/-- The handle of the worker's job is settled. -/
def Phase.isSettled : Phase α → Bool
  | .settled | .released | .gone => true
  | _ => false

/-- A move of a worker from one phase to another, with what it settles the handle of its job
with. -/
inductive Phase.Goes (p : Pool α) (j : Job α) :
    Phase α → Move → Phase α → Option (Settlement α) → Prop
  | enter (h : p.hasSlot = true) : Goes p j .waiting .enter .entered none
  | refuse (hlimit : p.limit ≠ 0) (h : j.context ∈ p.cancelled) :
    Goes p j .waiting .refuse .released (some (.error .canceled))
  | run : Goes p j .entered .run (.ran (j.invoke p.cancelled)) none
  | settle (r : Settlement α) : Goes p j (.ran r) .settle .settled (some r)
  | release : Goes p j .settled .release .released none
  | leave : Goes p j .released .leave .gone none

namespace Pool

variable {p p' : Pool α} {a : PoolStep α}

/-- The state in which a worker has moved to a phase, and may have settled the handle of its job. -/
def moved (p : Pool α) (i : Nat) (j : Job α) (phase : Phase α)
    (r : Option (Settlement α)) : Pool α :=
  { p with
    workers := p.workers.set i (j, phase)
    settled := (r.map (j.handle, ·)).toList ++ p.settled }

/-- A job that is submitted has a new handle. -/
lemma not_mem_of_submit {j : Job α} (hstep : p.step? (.submit j) = some p') :
    j.handle ∉ p.handles := by
  simp only [step?] at hstep
  split_ifs at hstep with hnew
  exact hnew

/-- What a step can do. -/
lemma exists_of_step? (hstep : p.step? a = some p') :
    (∃ j, a = .submit j ∧ p' = { p with workers := p.workers ++ [(j, .waiting)] }) ∨
    (∃ context, a = .cancel context ∧ p' = { p with cancelled := context :: p.cancelled }) ∨
    (a = .flushed ∧ p' = p) ∨
    ∃ i j phase m phase' r, a.move? = some (i, m) ∧ p.workers[i]? = some (j, phase) ∧
      phase.Goes p j m phase' r ∧ p' = p.moved i j phase' r := by
  -- submitting, cancelling and flushing concern the pool, all else the phase of one worker
  cases a with
  | submit j =>
    simp only [step?] at hstep
    split_ifs at hstep
    cases hstep
    exact .inl ⟨j, rfl, rfl⟩
  | cancel context =>
    cases hstep
    exact .inr (.inl ⟨context, rfl, rfl⟩)
  | flushed =>
    simp only [step?] at hstep
    split at hstep <;> cases hstep
    exact .inr (.inr (.inl ⟨rfl, rfl⟩))
  | enter i =>
    simp only [step?] at hstep
    split at hstep
    · rename_i j hi
      split_ifs at hstep with hslot
      cases hstep
      exact .inr (.inr (.inr ⟨i, j, _, _, _, _, rfl, hi, .enter hslot, rfl⟩))
    · cases hstep
  | refuse i =>
    simp only [step?] at hstep
    split at hstep
    · rename_i j hi
      split_ifs at hstep with hcancelled
      cases hstep
      exact .inr (.inr (.inr ⟨i, j, _, _, _, _, rfl, hi, .refuse hcancelled.1 hcancelled.2, rfl⟩))
    · cases hstep
  | run i =>
    simp only [step?] at hstep
    split at hstep <;> cases hstep
    rename_i j hi
    exact .inr (.inr (.inr ⟨i, j, _, _, _, _, rfl, hi, .run, rfl⟩))
  | settle i =>
    simp only [step?] at hstep
    split at hstep <;> cases hstep
    rename_i j r hi
    exact .inr (.inr (.inr ⟨i, j, _, _, _, _, rfl, hi, .settle r, rfl⟩))
  | release i =>
    simp only [step?] at hstep
    split at hstep <;> cases hstep
    rename_i j hi
    exact .inr (.inr (.inr ⟨i, j, _, _, _, _, rfl, hi, .release, rfl⟩))
  | leave i =>
    simp only [step?] at hstep
    split at hstep <;> cases hstep
    rename_i j hi
    exact .inr (.inr (.inr ⟨i, j, _, _, _, _, rfl, hi, .leave, rfl⟩))

/-- The other workers stay where they are. -/
lemma exists_rest {i : Nat} {j : Job α} {phase : Phase α} (hi : p.workers[i]? = some (j, phase)) :
    ∃ rest, p.workers.Perm ((j, phase) :: rest) ∧
      ∀ phase', (p.workers.set i (j, phase')).Perm ((j, phase') :: rest) := by
  obtain ⟨hlt, heq⟩ := List.getElem?_eq_some_iff.1 hi
  refine ⟨p.workers.eraseIdx i, ?_, fun phase' => List.set_perm_cons_eraseIdx hlt _⟩
  rw [← heq]
  exact (List.getElem_cons_eraseIdx_perm hlt).symm

/-! ## One step -/

/-- The result is the job's own: what its work comes to or, if its context was cancelled in time,
that it was cancelled. -/
def Own (p : Pool α) (j : Job α) (r : Settlement α) : Prop :=
  j.context ∈ p.cancelled ∧ r = .error .canceled ∨ r = j.work.get.settlement

/-- What the steps of a run tell about the state it has led to. -/
structure Kept (limit : Nat) (steps : List (PoolStep α)) (p : Pool α) : Prop where
  limit : p.limit = limit
  distinct : p.handles.Nodup
  jobs : p.workers.map Prod.fst = steps.filterMap PoolStep.job?
  /-- Every worker has come to its phase on one of the courses that lead there. -/
  course : ∀ i j phase, p.workers[i]? = some (j, phase) → movesOf i steps ∈ phase.courses
  /-- Nobody moves who is not there. -/
  absent : ∀ i, p.workers.length ≤ i → movesOf i steps = []
  slots : 0 < p.limit → p.inUse ≤ p.limit
  /-- The slots in use are those that were taken and not given back. -/
  balance : timesMoved .enter steps = timesMoved .release steps + p.inUse
  handles : (p.settled.map Prod.fst).Perm
    ((p.workers.filter fun w => w.2.isSettled).map fun w => w.1.handle)
  pending : ∀ (i : Nat) j r, p.workers[i]? = some (j, Phase.ran r) → Own p j r
  results : ∀ h r, (h, r) ∈ p.settled → ∃ i j phase, p.workers[i]? = some (j, phase) ∧
    j.handle = h ∧ (Move.refuse ∈ movesOf i steps ∧ j.context ∈ p.cancelled ∧ r = .error .canceled ∨
      Move.run ∈ movesOf i steps ∧ Own p j r)

section

variable {limit : Nat} {steps : List (PoolStep α)}

lemma movesOf_snoc (i : Nat) : movesOf i (steps ++ [a]) =
    movesOf i steps ++ (a.move?.bind fun m => if m.1 = i then some m.2 else none).toList := by
  unfold movesOf
  rw [List.filterMap_append, List.filterMap_cons]
  cases a.move?.bind fun m => if m.1 = i then some m.2 else none <;> rfl

lemma timesMoved_snoc (m : Move) : timesMoved m (steps ++ [a]) =
    timesMoved m steps + if (a.move?.map Prod.snd) == some m then 1 else 0 := by
  unfold timesMoved
  rw [List.countP_append, List.countP_singleton]

lemma kept_fresh : Kept (α := α) limit [] (.fresh limit) where
  limit := rfl
  distinct := List.nodup_nil
  jobs := rfl
  course := by
    rintro i j phase ⟨⟩
  absent _ _ := rfl
  slots _ := Nat.zero_le _
  balance := rfl
  handles := .refl _
  pending := by
    rintro i j r ⟨⟩
  results := nofun

/-- A client's step that changes neither workers nor slots. -/
lemma Kept.client (h : Kept limit steps p) (hmove : a.move? = none) (hjob : a.job? = none)
    {cancelled : List Nat} (hcancelled : ∀ c ∈ p.cancelled, c ∈ cancelled) :
    Kept limit (steps ++ [a]) { p with cancelled } := by
  have hmoves : ∀ i, movesOf i (steps ++ [a]) = movesOf i steps := by
    intro i
    rw [movesOf_snoc, hmove]
    exact List.append_nil _
  have htimes : ∀ m, timesMoved m (steps ++ [a]) = timesMoved m steps := by
    intro m
    rw [timesMoved_snoc, hmove]
    rfl
  have hown : ∀ {j r}, Own p j r → Own { p with cancelled } j r :=
    fun h => h.imp_left fun h => ⟨hcancelled _ h.1, h.2⟩
  refine ⟨h.limit, h.distinct, ?_, ?_, ?_, h.slots, ?_, h.handles, fun i j r hi =>
    hown (h.pending i j r hi), ?_⟩
  · rw [List.filterMap_append, List.filterMap_cons, hjob]
    exact h.jobs.trans (List.append_nil _).symm
  · intro i j phase hi
    rw [hmoves]
    exact h.course i j phase hi
  · intro i hi
    rw [hmoves]
    exact h.absent i hi
  · rw [htimes, htimes]
    exact h.balance
  · intro handle r hr
    obtain ⟨i, j, phase, hi, hj, hresult⟩ := h.results handle r hr
    rw [← hmoves i] at hresult
    exact ⟨i, j, phase, hi, hj, hresult.imp (fun h => ⟨h.1, hcancelled _ h.2.1, h.2.2⟩)
      fun h => ⟨h.1, hown h.2⟩⟩

/-- A job is submitted: its worker waits. -/
lemma Kept.submit (h : Kept limit steps p) {j : Job α} (hnew : j.handle ∉ p.handles) :
    Kept limit (steps ++ [.submit j]) { p with workers := p.workers ++ [(j, .waiting)] } := by
  have hmoves : ∀ i, movesOf i (steps ++ [.submit j]) = movesOf i steps := by
    intro i
    rw [movesOf_snoc]
    exact List.append_nil _
  have htimes : ∀ m, timesMoved m (steps ++ [.submit j]) = timesMoved m steps := by
    intro m
    rw [timesMoved_snoc]
    rfl
  have huse : inUse { p with workers := p.workers ++ [(j, .waiting)] } = p.inUse :=
    (List.countP_append ..).trans (Nat.add_zero _)
  have hold : ∀ {i : Nat} {j' : Job α} {phase : Phase α},
      (p.workers ++ [(j, .waiting)])[i]? = some (j', phase) →
        p.workers[i]? = some (j', phase) ∨ p.workers.length ≤ i ∧ phase = .waiting := by
    intro i j' phase hi
    rcases Nat.lt_or_ge i p.workers.length with hlt | hge
    · exact .inl (List.getElem?_append_left hlt ▸ hi)
    · rw [List.getElem?_append_right hge] at hi
      obtain ⟨-, heq⟩ := Prod.mk.inj (List.mem_singleton.1 (List.mem_of_getElem? hi))
      exact .inr ⟨hge, heq⟩
  -- the new worker waits, and it is behind all others
  refine ⟨h.limit, ?_, ?_, ?_, ?_, huse.symm ▸ h.slots, ?_, ?_, ?_, ?_⟩
  · rw [Pool.handles, List.map_append]
    exact (List.perm_append_singleton ..).nodup_iff.2 (List.nodup_cons.2 ⟨hnew, h.distinct⟩)
  · rw [List.map_append, List.filterMap_append, h.jobs]
    rfl
  · intro i j' phase hi
    rw [hmoves]
    rcases hold hi with hi | ⟨hge, rfl⟩
    · exact h.course i j' phase hi
    · exact List.mem_singleton.2 (h.absent i hge)
  · intro i hi
    rw [hmoves]
    exact h.absent i (Nat.le_trans (by simp) hi)
  · rw [htimes, htimes, huse]
    exact h.balance
  · rw [List.filter_append]
    simpa [Phase.isSettled] using h.handles
  · intro i j' r hi
    rcases hold hi with hi | ⟨-, ⟨⟩⟩
    exact h.pending i j' r hi
  · intro handle r hr
    obtain ⟨i, j', phase, hi, hj, hresult⟩ := h.results handle r hr
    rw [← hmoves i] at hresult
    exact ⟨i, j', phase, List.getElem?_append_left (List.getElem?_eq_some_iff.1 hi).1 ▸ hi, hj,
      hresult⟩

/-- A move leads from the courses of a phase to those of the next one. -/
lemma course_of_goes {j : Job α} {phase phase' : Phase α} {m : Move} {r : Option (Settlement α)}
    (hgoes : phase.Goes p j m phase' r) {c : List Move} (hc : c ∈ phase.courses) :
    c ++ [m] ∈ phase'.courses := by
  cases hgoes <;> simp only [Phase.courses, List.mem_cons, List.not_mem_nil, or_false] at hc ⊢
  case leave => rcases hc with rfl | rfl <;> simp
  all_goals
    subst hc
    simp

/-- A job that is run is settled with its own result. -/
lemma own_invoke (p : Pool α) (j : Job α) : Own p j (j.invoke p.cancelled) := by
  unfold Job.invoke
  split_ifs with hc
  · exact .inl ⟨hc, rfl⟩
  · exact .inr rfl

/-- A worker makes a move. -/
lemma Kept.move (h : Kept limit steps p) {i : Nat} {j : Job α} {phase phase' : Phase α} {m : Move}
    {r : Option (Settlement α)} (hmove : a.move? = some (i, m))
    (hi : p.workers[i]? = some (j, phase))
    (hgoes : phase.Goes p j m phase' r) : Kept limit (steps ++ [a]) (p.moved i j phase' r) := by
  have hjob : a.job? = none := by
    cases a <;> first | rfl | cases hmove
  have hlt := (List.getElem?_eq_some_iff.1 hi).1
  obtain ⟨rest, hbefore, hafter⟩ := exists_rest hi
  have hmine : movesOf i (steps ++ [a]) = movesOf i steps ++ [m] := by
    rw [movesOf_snoc, hmove]
    simp
  have hothers : ∀ i', i' ≠ i → movesOf i' (steps ++ [a]) = movesOf i' steps := by
    intro i' hne
    rw [movesOf_snoc, hmove]
    simp [Ne.symm hne]
  have hcourse := h.course i j phase hi
  -- the workers of the new state: the one that has moved, and the others
  have hworkers : ∀ {i' : Nat} {w : Job α × Phase α}, (p.moved i j phase' r).workers[i']? = some w →
      i' = i ∧ w = (j, phase') ∨ i' ≠ i ∧ p.workers[i']? = some w := by
    intro i' w hw
    by_cases hsame : i' = i
    · subst hsame
      rw [moved, List.getElem?_set_self hlt] at hw
      exact .inl ⟨rfl, (Option.some.inj hw).symm⟩
    · rw [moved, List.getElem?_set_ne (Ne.symm hsame)] at hw
      exact .inr ⟨hsame, hw⟩
  have huse : p.inUse = rest.countP (fun w => w.2.holds) + if phase.holds then 1 else 0 :=
    (hbefore.countP_eq _).trans (List.countP_cons ..)
  have huse' : (p.moved i j phase' r).inUse =
      rest.countP (fun w => w.2.holds) + if phase'.holds then 1 else 0 :=
    ((hafter phase').countP_eq _).trans (List.countP_cons ..)
  have hnew : (p.moved i j phase' r).workers[i]? = some (j, phase') := List.getElem?_set_self hlt
  have hfst : p.workers.map Prod.fst = (p.workers.set i (j, phase')).map Prod.fst := by
    refine List.ext_getElem? fun k => ?_
    rw [List.getElem?_map, List.getElem?_map]
    by_cases hk : i = k
    · subst hk
      rw [hi, List.getElem?_set_self hlt]
      rfl
    · rw [List.getElem?_set_ne hk]
  have hhandles : (p.moved i j phase' r).handles = p.handles := by
    have hmapped := congrArg (List.map Job.handle) hfst
    rw [List.map_map, List.map_map] at hmapped
    exact hmapped.symm
  refine ⟨h.limit, hhandles.symm ▸ h.distinct, ?_, ?_, ?_, ?_, ?_, ?_, ?_, ?_⟩
  · rw [List.filterMap_append, List.filterMap_cons, hjob, ← h.jobs, hfst]
    exact (List.append_nil _).symm
  · intro i' j' ph hi'
    rcases hworkers hi' with ⟨rfl, heq'⟩ | ⟨hne, hi'⟩
    · obtain ⟨-, rfl⟩ := Prod.mk.inj heq'
      rw [hmine]
      exact course_of_goes hgoes hcourse
    · rw [hothers i' hne]
      exact h.course i' j' ph hi'
  · intro i' hi'
    have hge : p.workers.length ≤ i' := by simpa [moved] using hi'
    rw [hothers i' (Nat.ne_of_gt (Nat.lt_of_lt_of_le hlt hge))]
    exact h.absent i' hge
  · intro hlimit
    have hslots := h.slots hlimit
    rw [huse] at hslots
    rw [huse']
    cases hgoes
    case enter hslot =>
      have hfree : p.limit = 0 ∨ p.inUse < p.limit := by simpa [hasSlot] using hslot
      rw [huse] at hfree
      simp only [Phase.holds, moved] at hfree ⊢
      have : 0 < p.limit := hlimit
      simp only [Bool.false_eq_true, if_false, if_true] at hfree ⊢
      omega
    all_goals
      simp only [Phase.holds, moved, Bool.false_eq_true, if_false, if_true] at hslots ⊢
      omega
  · have hbalance := h.balance
    rw [huse] at hbalance
    rw [timesMoved_snoc, timesMoved_snoc, hmove, huse', hbalance]
    cases hgoes <;> simp [Phase.holds] <;> omega
  · have hfilter := (hbefore.filter fun w => w.2.isSettled).map fun w => w.1.handle
    have hfilter' := ((hafter phase').filter fun w => w.2.isSettled).map fun w => w.1.handle
    have hold := h.handles.trans hfilter
    refine List.Perm.trans ?_ hfilter'.symm
    cases hgoes
    case refuse | settle => exact hold.cons j.handle
    all_goals exact hold
  · intro i' j' r' hi'
    rcases hworkers hi' with ⟨rfl, heq'⟩ | ⟨hne, hi'⟩
    · obtain ⟨rfl, rfl⟩ := Prod.mk.inj heq'
      cases hgoes
      exact own_invoke p j'
    · exact h.pending i' j' r' hi'
  · intro handle r' hr
    replace hr : (handle, r') ∈ (r.map (j.handle, ·)).toList ++ p.settled := hr
    rcases List.mem_append.1 hr with hr | hr
    · refine ⟨i, j, phase', hnew, ?_⟩
      rw [hmine]
      cases hgoes
      case refuse hcontext _ =>
        obtain ⟨rfl, rfl⟩ := Prod.mk.inj (List.mem_singleton.1 hr)
        exact ⟨rfl, .inl ⟨by simp, hcontext, rfl⟩⟩
      case settle r =>
        obtain ⟨rfl, rfl⟩ := Prod.mk.inj (List.mem_singleton.1 hr)
        rw [List.mem_singleton.1 hcourse]
        exact ⟨rfl, .inr ⟨by simp, h.pending i j _ hi⟩⟩
      all_goals cases hr
    · obtain ⟨i', j', ph, hi', hj, hresult⟩ := h.results handle r' hr
      by_cases hsame : i' = i
      · subst hsame
        obtain ⟨rfl, -⟩ := Prod.mk.inj (Option.some.inj (hi'.symm.trans hi))
        refine ⟨i', j', phase', hnew, hj, ?_⟩
        rw [hmine]
        exact hresult.imp (fun h => ⟨List.mem_append_left _ h.1, h.2⟩)
          fun h => ⟨List.mem_append_left _ h.1, h.2⟩
      · refine ⟨i', j', ph, ?_, hj, ?_⟩
        · rw [moved, List.getElem?_set_ne (Ne.symm hsame)]
          exact hi'
        · rw [hothers i' hsame]
          exact hresult

/-- A step keeps what the steps tell. -/
lemma Kept.step (h : Kept limit steps p) (hstep : p.step? a = some p') :
    Kept limit (steps ++ [a]) p' := by
  rcases exists_of_step? hstep with ⟨j, rfl, rfl⟩ | ⟨context, rfl, rfl⟩ | ⟨rfl, rfl⟩ |
    ⟨i, j, phase, m, phase', r, hmove, hi, hgoes, rfl⟩
  · exact h.submit (not_mem_of_submit hstep)
  · exact h.client rfl rfl fun _ => List.mem_cons_of_mem _
  · exact h.client rfl rfl fun _ hc => hc
  · exact h.move hmove hi hgoes

/-- Any number of steps keep it. -/
lemma Kept.run (more : List (PoolStep α)) : ∀ {steps : List (PoolStep α)} {p : Pool α},
    Kept limit steps p → p.steps? more = some p' → Kept limit (steps ++ more) p' := by
  induction more with
  | nil =>
    intro steps p h hrun
    cases hrun
    exact (List.append_nil steps).symm ▸ h
  | cons a more ih =>
    intro steps p h hrun
    obtain ⟨t, hstep, hrest⟩ := Option.bind_eq_some_iff.1 hrun
    rw [List.append_cons]
    exact ih (h.step hstep) hrest

end

/-! ## Coming to rest -/

/-- A worker can make each of its moves. -/
lemma step_of_goes {i : Nat} {j : Job α} {phase phase' : Phase α} {m : Move}
    {r : Option (Settlement α)} (hi : p.workers[i]? = some (j, phase))
    (hgoes : phase.Goes p j m phase' r) : p.step? (m.step i) = some (p.moved i j phase' r) := by
  cases hgoes with
  | enter hslot => simp only [Move.step, step?, hi, if_pos hslot]; rfl
  | refuse hlimit hc => simp only [Move.step, step?, hi, if_pos (And.intro hlimit hc)]; rfl
  | run | settle | release | leave => simp only [Move.step, step?, hi]; rfl

/-- Steps of workers that lead from one state to another. -/
def Works (p p' : Pool α) : Prop :=
  ∃ more, (∀ a ∈ more, (PoolStep.move? a).isSome) ∧ p.steps? more = some p'

lemma Works.refl (p : Pool α) : Works p p := ⟨[], nofun, rfl⟩

lemma Works.trans {p'' : Pool α} (h : Works p p') (h' : Works p' p'') : Works p p'' := by
  obtain ⟨more, hmoves, hrun⟩ := h
  obtain ⟨more', hmoves', hrun'⟩ := h'
  refine ⟨more ++ more', fun a ha => (List.mem_append.1 ha).elim (hmoves a) (hmoves' a), ?_⟩
  rw [steps?, List.foldlM_append]
  exact Option.bind_eq_some_iff.2 ⟨p', hrun, hrun'⟩

lemma works_of_goes {i : Nat} {j : Job α} {phase phase' : Phase α} {m : Move}
    {r : Option (Settlement α)} (hi : p.workers[i]? = some (j, phase))
    (hgoes : phase.Goes p j m phase' r) : Works p (p.moved i j phase' r) :=
  ⟨[m.step i], by cases m <;> simp [Move.step, PoolStep.move?],
    Option.bind_eq_some_iff.2 ⟨_, step_of_goes hi hgoes, rfl⟩⟩

/-- A worker that need not wait for a slot comes to its end, whatever its job comes to. -/
lemma works_gone {i : Nat} {j : Job α} (phase : Phase α) : ∀ {p : Pool α},
    p.workers[i]? = some (j, phase) → (phase = .waiting → p.hasSlot = true) →
      ∃ p', Works p p' ∧ p'.workers = p.workers.set i (j, .gone) := by
  -- a move leads to a phase from which the rest is known
  have move : ∀ {p : Pool α} {phase phase' : Phase α} {m : Move} {r : Option (Settlement α)},
      p.workers[i]? = some (j, phase) → phase.Goes p j m phase' r →
      (∀ {p : Pool α}, p.workers[i]? = some (j, phase') →
        ∃ p', Works p p' ∧ p'.workers = p.workers.set i (j, .gone)) →
      ∃ p', Works p p' ∧ p'.workers = p.workers.set i (j, .gone) := by
    intro p phase phase' m r hi hgoes hrest
    obtain ⟨p', hworks, heq⟩ := hrest (p := p.moved i j phase' r)
      (List.getElem?_set_self (List.getElem?_eq_some_iff.1 hi).1)
    exact ⟨p', (works_of_goes hi hgoes).trans hworks, heq.trans (List.set_set ..)⟩
  have gone : ∀ {p : Pool α}, p.workers[i]? = some (j, .gone) →
      ∃ p', Works p p' ∧ p'.workers = p.workers.set i (j, .gone) := by
    intro p hi
    obtain ⟨hlt, heq⟩ := List.getElem?_eq_some_iff.1 hi
    exact ⟨p, .refl p, heq ▸ (List.set_getElem_self hlt).symm⟩
  have released : ∀ {p : Pool α}, p.workers[i]? = some (j, .released) →
      ∃ p', Works p p' ∧ p'.workers = p.workers.set i (j, .gone) :=
    fun hi => move hi .leave gone
  have settled : ∀ {p : Pool α}, p.workers[i]? = some (j, .settled) →
      ∃ p', Works p p' ∧ p'.workers = p.workers.set i (j, .gone) :=
    fun hi => move hi .release released
  have ran : ∀ {p : Pool α} {r}, p.workers[i]? = some (j, .ran r) →
      ∃ p', Works p p' ∧ p'.workers = p.workers.set i (j, .gone) :=
    fun hi => move hi (.settle _) settled
  have entered : ∀ {p : Pool α}, p.workers[i]? = some (j, .entered) →
      ∃ p', Works p p' ∧ p'.workers = p.workers.set i (j, .gone) :=
    fun hi => move hi .run ran
  intro p hi hslot
  cases phase with
  | waiting => exact move hi (.enter (hslot rfl)) entered
  | entered => exact entered hi
  | ran r => exact ran hi
  | settled => exact settled hi
  | released => exact released hi
  | gone => exact gone hi

/-- The number of workers that have not left. -/
def left (p : Pool α) : Nat := p.workers.countP fun w => !w.2.isGone

/-- While workers have not left, one of them need not wait. -/
lemma exists_busy (h : 0 < p.left) : ∃ (i : Nat) (j : Job α) (phase : Phase α), p.workers[i]? = some
    (j, phase) ∧
    phase.isGone = false ∧ (phase = .waiting → p.hasSlot = true) := by
  cases hslot : p.hasSlot with
  | true =>
    obtain ⟨⟨j, phase⟩, hmem, hphase⟩ := List.countP_pos_iff.1 h
    obtain ⟨i, hi⟩ := List.mem_iff_getElem?.1 hmem
    exact ⟨i, j, phase, hi, by simpa using hphase, fun _ => rfl⟩
  | false =>
    have huse : 0 < p.inUse := by
      by_contra hnone
      have : p.limit ≠ 0 ∧ p.limit ≤ p.inUse := by simpa [hasSlot] using hslot
      omega
    obtain ⟨⟨j, phase⟩, hmem, hphase⟩ := List.countP_pos_iff.1 huse
    obtain ⟨i, hi⟩ := List.mem_iff_getElem?.1 hmem
    refine ⟨i, j, phase, hi, ?_, ?_⟩
    · cases phase <;> first | rfl | cases hphase
    · rintro rfl
      cases hphase

/-- All workers can come to their ends, one after the other. -/
lemma works_all_gone (n : Nat) : ∀ {p : Pool α}, p.left = n →
    ∃ p', Works p p' ∧ p'.left = 0 := by
  induction n with
  | zero => exact fun h => ⟨_, .refl _, h⟩
  | succ n ih =>
    intro p hn
    obtain ⟨i, j, phase, hi, hphase, hslot⟩ := exists_busy (p := p) (by omega)
    obtain ⟨p', hworks, heq⟩ := works_gone phase hi hslot
    obtain ⟨rest, hbefore, hafter⟩ := exists_rest hi
    have hbefore := hbefore.countP_eq fun w => !w.2.isGone
    have hafter := (hafter .gone).countP_eq fun w => !w.2.isGone
    rw [List.countP_cons, hphase] at hbefore
    rw [List.countP_cons, ← heq] at hafter
    have hn' : p'.left = n := by
      simp only [left, Phase.isGone, Bool.not_true, Bool.not_false, Bool.false_eq_true, if_false,
        if_true] at hn hbefore hafter ⊢
      omega
    obtain ⟨p'', hworks', hp''⟩ := ih hn'
    exact ⟨p'', hworks.trans hworks', hp''⟩

lemma isGone_of_left (h : p.left = 0) : ∀ w ∈ p.workers, w.2.isGone = true := by
  intro w hw
  simpa using List.countP_eq_zero.1 h w hw

/-- Workers that have left hold no slots. -/
lemma inUse_of_left (h : p.left = 0) : p.inUse = 0 := by
  refine List.countP_eq_zero.2 fun w hw => ?_
  have hgone := isGone_of_left h w hw
  cases hphase : w.2 <;> rw [hphase] at hgone <;> first | exact Bool.false_ne_true | cases hgone

/-! ## What clients can rely on -/

section

variable {limit : Nat} {steps : List (PoolStep α)}

/-- What clients can rely on, when the steps of a fresh pool have led to a state. -/
structure Bounded (limit : Nat) (steps : List (PoolStep α)) (p : Pool α) : Prop where
  /-- With a positive limit, at most that many slots are in use. -/
  atMost : 0 < limit → p.inUse ≤ limit
  /-- No handle is settled twice. -/
  once : (p.settled.map Prod.fst).Nodup
  /-- When a worker has left, the handle of its job has been settled once. -/
  ends : ∀ (i : Nat) (j : Job α), p.workers[i]? = some (j, Phase.gone) →
    (p.settled.map Prod.fst).count j.handle = 1
  /-- A worker that gave up waiting did so because the context of its job was cancelled. It never
  runs the job, and the handle is settled with the error of the context. -/
  refused : ∀ (i : Nat) (j : Job α) (phase : Phase α), p.workers[i]? = some (j, phase) →
    Move.refuse ∈ movesOf i steps →
    j.context ∈ p.cancelled ∧ Move.run ∉ movesOf i steps ∧
      ∀ r, (j.handle, r) ∈ p.settled → r = .error .canceled
  /-- The handle of a job that is run is settled with the result of its work, which is an error when
  the job breaks down, or with the error of its context. -/
  results : ∀ (i : Nat) (j : Job α) (phase : Phase α) r, p.workers[i]? = some (j, phase) →
    (j.handle, r) ∈ p.settled →
    Own p j r
  /-- A worker that takes a slot gives it back once, after its job has run and before it leaves; a
  worker that gives up waiting has none to give back. -/
  courses : ∀ (i : Nat) (j : Job α) (phase : Phase α), p.workers[i]? = some (j, phase) →
    movesOf i steps ∈ phase.courses
  /-- The slots in use are those that were taken and not given back. -/
  balance : timesMoved .enter steps = timesMoved .release steps + p.inUse
  /-- However the jobs end, the workers can go on until all have left and all slots are given
  back. -/
  goesOn : ∃ more p', (∀ a ∈ more, (PoolStep.move? a).isSome) ∧ p.steps? more = some p' ∧
    p'.inUse = 0 ∧ ∀ w ∈ p'.workers, w.2.isGone = true
  /-- When a flush returns, the handles of all jobs submitted so far are settled. -/
  flushed : (p.step? .flushed).isSome → ∀ j ∈ steps.filterMap PoolStep.job?,
    j.handle ∈ p.settled.map Prod.fst

lemma Kept.nodup_settled (h : Kept limit steps p) : (p.settled.map Prod.fst).Nodup :=
  h.handles.nodup_iff.2 (h.distinct.sublist (List.filter_sublist.map _))

lemma Kept.mem_settled (h : Kept limit steps p) {w : Job α × Phase α} (hw : w ∈ p.workers)
    (hsettled : w.2.isSettled = true) : w.1.handle ∈ p.settled.map Prod.fst :=
  h.handles.mem_iff.2 (List.mem_map.2 ⟨w, List.mem_filter.2 ⟨hw, hsettled⟩, rfl⟩)

lemma isSettled_of_isGone {phase : Phase α} (h : phase.isGone = true) : phase.isSettled = true := by
  cases phase <;> first | rfl | cases h

/-- The handle of a job tells which worker has settled it, and how. -/
lemma Kept.result (h : Kept limit steps p) {i : Nat} {j : Job α} {phase : Phase α}
    {r : Settlement α} (hi : p.workers[i]? = some (j, phase))
    (hr : (j.handle, r) ∈ p.settled) :
    Move.refuse ∈ movesOf i steps ∧ j.context ∈ p.cancelled ∧ r = .error .canceled ∨
      Move.run ∈ movesOf i steps ∧ Own p j r := by
  obtain ⟨i', j', phase', hi', hhandle, hresult⟩ := h.results j.handle r hr
  have hsame : i' = i := by
    have hlt := (List.getElem?_eq_some_iff.1 hi').1
    refine (List.getElem?_inj (by simpa [Pool.handles] using hlt) h.distinct).1 ?_
    rw [Pool.handles, List.getElem?_map, List.getElem?_map, hi, hi']
    exact congrArg some hhandle
  subst hsame
  obtain ⟨rfl, -⟩ := Prod.mk.inj (Option.some.inj (hi'.symm.trans hi))
  exact hresult

/-- A worker that has given up waiting has settled its handle without running the job. -/
lemma refused_of_mem {phase : Phase α} {c : List Move} (hc : c ∈ phase.courses)
    (hrefuse : Move.refuse ∈ c) : phase.isSettled = true ∧ Move.run ∉ c := by
  cases phase <;> simp only [Phase.courses, List.mem_cons, List.not_mem_nil, or_false] at hc
  case released | gone => rcases hc with rfl | rfl <;> revert hrefuse <;> simp [Phase.isSettled]
  all_goals
    subst hc
    revert hrefuse
    simp

/-- Whatever the order in which clients and workers take their steps, jobs are dealt with by workers
of which no more than the limit hold slots. -/
theorem bounded_run {limit : Nat} {steps : List (PoolStep α)} {p : Pool α}
    (hrun : (fresh limit).steps? steps = some p) : Bounded limit steps p := by
  have h : Kept limit steps p := kept_fresh.run steps hrun
  have hnodup := h.nodup_settled
  exact
    { atMost := h.limit ▸ h.slots
      once := hnodup
      ends := fun i j hi =>
        List.count_eq_one_of_mem hnodup (h.mem_settled (List.mem_of_getElem? hi) rfl)
      refused := by
        intro i j phase hi hrefuse
        obtain ⟨hsettled, hnever⟩ := refused_of_mem (h.course i j phase hi) hrefuse
        have hresult : ∀ r, (j.handle, r) ∈ p.settled →
            j.context ∈ p.cancelled ∧ r = .error .canceled :=
          fun r hr => ((h.result hi hr).resolve_right fun hran => hnever hran.1).2
        obtain ⟨⟨_, r⟩, hr, rfl⟩ :=
          List.mem_map.1 (h.mem_settled (List.mem_of_getElem? hi) hsettled)
        exact ⟨(hresult r hr).1, hnever, fun r hr => (hresult r hr).2⟩
      results := by
        intro i j phase r hi hr
        rcases h.result hi hr with ⟨-, hc, rfl⟩ | ⟨-, hown⟩
        · exact .inl ⟨hc, rfl⟩
        · exact hown
      courses := h.course
      balance := h.balance
      goesOn := by
        obtain ⟨p', ⟨more, hmoves, hmore⟩, hleft⟩ := works_all_gone _ (Eq.refl p.left)
        exact ⟨more, p', hmoves, hmore, inUse_of_left hleft, isGone_of_left hleft⟩
      flushed := by
        intro hflushed j hj
        rw [← h.jobs] at hj
        obtain ⟨w, hw, rfl⟩ := List.mem_map.1 hj
        refine h.mem_settled hw (isSettled_of_isGone ?_)
        by_contra hgone
        rw [step?, if_neg fun hall => hgone (List.all_eq_true.1 hall w hw)] at hflushed
        cases hflushed }

end

/-- Three jobs, for which there is one slot. The second one breaks down, and the third one's context
is cancelled while it waits. -/
def demonstration : List (PoolStep Nat) :=
  [.submit ⟨0, 0, Thunk.pure (.returned 7)⟩, .submit ⟨1, 1, Thunk.pure (.crashed "kaboom")⟩,
    .enter 0, .submit ⟨2, 2, Thunk.pure (.returned 8)⟩, .run 0, .cancel 2, .settle 0, .refuse 2,
    .release 0, .enter 1, .leave 0, .run 1, .leave 2, .settle 1, .release 1, .leave 1, .flushed]

theorem bounded_demonstration : ∃ p, (fresh 1).steps? demonstration = some p ∧
    Bounded 1 demonstration p ∧ movesOf 2 demonstration = [.refuse, .leave] ∧
    p.settled = [(1, .error (.crashed "kaboom")), (2, .error .canceled), (0, .ok 7)] :=
  ⟨_, rfl, bounded_run rfl, rfl, rfl⟩

end Pool

end Clearance.Jobs
