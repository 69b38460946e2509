/-
# Several jobs at a time

A pool runs each job on a worker of its own. With a positive limit, a worker first waits for one
of that many slots, or gives up when its context is cancelled; it gives its slot back after its
handle is settled. The steps of different workers can come in any order.
-/
import Clearance.Jobs.Job

namespace Clearance.Jobs

variable {α : Type}

/-- How far the worker of a job is. -/
inductive Phase (α : Type) where
  /-- It waits for a slot. -/
  | waiting
  /-- It may run the job. -/
  | entered
  /-- The job has run, its handle is open. -/
  | ran (r : Settlement α)
  /-- The handle is settled, the slot is still held. -/
  | settled
  /-- The slot is given back, or there was none to give back. -/
  | released
  | gone

/-- The worker holds a slot. -/
def Phase.holds : Phase α → Bool
  | .entered | .ran _ | .settled => true
  | _ => false

/-- The worker has left. -/
def Phase.isGone : Phase α → Bool
  | .gone => true
  | _ => false

/-- The state of a pool. -/
structure Pool (α : Type) where
  /-- The number of slots, zero for any number. -/
  limit : Nat
  /-- The jobs in the order of their submission, with their workers. -/
  workers : List (Job α × Phase α)
  /-- The contexts that are cancelled. -/
  cancelled : List Nat
  settled : Settled α

/-- The steps of clients and of workers, who are named by their position. -/
inductive PoolStep (α : Type) where
  | submit (j : Job α)
  | cancel (context : Nat)
  | enter (i : Nat)
  /-- The worker gives up waiting for a slot. -/
  | refuse (i : Nat)
  | run (i : Nat)
  | settle (i : Nat)
  | release (i : Nat)
  | leave (i : Nat)
  /-- Some client's flush returns. -/
  | flushed

namespace Pool

/-- A fresh pool. -/
def fresh (limit : Nat) : Pool α := ⟨limit, [], [], []⟩

/-- The number of slots in use. -/
def inUse (p : Pool α) : Nat := p.workers.countP fun w => w.2.holds

/-- A slot is free. -/
def hasSlot (p : Pool α) : Bool := p.limit == 0 || p.inUse < p.limit

/-- Moves a worker on. -/
def move (p : Pool α) (i : Nat) (j : Job α) (phase : Phase α) : Pool α :=
  { p with workers := p.workers.set i (j, phase) }

/-- Settles a handle. -/
def settle (p : Pool α) (j : Job α) (r : Settlement α) : Pool α :=
  { p with settled := (j.handle, r) :: p.settled }

/-- The handles that have been given out. -/
def handles (p : Pool α) : List Nat := p.workers.map fun w => w.1.handle

/-- The state after a step, if the step is possible. A new job gets a handle that no other one
has. -/
def step? (p : Pool α) : PoolStep α → Option (Pool α)
  | .submit j =>
    if j.handle ∈ p.handles then none
    else some { p with workers := p.workers ++ [(j, .waiting)] }
  | .cancel context => some { p with cancelled := context :: p.cancelled }
  | .enter i =>
    match p.workers[i]? with
    | some (j, .waiting) => if p.hasSlot then some (p.move i j .entered) else none
    | _ => none
  | .refuse i =>
    match p.workers[i]? with
    | some (j, .waiting) =>
      if p.limit ≠ 0 ∧ j.context ∈ p.cancelled then
        some ((p.move i j .released).settle j (.error .canceled))
      else none
    | _ => none
  | .run i =>
    match p.workers[i]? with
    | some (j, .entered) => some (p.move i j (.ran (j.invoke p.cancelled)))
    | _ => none
  | .settle i =>
    match p.workers[i]? with
    | some (j, .ran r) => some ((p.move i j .settled).settle j r)
    | _ => none
  | .release i =>
    match p.workers[i]? with
    | some (j, .settled) => some (p.move i j .released)
    | _ => none
  | .leave i =>
    match p.workers[i]? with
    | some (j, .released) => some (p.move i j .gone)
    | _ => none
  | .flushed => if p.workers.all (fun w => w.2.isGone) then some p else none

/-- The state after several steps, if all are possible in turn. -/
def steps? (p : Pool α) (steps : List (PoolStep α)) : Option (Pool α) := steps.foldlM step? p

/-- The steps of a worker from its submission to its end. -/
def lifetime (i : Nat) : List (PoolStep α) := [.enter i, .run i, .settle i, .release i, .leave i]

/-- Lets the given workers go through their lifetimes one after the other, where that is
possible. -/
def work : List Nat → Pool α → Pool α
  | [], p => p
  | i :: rest, p => work rest ((p.steps? (lifetime i)).getD p)

/-- Lets all workers come to their ends. -/
def drain (p : Pool α) : Pool α := work (List.range p.workers.length) p

end Pool
end Clearance.Jobs
