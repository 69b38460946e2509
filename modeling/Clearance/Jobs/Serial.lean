/-
# One job at a time

A serial executor keeps a queue. Its single worker takes the oldest job, runs it, settles its
handle and goes on; once the executor is closed, new jobs are refused and the worker leaves
when the queue is empty. The steps of clients and of the worker can come in any order in which
each one is possible.
-/
import Clearance.Jobs.Job

namespace Clearance.Jobs

variable {α : Type}

/-- What the worker is doing. -/
inductive Worker (α : Type) where
  | idle
  /-- A job is taken and not run yet. -/
  | taken (j : Job α)
  /-- A job has run, its handle is open. -/
  | ran (j : Job α) (r : Settlement α)
  /-- A handle is settled. -/
  | settled (j : Job α)
  /-- The worker has left. -/
  | gone

/-- The handle of the job in progress, as long as it is open. -/
def Worker.handles : Worker α → List Nat
  | .taken j | .ran j _ => [j.handle]
  | _ => []

/-- The state of a serial executor. -/
structure Serial (α : Type) where
  /-- The waiting jobs, the oldest first. -/
  queue : List (Job α)
  worker : Worker α
  closed : Bool
  /-- The contexts that are cancelled. -/
  cancelled : List Nat
  settled : Settled α

/-- The steps of clients and of the worker. -/
inductive SerialStep (α : Type) where
  | submit (j : Job α)
  | close
  | cancel (context : Nat)
  | take
  | run
  | settle
  | finish
  | leave
  /-- Some client's flush returns. -/
  | flushed

namespace Serial

/-- A fresh executor. -/
def fresh : Serial α := ⟨[], .idle, false, [], []⟩

/-- The queue is empty and no job is in progress. -/
def isQuiet (s : Serial α) : Bool :=
  s.queue.isEmpty && match s.worker with
    | .idle | .gone => true
    | _ => false

/-- The handles that have been given out. -/
def handles (s : Serial α) : List Nat :=
  s.queue.map Job.handle ++ s.worker.handles ++ s.settled.map Prod.fst

/-- The state after a step, if the step is possible. A new job gets a handle that no other one
has. -/
def step? (s : Serial α) : SerialStep α → Option (Serial α)
  | .submit j =>
    if j.handle ∈ s.handles then none
    else if s.closed then some { s with settled := (j.handle, .error .canceled) :: s.settled }
    else some { s with queue := s.queue ++ [j] }
  | .close => some { s with closed := true }
  | .cancel context => some { s with cancelled := context :: s.cancelled }
  | .take =>
    match s.worker, s.queue with
    | .idle, j :: rest => some { s with queue := rest, worker := .taken j }
    | _, _ => none
  | .run =>
    match s.worker with
    | .taken j => some { s with worker := .ran j (j.invoke s.cancelled) }
    | _ => none
  | .settle =>
    match s.worker with
    | .ran j r => some { s with worker := .settled j, settled := (j.handle, r) :: s.settled }
    | _ => none
  | .finish =>
    match s.worker with
    | .settled _ => some { s with worker := .idle }
    | _ => none
  | .leave =>
    match s.worker, s.queue with
    | .idle, [] => if s.closed then some { s with worker := .gone } else none
    | _, _ => none
  | .flushed => if s.isQuiet then some s else none

/-- The state after several steps, if all are possible in turn. -/
def steps? (s : Serial α) (steps : List (SerialStep α)) : Option (Serial α) :=
  steps.foldlM step? s

/-- The steps with which the worker deals with one job. -/
def round : List (SerialStep α) := [.take, .run, .settle, .finish]

/-- Lets the worker deal with jobs, as many as given. -/
def work : Nat → Serial α → Serial α
  | 0, s => s
  | n + 1, s =>
    match s.steps? round with
    | some s => work n s
    | none => s

/-- Lets the worker deal with all waiting jobs. -/
def drain (s : Serial α) : Serial α := work s.queue.length s

end Serial
end Clearance.Jobs
