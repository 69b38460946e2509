/-
# Executors

An executor is serial or a pool. Clients submit jobs, cancel contexts, close it and wait; this
is one run of the steps of `Serial` and `Pool`, in which the workers come to rest whenever a
client waits.
-/
import Clearance.Jobs.Pool
import Clearance.Jobs.Serial

namespace Clearance.Jobs

variable {α : Type}

/-- An executor. -/
inductive Executor (α : Type) where
  | serial (s : Serial α)
  | pool (p : Pool α)

/-- What a client asks for. -/
inductive Order (α : Type) where
  | submit (j : Job α)
  | cancel (context : Nat)
  /-- Refuse further jobs. Pools cannot be closed. -/
  | close
  /-- Wait until all jobs have ended. -/
  | flush

namespace Executor

/-- Lets all jobs end. -/
def drain : Executor α → Executor α
  | .serial s => .serial s.drain
  | .pool p => .pool p.drain

/-- What a client asks for is done. -/
def serve : Executor α → Order α → Executor α
  | e, .flush => e.drain
  | .serial s, .submit j => .serial ((s.step? (.submit j)).getD s)
  | .serial s, .cancel context => .serial ((s.step? (.cancel context)).getD s)
  | .serial s, .close => .serial ((s.step? .close).getD s)
  | .pool p, .submit j => .pool ((p.step? (.submit j)).getD p)
  | .pool p, .cancel context => .pool ((p.step? (.cancel context)).getD p)
  | .pool p, .close => .pool p

/-- The settled handles. -/
def settled : Executor α → Settled α
  | .serial s => s.settled
  | .pool p => p.settled

/-- What a handle is settled with. -/
def settlement? (e : Executor α) (handle : Nat) : Option (Settlement α) := e.settled.lookup handle

/-- What the given handles are settled with in the end, when clients ask in turn. -/
def outcomes (e : Executor α) (orders : List (Order α)) (handles : List Nat) :
    List (Settlement α) :=
  let e := (orders.foldl serve e).drain
  handles.map fun h => (e.settlement? h).getD (.error .canceled)

end Executor
end Clearance.Jobs
