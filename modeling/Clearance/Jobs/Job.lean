/-
# Jobs

A job is one piece of work with a context that can be cancelled. Running it ends with a result,
with a failure, or by breaking down; whoever submitted it holds a handle, which is settled once
the job has ended.
-/

namespace Clearance.Jobs

/-- How running a job ends. -/
inductive Ending (α : Type) where
  | returned (a : α)
  | failed (text : String)
  /-- The job broke down. -/
  | crashed (text : String)

/-- Why a handle is settled without a result. -/
inductive JobError where
  /-- The context was cancelled, or the executor was closed. -/
  | canceled
  | failed (text : String)
  | crashed (text : String)
deriving DecidableEq, Repr

/-- The text of the error. -/
def JobError.message : JobError → String
  | .canceled => "context canceled"
  | .failed text => text
  | .crashed text => "panic: " ++ text

/-- What a handle is settled with. -/
abbrev Settlement (α : Type) := Except JobError α

/-- What a handle is settled with when its job ends in the given way. -/
def Ending.settlement {α : Type} : Ending α → Settlement α
  | .returned a => .ok a
  | .failed text => .error (.failed text)
  | .crashed text => .error (.crashed text)

/-- A piece of work. -/
structure Job (α : Type) where
  /-- The number of the handle. -/
  handle : Nat
  /-- The number of the context. -/
  context : Nat
  work : Thunk (Ending α)

/-- What running a job leads to: a job whose context is cancelled is not run. -/
def Job.invoke {α : Type} (j : Job α) (cancelled : List Nat) : Settlement α :=
  if j.context ∈ cancelled then .error .canceled else j.work.get.settlement

/-- The settled handles, the latest first. -/
abbrev Settled (α : Type) := List (Nat × Settlement α)

end Clearance.Jobs
