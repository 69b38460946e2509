/-
# No internal errors

What the parser accepts the evaluator can run. The code that a session comes to run has been parsed,
or its host runs trees that are as if they had been: the scripts of the host, the texts that they
evaluate or make functions of, and the functions in its heap. So it has no operator and no target
that there is no rule for, and its jumps stay in their activations (`Confined`).

A tree whose jumps have not been resolved may leave a function behind that fails when a script calls
it (`stray_break_escapes`).

That only functions are called or constructed from takes two looks at a session. The first shows
that what is asked is there, and for this it does not matter whether there are internal errors. The
second one follows the session on the ground that what is asked is there, and finds no internal
error.
-/
import Clearance.Proofs.Paired.Course

namespace Clearance

open Clearance.Action Script

/-! ## Code that stays in its activation -/

/-- The code is made of what the language has. However far it runs, from whatever state and whatever
is served, no jump leaves it, and if it is not inside a function, it returns nothing. -/
structure Confined (inside : Bool) (body : List (Stmt Span)) : Prop where
  voiced : ∀ node ∈ nodesOfStmts true body, node.voiced = true
  lands : (inOrder (stmtActions body)).Gives (Completion.Lands inside [])

lemma Script.Runnable.confined {inside : Bool} {body : List (Stmt Span)}
    (h : Runnable inside body) :
    Confined inside body := ⟨h.voiced.all, lands_body h⟩

/-- The functions in the heap are confined. -/
def Store.ConfinesFunctions (s : Store) : Prop := ∀ id fn scope,
  (s.heap.get id).behaviour = .closure fn scope → Confined true fn.body

/-- Where there are no internal errors, the functions in a regular state are made of what scripts
can have. -/
lemma Origin.Regular.confinesFunctions {O : Origin} (hlax : ¬O.lax) {cs : List Control} {s : State}
    (hs : O.Regular cs s) : s.store.ConfinesFunctions := by
  obtain ⟨hbase, hstarts⟩ := hs
  obtain ⟨-, hheaps, -, -, -, hkept⟩ := hstarts.together
  intro id fn scope hclosure
  by_cases hstore : (O.upTo s.store hbase).store id
  · -- stores do nothing
    rw [(Setting.Kept.bare hkept id hstore).behaviour] at hclosure
    cases hclosure
  · have hbehaviour := (hheaps.object id hstore).behaviour
    rw [hclosure] at hbehaviour
    cases hbehaviour with
    | closure hfn _ => exact (Runnable.of_function (hfn.allowed.all_proper hlax)).confined

/-! ## Hosts -/

/-- A host whose functions and objects do what scripts could do, also where there are no internal
errors: then they fail with none. -/
structure Hosts.Faultless (hosts : Hosts) : Prop where
  composed : hosts.Composed .none
  alike : ∀ W : World, W.faithful → W.Hosts hosts hosts

namespace Hosts

lemma Faultless.modest {hosts : Hosts} (h : hosts.Faultless) : hosts.Modest :=
  ⟨h.composed, fun W hfaithful _ => h.alike W hfaithful⟩

lemma faultless_none : Hosts.none.Faultless := ⟨composed_none _, fun W _ => W.hosts_none⟩

end Hosts

/-! ## Two looks at a session -/

lemma World.Requests.target_fits {W : World} {r r' : Request} (h : W.Requests r r') :
    W.fits r.target := by
  cases h with
  | call hfn _ _ => exact hfn.fits
  | construct hfn _ => exact hfn.fits
  | hasInstance hfn _ => exact hfn.fits

/-- What is asked at a moment of a run from a regular state is there: the run is followed up to this
moment, and what scripts hold is there by then. -/
lemma Origin.Sees.asksPresent {O : Origin} {m : Moment} (h : O.Sees m) : m.AsksPresent := by
  intro r hr
  obtain ⟨hbase, -⟩ := h.start
  obtain ⟨_, hrequest⟩ := h.request m.state.store hbase rfl r hr
  have hstore : ¬(O.upTo m.state.store hbase).store r.target.id := hrequest.target_fits.1
  exact Nat.lt_of_not_le fun hle => hstore (.inl hle)

/-- Where there are no internal errors, a moment of a run from a regular state has none. -/
lemma Origin.Sees.not_internal {O : Origin} (hlax : ¬O.lax) {m : Moment} (h : O.Sees m)
    (message : String) (t : State) : m.outcome ≠ .failed (.internal message) t := by
  intro ho
  obtain ⟨hbase, -⟩ := h.final
  obtain ⟨_, hfailure⟩ := h.failure _ hbase rfl _ _ ho
  cases hfailure with
  | internal hinternal _ => exact hlax hinternal

section

variable {hosts : Hosts} (hhosts : hosts.Faultless) {s₀ : State} (h₀ : Library.Untouched s₀)
  {ms : List Moment} {s : State}
  (h : CourseWith Evaluable hosts s₀ (Grade.full s₀.control.realm.lattice) ms s)
include hhosts h₀ h

/-- The second look. -/
lemma CourseWith.lived_strict : (h₀.origin .strict).Lived hosts ms s := by
  have hlived := Course.lived_full hhosts.modest h₀ h.course
  exact CourseWith.lived h₀ .strict ⟨hhosts.composed, fun _ _ => hhosts.alike _ trivial⟩ h
    (fun _ _ hbody => hbody) (Grade.reads_full ms) fun _ m hm => (hlived.sees m hm).asksPresent

end

/-- **Parser and evaluator agree on the language.** Whatever a host has a session do by scripts that
the parser accepts and by trees that are as those of scripts, no moment ends with an internal error:
not those of the scripts, nor those of the texts that they evaluate or make functions of. No
function in the heap, at any moment, and no script that is parsed has an operator or a target
without a rule, and no jump leaves its activation. -/
theorem evaluable_code_has_no_internal_errors {hosts : Hosts} (hhosts : hosts.Faultless)
    {o : Library.Options} {ms : List Moment} {s : State}
    (h : CourseWith Evaluable hosts (Session.fresh o)
      (Grade.full (Session.fresh o).control.realm.lattice) ms s) :
    (∀ m ∈ ms, ∀ message t, m.outcome ≠ .failed (.internal message) t) ∧
      (∀ m ∈ ms, m.state.store.ConfinesFunctions ∧ m.outcome.state.store.ConfinesFunctions) ∧
      ∀ intrinsic file text line program,
        Script.parse intrinsic file text line = .ok program →
          Evaluable program.body ∧ Confined false program.body := by
  have hlived := h.lived_strict hhosts (Session.untouched_fresh o)
  refine ⟨fun m hm => (hlived.sees m hm).not_internal id, fun m hm => ⟨?_, ?_⟩, ?_⟩
  · exact (hlived.sees m hm).start.confinesFunctions id
  · exact (hlived.sees m hm).final.confinesFunctions id
  · intro intrinsic file text line program hparse
    have hevaluable := evaluable_of_parse hparse
    exact ⟨hevaluable, hevaluable.runnable.confined⟩

/-- A function with jumps out of a loop and of a final block, called by an evaluated text. -/
def jumpingSource : String :=
  "function f(n) \x7b for (;;) \x7b try \x7b continue; \x7d finally \x7b break; \x7d \x7d " ++
    "return n; \x7d var b = eval('f(true)');"

/-- All that happens while the script runs. -/
def jumpingMoments : List Moment :=
  (evaluate jumpingSource "" 1).momentsOn .none 50 50 [] (Session.fresh .standard)

set_option maxRecDepth 100000 in
/-- The script runs to its end. -/
theorem jumping_script_has_no_internal_errors :
    Session.endsWith (evaluate jumpingSource "" 1) .none 50
      (Session.fresh .standard) "b" true = true ∧
      ∀ m ∈ jumpingMoments, ∀ message t, m.outcome ≠ .failed (.internal message) t := by
  have hends : Session.endsWith (evaluate jumpingSource "" 1) .none 50 (Session.fresh .standard)
      "b" true = true := by
    rw [show jumpingSource = String.ofList _ from String.ofList_append.symm, evaluate_ofList]
    decide +kernel
  refine ⟨hends, ?_⟩
  have hdeed : DeedWith Evaluable (Grade.full (Session.fresh .standard).control.realm.lattice)
      (Session.fresh .standard).store (evaluate jumpingSource "" 1) :=
    .evaluate jumpingSource "" 1 fun _ _ node _ => Grade.allows_full node
  have hcourse : CourseWith Evaluable .none (Session.fresh .standard) (Grade.full _)
      ([] ++ jumpingMoments) _ := .deed 50 50 .start hdeed
  rw [List.nil_append] at hcourse
  exact (evaluable_code_has_no_internal_errors Hosts.faultless_none hcourse).1

/-! ## Jumps that are not resolved -/

/-- A function with a jump that goes nowhere, as a host may put it together by itself. -/
def strayBreak : List (Stmt Span) :=
  [.function .unknown (.mk .unknown (some ⟨.unknown, "f"⟩) []
    [.breakTo .unknown none none] .declared "")]

/-- What a script fails with after a tree has been run. -/
def internalAfter (body : List (Stmt Span)) (source : String) : Option String :=
  match (Session.runTree body).run (machine .none 50 50) 50 (Session.fresh .standard) with
  | .done _ s => match (evaluate source "" 1).run (machine .none 50 50) 50 s with
    | .failed (.internal message) _ => some message
    | _ => none
  | _ => none

set_option maxRecDepth 100000 in
/-- A script that the parser accepts ends with an internal error, since the host has run a tree
without resolving its jumps. -/
theorem stray_break_escapes :
    (∃ program, Script.parse defaultIntrinsic "" "f()" 1 = .ok program) ∧
      internalAfter strayBreak "f()" = some "break escaped function code" := by
  obtain ⟨hparses, hfails⟩ : (Script.parse defaultIntrinsic "" "f()" 1).toBool = true ∧
      internalAfter strayBreak "f()" = some "break escaped function code" := by decide +kernel
  refine ⟨?_, hfails⟩
  cases hparse : Script.parse defaultIntrinsic "" "f()" 1 with
  | ok program => exact ⟨program, rfl⟩
  | error e =>
    rw [hparse] at hparses
    cases hparses

end Clearance
