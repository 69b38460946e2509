/-
# Violations end the run

A report of a forbidden flow is a failure that scripts cannot catch: whatever attempts are in
progress when it is made pass it on, up to the host. The exceptions are the operations that
`Silences` lists. `Orderly` says of the visits of a run that no report but those is ever
followed by anything: the run fails with the report, in the store of the report, and all that is
still started is passing it on.
-/
import Clearance.Proofs.Scripted.Serve
import Clearance.Proofs.Started

namespace Clearance

open Clearance.Action

/-- The same store, up to the value of the last expression statement. -/
def Store.SameButResult (a b : Store) : Prop := { a with result := b.result } = b

/-- The visit reports a violation. -/
def Visit.Reports (w : Visit) (v : Violation) : Prop := w.action = .fail (.violation v)

/-- No operation in progress keeps the failure of the visit to itself. -/
def Visit.Exposed (w : Visit) : Prop := ∀ a ∈ w.catching, ¬Silences a

/-- The run ends with a violation, in a given store. -/
def Outcome.FailsWith {α : Type} (o : Outcome α) (v : Violation) (b : Store) : Prop :=
  ∃ t, o = .failed (.violation v) t ∧ t.store.SameButResult b

/-- An exposed report among the visits is the outcome, and is only passed on after it is made. -/
def Orderly {α : Type} (o : Outcome α) : List Visit → Prop
  | [] => True
  | w :: ws =>
    (∀ v, w.Reports v → w.Exposed →
      o.FailsWith v w.state.store ∧ ∀ x ∈ ws, PassesOn v x.action) ∧ Orderly o ws

namespace Store.SameButResult

lemma refl (a : Store) : a.SameButResult a := rfl

/-- The result can be put back. -/
lemma restore {a b : Store} (h : a.SameButResult b) (r : Value) :
    ({ a with result := r } : Store).SameButResult b := h

end Store.SameButResult

variable {α β : Type} {serve : Service} {watch : Watch} {fuel : Nat}

/-! ## Passing on -/

lemma PassesOn.run {v : Violation} {p : Action α} (h : PassesOn v p) (s : State) :
    p.run serve fuel s = .failed (.violation v) s := by
  induction h with
  | fail => rfl
  | andThen _ ih => rw [← bind_eq, run_bind, ih]

lemma PassesOn.visits {v : Violation} {p : Action α} (h : PassesOn v p) (next : Next α)
    (cs : List Attempt) (s : State) :
    ∀ x ∈ p.visits serve watch fuel next cs s, PassesOn v x.action := by
  induction h with
  | fail =>
    intro x hx
    rw [List.mem_singleton.1 hx]
    exact .fail
  | andThen hp ih =>
    intro x hx
    rw [← bind_eq, visits_bind, hp.run, List.append_nil] at hx
    rcases List.mem_cons.1 hx with rfl | hx
    · exact .andThen hp
    · exact ih _ x hx

/-- What is made of a silenced violation is never the same violation. -/
theorem Silences.swallows {p : Action β} {after : Except Failure β → Action α}
    (h : Silences ⟨p, after⟩) (v : Violation) (s t : State) :
    (after (.error (.violation v))).run serve fuel s ≠ .failed (.violation v) t := by
  intro hrun
  cases h with
  | reading h => cases h; cases hrun
  | converting h => cases h; cases hrun
  | adapting h => cases h; cases hrun
  | comparing h => cases h; cases hrun
  | measuring h => cases h; cases hrun

/-! ## Orderly visits -/

namespace Orderly

/-- An action that reports nothing starts first. -/
lemma cons {o : Outcome α} {w : Visit} {ws : List Visit} (hw : ∀ v, ¬w.Reports v)
    (h : Orderly o ws) : Orderly o (w :: ws) :=
  ⟨fun v hv => absurd hv (hw v), h⟩

/-- The visits of the first part of a run, followed by those of the rest: a report of the first
part has to be passed on by the rest. -/
lemma append {o : Outcome β} {o' : Outcome α} {ws ws' : List Visit} (h : Orderly o ws)
    (hpass : ∀ v b, o.FailsWith v b → o'.FailsWith v b ∧ ∀ x ∈ ws', PassesOn v x.action)
    (h' : Orderly o' ws') : Orderly o' (ws ++ ws') := by
  induction ws with
  | nil => exact h'
  | cons w ws ih =>
    refine ⟨fun v hv hexp => ?_, ih h.2⟩
    obtain ⟨hfail, hlater⟩ := h.1 v hv hexp
    refine ⟨(hpass v _ hfail).1, fun x hx => ?_⟩
    rcases List.mem_append.1 hx with hx | hx
    · exact hlater x hx
    · exact (hpass v _ hfail).2 x hx

/-- Reports that are silenced do not count. -/
lemma append_silenced {o : Outcome α} {ws ws' : List Visit} (h : ∀ w ∈ ws, ¬w.Exposed)
    (h' : Orderly o ws') : Orderly o (ws ++ ws') := by
  induction ws with
  | nil => exact h'
  | cons w ws ih =>
    rw [List.forall_mem_cons] at h
    exact ⟨fun v _ hexp => absurd hexp h.1, ih h.2⟩

/-- The outcome of a part is the outcome of the whole as far as violations go. -/
lemma lift {o : Outcome β} {o' : Outcome α} {ws : List Visit} (h : Orderly o ws)
    (hpass : ∀ v b, o.FailsWith v b → o'.FailsWith v b) : Orderly o' ws := by
  rw [← List.append_nil ws]
  exact append h (fun v b hf => ⟨hpass v b hf, by simp⟩) trivial

/-- The first exposed report decides. -/
lemma of_append {o : Outcome α} {before after : List Visit} {w : Visit}
    (h : Orderly o (before ++ w :: after)) {v : Violation} (hv : w.Reports v)
    (hexp : w.Exposed) :
    o.FailsWith v w.state.store ∧ ∀ x ∈ after, PassesOn v x.action := by
  induction before with
  | nil => exact h.1 v hv hexp
  | cons _ _ ih => exact ih h.2

end Orderly

/-! ## Runs -/

/-- Whatever is served, its visits are orderly, and they know the attempts in progress. -/
structure Watch.Orderly (watch : Watch) (serve : Service) : Prop where
  orderly : ∀ r cs s, Clearance.Orderly (serve r s) (watch r cs s)
  catching : ∀ r cs s, ∀ w ∈ watch r cs s, ∀ a ∈ cs, a ∈ w.catching

lemma orderly_iterate {σ : Type} {step : σ → State → Outcome (σ ⊕ α)}
    {seen : σ → State → List Visit} {I : σ → Prop}
    (h : ∀ x s, I x → Orderly (step x s) (seen x s))
    (hI : ∀ x s y t, I x → step x s = .done (.inl y) t → I y) (n : Nat) {x : σ} (hx : I x)
    (s : State) : Orderly (iterate step n x s) (iterateVisits step seen n x s) := by
  induction n generalizing x s with
  | zero => trivial
  | succ n ih =>
    have hstep := h x s hx
    unfold iterate iterateVisits
    cases ho : step x s with
    | done r u =>
      rw [ho] at hstep
      cases r with
      | inl y => exact hstep.append (by rintro v b ⟨t, ⟨⟩, _⟩) (ih (hI x s y u hx ho) u)
      | inr a => exact hstep.append (by rintro v b ⟨t, ⟨⟩, _⟩) trivial
    | failed f u =>
      rw [ho] at hstep
      refine hstep.append (fun v b hf => ⟨?_, by simp⟩) trivial
      obtain ⟨t, ⟨⟩, hb⟩ := hf
      exact ⟨u, rfl, hb⟩
    | stuck y u =>
      rw [ho] at hstep
      exact hstep.append (by rintro v b ⟨t, ⟨⟩, _⟩) trivial

/-- The visits of a sequence are orderly when those of its parts are. -/
lemma orderly_andThen {p : Action β} {k : β → Action α} {cs : List Attempt} {s : State}
    (next : Next α) (hp : Orderly (p.run serve fuel s) (p.visits serve watch fuel ⟨k⟩ cs s))
    (hk : ∀ b u, p.run serve fuel s = .done b u →
      Orderly ((k b).run serve fuel u) ((k b).visits serve watch fuel .nothing cs u)) :
    Orderly ((p >>= k).run serve fuel s) ((p >>= k).visits serve watch fuel next cs s) := by
  rw [visits_bind, run_bind]
  refine .cons (by rintro v ⟨⟩) ?_
  cases ho : p.run serve fuel s with
  | done b u =>
    rw [ho] at hp
    exact hp.append (by rintro v b ⟨t, ⟨⟩, _⟩) (hk b u ho)
  | failed f u =>
    rw [ho] at hp
    refine hp.append (fun v b hf => ⟨?_, by simp⟩) trivial
    obtain ⟨t, ⟨⟩, hb⟩ := hf
    exact ⟨u, rfl, hb⟩
  | stuck y u =>
    rw [ho] at hp
    exact hp.append (by rintro v b ⟨t, ⟨⟩, _⟩) trivial

/-- The visits of an attempt and what follows it, given what a violation becomes. -/
lemma orderly_attempt {p : Action β} {k : Except Failure β → Action α} {cs : List Attempt}
    {s : State} (next : Next α)
    (hjoin : ∀ (r : Except Failure β) (u : State),
      (attempt p).run serve fuel s = .done r u →
        Orderly ((k r).run serve fuel u)
          (p.visits serve watch fuel .nothing (⟨p, k⟩ :: cs) s ++
            (k r).visits serve watch fuel .nothing cs u))
    (hstuck : ∀ w u, p.run serve fuel s = .stuck w u →
      Orderly (.stuck w u : Outcome α) (p.visits serve watch fuel .nothing (⟨p, k⟩ :: cs) s)) :
    Orderly ((attempt p >>= k).run serve fuel s)
      ((attempt p >>= k).visits serve watch fuel next cs s) := by
  rw [visits_bind, run_bind, visits_attempt, List.cons_append]
  refine .cons (by rintro v ⟨⟩) (.cons (by rintro v ⟨⟩) ?_)
  cases ho : p.run serve fuel s with
  | done b u =>
    have ha : (attempt p).run serve fuel s = .done (.ok b) u := by rw [run_attempt, ho]
    rw [ha]
    exact hjoin _ _ ha
  | failed f u =>
    have ha : (attempt p).run serve fuel s = .done (.error f) u := by rw [run_attempt, ho]
    rw [ha]
    exact hjoin _ _ ha
  | stuck w u =>
    have ha : (attempt p).run serve fuel s = .stuck w u := by rw [run_attempt, ho]
    rw [ha, List.append_nil]
    exact hstuck w u ho

/-- The result of a scripted action is as announced, where nothing is above the floor and
everything may be written. -/
lemma scripted_result {floor : Label} {W : Nat → Prop} {p : Action α} {Q : α → Prop}
    (h : Scripted floor W p Q) (hfloor : ∀ k, floor.leq k = true) (hW : ∀ id, W id)
    {s t : State} {a : α} (hrun : p.run serve fuel s = .done a t) : Q a := by
  induction h generalizing s t with
  | give hQ => cases hrun; exact hQ
  | current => exact hfloor _
  | allocate => exact hW _
  | guard => exact hW _
  | note | touch | checked | invoke | await => trivial
  | fail => cases hrun
  | mono _ hmono ih => exact hmono _ (ih hW hrun)
  | andThen _ _ ihp ihk =>
    obtain ⟨b, u, hp, hk⟩ := run_bind_done.1 hrun
    exact ihk b (ihp hW hp) hW hk
  | pass _ _ _ _ ihp ihok iherr =>
    obtain ⟨r, u, hp, hk⟩ := run_bind_done.1 hrun
    rcases run_attempt_done.1 hp with ⟨b, rfl, hb⟩ | ⟨f, rfl, -⟩
    · exact ihok b (ihp hW hb) hW hk
    · exact iherr f hW hk
  | silence _ _ _ _ ihp ihok iherr =>
    obtain ⟨r, u, hp, hk⟩ := run_bind_done.1 hrun
    rcases run_attempt_done.1 hp with ⟨b, rfl, hb⟩ | ⟨f, rfl, -⟩
    · exact ihok b (ihp hW hb) hW hk
    · exact iherr f hW hk
  | region _ _ ih =>
    rw [run_region, Outcome.mapState_eq_done] at hrun
    obtain ⟨u, hu, -⟩ := hrun
    exact ih hW hu
  | activation _ _ ih =>
    rw [run_activation] at hrun
    split at hrun
    · rename_i hu
      cases hrun
      exact ih hW hu
    · cases hrun
    · cases hrun
  | loop hinit _ ih => exact iterate_done (fun x u r v hx hr => ih x hx hW hr) hinit hrun

/-- The visits of scripted actions are orderly. -/
theorem orderly_visits (hwatch : watch.Orderly serve) {floor : Label} {W : Nat → Prop}
    {p : Action α} {Q : α → Prop} (h : Scripted floor W p Q) (hfloor : ∀ k, floor.leq k = true)
    (hW : ∀ id, W id) (next : Next α) (cs : List Attempt) (s : State) :
    Orderly (p.run serve fuel s) (p.visits serve watch fuel next cs s) := by
  -- what is visited after an exposed report only passes it on, up to the end of the run
  induction h generalizing cs s with
  | give | current | note | allocate | touch => exact .cons (by rintro v ⟨⟩) trivial
  | await => exact .cons (by rintro v ⟨⟩) trivial
  | invoke => exact .cons (by rintro v ⟨⟩) (hwatch.orderly _ _ _)
  | fail =>
    refine ⟨fun v hv _ => ⟨?_, by simp⟩, trivial⟩
    obtain rfl : _ = Failure.violation v := by injection hv
    exact ⟨s, rfl, .refl _⟩
  | mono _ _ ih => exact ih hW _ _ _
  | guard _ ih => exact ih (fun _ => trivial) _ _ _
  | checked _ _ ih => exact ih (fun _ => trivial) _ _ _
  | andThen hp _ ihp ihk =>
    exact orderly_andThen next (ihp hW _ _ _) fun b u hb =>
      ihk b (scripted_result hp hfloor hW hb) hW _ _ _
  | pass hp _ _ hpass ihp ihok iherr =>
    refine orderly_attempt next (fun r u hr => ?_) fun w u hw => ?_
    · rcases run_attempt_done.1 hr with ⟨b, rfl, hb⟩ | ⟨f, rfl, hf⟩
      · refine (ihp hW _ _ s).append ?_ (ihok b (scripted_result hp hfloor hW hb) hW _ _ _)
        rw [hb]
        rintro v b' ⟨t, ⟨⟩, _⟩
      · refine (ihp hW _ _ s).append ?_ (iherr f hW _ _ _)
        rw [hf]
        rintro v b ⟨t, ⟨⟩, hb⟩
        exact ⟨⟨u, (hpass v).run u, hb⟩, (hpass v).visits _ _ _⟩
    · exact (ihp hW _ _ s).lift (by rw [hw]; rintro v b ⟨t, ⟨⟩, _⟩)
  -- what is silenced stays hidden: every visit below has the attempt in progress
  | @silence W _ _ p k _ _ hp _ _ hs ihp ihok iherr =>
    have hidden : ∀ w ∈ p.visits serve watch fuel .nothing (⟨p, k⟩ :: cs) s, ¬w.Exposed :=
      fun w hw hexp =>
        hexp _ (catching_of_mem_visits hwatch.catching _ _ _ _ w hw _ List.mem_cons_self) hs
    refine orderly_attempt next (fun r u hr => .append_silenced hidden ?_) fun w u hw => ?_
    · rcases run_attempt_done.1 hr with ⟨b, rfl, hb⟩ | ⟨f, rfl, hf⟩
      · exact ihok b (scripted_result hp hfloor hW hb) hW _ _ _
      · exact iherr f hW _ _ _
    · rw [← List.append_nil (p.visits ..)]
      exact .append_silenced hidden trivial
  | region _ _ ih =>
    refine .cons (by rintro v ⟨⟩) ((ih hW _ _ _).lift ?_)
    rintro v b ⟨t, ht, hb⟩
    rw [run_region, ht]
    exact ⟨_, rfl, hb⟩
  | activation _ _ ih =>
    refine .cons (by rintro v ⟨⟩) ((ih hW _ _ _).lift ?_)
    rintro v b ⟨t, ht, hb⟩
    rw [run_activation, ht]
    exact ⟨_, rfl, hb.restore _⟩
  | loop hinit hstep ih =>
    refine .cons (by rintro v ⟨⟩) (orderly_iterate (fun x u hx => ih x hx hW _ _ _) ?_ _ hinit _)
    exact fun x u y v hx hr => scripted_result (hstep x hx) hfloor hW hr

lemma machineWatch_orderly {hosts : Hosts} (h : hosts.Scripted) (rounds levels : Nat) :
    (machineWatch hosts rounds levels).Orderly (machine hosts rounds levels) := by
  refine ⟨?_, catching_of_mem_machineWatch hosts rounds levels⟩
  induction levels with
  | zero => exact fun _ _ _ => trivial
  | succ n ih =>
    intro r cs s
    have hwatch : (machineWatch hosts rounds n).Orderly (machine hosts rounds n) :=
      ⟨ih, catching_of_mem_machineWatch hosts rounds n⟩
    unfold machine
    split_ifs
    all_goals
      exact orderly_visits hwatch (scripted_perform h r) Label.none_leq (fun _ => trivial) ..

/-! ## The host -/

/-- The ways in which a host has scripts run. -/
inductive HostEntry : Action Value → Prop
  | evaluate (source file : String) (line : Int) : HostEntry (evaluate source file line)
  | runTree (body : List (Script.Stmt Script.Span)) : HostEntry (Session.runTree body)
  | call (fn this : Value) (args : List Value) : HostEntry (Library.hostCall fn this args)
  | construct (fn : Value) (args : List Value) : HostEntry (Session.construct fn args)
  | apply (fn this list : Value) : HostEntry (Session.applyFunction fn this list)

lemma HostEntry.neat {p : Action Value} (h : HostEntry p) {site : Site}
    (hfloor : site.floor = .none)
    {W N : Nat → Prop} : Neat site W N p := by
  cases h with
  | evaluate source file line =>
    unfold Clearance.evaluate
    split
    · exact .fail
    · exact neat_runProgram hfloor ..
  | runTree body => exact .current (fun _ _ => rfl) fun _ _ => neat_runProgram hfloor ..
  | call fn this args => exact Library.neat_hostCall ..
  | construct fn args =>
    refine neat_forHost (.seq (.look _) fun _ => ?_)
    split
    · exact .invoke
    · exact .seq (neat_inspect _) fun _ => .fail
  | apply fn this list =>
    exact .seq (neat_forHost (Library.neat_argumentList _)) fun _ =>
      Library.neat_hostCall ..

lemma HostEntry.built {p : Action Value} (h : HostEntry p) {site : Site}
    (hfloor : site.floor = .none)
    {W N : Nat → Prop} : Ordinary site W N p := (h.neat hfloor).built

lemma HostEntry.composed {p : Action Value} (h : HostEntry p) :
    Routine ⟨.none, none, false⟩ (fun _ => True) p := (h.built rfl).routine

lemma HostEntry.routine {p : Action Value} (h : HostEntry p) :
    Scripted .none (fun _ => True) p fun _ => True := h.composed.scripted rfl

/-- An exposed violation is not intercepted. Whatever a host has run, on a machine of any size
and in any state, and wherever in the run a violation is reported while no operation that
silences failures is in progress: the run fails with this violation, in the store in which it was
reported, and nothing is started after the report but passing it on. -/
theorem exposed_violation_ends_run {hosts : Hosts} (hhosts : hosts.Scripted) {p : Action Value}
    (hp : HostEntry p) (rounds levels : Nat) (s : State) {before after : List Visit} {w : Visit}
    {v : Violation} (hw : p.visitsOn hosts rounds levels s = before ++ w :: after)
    (hreport : w.action = .fail (.violation v)) (hexposed : ∀ a ∈ w.catching, ¬Silences a) :
    (∃ t, p.run (machine hosts rounds levels) rounds s = .failed (.violation v) t ∧
      { t.store with result := w.state.store.result } = w.state.store) ∧
    ∀ x ∈ after, PassesOn v x.action := by
  have h : Orderly (p.run (machine hosts rounds levels) rounds s)
      (p.visitsOn hosts rounds levels s) :=
    orderly_visits (machineWatch_orderly hhosts rounds levels) hp.routine Label.none_leq
      (fun _ => trivial) ..
  rw [hw] at h
  exact h.of_append hreport hexposed

/-! ## Two sessions -/

/-- The violation that a visit reports, if it reports one. -/
def Visit.reported? (w : Visit) : Option Violation :=
  match w.action with
  | .fail (.violation v) => some v
  | _ => none

lemma Visit.reports_of_reported {w : Visit} {v : Violation} (h : w.reported? = some v) :
    w.action = .fail (.violation v) := by
  unfold reported? at h
  split at h
  · rename_i hw
    rw [hw, Option.some.inj h]
  · cases h

/-- What follows an attempt fails with a violation that the attempt ends with. -/
def Attempt.rethrows (a : Attempt) (v : Violation) (s : State) : Bool :=
  match (a.after (.error (.violation v))).run (machine .none 0 0) 0 s with
  | .failed (.violation v') _ => v = v'
  | _ => false

lemma Attempt.not_silences_of_rethrows {a : Attempt} {v : Violation} {s : State}
    (h : a.rethrows v s = true) : ¬Silences a := by
  intro hs
  unfold rethrows at h
  split at h
  · rename_i hrun
    rw [← of_decide_eq_true h] at hrun
    exact hs.swallows v s _ hrun
  · cases h

/-- An exposed report is found by running what follows the attempts in progress. -/
def Visit.exposedReport (w : Visit) : Bool :=
  match w.reported? with
  | some v => w.catching.all fun a => a.rethrows v w.state
  | none => false

lemma Visit.exists_of_exposedReport {w : Visit} (h : w.exposedReport = true) :
    ∃ v, w.action = .fail (.violation v) ∧ ∀ a ∈ w.catching, ¬Silences a := by
  unfold exposedReport at h
  split at h
  · rename_i v hv
    refine ⟨v, reports_of_reported hv, fun a ha => ?_⟩
    exact Attempt.not_silences_of_rethrows (List.all_eq_true.1 h a ha)
  · cases h

/-- A catch clause does not see a violation. -/
def caughtWrite : Action Value :=
  evaluate "try \x7b public = secret; \x7d catch (e) \x7b public = true; \x7d" "" 1

set_option maxRecDepth 100000 in
/-- A write in a guarded statement. -/
theorem exposed_violation_ends_run_in_try :
    ∃ before w after v, caughtWrite.visitsOn .none 50 50 secretSession = before ++ w :: after ∧
      w.action = .fail (.violation v) ∧
      ((∃ t, caughtWrite.run (machine .none 50 50) 50 secretSession = .failed (.violation v) t ∧
          { t.store with result := w.state.store.result } = w.state.store) ∧
        ∀ x ∈ after, PassesOn v x.action) := by
  have found : (caughtWrite.visitsOn .none 50 50 secretSession).any Visit.exposedReport = true := by
    rw [caughtWrite, evaluate_ofList]
    decide +kernel
  obtain ⟨w, hw, hexp⟩ := List.any_eq_true.1 found
  obtain ⟨before, after, hsplit⟩ := List.append_of_mem hw
  obtain ⟨v, hv, hexposed⟩ := Visit.exists_of_exposedReport hexp
  exact ⟨before, w, after, v, hsplit, hv,
    exposed_violation_ends_run scripted_none (.evaluate ..) 50 50 secretSession hsplit hv hexposed⟩

/-- The same write, made by a conversion of an argument of a built-in function. -/
def convertedWrite : Action Value :=
  evaluate ("var caught = false; " ++
    "try \x7b ''.charAt(\x7bvalueOf: function() \x7b public = secret; \x7d\x7d); \x7d " ++
    "catch (e) \x7b caught = true; \x7d") "" 1

set_option maxRecDepth 100000 in
/-- A violation is reported, but the catch clause runs and the script ends. -/
theorem silenced_violation_is_caught :
    (∃ w ∈ convertedWrite.visitsOn .none 50 50 secretSession,
      ∃ v, w.action = .fail (.violation v)) ∧
    ∃ v t, convertedWrite.run (machine .none 50 50) 50 secretSession = .done v t ∧
      Session.flag? t "caught" = some true := by
  obtain ⟨found, hends⟩ : (convertedWrite.visitsOn .none 50 50 secretSession).any
        (fun w => w.reported?.isSome) = true ∧
      Session.endsWith convertedWrite .none 50 secretSession "caught" true = true := by
    rw [convertedWrite, ← String.ofList_append, ← String.ofList_append, evaluate_ofList]
    decide +kernel
  obtain ⟨w, hw, hsome⟩ := List.any_eq_true.1 found
  obtain ⟨v, hv⟩ := Option.isSome_iff_exists.1 hsome
  exact ⟨⟨w, hw, v, Visit.reports_of_reported hv⟩, Session.exists_of_endsWith hends⟩

end Clearance
