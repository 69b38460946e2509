/-
# Suites under any schedule

Whoever runs a suite submits a job for each case, in order, and waits for the handles, in order. In
between, an executor takes its steps, which may be interleaved with those of other clients in any
way. This file shows that it does not matter (`Trial.Runs.reliable`,
`Trial.results_under_any_schedule`): each case gets the report that it gets when it is run alone in
a fresh session, and if the context is cancelled meanwhile, that report or the one on the cancelled
context. A case that breaks down is reported as such and leaves the other reports alone.

A `Trial` is a suite that is run: its cases with what stands at their paths. A case breaks down when
its script makes the program break down (`panic?`); which other cases do, for reasons that are not
in their scripts, is a parameter here. The schedule that commands follow (`runCases`) is one of
those considered (`Trial.exists_schedule`).
-/
import Clearance.Proofs.Executor
import Clearance.Suite.Run

namespace Clearance.Suite

open Jobs

/-- A suite that is run. -/
structure Trial where
  options : Library.Options
  directory : String
  /-- The cases, and what stands at their paths. -/
  cases : List (Case × Entry)
  /-- The texts with which cases break down for other reasons than their scripts, by the number of
  the case. -/
  breakdown : Nat → Option String

namespace Trial

/-- How running a case ends. -/
def ending (t : Trial) (i : Nat) (c : Case) (entry : Entry) : Ending Report :=
  match t.breakdown i with
  | none => Suite.ending t.options t.directory c entry
  | some text => .crashed text

/-- The job of a case. -/
def job (t : Trial) (i : Nat) (c : Case) (entry : Entry) : Job Report :=
  { Suite.job t.options t.directory i c entry with
    work := Thunk.mk fun _ => t.ending i c entry }

/-- The jobs of a suite. -/
def jobs (t : Trial) : List (Job Report) := t.cases.mapIdx fun i c => t.job i c.1 c.2

/-- The report on a case that is run alone. -/
def report (t : Trial) (i : Nat) (c : Case) (entry : Entry) : Report :=
  reportOf c (t.ending i c entry).settlement

/-- The reports on all cases, each of them run alone. -/
def reports (t : Trial) : List Report := t.cases.mapIdx fun i c => t.report i c.1 c.2

/-- The report on a case whose context is cancelled. -/
def refusal (c : Case) : Report := reportOf c (.error .canceled)

/-- The handles of all cases are settled. -/
def isSettled (t : Trial) (e : Executor Report) : Bool :=
  (List.range t.cases.length).all fun i => (e.settlement? i).isSome

/-- What is returned to whoever runs the suite, once all handles are settled. -/
def answer? (t : Trial) (e : Executor Report) : Option (List Report) :=
  if t.isSettled e then
    some (t.cases.mapIdx fun i c => reportOf c.1 ((e.settlement? i).getD (.error .canceled)))
  else none

/-- Steps of an executor in whose course the jobs of a suite are submitted, in order, and the state
that they lead to. Other clients may submit jobs, too. -/
structure Runs (t : Trial) (steps : List (ExecutorStep Report)) (e : Executor Report) : Prop where
  started : ∃ e₀ : Executor Report, e₀.IsFresh ∧ e₀.steps? steps = some e
  submitted : (jobsOf steps).filter (fun j => j.handle < t.cases.length) = t.jobs

/-- The context of the suite is cancelled. -/
def Cancelled (steps : List (ExecutorStep Report)) : Prop := 0 ∈ cancelledBy steps

/-- The executor has been closed before a case was submitted. -/
def Refused (t : Trial) (steps : List (ExecutorStep Report)) : Prop :=
  ∃ j ∈ refusedIn steps, j.handle < t.cases.length

/-- What whoever runs a suite can rely on, when the steps of an executor have led to a state. -/
structure Reliable (t : Trial) (steps : List (ExecutorStep Report)) (e : Executor Report) :
    Prop where
  /-- The workers can go on until there is an answer. -/
  goesOn : ∃ more e', (∀ a ∈ more, ExecutorStep.isWork a = true) ∧ e.steps? more = some e' ∧
    (t.answer? e').isSome
  /-- They come to rest after a bounded number of steps, whatever the order of these, and then there
  is an answer. -/
  returns : ∃ bound, ∀ more e', (∀ a ∈ more, ExecutorStep.isWork a = true) →
    e.steps? more = some e' → more.length ≤ bound ∧ (e'.AtRest → (t.answer? e').isSome)
  /-- A handle that is settled shows the report on its own case, alone, or that the context was
  cancelled or the executor closed. -/
  handles : ∀ i c entry r, t.cases[i]? = some (c, entry) → e.settlement? i = some r →
    reportOf c r = t.report i c entry ∨
      reportOf c r = refusal c ∧ (Cancelled steps ∨ t.Refused steps)
  /-- It stays settled as it is. -/
  stays : ∀ more e', t.Runs (steps ++ more) e' → e.steps? more = some e' →
    ∀ i r, e.settlement? i = some r → e'.settlement? i = some r
  /-- The answer has one report for each case, in order. -/
  inOrder : ∀ rs, t.answer? e = some rs → rs.length = t.cases.length ∧
    ∀ i c entry, t.cases[i]? = some (c, entry) → ∃ r, rs[i]? = some r ∧
      r.result.file = c.file ∧ r.result.expect = c.expect ∧
      (r = t.report i c entry ∨ r = refusal c ∧ (Cancelled steps ∨ t.Refused steps))
  /-- Without cancelling, the answer is the same for all schedules. -/
  same : ¬Cancelled steps → ¬t.Refused steps → ∀ rs, t.answer? e = some rs → rs = t.reports

variable {t : Trial} {steps : List (ExecutorStep Report)} {e : Executor Report}

/-! ## The answer -/

lemma getElem?_jobs {i : Nat} {c : Case} {entry : Entry} (hi : t.cases[i]? = some (c, entry)) :
    t.jobs[i]? = some (t.job i c entry) := by
  rw [jobs, List.getElem?_mapIdx, hi]
  rfl

/-- The jobs of the suite are those with small handles. -/
lemma Runs.exists_case (h : t.Runs steps e) {j : Job Report} (hj : j ∈ jobsOf steps)
    (hhandle : j.handle < t.cases.length) :
    ∃ c entry, t.cases[j.handle]? = some (c, entry) ∧ j = t.job j.handle c entry := by
  have hmem : j ∈ t.jobs := h.submitted ▸ List.mem_filter.2 ⟨hj, decide_eq_true hhandle⟩
  obtain ⟨i, hi⟩ := List.mem_iff_getElem?.1 hmem
  rw [jobs, List.getElem?_mapIdx] at hi
  obtain ⟨⟨c, entry⟩, hcase, rfl⟩ := Option.map_eq_some_iff.1 hi
  exact ⟨c, entry, hcase, rfl⟩

lemma Runs.job_mem (h : t.Runs steps e) {i : Nat} {c : Case} {entry : Entry}
    (hi : t.cases[i]? = some (c, entry)) : t.job i c entry ∈ jobsOf steps := by
  have hmem : t.job i c entry ∈ t.jobs := List.mem_of_getElem? (getElem?_jobs hi)
  rw [← h.submitted] at hmem
  exact (List.mem_filter.1 hmem).1

lemma Runs.fair (h : t.Runs steps e) : Executor.Fair steps e := by
  obtain ⟨e₀, hfresh, hrun⟩ := h.started
  exact hfresh.fair hrun

/-- What a handle of the suite is settled with. -/
lemma Runs.settlement (h : t.Runs steps e) {i : Nat} {c : Case} {entry : Entry}
    {r : Settlement Report} (hi : t.cases[i]? = some (c, entry)) (hr : e.settlement? i = some r) :
    r = (t.ending i c entry).settlement ∨
      r = .error .canceled ∧ (Cancelled steps ∨ t.Refused steps) := by
  have hlt : i < t.cases.length := (List.getElem?_eq_some_iff.1 hi).1
  obtain ⟨j, hj, rfl, hresult⟩ := h.fair.settled i r (mem_of_lookup hr)
  obtain ⟨c', entry', hcase, hjob⟩ := h.exists_case hj hlt
  obtain ⟨rfl, rfl⟩ := Prod.mk.inj (Option.some.inj (hcase.symm.trans hi))
  rcases hresult with hresult | ⟨hresult, hcancelled | hrefused⟩
  · rw [hjob] at hresult
    exact .inl hresult
  · rw [hjob] at hcancelled
    exact .inr ⟨hresult, .inl hcancelled⟩
  · exact .inr ⟨hresult, .inr ⟨j, hrefused, hlt⟩⟩

/-- An executor at rest has settled the handles of all cases. -/
lemma Runs.isSettled_of_rest (h : t.Runs steps e) (hrest : e.AtRest) : t.isSettled e = true := by
  refine List.all_eq_true.2 fun i hi => ?_
  obtain ⟨⟨c, entry⟩, hcase⟩ : ∃ c, t.cases[i]? = some c :=
    ⟨_, List.getElem?_eq_getElem (List.mem_range.1 hi)⟩
  obtain ⟨⟨_, r⟩, hr, rfl⟩ := List.mem_map.1 (h.fair.rest hrest _ (h.job_mem hcase))
  rw [Executor.settlement?, lookup_of_mem h.fair.once hr]
  rfl

/-- Steps of workers submit nothing and cancel nothing. -/
lemma Runs.work (h : t.Runs steps e) {more : List (ExecutorStep Report)} {e' : Executor Report}
    (hwork : ∀ a ∈ more, a.isWork = true) (hrun : e.steps? more = some e') :
    t.Runs (steps ++ more) e' := by
  obtain ⟨e₀, hfresh, hstarted⟩ := h.started
  have hnone : jobsOf more = [] :=
    List.filterMap_eq_nil_iff.2 fun a ha => (ExecutorStep.of_isWork (hwork a ha)).1
  have hjobs : jobsOf (steps ++ more) = jobsOf steps := by
    rw [jobsOf, List.filterMap_append]
    exact (congrArg _ hnone).trans (List.append_nil _)
  refine ⟨⟨e₀, hfresh, ?_⟩, ?_⟩
  · rw [Executor.steps?_append, hstarted]
    exact hrun
  · rw [hjobs]
    exact h.submitted

lemma answer?_isSome (h : t.isSettled e = true) : (t.answer? e).isSome := by
  rw [answer?, if_pos h]
  rfl

/-- The report at a position of an answer. -/
lemma exists_of_answer? {rs : List Report} (h : t.answer? e = some rs) :
    rs.length = t.cases.length ∧ ∀ i c entry, t.cases[i]? = some (c, entry) →
      ∃ r, e.settlement? i = some r ∧ rs[i]? = some (reportOf c r) := by
  unfold answer? at h
  split_ifs at h with hsettled
  cases h
  refine ⟨List.length_mapIdx, fun i c entry hi => ?_⟩
  have hlt : i < t.cases.length := (List.getElem?_eq_some_iff.1 hi).1
  obtain ⟨r, hr⟩ := Option.isSome_iff_exists.1
    (List.all_eq_true.1 hsettled i (List.mem_range.2 hlt))
  refine ⟨r, hr, ?_⟩
  rw [List.getElem?_mapIdx, hi, hr]
  rfl

/-- A report on a case names its file and what is expected of it. -/
lemma names_report (o : Library.Options) (directory : String) (c : Case) (entry : Entry) :
    (runCase o directory c entry).result.file = c.file ∧
      (runCase o directory c entry).result.expect = c.expect := by
  unfold runCase
  split <;> exact ⟨rfl, rfl⟩

lemma names_reportOf (t : Trial) (i : Nat) (c : Case) (entry : Entry) :
    (t.report i c entry).result.file = c.file ∧ (t.report i c entry).result.expect = c.expect := by
  unfold report ending
  cases t.breakdown i with
  | none =>
    dsimp only [Suite.ending]
    split
    · exact ⟨rfl, rfl⟩
    · exact names_report ..
  | some text => exact ⟨rfl, rfl⟩

/-- Whatever the executor, and whatever the order in which clients and workers take their steps, a
suite that is submitted is answered with the reports that its cases get alone. -/
theorem Runs.reliable (h : t.Runs steps e) : t.Reliable steps e := by
  -- a settlement is the report of the case itself, or it says that the job did not run
  have hhandles : ∀ i c entry r, t.cases[i]? = some (c, entry) → e.settlement? i = some r →
      reportOf c r = t.report i c entry ∨
        reportOf c r = refusal c ∧ (Cancelled steps ∨ t.Refused steps) := by
    intro i c entry r hi hr
    rcases h.settlement hi hr with rfl | ⟨rfl, hwhy⟩
    · exact .inl rfl
    · exact .inr ⟨rfl, hwhy⟩
  exact
    { goesOn := by
        obtain ⟨more, e', hwork, hrun, hrest⟩ := Executor.exists_rest _ (Eq.refl e.toGo)
        exact ⟨more, e', hwork, hrun, answer?_isSome ((h.work hwork hrun).isSettled_of_rest hrest)⟩
      returns := ⟨e.toGo, fun more e' hwork hrun => ⟨Executor.length_le_toGo more hwork hrun,
        fun hrest => answer?_isSome ((h.work hwork hrun).isSettled_of_rest hrest)⟩⟩
      handles := hhandles
      stays := by
        intro more e' h' hrun i r hr
        exact lookup_of_mem h'.fair.once
          ((Executor.settled_suffix more hrun).subset (mem_of_lookup hr))
      inOrder := by
        intro rs hrs
        obtain ⟨hlength, hat⟩ := exists_of_answer? hrs
        refine ⟨hlength, fun i c entry hi => ?_⟩
        obtain ⟨r, hr, hreport⟩ := hat i c entry hi
        rcases hhandles i c entry r hi hr with hown | ⟨hrefusal, hwhy⟩
        · obtain ⟨hfile, hexpect⟩ := names_reportOf t i c entry
          rw [← hown] at hfile hexpect
          exact ⟨_, hreport, hfile, hexpect, .inl hown⟩
        · rw [hrefusal] at hreport
          exact ⟨_, hreport, rfl, rfl, .inr ⟨rfl, hwhy⟩⟩
      same := by
        intro hcancelled hrefused rs hrs
        obtain ⟨hlength, hat⟩ := exists_of_answer? hrs
        refine List.ext_getElem? fun i => ?_
        rw [reports, List.getElem?_mapIdx]
        cases hi : t.cases[i]? with
        | none =>
          rw [List.getElem?_eq_none_iff, ← hlength, ← List.getElem?_eq_none_iff] at hi
          exact hi
        | some c =>
          obtain ⟨r, hr, hreport⟩ := hat i c.1 c.2 hi
          rw [hreport]
          rcases hhandles i c.1 c.2 r hi hr with hown | ⟨-, hwhy⟩
          · exact congrArg some hown
          · exact absurd hwhy (not_or.2 ⟨hcancelled, hrefused⟩) }

/-! ## The schedule of commands -/

/-- The suite whose cases break down by their scripts only. -/
def sound (o : Library.Options) (directory : String) (cases : List (Case × Entry)) : Trial :=
  ⟨o, directory, cases, fun _ => none⟩

/-- What a client asks for that cancels its context, if it does. -/
def cancelling (cancelled : Bool) : List (Order Report) := if cancelled then [.cancel 0] else []

lemma handles_jobs (t : Trial) : t.jobs.map Job.handle = List.range t.cases.length := by
  refine List.ext_getElem? fun i => ?_
  rw [List.getElem?_map, jobs, List.getElem?_mapIdx]
  cases hi : t.cases[i]? with
  | none =>
    have hle : t.cases.length ≤ i := List.getElem?_eq_none_iff.1 hi
    exact (List.getElem?_eq_none_iff.2 (List.length_range.trans_le hle)).symm
  | some c =>
    have hlt : i < t.cases.length := (List.getElem?_eq_some_iff.1 hi).1
    exact (List.getElem?_range hlt).symm

/-- Commands ask in turn for what is done, and read the handles in the end. -/
lemma runCases_eq (o : Library.Options) (directory : String) (cases : List (Case × Entry))
    (e : Executor Report) (cancelled : Bool) : runCases o directory cases e cancelled =
      cases.mapIdx fun i c => reportOf c.1 (((((sound o directory cases).jobs.map .submit).foldl
        Executor.serve ((cancelling cancelled).foldl Executor.serve e)).drain.settlement? i).getD
          (.error .canceled)) := by
  have hjobs : (sound o directory cases).jobs.map Order.submit =
      cases.mapIdx fun i c => Order.submit (Suite.job o directory i c.1 c.2) := by
    refine List.ext_getElem? fun i => ?_
    rw [List.getElem?_map, jobs, List.getElem?_mapIdx, List.getElem?_mapIdx, Option.map_map]
    rfl
  have horders : (if cancelled then Order.cancel 0 :: cases.mapIdx fun i c =>
        Order.submit (Suite.job o directory i c.1 c.2)
      else cases.mapIdx fun i c => Order.submit (Suite.job o directory i c.1 c.2)) =
      cancelling cancelled ++ (sound o directory cases).jobs.map .submit := by
    rw [hjobs]
    cases cancelled <;> rfl
  rw [← List.foldl_append, ← horders]
  refine List.ext_getElem? fun i => ?_
  rw [List.getElem?_mapIdx]
  unfold runCases Executor.outcomes
  dsimp only
  rw [List.getElem?_map, List.zip, List.getElem?_zipWith, List.getElem?_map]
  cases hi : cases[i]? with
  | none => rfl
  | some c =>
    rw [List.getElem?_range (List.getElem?_eq_some_iff.1 hi).1]
    rfl

/-- Commands submit the jobs of a suite in turn, possibly on a cancelled context, and wait for all
of them. This is one run of an executor. -/
lemma exists_schedule (o : Library.Options) (directory : String) (cases : List (Case × Entry))
    (count : Nat) (cancelled : Bool) : ∃ steps e, (sound o directory cases).Runs steps e ∧
      (cancelled = false → ¬Cancelled steps) ∧ ¬(sound o directory cases).Refused steps ∧
      (sound o directory cases).answer? e =
        some (runCases o directory cases (executor count) cancelled) := by
  set t : Trial := sound o directory cases with ht
  have hfresh : (executor count).IsFresh := by
    unfold executor
    split
    · exact .pool _
    · exact .serial
  -- the context is cancelled first, if at all
  obtain ⟨first, hjobs₁, hcloses₁, hcancels₁, hrun₁, hwaits₁⟩ :
      ∃ first : List (ExecutorStep Report), jobsOf first = [] ∧
        (∀ a ∈ first, a.isClose = false) ∧ (cancelled = false → cancelledBy first = []) ∧
        (executor count).steps? first =
          some ((cancelling cancelled).foldl Executor.serve (executor count)) ∧
        Executor.Waits [] ((cancelling cancelled).foldl Executor.serve (executor count)) := by
    cases cancelled with
    | false => exact ⟨[], rfl, nofun, fun _ => rfl, rfl, hfresh.waits⟩
    | true =>
      obtain ⟨hwaits, a, hjob, hclose, hstep⟩ := hfresh.waits.cancel 0
      refine ⟨[a], ?_, List.forall_mem_singleton.2 hclose, nofun, ?_, hwaits⟩
      · rw [jobsOf, List.filterMap_cons, hjob]
        rfl
      · exact Option.bind_eq_some_iff.2 ⟨_, hstep, rfl⟩
  have hdistinct : (([] ++ t.jobs).map Job.handle).Nodup := by
    rw [List.nil_append, handles_jobs]
    exact List.nodup_range
  obtain ⟨submits, hjobs₂, hcancels₂, hcloses₂, hrun₂, hwaits₂⟩ :=
    hwaits₁.submits t.jobs hdistinct
  obtain ⟨more, hwork, hrun₃, hrest⟩ := hwaits₂.drain
  have hjobs : jobsOf (first ++ submits) = t.jobs := by
    unfold jobsOf at *
    rw [List.filterMap_append, hjobs₁, hjobs₂]
    rfl
  have hcloses : ∀ a ∈ (first ++ submits) ++ more, a.isClose = false :=
    List.forall_mem_append.2 ⟨List.forall_mem_append.2 ⟨hcloses₁, hcloses₂⟩,
      fun a ha => (ExecutorStep.of_isWork (hwork a ha)).2.2⟩
  have hopened : t.Runs (first ++ submits)
      ((t.jobs.map .submit).foldl Executor.serve
        ((cancelling cancelled).foldl Executor.serve (executor count))) := by
    refine ⟨⟨_, hfresh, ?_⟩, ?_⟩
    · exact Executor.steps?_append.trans (Option.bind_eq_some_iff.2 ⟨_, hrun₁, hrun₂⟩)
    · rw [hjobs]
      refine List.filter_eq_self.2 fun j hj => decide_eq_true ?_
      have hmem := List.mem_map_of_mem (f := Job.handle) hj
      rw [handles_jobs] at hmem
      exact List.mem_range.1 hmem
  have hruns := hopened.work hwork hrun₃
  refine ⟨_, _, hruns, fun hcancelled hmem => ?_, ?_, ?_⟩
  · obtain ⟨a, ha, hcancel⟩ := List.mem_filterMap.1 hmem
    rcases List.mem_append.1 ha with ha | ha
    · have hclient : cancelledBy (first ++ submits) = [] := by
        unfold cancelledBy at *
        rw [List.filterMap_append, hcancels₁ hcancelled, hcancels₂]
        rfl
      exact absurd (hclient ▸ Executor.mem_cancelledBy ha hcancel) List.not_mem_nil
    · rw [(ExecutorStep.of_isWork (hwork a ha)).2.1] at hcancel
      cases hcancel
  · rintro ⟨j, hj, -⟩
    rw [Executor.refusedIn_open hcloses] at hj
    cases hj
  · rw [answer?, if_pos (hruns.isSettled_of_rest hrest), runCases_eq]
    rfl

/-! ## Valid suites -/

/-- A suite that is run in a directory, where files stand. -/
def ofManifest (m : Manifest) (o : Library.Options) (directory : String) (files : String → Entry)
    (breakdown : Nat → Option String) : Trial :=
  ⟨o, directory, m.cases.map fun c => (c, files (casePath directory c)), breakdown⟩

/-- The verdict on a case is that on its script in a fresh session. -/
structure Classified (o : Library.Options) (directory : String) (c : Case) (entry : Entry)
    (r : Report) : Prop where
  unread : ∀ reason, entry.read (casePath directory c) = .error reason → r.result.verdict = .error
  pass : ∀ s, entry.read (casePath directory c) = .ok s → (r.result.verdict = .pass ↔
    ∃ v t, (evaluate s c.file 1).runOn .none (Session.fresh o) = .done v t)
  violation : ∀ s, entry.read (casePath directory c) = .ok s → (r.result.verdict = .violation ↔
    ∃ v t, (evaluate s c.file 1).runOn .none (Session.fresh o) = .failed (.violation v) t)

/-- The results of a suite depend on its cases only. -/
structure Independent (t : Trial) : Prop where
  reliable : ∀ steps e, t.Runs steps e → t.Reliable steps e
  alone : ∀ i c entry, t.breakdown i = none →
    Classified t.options t.directory c entry (t.report i c entry)
  /-- The report on a case that breaks down says so. -/
  broken : ∀ i c entry text, (t.breakdown i).or (panic? t.options t.directory c entry) = some text →
    t.report i c entry = ⟨⟨c.file, c.expect, .error, some ("panic: " ++ text)⟩, "", [], false⟩
  /-- Whether a case breaks down, and how, only affects the report on this case. -/
  apart : ∀ breakdown i, (∀ k, k ≠ i → breakdown k = t.breakdown k) →
    ∀ steps e steps' e', t.Runs steps e → Runs { t with breakdown } steps' e' →
      ¬Cancelled steps → ¬t.Refused steps → ¬Cancelled steps' → ¬t.Refused steps' →
        ∀ rs rs', t.answer? e = some rs → answer? { t with breakdown } e' = some rs' →
          ∀ k, k ≠ i → rs[k]? = rs'[k]?

lemma classified_runCase (o : Library.Options) (directory : String) (c : Case) (entry : Entry) :
    Classified o directory c entry (runCase o directory c entry) := by
  constructor
  · intro reason hread
    rw [runCase, hread]
  all_goals
    intro s hread
    rw [runCase, hread]
    dsimp only [runScript]
    constructor
    · intro hverdict
      cases houtcome : (evaluate s c.file 1).runOn .none (Session.fresh o) with
      | done v t =>
        rw [houtcome] at hverdict
        cases hverdict <;> exact ⟨v, t, rfl⟩
      | failed f t =>
        rw [houtcome] at hverdict
        cases f <;> cases hverdict <;> exact ⟨_, t, rfl⟩
      | stuck w t =>
        rw [houtcome] at hverdict
        cases hverdict
    · rintro ⟨v, t, houtcome⟩
      rw [houtcome]
      rfl

/-- A case breaks down only if its script runs and makes the program break down. -/
lemma exists_of_panic? {o : Library.Options} {directory : String} {c : Case} {entry : Entry}
    {text : String} (h : panic? o directory c entry = some text) : ∃ s t,
      entry.read (casePath directory c) = .ok s ∧
        (evaluate s c.file 1).runOn .none (Session.fresh o) = .stuck (.panic text) t := by
  unfold panic? at h
  split at h
  · cases h
  · rename_i s hread
    split at h
    · rename_i text' t hrun
      cases h
      exact ⟨s, t, hread, hrun⟩
    · cases h

/-- A case that breaks down is in error. -/
lemma classified_ending (o : Library.Options) (directory : String) (c : Case) (entry : Entry) :
    Classified o directory c entry (reportOf c (Suite.ending o directory c entry).settlement) := by
  unfold Suite.ending
  cases hpanic : panic? o directory c entry with
  | none => exact classified_runCase ..
  | some text =>
    obtain ⟨s, t, hread, hrun⟩ := exists_of_panic? hpanic
    dsimp only [Ending.settlement, reportOf]
    refine ⟨fun _ _ => rfl, fun s' hread' => ?_, fun s' hread' => ?_⟩
    all_goals
      obtain rfl : s = s' := Except.ok.inj (hread.symm.trans hread')
      rw [hrun]
      constructor
      · intro hverdict
        cases hverdict
      · rintro ⟨v, u, hdone⟩
        cases hdone

theorem independent (t : Trial) : t.Independent := by
  refine ⟨fun _ _ h => h.reliable, fun i c entry hnone => ?_, fun i c entry text hsome => ?_, ?_⟩
  · rw [report, ending, hnone]
    exact classified_ending ..
  · unfold report ending
    cases hbreakdown : t.breakdown i with
    | none =>
      rw [hbreakdown, Option.none_or] at hsome
      dsimp only [Suite.ending]
      rw [hsome]
      rfl
    | some text' =>
      rw [hbreakdown, Option.some_or] at hsome
      cases hsome
      rfl
  · intro breakdown i hothers steps e steps' e' h h' hc hr hc' hr' rs rs' hrs hrs' k hk
    have hown := h.reliable.same hc hr rs hrs
    have hown' := h'.reliable.same hc' hr' rs' hrs'
    rw [hown, hown', reports, reports, List.getElem?_mapIdx, List.getElem?_mapIdx]
    refine congrArg₂ _ (funext fun c => ?_) rfl
    unfold report ending
    dsimp only
    rw [hothers k hk]

lemma exists_lattice {m : Manifest} (hvalid : m.issues = []) : ∃ l, m.lattice = .ok l := by
  unfold Manifest.issues at hvalid
  cases hlattice : m.lattice with
  | ok l => exact ⟨l, rfl⟩
  | error reason =>
    rw [hlattice] at hvalid
    simp at hvalid

/-- A valid suite gets one result for each case, in order, which is the one that the case gets
alone, whatever the executor and the schedule. A context that is cancelled replaces results by its
error, and a case that breaks down affects its own result only. Commands follow one of the
schedules. -/
theorem results_under_any_schedule {m : Manifest} (hvalid : m.issues = []) (maxDepth : Int)
    (traced : Bool) (directory : String) (files : String → Entry)
    (breakdown : Nat → Option String) : ∃ l, m.lattice = .ok l ∧
      (ofManifest m ⟨l, maxDepth, false, traced⟩ directory files breakdown).Independent ∧
      ∀ count cancelled, ∃ steps e,
        Runs (ofManifest m ⟨l, maxDepth, false, traced⟩ directory files fun _ => none) steps e ∧
        (cancelled = false → ¬Cancelled steps) ∧
        ¬Refused (ofManifest m ⟨l, maxDepth, false, traced⟩ directory files fun _ => none) steps ∧
        answer? (ofManifest m ⟨l, maxDepth, false, traced⟩ directory files fun _ => none) e =
          some (runCases ⟨l, maxDepth, false, traced⟩ directory
            (m.cases.map fun c => (c, files (casePath directory c)))
            (executor count) cancelled) := by
  obtain ⟨l, hl⟩ := exists_lattice hvalid
  exact ⟨l, hl, independent _, fun count cancelled => exists_schedule _ directory _ count cancelled⟩

end Trial

/-- A suite of three scripts: one passes, one violates the flow policy, and one is missing. -/
def threeScripts : Manifest :=
  ⟨"/suite.yml", "three", [], none, [⟨"a.js", .pass⟩, ⟨"b.js", .violation⟩, ⟨"c.js", .pass⟩]⟩

/-- The scripts of `threeScripts`. -/
def threeFiles (path : String) : Entry :=
  if path = "/a.js" then .file "1"
  else if path = "/b.js" then .file "var p = 0; if (label('H', true)) { p = 1 }"
  else .missing

/-- A schedule of a pool with two slots for `threeScripts`: the second case overtakes the first one,
and the third one waits for a slot. -/
def overtaking (t : Trial) : List (ExecutorStep Report) :=
  t.jobs.map (fun j => .pool (.submit j)) ++
    [.enter 0, .enter 1, .run 1, .settle 1, .release 1, .enter 2, .run 0, .run 2, .settle 2,
      .settle 0].map ExecutorStep.pool

theorem three_results_of_overtaking : threeScripts.issues = [] ∧
    ∃ l, threeScripts.lattice = .ok l ∧ ∃ steps e rs,
      Trial.Runs (.ofManifest threeScripts ⟨l, 0, false, false⟩ "/" threeFiles fun _ =>
        none) steps e ∧
      Trial.answer? (.ofManifest threeScripts ⟨l, 0, false, false⟩ "/" threeFiles fun _ => none) e =
        some rs ∧
      rs.map (·.result.verdict) = [.pass, .violation, .error] := by
  have hvalid : threeScripts.issues = [] := by decide +kernel
  obtain ⟨l, hl, hindependent, -⟩ :=
    Trial.results_under_any_schedule hvalid 0 false "/" threeFiles fun _ => none
  cases (show Except.ok Lattice.standard = Except.ok l from hl)
  set t : Trial :=
    .ofManifest threeScripts ⟨.standard, 0, false, false⟩ "/" threeFiles fun _ => none
  have hruns : ∃ e, t.Runs (overtaking t) e ∧ t.isSettled e = true :=
    ⟨_, ⟨⟨_, .pool 2, rfl⟩, rfl⟩, rfl⟩
  obtain ⟨e, hruns, hsettled⟩ := hruns
  obtain ⟨rs, hrs⟩ := Option.isSome_iff_exists.1 (Trial.answer?_isSome hsettled)
  refine ⟨hvalid, _, hl, overtaking t, e, rs, hruns, hrs, ?_⟩
  have hnone : ¬Trial.Cancelled (overtaking t) ∧ ¬t.Refused (overtaking t) := by
    constructor
    · exact List.not_mem_nil
    · rintro ⟨j, hj, -⟩
      exact absurd hj List.not_mem_nil
  rw [(hindependent.reliable _ e hruns).same hnone.1 hnone.2 rs hrs]
  decide +kernel

end Clearance.Suite
