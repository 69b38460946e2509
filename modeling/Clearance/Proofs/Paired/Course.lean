/-
# Courses of sessions

A host opens a session, sets globals, has scripts evaluated and functions called, one thing after
the other. All that happens then is one long list of moments. Its moments are moments of runs from
regular states, and they are a trail from the start of the session on.
-/
import Clearance.Proofs.Paired.Opening
import Clearance.Proofs.Parsed
import Clearance.Proofs.Violation

namespace Clearance

open Clearance.Action Script

lemma Store.Same.precedes {s t : Store} (h : s.Same t) : s.Precedes t := .of_eq h.heap h.frames

/-! ## What hosts hand over -/

/-- A value that a host may hand over: its label may be met, and what it refers to is there. -/
structure Value.Lent {l : Lattice} (g : Grade l) (s : Store) (v : Value) : Prop where
  label : g.mem v.label
  settled : v.isLabeled = false → v.label = .none
  present : v.raw.isAbsent = false
  refers : ∀ o, v.raw = .object o → o.id < s.heap.size ∧
    (s.heap.get o.id).cls ≠ "Activation" ∧ o.face.Suits (s.heap.get o.id).behaviour

/-- What a host has a session do: it evaluates a script, runs a tree that it may run, calls a
function or constructs from one. The values are there, and the label expressions name labels that
may be met. -/
inductive DeedWith (trees : List (Stmt Span) → Prop) {l : Lattice} (g : Grade l) (s : Store) :
    Action Value → Prop
  | evaluate (source file : String) (line : Int) :
      (∀ program, Script.parse defaultIntrinsic file source line = .ok program →
        ∀ node ∈ program.nodes true, g.Allows node) → DeedWith trees g s (evaluate source file line)
  | runTree (body : List (Stmt Span)) : trees body →
      (∀ node ∈ nodesOfStmts true body, g.Allows node) → DeedWith trees g s (Session.runTree body)
  | call {fn this : Value} {args : List Value} : fn.Lent g s → this.Lent g s →
      (∀ v ∈ args, v.Lent g s) → DeedWith trees g s (Library.hostCall fn this args)
  | construct {fn : Value} {args : List Value} : fn.Lent g s →
      (∀ v ∈ args, v.Lent g s) → DeedWith trees g s (Session.construct fn args)
  | apply {fn this list : Value} : fn.Lent g s → this.Lent g s → list.Lent g s →
      DeedWith trees g s (Session.applyFunction fn this list)

/-- Deeds of a host that may run any tree. -/
abbrev Deed {l : Lattice} (g : Grade l) (s : Store) : Action Value → Prop :=
  DeedWith (fun _ => True) g s

/-- The text names no labels but those that may be met. -/
def Grade.Admits {l : Lattice} (g : Grade l) (source : String) : Prop :=
  ∀ file program, Script.parse defaultIntrinsic file source 1 = .ok program →
    ∀ node ∈ program.nodes true, g.Allows node

/-- What has happened since a session was in the state `s₀`, and the state it is in now. The host
may run some trees. -/
inductive CourseWith (trees : List (Stmt Span) → Prop) (hosts : Hosts) (s₀ : State)
    (g : Grade s₀.control.realm.lattice) : List Moment → State → Prop
  | start : CourseWith trees hosts s₀ g [] s₀
  | deed {ms : List Moment} {s : State} {p : Action Value} (rounds levels : Nat) :
      CourseWith trees hosts s₀ g ms s → DeedWith trees g s.store p →
        CourseWith trees hosts s₀ g (ms ++ p.momentsOn hosts rounds levels [] s)
          (p.run (machine hosts rounds levels) rounds s).state
  | global {ms : List Moment} {s : State} (name : String) {v : Value} (rounds levels : Nat) :
      CourseWith trees hosts s₀ g ms s → v.Lent g s.store →
        CourseWith trees hosts s₀ g
          (ms ++ (Session.setGlobal name v).momentsOn hosts rounds levels [] s)
          ((Session.setGlobal name v).run (machine hosts rounds levels) rounds s).state
  | native {ms : List Moment} {s : State} (name : String) (arity : Nat) (fn : Option Native)
      (rounds levels : Nat) : CourseWith trees hosts s₀ g ms s →
        CourseWith trees hosts s₀ g
          (ms ++ (Session.defineNative name arity fn).momentsOn hosts rounds levels [] s)
          ((Session.defineNative name arity fn).run (machine hosts rounds levels) rounds s).state
  /-- The host takes away what has been printed, or provides files. -/
  | outside {ms : List Moment} {s t : State} :
  CourseWith trees hosts s₀ g ms s → t.control = s.control →
      s.store.Same t.store → t.store.result = s.store.result → CourseWith trees hosts s₀ g ms t

/-- What happens when the host may run any tree. -/
abbrev Course (hosts : Hosts) (s₀ : State) (g : Grade s₀.control.realm.lattice) :
    List Moment → State → Prop := CourseWith (fun _ => True) hosts s₀ g

/-- The tree is as those of scripts that have been parsed: there are rules for everything in it, and
its jumps are resolved. -/
structure Evaluable (body : List (Stmt Span)) : Prop where
  proper : ∀ node ∈ nodesOfStmts true body, node.Proper
  runnable : Runnable false body

/-- The texts that are read as code at some moments name labels that may be met. -/
def Grade.Reads {l : Lattice} (g : Grade l) (ms : List Moment) : Prop :=
  ∀ m ∈ ms, ∀ source, Setting.Reads m.action source → g.Admits source

lemma Grade.reads_full {l : Lattice} (ms : List Moment) : (Grade.full l).Reads ms :=
  fun _ _ _ _ _ _ _ node _ => Grade.allows_full node

section

variable {trees : List (Stmt Span) → Prop}

lemma DeedWith.entry {l : Lattice} {g : Grade l} {s : Store} {p : Action Value}
    (h : DeedWith trees g s p) : HostEntry p := by
  cases h with
  | evaluate source file line _ => exact .evaluate ..
  | runTree body _ _ => exact .runTree body
  | call => exact .call ..
  | construct => exact .construct ..
  | apply => exact .apply ..

lemma DeedWith.deed {l : Lattice} {g : Grade l} {s : Store} {p : Action Value}
    (h : DeedWith trees g s p) : Deed g s p := by
  cases h with
  | evaluate _ _ _ hnodes => exact .evaluate _ _ _ hnodes
  | runTree body _ hnodes => exact .runTree body trivial hnodes
  | call hfn hthis hargs => exact .call hfn hthis hargs
  | construct hfn hargs => exact .construct hfn hargs
  | apply hfn hthis hlist => exact .apply hfn hthis hlist

lemma CourseWith.course {hosts : Hosts} {s₀ s : State} {g : Grade s₀.control.realm.lattice}
    {ms : List Moment} (h : CourseWith trees hosts s₀ g ms s) : Course hosts s₀ g ms s := by
  induction h with
  | start => exact .start
  | deed rounds levels _ hdeed ih => exact .deed rounds levels ih hdeed.deed
  | global name rounds levels _ hv ih => exact .global name rounds levels ih hv
  | native name arity fn rounds levels _ ih => exact .native name arity fn rounds levels ih
  | outside _ hcontrol hsame hresult ih => exact .outside ih hcontrol hsame hresult

lemma evaluable_of_parse {intrinsic file text : String} {line : Int} {program : Program Span}
    (hparse : Script.parse intrinsic file text line = .ok program) : Evaluable program.body := by
  have hproper := proper_parse hparse
  exact ⟨fun node hnode => hproper node (List.mem_cons_of_mem _ hnode), .of_program hproper⟩

end

namespace Origin

variable {O : Origin} {hosts : Hosts} {cs : List Control} {s : State}
  {trees : List (Stmt Span) → Prop}

/-! ## Deeds are episodes -/

lemma values_of_lent {t u : Store} (ht : O.base.Precedes t) {hu : O.base.Precedes u}
    (h : t.Precedes u) {v : Value} (hv : v.Lent O.grade t) : (O.upTo u hu).world.Values v v := by
  have hraws : (O.upTo t ht).world.Raws v.raw v.raw := by
    refine ⟨rfl, fun o ho => ?_, hv.present⟩
    obtain ⟨hlt, hcls, hsuits⟩ := hv.refers o ho
    refine ⟨?_, hsuits⟩
    rintro (hle | hstore)
    · exact absurd hlt (Nat.not_lt_of_le hle)
    · exact hcls hstore
  exact values_widen h ⟨hraws, ⟨hv.label, hv.label, fun _ => rfl⟩, hv.settled⟩

/-- What a host constructs from is a constructor. -/
lemma paired_construct {W : World} {L : Ground} {fn : Value} {args : List Value}
    (hfn : W.Values fn fn) (hargs : List.Forall₂ W.Values args args) :
    Paired W L (Session.construct fn args) (Session.construct fn args) W.Values := by
  have hsound := hfn.raw.sound
  refine paired_forHost (.bind
    (R := fun c c' => c' = c ∧ (c = true → ∀ o ∈ fn.raw.object?, W.Maker o))
    (.look fun s s' hs => ⟨hs.isConstructor hsound, fun hc o ho => ?_⟩) fun
      constructible _ hc => ?_)
  · have hraw := Raw.object?_eq ho
    rw [hraw] at hc
    exact ⟨hsound o hraw, Heap.constructor?_of_isConstructor hc⟩
  · obtain ⟨rfl, hmaker⟩ := hc
    split
    · rename_i f hf
      exact .invoke (.construct (hmaker rfl f hf) hargs)
    · exact .bind (paired_inspect_raw hfn.raw) fun _ _ hm => .typeError (hm.append (.refl _))

lemma paired_of_deed {p : Action Value} {t u : Store} (ht : O.base.Precedes t)
    {hu : O.base.Precedes u} (hdeed : DeedWith trees O.grade t p)
    (htrees : ¬O.lax → ∀ body, trees body → Evaluable body) (h : t.Precedes u) :
    Paired (O.upTo u hu).world .any p p (O.upTo u hu).world.Values := by
  have hvalue : ∀ {v : Value}, v.Lent O.grade t → (O.upTo u hu).world.Values v v :=
    values_of_lent ht h
  have hvalues : ∀ {vs : List Value}, (∀ v ∈ vs, v.Lent O.grade t) →
      List.Forall₂ (O.upTo u hu).world.Values vs vs :=
    fun hvs => List.forall₂_same.2 fun v hv => hvalue (hvs v hv)
  have hrun : ∀ (body : List (Stmt Span)) (file : String),
      (∀ node ∈ nodesOfStmts true body, O.grade.Allows node) →
      (¬O.lax → Evaluable body) →
      Paired (O.upTo u hu).world .any (runProgram body file) (runProgram body file)
        (O.upTo u hu).world.Values := by
    intro body file hbody hevaluable
    have hnodes : (O.upTo u hu).world.Allows (nodesOfStmts true body) := fun node hnode =>
      ⟨hbody node hnode, fun hlax => (hevaluable hlax).proper node hnode⟩
    have hid : rebuildStmts id (O.upTo u hu).world.rewrite body = body := rebuildStmts_id body
    have hprogram := paired_runProgram (L := .any) hnodes
      (fun hlax => (hevaluable hlax).runnable) file
    rw [hid] at hprogram
    exact hprogram
  cases hdeed with
  | evaluate source file line hprogram =>
    unfold Clearance.evaluate
    cases hparse : Script.parse defaultIntrinsic file source line with
    | error e => exact .fail (.script e)
    | ok program =>
      exact hrun _ _ (fun node hnode => hprogram program hparse node (List.mem_cons_of_mem _ hnode))
        fun _ => evaluable_of_parse hparse
  | runTree body htree hbody =>
    refine .bind .control fun c c' hc => ?_
    rw [hc.file]
    exact hrun _ _ hbody fun hlax => htrees hlax body htree
  | call hfn hthis hargs =>
    exact Library.paired_hostCall (hvalue hfn) (hvalue hthis) (hvalues hargs)
  | construct hfn hargs => exact paired_construct (hvalue hfn) (hvalues hargs)
  | apply hfn hthis hlist =>
    exact .bind (paired_forHost (Library.paired_argumentList (hvalue hlist).raw)) fun vs vs' hvs =>
      Library.paired_hostCall (hvalue hfn) (hvalue hthis) hvs

/-- The moments of composed actions are steady. -/
lemma steady_of_routine {α : Type} {p : Action α} (hhosts : O.Welcomes hosts)
    (hp : Routine ⟨.none, none, false⟩ (fun _ => True) p) (rounds levels : Nat) :
    ∀ m ∈ p.momentsOn hosts rounds levels cs s, m.Steady :=
  Composed.steady (machine_grows hhosts.composed rounds levels)
    (machineChronicle_steady hhosts.composed rounds levels) hp (fun _ => trivial)
    ⟨Label.none_leq _, by rintro _ ⟨⟩⟩

lemma admits_of_grade {source : String} (h : O.grade.Admits source) : O.Admits source :=
  fun file program hparse node hnode =>
    ⟨h file program hparse node hnode, fun _ => proper_parse hparse node hnode⟩

/-- What a host has a session do is an episode. -/
theorem episode_of_deed (hhosts : O.Welcomes hosts) {p : Action Value} {rounds levels : Nat}
    (hs : O.Regular [] s) (hdeed : DeedWith trees O.grade s.store p)
    (htrees : ¬O.lax → ∀ body, trees body → Evaluable body)
    (hreads : O.grade.Reads (p.momentsOn hosts rounds levels [] s))
    (hpresent : ¬O.lax → ∀ m ∈ p.momentsOn hosts rounds levels [] s, m.AsksPresent) :
    O.Episode hosts rounds levels p [] s where
  start := hs
  paired _ _ h := ⟨_, paired_of_deed hs.fst hdeed htrees h⟩
  steady := steady_of_routine hhosts hdeed.entry.composed rounds levels
  admits m hm source hread := admits_of_grade (hreads m hm source hread)
  present := hpresent

/-! ## What hosts define -/

/-- A frame binds another name. -/
lemma runs_bindIn {u : Store} {hu : O.base.Precedes u} {M : Machines} {L : Ground} (n : Nat)
    (name : String) (side : Side) :
    (O.upTo u hu).keeper.Runs M L (changeFrame n (·.bind name side))
    (changeFrame n (·.bind name side))
      fun _ _ => True := by
  intro cs s s' hs _
  refine .update hs (.aside (fun _ => rfl) (by simp)) fun _ => ⟨trivial, ?_⟩
  obtain ⟨hcontrol, hheaps, hresult, hseed, hfiles, hkept⟩ := hs.together
  refine ⟨hcontrol, hheaps, hresult, hseed, hfiles, ?_⟩
  dsimp only
  rw [Frames.modify_eq_set, Frames.modify_eq_set, Setting.Kept.frames hkept]
  exact Setting.Kept.frames hkept ▸ Setting.Kept.setFrame hkept (Frame.links_bind ..)

section

variable {rounds levels : Nat} (hhosts : O.Welcomes hosts) (hs : O.Regular [] s)
include hhosts hs

/-- Actions whose runs go beside themselves, each for its own reasons. -/
lemma sees_of_runs {α : Type} {p : Action α} {Q : α → α → Prop}
    (hroutine : Routine ⟨.none, none, false⟩ (fun _ => True) p)
    (hreads : O.grade.Reads (p.momentsOn hosts rounds levels [] s))
    (hpresent : ¬O.lax → ∀ m ∈ p.momentsOn hosts rounds levels [] s, m.AsksPresent)
    (hruns : ∀ u hu, s.store.Precedes u → (O.upTo u hu).keeper.Runs (Keeper.machines hhosts.composed
      hosts (O.upTo u hu).world.reader rounds levels) .any p p Q) :
    ∀ m ∈ p.momentsOn hosts rounds levels [] s, O.Sees m := by
  have hsteady : ∀ m ∈ p.momentsOn hosts rounds levels [] s, m.Steady :=
    steady_of_routine hhosts hroutine rounds levels
  refine sees_of_goes hhosts hs hsteady fun u hu h m hm => ?_
  refine (hruns u hu h (hs.starts hu h) fun m hm =>
    ⟨hsteady m hm, fun source hread => ?_, ?_⟩).moments
    m hm
  · exact admits_of_grade (hreads m hm source hread)
  · exact fun hlax => hpresent hlax m hm

omit hhosts hs in
lemma routine_setGlobal (name : String) (v : Value) :
    Routine ⟨.none, none, false⟩ (fun _ => True) (Session.setGlobal name v) :=
  .seq .realm fun _ => .seq (.change trivial fun o => Object.sameShell_set o name v) fun _ =>
    (neat_bindIn ..).routine

lemma sees_setGlobal (name : String) {v : Value} (hv : v.Lent O.grade s.store)
    (hreads : O.grade.Reads ((Session.setGlobal name v).momentsOn hosts rounds levels [] s))
    (hpresent : ¬O.lax →
      ∀ m ∈ (Session.setGlobal name v).momentsOn hosts rounds levels [] s, m.AsksPresent) :
    ∀ m ∈ (Session.setGlobal name v).momentsOn hosts rounds levels [] s, O.Sees m := by
  refine sees_of_runs hhosts hs (Q := fun _ _ => True) (routine_setGlobal name v) hreads hpresent
    fun u hu h => ?_
  have hvalue : (O.upTo u hu).world.Values v v := values_of_lent hs.fst h hv
  -- only the frame is no business of paired actions
  have hruns := fun {α β} {p : Action α} {q : Action β} {Q} =>
    (O.upTo u hu).custody.knows.runs_machines (L := .any) (p := p) (q := q) (Q := Q)
      hhosts.composed (hhosts.hosts u hu) rounds levels
  have hchange : Paired (O.upTo u hu).world .any (change O.realm.global (·.set name v))
      (change O.realm.global (·.set name v)) fun _ _ => True :=
    .change (O.upTo u hu).world.global_object (fun o => Object.sameShell_set o name v)
      fun o o' ho => ho.set hvalue
  intro cs t t' ht hcharges
  refine Keeper.Runs.bind (hruns .realm) (fun r r' hr => ?_) ht hcharges
  obtain ⟨rfl, rfl⟩ := hr
  intro cs t t' ht hcharges
  refine Keeper.Runs.bind (hruns hchange) (fun _ _ _ => ?_) ht hcharges
  intro cs t t' ht hcharges
  exact runs_bindIn _ _ _ ht hcharges

omit hhosts hs in
lemma routine_defineNative (name : String) (arity : Nat) (fn : Option Native) :
    Routine ⟨.none, none, false⟩ (fun _ => True) (Session.defineNative name arity fn) :=
  .seq .realm fun _ => .seq Composed.allocate.routine fun _ =>
    .change trivial fun _ => Object.sameShell_define ..

lemma sees_defineNative (name : String) (arity : Nat) (fn : Option Native)
    (hreads : O.grade.Reads
      ((Session.defineNative name arity fn).momentsOn hosts rounds levels [] s))
    (hpresent : ¬O.lax →
      ∀ m ∈ (Session.defineNative name arity fn).momentsOn hosts rounds levels [] s,
        m.AsksPresent) :
    ∀ m ∈ (Session.defineNative name arity fn).momentsOn hosts rounds levels [] s, O.Sees m := by
  refine sees_of_runs hhosts hs (Q := fun _ _ => True) (routine_defineNative name arity fn) hreads
    hpresent fun u hu h => ?_
  have hproto : ¬(O.upTo u hu).world.store O.realm.functionProto :=
    (O.upTo u hu).not_store_landmark (List.mem_append_left _ (by
      show O.realm.functionProto ∈ [0, O.realm.global, _, O.realm.functionProto, _, _, _, _, _]
      simp))
  have hblank : (O.upTo u hu).world.Objects (.blank "Function" (some O.realm.functionProto) .none)
      (.blank "Function" (some O.realm.functionProto) .none) :=
    .blank (by decide) (by rintro _ ⟨⟩; exact hproto) .none
  have hnative : (O.upTo u hu).world.Objects
      (Library.nativeObject O.realm.functionProto name arity fn none)
      (Library.nativeObject O.realm.functionProto name arity fn none) :=
    (hblank.withBehaviour (.native ..)).define (.constant (.primitive (r := Raw.ofNat arity) rfl))
  have hpaired : Paired (O.upTo u hu).world .any (Session.defineNative name arity fn)
      (Session.defineNative name arity fn) fun _ _ => True := by
    refine .bindRealm (.bind (.allocate hnative trivial) fun f f' hf => ?_)
    obtain ⟨rfl, hfits⟩ := hf
    exact .change (O.upTo u hu).world.global_object (fun o => Object.sameShell_define ..)
      fun o o' ho => ho.setHidden (.inl (.object ⟨rfl, hfits⟩))
  intro cs t t' ht hcharges
  exact (O.upTo u hu).custody.knows.runs_machines hhosts.composed (hhosts.hosts u hu) rounds levels
    hpaired ht hcharges

end

/-! ## Courses -/

lemma Regular.congr (hs : O.Regular [] s) {t : State} (hcontrol : t.control = s.control)
    (hsame : s.store.Same t.store) (hresult : t.store.result = s.store.result) :
    O.Regular [] t := by
  have hprecedes := hsame.precedes
  have hbase := hs.fst.trans hprecedes
  obtain ⟨hc, hheaps, hr, -, -, hkept⟩ := (hs.starts hbase hprecedes).together
  refine ⟨hbase, .refl _, ⟨?_, ?_, ?_, rfl, rfl, ?_⟩, List.forall_mem_nil _, fun _ => False.elim,
    by rintro _ ⟨⟩⟩
  · rw [hcontrol]
    exact hc
  · rw [hsame.heap]
    exact hheaps
  · rw [hresult]
    exact hr
  · exact Setting.Kept.congr hkept hsame.frames hsame.frames (fun _ _ => by rw [hsame.heap])
      (fun _ _ => by rw [hsame.heap]) (fun _ _ => by rw [hsame.heap]) fun _ _ => by rw [hsame.heap]

/-- What is known of all that has happened in a session. -/
structure Lived (O : Origin) (hosts : Hosts) (ms : List Moment) (s : State) : Prop where
  regular : O.Regular [] s
  trail : Trail O.base ms s.store
  sees : ∀ m ∈ ms, O.Sees m
  before : ∀ m ∈ ms, m.outcome.state.store.Precedes s.store
  steady : ∀ m ∈ ms, m.Steady
  runs : ∀ m ∈ ms, ∃ rounds levels,
    m.Within (machine hosts rounds levels) (machineChronicle hosts rounds levels) rounds ms

/-- One more run. -/
lemma Lived.run {ms : List Moment} (h : O.Lived hosts ms s) (hhosts : O.Welcomes hosts) {α : Type}
    {p : Action α} {rounds levels : Nat} (hp : Routine ⟨.none, none, false⟩ (fun _ => True) p)
    (hsees : ∀ m ∈ p.momentsOn hosts rounds levels [] s, O.Sees m) :
    O.Lived hosts (ms ++ p.momentsOn hosts rounds levels [] s)
      (p.run (machine hosts rounds levels) rounds s).state := by
  have hself : _ ∈ p.momentsOn hosts rounds levels [] s := mem_moments_self p [] s
  have hsteady : ∀ m ∈ p.momentsOn hosts rounds levels [] s, m.Steady :=
    steady_of_routine hhosts hp rounds levels
  obtain ⟨hstart, hmoments⟩ :=
    hsteady _ hself _ _ rounds (machine_grows hhosts.composed rounds levels)
  refine ⟨(hsees _ hself).final, h.trail.append (p.trail (machine_trails hosts rounds levels) [] s),
    List.forall_mem_append.2 ⟨h.sees, hsees⟩, List.forall_mem_append.2
      ⟨fun m hm => ?_, fun m hm => ?_⟩,
    List.forall_mem_append.2 ⟨h.steady, hsteady⟩,
    List.forall_mem_append.2 ⟨fun m hm => ?_, fun m hm => ?_⟩⟩
  · exact (h.before m hm).trans hstart
  · exact (hmoments m hm).finish
  · obtain ⟨rounds', n, hwithin⟩ := h.runs m hm
    exact ⟨rounds', n, hwithin.outcome, List.Subset.trans hwithin.moments
      (List.subset_append_left _ _)⟩
  · obtain ⟨n, hwithin⟩ := mem_momentsOn hm
    exact ⟨rounds, n, hwithin.outcome, List.Subset.trans hwithin.moments
      (List.subset_append_right _ _)⟩

/-- An action that is started in the course of a session. -/
lemma Lived.episode {ms : List Moment} (h : O.Lived hosts ms s) (hlax : O.lax)
    (hreads : O.grade.Reads ms) {m : Moment} (hm : m ∈ ms)
    (hp : ∀ u hu, m.state.store.Precedes u → ∃ Q,
      Paired (O.upTo u hu).world .any m.action m.action Q) :
    ∃ rounds n, m.outcome = m.action.run (machine hosts rounds n) rounds m.state ∧
      O.Episode hosts rounds n m.action m.contexts m.state := by
  obtain ⟨rounds, n, houtcome, hsubset⟩ := h.runs m hm
  refine ⟨rounds, n, houtcome, (h.sees m hm).start, hp, fun m' hm' => h.steady m' (hsubset hm'),
    fun m' hm' source hread => ?_, absurd hlax⟩
  exact admits_of_grade (hreads m' (hsubset hm') source hread)

end Origin

/-- **All moments in the course of a session are of runs from regular states.** -/
theorem CourseWith.lived {trees : List (Stmt Span) → Prop} {hosts : Hosts} {s₀ : State}
    (h₀ : Library.Untouched s₀) (g : Grading) (hhosts : (h₀.origin g).Welcomes hosts)
    {ms : List Moment} {s : State}
    (h : CourseWith trees hosts s₀ (g.grade s₀.control.realm.lattice) ms s)
    (htrees : ¬g.lax → ∀ body, trees body → Evaluable body)
    (hreads : (g.grade s₀.control.realm.lattice).Reads ms)
    (hpresent : ¬g.lax → ∀ m ∈ ms, m.AsksPresent) : (h₀.origin g).Lived hosts ms s := by
  induction h with
  | start =>
    exact ⟨h₀.regular g, .nil (.refl _), List.forall_mem_nil _, List.forall_mem_nil _,
      List.forall_mem_nil _, List.forall_mem_nil _⟩
  | deed rounds levels _ hdeed ih =>
    obtain ⟨hbefore, hnow⟩ := List.forall_mem_append.1 hreads
    have hlived := ih hbefore fun hlax => (List.forall_mem_append.1 (hpresent hlax)).1
    exact hlived.run hhosts hdeed.entry.composed
      ((Origin.episode_of_deed hhosts hlived.regular hdeed
      htrees hnow fun hlax => (List.forall_mem_append.1 (hpresent hlax)).2).sees hhosts)
  | global name rounds levels _ hv ih =>
    obtain ⟨hbefore, hnow⟩ := List.forall_mem_append.1 hreads
    have hlived := ih hbefore fun hlax => (List.forall_mem_append.1 (hpresent hlax)).1
    exact hlived.run hhosts (Origin.routine_setGlobal ..)
      (Origin.sees_setGlobal hhosts hlived.regular
      name hv hnow fun hlax => (List.forall_mem_append.1 (hpresent hlax)).2)
  | native name arity fn rounds levels _ ih =>
    obtain ⟨hbefore, hnow⟩ := List.forall_mem_append.1 hreads
    have hlived := ih hbefore fun hlax => (List.forall_mem_append.1 (hpresent hlax)).1
    exact hlived.run hhosts (Origin.routine_defineNative ..) (Origin.sees_defineNative hhosts
      hlived.regular name arity fn hnow fun hlax => (List.forall_mem_append.1 (hpresent hlax)).2)
  | outside _ hcontrol hsame hresult ih =>
    have hlived := ih hreads hpresent
    exact ⟨hlived.regular.congr hcontrol hsame hresult, hlived.trail.congr_right hsame, hlived.sees,
      fun m hm => (hlived.before m hm).trans hsame.precedes, hlived.steady,
      hlived.runs⟩

/-! ## Hosts -/

/-- A host whose functions and objects do what scripts could do: they are put together from the same
instructions, and they hold and give what corresponds whenever they are handed what corresponds. -/
structure Hosts.Modest (hosts : Hosts) : Prop where
  composed : hosts.Composed .none
  alike : ∀ W : World, W.faithful → W.lax → W.Hosts hosts hosts

lemma Hosts.modest_none : Hosts.none.Modest := ⟨composed_none _, fun W _ _ => W.hosts_none⟩

/-- Where all labels may be met, nothing more is asked of the texts that are read. -/
lemma Course.lived_full {hosts : Hosts} (hhosts : hosts.Modest) {s₀ : State}
    (h₀ : Library.Untouched s₀) {ms : List Moment} {s : State}
    (h : Course hosts s₀ (Grade.full s₀.control.realm.lattice) ms s) :
    (h₀.origin .full).Lived hosts ms s :=
  h.lived h₀ .full ⟨hhosts.composed, fun _ _ => hhosts.alike _ trivial trivial⟩ (absurd trivial)
    (Grade.reads_full ms) (absurd trivial)

end Clearance
