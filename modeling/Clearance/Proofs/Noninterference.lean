/-
# Non-interference of the core

A program of the core is run twice, in scenes whose globals agree up to a level. If both runs end
normally, then the globals agree afterwards. For programs that do not jump this holds as it
stands; for programs that jump it holds of runs that are calm, where no region above the level is
left by a jump or by an exception.

Declarations are bound before the first statement, at the bottom program counter, so they go to
the global object in both runs.
-/
import Clearance.Proofs.Fresh
import Clearance.Proofs.Lockstep.Stmt
import Clearance.Proofs.Run

namespace Clearance

open Clearance.Action Script

/-! ## Declarations -/

section

variable {ns : List String} {serve : Service} {fuel : Nat} {s : State}

/-- A variable that is bound at the bottom program counter, in the global object. -/
lemma run_define (h : s.Staged ns) (hpc : s.control.pc.height = 1) (n : String) {q : Property}
    (hdata : q.isAccessor = false) (hvalue : q.value.raw.isPrimitive = true) :
    ∃ t, (define n q).run serve fuel s = .done () t ∧ Wrote ns s t n q := by
  have hside : Frame.sideAt s.control.pc = .low := by
    simp [Frame.sideAt, Label.less, hpc]
  have hpartition :
      (s.store.heap.get s.control.realm.global).partition.less s.control.pc = false := by
    have hbottom := h.scene.bottom
    simp [Label.less, hpc, hbottom]
  have hwrote := wrote_define h n hdata hvalue
  let f := (s.store.frames.get s.control.realm.globalFrame).bind n .low
  refine ⟨⟨s.control, ⟨s.store.heap.update s.control.realm.global (·.define n q),
    s.store.frames.setIfInBounds s.control.realm.globalFrame f, s.store.result, s.store.printed,
    s.store.events, s.store.seed, s.store.files⟩⟩, ?_, ?_⟩
  · simp only [define, defineIn, run_bind, run_current, run_revise, h.scope, Frame.define, hside,
      Frame.store, h.scene.low, hpartition, Bool.false_eq_true, if_false, f]
  · refine ⟨⟨h.scope, hwrote.staged.scene.toStage.set ⟨rfl, rfl, rfl, rfl⟩,
      hwrote.staged.scene.plain⟩, rfl, hwrote.partition, hwrote.find?⟩

/-- What a name holds once variables are bound: undefined, if it held nothing. -/
def declaredSlot (permanent : Bool) (vs : List HoistedVar) (n : String) (old : Option Property) :
    Option Property :=
  match old with
  | some q => some q
  | none =>
    if n ∈ vs.map HoistedVar.name then some { Property.data .undefined with permanent } else none

/-- A state in which the variables are bound. -/
structure Declared (ns : List String) (permanent : Bool) (vs : List HoistedVar) (s t : State) :
    Prop where
  staged : t.Staged ns
  control : t.control = s.control
  partition : t.globals.partition = s.globals.partition
  find? : ∀ m, Slots.find? m t.globals.slots =
    declaredSlot permanent vs m (Slots.find? m s.globals.slots)

/-- The variables that the global object does not hold yet are bound one after the other. -/
lemma run_bindVars (permanent : Bool) {vs : List HoistedVar} (hvs : ∀ v ∈ vs, v.Core ns)
    (h : s.Staged ns) (hpc : s.control.pc.height = 1) :
    ∃ t, (bindVars permanent ⟨s.control.realm.global, .plain⟩ vs).run serve fuel s = .done () t ∧
      Declared ns permanent vs s t := by
  induction vs generalizing s with
  | nil =>
    refine ⟨s, rfl, h, rfl, rfl, fun m => ?_⟩
    cases Slots.find? m s.globals.slots <;> rfl
  | cons v vs ih =>
    rw [List.forall_mem_cons] at hvs
    obtain ⟨⟨hconstant, hname⟩, hrest⟩ := hvs
    have htaken : (s.store.heap.get s.control.realm.global).hasOwn v.name =
        (Slots.find? v.name s.globals.slots).isSome := by
      rw [Object.hasOwn, Object.own?_of_primitive h.scene.primitive]
      rfl
    simp only [bindVars, run_bind, run_object, hconstant, Bool.false_and, Bool.false_or,
      Bool.false_eq_true, if_false, htaken]
    -- a variable that is there already keeps its value
    cases hslot : Slots.find? v.name s.globals.slots with
    | some q =>
      obtain ⟨t, hrun, ht⟩ := ih hrest h hpc
      simp only [Option.isSome_some, Bool.not_true, Bool.false_eq_true, if_false]
      refine ⟨t, hrun, ht.staged, ht.control, ht.partition, fun m => ?_⟩
      rw [ht.find?]
      by_cases hm : m = v.name
      · rw [hm, hslot]
        rfl
      · simp [declaredSlot, hm]
    | none =>
      let q : Property := { Property.data .undefined with permanent }
      obtain ⟨u, hdefine, hu⟩ : ∃ u, (define v.name q).run serve fuel s = .done () u ∧
        Wrote ns s u v.name q := run_define h hpc v.name rfl rfl
      have hpcu : u.control.pc.height = 1 := by rw [hu.control]; exact hpc
      obtain ⟨t, hrun, ht⟩ := ih hrest hu.staged hpcu
      rw [hu.control] at hrun
      simp only [Option.isSome_none, Bool.not_false, if_true, run_bind]
      rw [show define v.name { Property.data .undefined with permanent } = define v.name q from rfl,
        hdefine]
      refine ⟨t, hrun, ht.staged, ht.control.trans hu.control, ht.partition.trans hu.partition,
        fun m => ?_⟩
      rw [ht.find?, hu.find?]
      by_cases hm : m = v.name
      · rw [if_pos hm, hm, hslot]
        simp [declaredSlot, q]
      · rw [if_neg hm]
        simp [declaredSlot, hm]

/-- The declarations of a program of the core are its variables. -/
lemma run_instantiate {jumps : Bool} {body : List (Stmt Span)}
    (hcore : coreStmts ns jumps body = true) (h : s.Staged ns) (hpc : s.control.pc.height = 1) :
    ∃ t, (instantiate body).run serve fuel s = .done () t ∧
      Declared ns (s.control.kind ≠ .eval) (hoistedVars body) s t := by
  have hside : Frame.sideAt s.control.pc = .low := by
    simp [Frame.sideAt, Label.less, hpc]
  have hstore : (s.store.frames.get s.control.scope).store (Frame.sideAt s.control.pc) =
      ⟨s.control.realm.global, .plain⟩ := by
    rw [hside, h.scope]
    exact h.scene.low
  simp only [instantiate, hoistedFunctions_of_core hcore, run_bind, run_current, bindFunctions,
    run_pure, run_look, hstore]
  exact run_bindVars _ (core_of_hoistedVars hcore) h hpc

end

/-- Binding the same variables keeps the agreement. -/
lemma Declared.agrees {ns : List String} {permanent : Bool} {vs : List HoistedVar} {l : Label}
    {s s' t t' : State} (h : s.Agrees l s') (hs : Declared ns permanent vs s t)
    (hs' : Declared ns permanent vs s' t') : t.Agrees l t' := by
  refine ⟨by rw [hs.control, hs'.control, h.control], ?_, fun m => ?_⟩
  · rw [hs.partition, hs'.partition, h.globals.partition]
  · rw [hs.find?, hs'.find?, hs.partition]
    rcases h.globals.cases_find? m with ⟨hq, hq'⟩ | ⟨q, q', hq, hq', hagrees⟩
    · rw [hq, hq']
      unfold declaredSlot
      dsimp only
      split_ifs
      · exact .some (.refl _)
      · exact .none
    · rw [hq, hq']
      exact .some hagrees

/-! ## Programs -/

namespace View

variable {V : View} {body : List (Stmt Span)} {s s' t t' : State}

/-- The statements of a calm script are calm. -/
lemma Calm.statements {E : Engine} {file : String} {next : Next Value} {cs : List Attempt}
    {u : State} (h : V.Calm E (runProgram body file) next cs s)
    (hinstantiate : (instantiate body).run E.serve E.fuel (s.entered file) = .done () u) :
    ∃ next, V.Calm E (inOrder (stmtActions body)) next cs u := by
  have hattempt : (Action.attempt (instantiate body)).run E.serve E.fuel (s.entered file) =
      .done (.ok ()) u := by
    rw [run_attempt, hinstantiate]
  have hcalm : V.Calm E (runBody body) .nothing cs (s.entered file) := fun hj w hw =>
    (Calm.first (Calm.rest h (run_current s))) hj w (List.mem_cons_of_mem _ hw)
  exact ⟨_, Calm.first (Calm.rest hcalm hattempt)⟩

/-- A script of the core that ends normally has bound its variables and run its statements. -/
lemma statements_of_run (hcore : coreStmts V.names V.jumps body = true)
    (hs : Scene V.names s.control.realm s.store) (E : Engine) {file : String} {next : Next Value}
    {cs : List Attempt} {v : Value} (hcalm : V.Calm E (runProgram body file) next cs s)
    (hrun : (runProgram body file).run E.serve E.fuel s = .done v t) :
    ∃ u w next, Declared V.names true (hoistedVars body) (s.entered file) u ∧
      V.Calm E (inOrder (stmtActions body)) next cs u ∧
      (inOrder (stmtActions body)).run E.serve E.fuel u = .done .normal w ∧
      w.globals = t.globals := by
  obtain ⟨u, hinstantiate, hu⟩ : ∃ u, (instantiate body).run E.serve E.fuel (s.entered file) =
      .done () u ∧ Declared V.names true (hoistedVars body) (s.entered file) u :=
    run_instantiate hcore ⟨rfl, hs.congr rfl rfl⟩ rfl
  obtain ⟨c, w, hbody, hc, -, rfl⟩ := runProgram_done hrun
  obtain ⟨next, hstatements⟩ := hcalm.statements hinstantiate
  have hcontrol : ∀ d x, (inOrder (stmtActions body)).run E.serve E.fuel u = .done d x →
      x.control = s.control.entry file := fun d x hd =>
    (run_done_control E.keeps hd).trans hu.control
  have hend := runBody_done hinstantiate hbody hc fun d x hd => by
    rw [hcontrol d x hd]
    rintro ⟨⟩
  refine ⟨u, w, next, hu, hstatements, hend, ?_⟩
  unfold State.globals
  rw [hcontrol _ _ hend]
  rfl

/-- If a program of the core ends normally in two scenes that agree up to a level, and calmly in
both if it jumps, then the globals agree afterwards. -/
theorem globals_agree_of_runs (hcore : coreStmts V.names V.jumps body = true)
    (hs : Scene V.names s.control.realm s.store) (hs' : Scene V.names s'.control.realm s'.store)
    (hrealm : s.control.realm = V.realm) (hagrees : s.Agrees V.level s') (E E' : Engine)
    {file : String} {next next' : Next Value} {cs cs' : List Attempt} {v v' : Value}
    (hcalm : V.Calm E (runProgram body file) next cs s)
    (hcalm' : V.Calm E' (runProgram body file) next' cs' s')
    (hrun : (runProgram body file).run E.serve E.fuel s = .done v t)
    (hrun' : (runProgram body file).run E'.serve E'.fuel s' = .done v' t') :
    t.globals.Agrees V.level t'.globals := by
  obtain ⟨u, w, next, hu, hstatements, hend, hglobals⟩ := statements_of_run hcore hs E hcalm hrun
  obtain ⟨u', w', next', hu', hstatements', hend', hglobals'⟩ :=
    statements_of_run hcore hs' E' hcalm' hrun'
  have hentered : (s.entered file).Agrees V.level (s'.entered file) := by
    refine ⟨?_, hagrees.globals⟩
    show Control.entry _ file = Control.entry _ file
    rw [hagrees.control]
  have htwins : V.Twins u u' := by
    refine ⟨⟨hu.staged, ?_⟩, ⟨hu'.staged, ?_⟩, hu.agrees hentered hu'⟩
    · rw [hu.control]
      exact hrealm
    · rw [hu'.control]
      show s'.control.realm = V.realm
      rw [hagrees.control, hrealm]
  have hpc : u.control.pc.leq V.level = true := by
    rw [hu.control, Label.leq_iff]
    exact Label.one_le_height _
  have hmeets := (secure_inOrder (secure_stmts body hcore)).lockstep E E' next next' cs cs' u u'
    htwins hpc hstatements hstatements'
  rw [hend, hend'] at hmeets
  rw [← hglobals, ← hglobals']
  -- both runs end normally, so none of them has parted from the other for good
  cases hmeets with
  | done _ ht => exact ht.agrees.globals
  | left h =>
    obtain ⟨_, _, ⟨⟩⟩ : Completion.normal.Thrown := by
      cases h
      assumption
  | right h =>
    obtain ⟨_, _, ⟨⟩⟩ : Completion.normal.Thrown := by
      cases h
      assumption

end View

/-- A machine with the given bounds. -/
def Engine.ofMachine (hosts : Hosts) (rounds levels : Nat) : Engine :=
  ⟨machine hosts rounds levels, machineWatch hosts rounds levels, rounds,
    machine_keepsControl hosts rounds levels⟩

/-- **Non-interference of programs that do not jump.** A program of the core without jumps runs
twice, on global objects that bind the same names with the same attributes, where each name holds
the same up to a level or is classified above it in both. If both runs end normally, then the
global objects are related in the same way afterwards. -/
theorem core_noninterference {ns : List String} {body : List (Stmt Span)}
    (hcore : coreStmts ns false body = true) (l : Label) (hosts : Hosts)
    {rounds levels rounds' levels' : Nat} {s s' t t' : State} {file : String} {v v' : Value}
    (hs : Scene ns s.control.realm s.store) (hs' : Scene ns s'.control.realm s'.store)
    (hcontrol : s'.control = s.control) (hagrees : s.globals.Agrees l s'.globals)
    (hrun : (runProgram body file).run (machine hosts rounds levels) rounds s = .done v t)
    (hrun' : (runProgram body file).run (machine hosts rounds' levels') rounds' s' =
      .done v' t') :
    t.globals.Agrees l t'.globals := by
  let V : View := ⟨ns, s.control.realm, l, false⟩
  let E : Engine := .ofMachine hosts rounds levels
  let E' : Engine := .ofMachine hosts rounds' levels'
  have hcore' : coreStmts V.names V.jumps body = true := hcore
  have hcalm : ∀ (E : Engine) (s : State), V.Calm E (runProgram body file) .nothing [] s := by
    intro E s hj
    cases hj
  exact View.globals_agree_of_runs hcore' hs hs' rfl ⟨hcontrol, hagrees⟩ E E' (hcalm E s)
    (hcalm E' s') hrun hrun'

/-! ## Sessions -/

/-- Two objects in which one property is set. -/
lemma Object.Agrees.set {l : Label} {o o' : Object} (h : o.Agrees l o') (n : String)
    {v v' : Value} (hv : v.Agrees l v') : (o.set n v).Agrees l (o'.set n v') := by
  have hdefine : ∀ {q q' : Property}, q.Agrees l o.partition q' →
      (o.define n q).Agrees l (o'.define n q') := by
    intro q q' hq
    refine ⟨h.partition, fun m => ?_⟩
    rw [find?_define, find?_define]
    split_ifs
    · exact .some hq
    · exact h.properties m
  unfold Object.set
  rcases h.cases_find? n with ⟨hq, hq'⟩ | ⟨q, q', hq, hq', hagrees⟩
  · rw [hq, hq']
    exact hdefine (.of_value rfl hv)
  · have haccessor : q'.isAccessor = q.isAccessor := by rw [← hagrees.attributes]; rfl
    rw [hq, hq']
    dsimp only
    rw [haccessor]
    split_ifs
    · exact hdefine (.of_value rfl hv)
    · refine hdefine (.of_value ?_ hv)
      rw [← hagrees.attributes]

/-- A host may set different values under labels above a level. -/
def SameSetting (l : Label) (g g' : String × Value) : Prop := g.1 = g'.1 ∧ g.2.Agrees l g'.2

namespace Session

/-- A host sets the same globals in two sessions, up to what is classified above a level. -/
lemma agrees_setGlobals {l : Label} {gs gs' : List (String × Value)}
    (h : List.Forall₂ (SameSetting l) gs gs') {s s' : State} (hs : s.Agrees l s')
    (hinside : s.control.realm.global < s.store.heap.size)
    (hinside' : s'.control.realm.global < s'.store.heap.size) :
    ((setGlobals gs).run (machine .none 0 0) 0 s).state.Agrees l
      ((setGlobals gs').run (machine .none 0 0) 0 s').state := by
  induction h generalizing s s' with
  | nil => exact hs
  | @cons g g' gs gs' hg _ ih =>
    obtain ⟨n, v⟩ := g
    obtain ⟨n', v'⟩ := g'
    obtain ⟨rfl, hv⟩ : n = n' ∧ v.Agrees l v' := hg
    simp only [setGlobals, run_bind, run_setGlobal]
    refine ih ⟨hs.control, ?_⟩ (by simpa using hinside) (by simpa using hinside')
    unfold State.globals
    dsimp only
    rw [Heap.get_update_self hinside, Heap.get_update_self hinside']
    exact hs.globals.set n hv

lemma agrees_started (o : Library.Options) {l : Label} {gs gs' : List (String × Value)}
    (h : List.Forall₂ (SameSetting l) gs gs') : (started o gs).Agrees l (started o gs') :=
  agrees_setGlobals h (.refl _) (stage_fresh o []).inside (stage_fresh o []).inside

end Session

/-- The names are plain: a check that can be run. -/
def Heap.showsPlain (h : Heap) (id : Nat) (name : String) : Bool :=
  match Slots.find? name (h.get id).slots with
  | some q => !q.isAccessor && q.value.raw.isPrimitive
  | none => (h.find? id name).isNone

lemma Heap.plain_of_showsPlain {h : Heap} {id : Nat} {name : String}
    (hplain : h.showsPlain id name = true) : h.Plain id name := by
  unfold showsPlain at hplain
  split at hplain
  · rename_i q hq
    rw [Bool.and_eq_true, Bool.not_eq_true'] at hplain
    exact .inl ⟨q, hq, hplain⟩
  · exact .inr (Option.isNone_iff_eq_none.1 hplain)

/-- A started session is a scene for names that are plain in it. -/
lemma Session.scene_started (o : Library.Options) (gs : List (String × Value)) {ns : List String}
    (h : ns.all ((started o gs).store.heap.showsPlain (started o gs).control.realm.global) =
      true) : Scene ns (started o gs).control.realm (started o gs).store :=
  ⟨stage_started o ns gs, fun n hn => Heap.plain_of_showsPlain (List.all_eq_true.1 h n hn)⟩

/-- The statements of a script. -/
def scriptBody (source : String) : List (Stmt Span) :=
  match Script.parse Script.defaultIntrinsic "" source 1 with
  | .ok program => program.body
  | .error _ => []

lemma scriptBody_ofList (cs : List Char) : scriptBody (String.ofList cs) =
    match Script.parseChars Script.defaultIntrinsic "" cs 1 with
    | .ok program => program.body
    | .error _ => [] := by
  rw [scriptBody, Script.parse_ofList]

/-- The globals of a session with a secret. -/
def secretGlobals (b : Bool) : List (String × Value) :=
  [("secret", ⟨.bool b, ⟨2, "H"⟩⟩), ("public", Raw.bool false)]

/-- The sessions differ in what is secret only. -/
lemma sameSetting_secretGlobals (b b' : Bool) :
    List.Forall₂ (SameSetting ⟨1, "L"⟩) (secretGlobals b) (secretGlobals b') :=
  .cons ⟨rfl, .inr ⟨rfl, rfl⟩⟩ (.cons ⟨rfl, .inl rfl⟩ .nil)

set_option maxRecDepth 100000 in
/-- The sessions are scenes for scripts that copy the secret. -/
lemma scene_secretGlobals (b : Bool) : Scene ["secret", "copy", "public"]
    (Session.started .standard (secretGlobals b)).control.realm
    (Session.started .standard (secretGlobals b)).store := by
  have hplain : ∀ b, ["secret", "copy", "public"].all
      ((Session.started .standard (secretGlobals b)).store.heap.showsPlain
        (Session.started .standard (secretGlobals b)).control.realm.global) = true := by
    decide +kernel
  exact Session.scene_started .standard (secretGlobals b) (hplain b)

/-- An action ends normally. -/
def endsNormally {α : Type} (p : Action α) (hosts : Hosts) (bound : Nat) (s : State) : Bool :=
  match p.run (machine hosts bound bound) bound s with
  | .done _ _ => true
  | _ => false

lemma exists_of_endsNormally {α : Type} {p : Action α} {hosts : Hosts} {bound : Nat} {s : State}
    (h : endsNormally p hosts bound s = true) :
    ∃ v t, p.run (machine hosts bound bound) bound s = .done v t := by
  unfold endsNormally at h
  split at h
  · rename_i v t hrun
    exact ⟨v, t, hrun⟩
  · cases h

/-- A script that copies the secret and branches on it. -/
def copyingScript : List (Stmt Span) :=
  scriptBody "var copy = secret; if (secret) \x7b copy = false; \x7d public = !public;"

set_option maxRecDepth 100000 in
/-- The script ends normally for both secrets, in globals that agree. -/
theorem core_noninterference_for_secret :
    ∃ v t v' t', (runProgram copyingScript "").run (machine .none 50 50) 50
        (Session.started .standard (secretGlobals true)) = .done v t ∧
      (runProgram copyingScript "").run (machine .none 50 50) 50
        (Session.started .standard (secretGlobals false)) = .done v' t' ∧
      t.globals.Agrees ⟨1, "L"⟩ t'.globals := by
  obtain ⟨hcore, hends⟩ : coreStmts ["secret", "copy", "public"] false copyingScript = true ∧
      ∀ b, endsNormally (runProgram copyingScript "") .none 50
        (Session.started .standard (secretGlobals b)) = true := by
    rw [copyingScript, scriptBody_ofList]
    decide +kernel
  have hagrees := Session.agrees_started .standard (sameSetting_secretGlobals true false)
  obtain ⟨v, t, hrun⟩ := exists_of_endsNormally (hends true)
  obtain ⟨v', t', hrun'⟩ := exists_of_endsNormally (hends false)
  exact ⟨v, t, v', t', hrun, hrun', core_noninterference hcore ⟨1, "L"⟩ .none
    (scene_secretGlobals true) (scene_secretGlobals false) hagrees.control hagrees.globals hrun
    hrun'⟩

/-! ## Programs that jump -/

/-- What an observer at a level sees of a name: its raw value, if the name is bound at a
classification up to the level. -/
def Object.seen (o : Object) (l : Label) (n : String) : Option Raw :=
  (Slots.find? n o.slots).bind fun q =>
    if (q.value.label.join o.partition).leq l then some q.value.raw else none

lemma Object.Agrees.seen_eq {l : Label} {o o' : Object} (h : o.Agrees l o') (n : String) :
    o'.seen l n = o.seen l n := by
  unfold Object.seen
  rw [h.partition]
  rcases h.cases_find? n with ⟨hq, hq'⟩ | ⟨q, q', hq, hq', hagrees⟩
  · rw [hq, hq']
  · rw [hq, hq', Option.bind_some, Option.bind_some]
    rcases hagrees.cell with ⟨hleq, hraw, hlabel⟩ | ⟨hless, hless'⟩
    · rw [hlabel, hraw]
    · rw [if_neg fun hleq => Label.not_less_of_leq hleq hless,
        if_neg fun hleq => Label.not_less_of_leq hleq hless']

/-- **Non-interference of calm runs.** A program of the core, with jumps, runs in two fresh
sessions whose hosts have set the same globals up to a level. If both runs end normally, and in
neither of them a region above the level is left by a jump or an exception, then an observer at
the level sees the same of every global afterwards. -/
theorem calm_noninterference {ns : List String} {body : List (Stmt Span)}
    (hcore : coreStmts ns true body = true) (l : Label) (hosts : Hosts) (o : Library.Options)
    {gs gs' : List (String × Value)} (hgs : List.Forall₂ (SameSetting l) gs gs')
    {rounds levels rounds' levels' : Nat} {t t' : State} {file : String} {v v' : Value}
    (hplain : ∀ n ∈ ns, (Session.started o gs).store.heap.Plain
      (Session.started o gs).control.realm.global n)
    (hplain' : ∀ n ∈ ns, (Session.started o gs').store.heap.Plain
      (Session.started o gs').control.realm.global n)
    (hcalm : ∀ w ∈ (runProgram body file).visitsOn hosts rounds levels (Session.started o gs),
      ¬Escapes (.ofMachine hosts rounds levels) l w)
    (hcalm' : ∀ w ∈ (runProgram body file).visitsOn hosts rounds' levels' (Session.started o gs'),
      ¬Escapes (.ofMachine hosts rounds' levels') l w)
    (hrun : (runProgram body file).run (machine hosts rounds levels) rounds
      (Session.started o gs) = .done v t)
    (hrun' : (runProgram body file).run (machine hosts rounds' levels') rounds'
      (Session.started o gs') = .done v' t') (n : String) :
    t'.globals.seen l n = t.globals.seen l n := by
  let V : View := ⟨ns, (Session.started o gs).control.realm, l, true⟩
  have hcore' : coreStmts V.names V.jumps body = true := hcore
  have hagrees := View.globals_agree_of_runs (V := V) hcore'
    ⟨Session.stage_started o ns gs, hplain⟩ ⟨Session.stage_started o ns gs', hplain'⟩ rfl
    (Session.agrees_started o hgs) (.ofMachine hosts rounds levels)
    (.ofMachine hosts rounds' levels') (fun _ => hcalm) (fun _ => hcalm') hrun hrun'
  exact hagrees.seen_eq n

/-- A visit enters a region above a level from below it. -/
def Visit.entersAbove (l : Label) (w : Visit) : Bool :=
  match w.action with
  | .region pc _ _ => w.state.control.pc.leq l && l.less pc
  | _ => false

lemma Escapes.entersAbove {E : Engine} {l : Label} {w : Visit} (h : Escapes E l w) :
    w.entersAbove l = true := by
  cases h with
  | failed hleq hless _ _ | jumped hleq hless _ _ | ended hleq hless _ _ =>
    simp [Visit.entersAbove, hleq, hless]

/-- A script that jumps, but never in a region. -/
def jumpingScript : List (Stmt Span) :=
  scriptBody "var copy = secret; while (true) \x7b copy = !copy; public = !public; break; \x7d"

set_option maxRecDepth 100000 in
/-- The script ends normally for both secrets, and nothing is seen of them. -/
theorem calm_noninterference_for_secret :
    ∃ v t v' t', (runProgram jumpingScript "").run (machine .none 50 50) 50
        (Session.started .standard (secretGlobals true)) = .done v t ∧
      (runProgram jumpingScript "").run (machine .none 50 50) 50
        (Session.started .standard (secretGlobals false)) = .done v' t' ∧
      ∀ n, t'.globals.seen ⟨1, "L"⟩ n = t.globals.seen ⟨1, "L"⟩ n := by
  obtain ⟨hcore, hruns⟩ : coreStmts ["secret", "copy", "public"] true jumpingScript = true ∧
      ∀ b, endsNormally (runProgram jumpingScript "") .none 50
          (Session.started .standard (secretGlobals b)) = true ∧
        ((runProgram jumpingScript "").visitsOn .none 50 50
          (Session.started .standard (secretGlobals b))).all (!·.entersAbove ⟨1, "L"⟩) = true := by
    rw [jumpingScript, scriptBody_ofList]
    decide +kernel
  have hescapes : ∀ b, ∀ w ∈ (runProgram jumpingScript "").visitsOn .none 50 50
      (Session.started .standard (secretGlobals b)),
      ¬Escapes (.ofMachine .none 50 50) ⟨1, "L"⟩ w := by
    intro b w hw hescapes
    have hbelow := List.all_eq_true.1 (hruns b).2 w hw
    rw [hescapes.entersAbove] at hbelow
    cases hbelow
  obtain ⟨v, t, hrun⟩ := exists_of_endsNormally (hruns true).1
  obtain ⟨v', t', hrun'⟩ := exists_of_endsNormally (hruns false).1
  exact ⟨v, t, v', t', hrun, hrun', calm_noninterference hcore ⟨1, "L"⟩ .none .standard
    (sameSetting_secretGlobals true false) (scene_secretGlobals true).plain
    (scene_secretGlobals false).plain (hescapes true) (hescapes false) hrun hrun'⟩

/-- A script that leaves a region in the course of a loop, so that the rest of the loop runs for
one of the secrets only. -/
def leavingScript : List (Stmt Span) :=
  scriptBody "var x = false; do \x7b if (secret) break; x = true; \x7d while (false);"

set_option maxRecDepth 100000 in
/-- What the jump skips shows the secret. -/
theorem jump_shows_secret :
    ∃ v t v' t', (runProgram leavingScript "").run (machine .none 50 50) 50
        (Session.started .standard (secretGlobals true)) = .done v t ∧
      (runProgram leavingScript "").run (machine .none 50 50) 50
        (Session.started .standard (secretGlobals false)) = .done v' t' ∧
      Session.flag? t "x" = some false ∧ Session.flag? t' "x" = some true := by
  have hends : ∀ b, Session.endsWith (runProgram leavingScript "") .none 50
      (Session.started .standard (secretGlobals b)) "x" (!b) = true := by
    rw [leavingScript, scriptBody_ofList]
    decide +kernel
  obtain ⟨v, t, hrun, hx⟩ := Session.exists_of_endsWith (hends true)
  obtain ⟨v', t', hrun', hx'⟩ := Session.exists_of_endsWith (hends false)
  exact ⟨v, t, v', t', hrun, hrun', hx, hx'⟩

end Clearance
