/-
# Sessions without labels

Where label expressions name nothing but the least label, hosts hand over values without labels and
host functions answer with such values, nothing is ever classified: no value carries a label, the
program counter stays at the bottom, whatever scripts can reach is in a partition at the bottom, and
no flow is forbidden. The stores for classified bindings, which every frame has, stay empty.

What there is at the moments of a session is read off the run that goes beside itself and meets no
label above the bottom.
-/
import Clearance.Proofs.Passing
import Clearance.Proofs.Started

namespace Clearance

open Clearance.Action Script

/-! ## What is unlabeled -/

/-- No label above the bottom is met in the object, and a store that is classified is empty. -/
structure Object.Unlabeled (l : Lattice) (o : Object) : Prop where
  values : ∀ slot ∈ o.slots, slot.2.value.label = .none
  wrapped : ∀ v ∈ o.primitive, v.label = .none
  partition : o.cls ≠ "Activation" → l.Low o.partition
  empty : ¬l.Low o.partition → o.slots = []

/-- The property holds a reference, as its value or as its getter or setter. -/
inductive Property.Holds (p : Property) : Ref → Prop
  | value {o : Ref} : p.value.raw = .object o → Holds p o
  | getter {o : Ref} : p.getter = .object o → Holds p o
  | setter {o : Ref} : p.setter = .object o → Holds p o

/-- What scripts can get hold of: from the machine and the activations in progress, through names
and through the objects of `with` statements, from there by properties and prototypes. -/
inductive State.Reaches (s : State) (cs : List Control) : Nat → Prop
  | landmark {id : Nat} : id ∈ s.control.realm.landmarks → Reaches s cs id
  | this {c : Control} {o : Ref} : c ∈ s.control :: cs → c.this.raw = .object o → Reaches s cs o.id
  | result {o : Ref} : s.store.result.raw = .object o → Reaches s cs o.id
  | name {n : Nat} {side : Side} {slot : String × Property} {o : Ref} : n < s.store.frames.size →
      slot ∈ (s.store.heap.get ((s.store.frames.get n).store side).id).slots →
      slot.2.Holds o → Reaches s cs o.id
  | scope {n : Nat} {side : Side} : n < s.store.frames.size →
      (s.store.heap.get ((s.store.frames.get n).store side).id).cls ≠ "Activation" →
      Reaches s cs ((s.store.frames.get n).store side).id
  | property {id : Nat} {slot : String × Property} {o : Ref} : Reaches s cs id →
      slot ∈ (s.store.heap.get id).slots → slot.2.Holds o → Reaches s cs o.id
  | proto {id q : Nat} : Reaches s cs id → (s.store.heap.get id).proto = some q → Reaches s cs q

/-- Nothing is classified in the state, nor in the activations in progress. -/
structure State.Unlabeled (l : Lattice) (cs : List Control) (s : State) : Prop where
  objects : ∀ id, (s.store.heap.get id).Unlabeled l
  reached : ∀ id, s.Reaches cs id →
    (s.store.heap.get id).cls ≠ "Activation" ∧ l.Low (s.store.heap.get id).partition
  controls : ∀ c ∈ s.control :: cs, l.Low c.pc ∧ c.this.label = .none
  result : s.store.result.label = .none

/-- What an expression evaluates to is not classified. -/
def Operand.Unlabeled (l : Lattice) : Operand → Prop
  | .value v => v.label = .none
  | .place _ k => l.Low k

/-- The value that a completion carries is not classified. -/
def Completion.Unlabeled : Completion → Prop
  | .returned v | .thrown v _ => v.label = .none
  | .normal | .leave _ | .resume _ => True

/-- Nothing that passes through the moment is classified: neither what is there before and after,
nor what is asked, answered and thrown, nor what expressions and statements come to, nor what a host
gets back. -/
structure Moment.Unlabeled (l : Lattice) (m : Moment) : Prop where
  before : m.state.Unlabeled l m.contexts
  after : m.outcome.state.Unlabeled l m.contexts
  /-- No flow is forbidden. -/
  permitted : ∀ v t, m.outcome ≠ .failed (.violation v) t
  thrown : ∀ v file line t, m.outcome = .failed (.thrown v file line) t → v.label = .none
  asked : ∀ r ∈ m.action.asks?, ∀ v ∈ r.values, v.label = .none
  answered : ∀ {r : Request} {s : State} {cs : List Control} {v : Value} {t : State},
    m = ⟨.invoke r, s, cs, .done v t⟩ → v.label = .none
  operand : ∀ {e : Expr Span} {s : State} {cs : List Control} {x : Operand} {t : State},
    (∀ node ∈ e.nodes true, (Grade.lowest l).Allows node) →
      m = ⟨e.action, s, cs, .done x t⟩ → x.Unlabeled l
  rated : ∀ {e : Expr Span} {s : State} {cs : List Control} {r : Rated} {t : State},
    (∀ node ∈ e.nodes true, (Grade.lowest l).Allows node) →
      m = ⟨valueOf e.action, s, cs, .done r t⟩ → l.Low r.label
  completion : ∀ {st : Stmt Span} {s : State} {cs : List Control} {c : Completion} {t : State},
    (∀ node ∈ st.nodes true, (Grade.lowest l).Allows node) →
      m = ⟨st.action, s, cs, .done c t⟩ → c.Unlabeled
  returned : ∀ {p : Action Value} {s : State} {cs : List Control} {v : Value} {t : State},
    Deed (Grade.lowest l) s.store p → m = ⟨p, s, cs, .done v t⟩ → v.label = .none

/-! ## Regular states without labels -/

/-- A reference that is held is one that scripts may hold. -/
lemma World.Properties.not_store {W : World} {cls name : String} {p p' : Property}
    (h : W.Properties cls name p p') {o : Ref} (ho : p.Holds o) : ¬W.store o.id := by
  cases ho with
  | value hv =>
    rcases h.value with (hvalue | ⟨-, -, hvalue⟩) | ⟨-, habsent, -⟩
    · exact W.fits_object (hvalue.raw.sound o hv)
    · obtain ⟨_, _, htext, -⟩ := hvalue.texts
      rw [htext] at hv
      cases hv
    · rw [habsent] at hv
      cases hv
  | getter hv => exact W.fits_object (h.getter_sound o hv)
  | setter hv => exact W.fits_object (h.setter_sound o hv)

namespace Origin

variable {O : Origin} {cs : List Control} {s : State}

/-- Scripts cannot reach stores. -/
lemma not_store_of_reaches {h : O.base.Precedes s.store}
    (hs : (O.upTo s.store h).keeper.Starts .any cs s s) {i : Nat} (hi : s.Reaches cs i) :
    ¬(O.upTo s.store h).store i := by
  obtain ⟨-, ⟨hcontrol, hheaps, hresult, -, -, hkept⟩, hcontexts, -⟩ := hs
  induction hi with
  | landmark hmem =>
    refine (O.upTo s.store h).not_store_landmark ?_
    rwa [hcontrol.realm] at hmem
  | @this c o hc ho =>
    rcases List.mem_cons.1 hc with rfl | hc
    · exact (O.upTo s.store h).world.fits_object (hcontrol.this.raw.sound o ho)
    · obtain ⟨c', hc'⟩ := hcontexts c hc
      exact (O.upTo s.store h).world.fits_object (hc'.this.raw.sound o ho)
  | result ho => exact (O.upTo s.store h).world.fits_object (hresult.raw.sound _ ho)
  | name _ hslot ho | property _ hslot ho =>
    obtain ⟨_, _, hp⟩ := exists_properties hheaps hkept hslot
    exact hp.not_store ho
  | @scope n side hn hcls =>
    intro hstore
    rcases id hstore with hle | hactivation
    · exact absurd (Setting.Kept.bounded hkept n hn side hstore) (Nat.not_lt_of_le hle)
    · exact hcls hactivation
  | proto _ hq ih => exact (hheaps.object _ ih).proto_object _ hq

/-- In a regular state nothing is classified, if no label above the bottom is met. -/
lemma Regular.unlabeled {l : Lattice} (hs : O.Regular cs s) (hmem : ∀ k, O.grade.mem k → l.Low k)
    (hcalm : O.grade.Calm) : s.Unlabeled l cs := by
  have hvalues : ∀ v, s.Holds cs v → v.label = .none := fun v hv => (hs.graded hv).unlabeled hcalm
  obtain ⟨h, hstarts⟩ := hs
  have hreached : ∀ id, s.Reaches cs id → ¬(O.upTo s.store h).store id :=
    fun _ => not_store_of_reaches hstarts
  obtain ⟨-, ⟨hcontrol, hheaps, -, -, -, hkept⟩, hcontexts, -⟩ := hstarts
  refine ⟨fun id => ⟨fun slot hslot => hvalues _ (.slot hslot), fun v hv => hvalues v (.wrapped hv),
    fun hcls => ?_, fun hpartition => ?_⟩, fun id hid => ⟨?_, ?_⟩,
    fun c hc => ⟨?_, hvalues _ (.this hc)⟩, hvalues _ .result⟩
  · by_cases hid : (O.upTo s.store h).store id
    · rcases hid with hle | hactivation
      · have hget : s.store.heap.get id = default := Heap.get_of_size_le hle
        rw [hget]
        exact .inl rfl
      · exact absurd hactivation hcls
    · exact hmem _ (hheaps.object id hid).partition.left
  · by_cases hid : (O.upTo s.store h).store id
    · by_contra hne
      exact hpartition (hmem _ (Setting.Kept.held hkept id hid hne))
    · exact absurd (hmem _ (hheaps.object id hid).partition.left) hpartition
  · exact (hheaps.object id (hreached id hid)).ordinary
  · exact hmem _ (hheaps.object id (hreached id hid)).partition.left
  · rcases List.mem_cons.1 hc with rfl | hc
    · exact hmem _ hcontrol.pc.left
    · obtain ⟨c', hc'⟩ := hcontexts c hc
      exact hmem _ hc'.pc.left

/-- Nothing that passes through the moments of a session is classified, if no label above the bottom
is met. -/
lemma Lived.unlabeled {hosts : Hosts} {ms : List Moment} (h : O.Lived hosts ms s)
    (hhosts : O.Welcomes hosts) (hlax : O.lax) (hreads : O.grade.Reads ms)
    {l : Lattice} (hmem : ∀ k, O.grade.mem k → l.Low k) (hcalm : O.grade.Calm)
    (hnodes : (Grade.lowest l).Allows = O.grade.Allows)
    (hdeeds : ∀ s p, Deed (Grade.lowest l) s p → Deed O.grade s p) {m : Moment} (hm : m ∈ ms) :
    m.Unlabeled l := by
  have hsees := h.sees m hm
  have hpasses : ∀ v, m.Passes O.grade v → v.label = .none :=
    fun v hv => (h.passes hhosts hlax hreads hm hv).unlabeled hcalm
  -- values that pass have no label; labels of places and of results are low by the same runs
  refine ⟨hsees.start.unlabeled hmem hcalm, hsees.final.unlabeled hmem hcalm, fun v t ho => ?_,
    fun v file line t ho => hpasses v (.thrown ho), fun r hr v hv => hpasses v (.asked hr hv),
    ?_, ?_, ?_, ?_, ?_⟩
  · obtain ⟨hbase, -⟩ := hsees.final
    obtain ⟨_, hf⟩ := hsees.failure _ hbase rfl _ _ ho
    cases hf with
    | violation hleft => exact hleft hcalm
  · rintro r s cs v t rfl
    exact hpasses v .answered
  · rintro e s cs x t he rfl
    rw [hnodes] at he
    cases x with
    | value v => exact hpasses v (.operand he)
    | place p k =>
      obtain ⟨_, _, hx⟩ := h.result hhosts hlax hreads hm
        (fun u hu _ => evaluates_code (fun node hnode => allowed_of_lax hlax (he node hnode)) .any)
          rfl
      cases hx with
      | place _ hk => exact hmem _ hk.left
  · rintro e s cs r t he rfl
    rw [hnodes] at he
    obtain ⟨_, _, hr⟩ := h.result hhosts hlax hreads hm
      (fun u hu _ => (evaluates_code fun node hnode => allowed_of_lax hlax (he node hnode)).value)
        rfl
    exact hmem _ hr.label.left
  · rintro st s cs c t hst rfl
    rw [hnodes] at hst
    cases c with
    | normal | leave | resume => trivial
    | returned v => exact hpasses v (.completed hst (.returned v))
    | thrown v line => exact hpasses v (.completed hst (.thrown v line))
  · rintro p s cs v t hp rfl
    exact hpasses v (.returned (hdeeds _ _ hp))

end Origin

/-! ## Sessions -/

/-- A host whose functions and objects are put together from instructions like those of scripts, and
give values without labels whenever they are handed such values. -/
structure Hosts.Plain (hosts : Hosts) : Prop where
  composed : hosts.Composed .none
  alike : ∀ W : World, W.faithful → W.lax → W.left.Calm → W.right.Calm → W.Hosts hosts hosts

lemma Hosts.plain_none : Hosts.none.Plain := ⟨composed_none _, fun W _ _ _ _ => W.hosts_none⟩

lemma Course.unlabeled {hosts : Hosts} (hhosts : hosts.Plain) {s₀ : State}
    (h₀ : Library.Untouched s₀) {ms : List Moment} {s : State}
    (h : Course hosts s₀ (Grade.lowest s₀.control.realm.lattice) ms s)
    (hreads : (Grade.lowest s₀.control.realm.lattice).Reads ms) :
    s.Unlabeled s₀.control.realm.lattice [] ∧
      ∀ m ∈ ms, m.Unlabeled s₀.control.realm.lattice := by
  have hcalm := Grade.calm_lowest s₀.control.realm.lattice
  have hwelcome : (h₀.origin .lowest).Welcomes hosts :=
    ⟨hhosts.composed, fun _ _ => hhosts.alike _ trivial trivial hcalm hcalm⟩
  have hlived := CourseWith.lived h₀ .lowest hwelcome h (absurd trivial) hreads (absurd trivial)
  exact ⟨hlived.regular.unlabeled (fun _ hk => hk) hcalm, fun m hm =>
    hlived.unlabeled hwelcome trivial hreads (fun _ hk => hk) hcalm rfl (fun _ _ hp => hp) hm⟩

/-- **There are no false alarms in programs without labels.** A host uses a fresh session and hands
over values without labels, its functions answer with such values, and the label expressions of all
scripts, and of the texts that they evaluate or make functions of, name the least label. Then at
every moment the program counters are at the bottom, no value carries a label, whatever scripts can
reach is in a partition at the bottom, and no flow is forbidden. -/
theorem unlabeled_sessions_raise_no_alarm {hosts : Hosts} (hhosts : hosts.Plain)
    {o : Library.Options} {ms : List Moment} {s : State}
    (h : Course hosts (Session.fresh o) (Grade.lowest (Session.fresh o).control.realm.lattice) ms s)
    (hreads : (Grade.lowest (Session.fresh o).control.realm.lattice).Reads ms) :
    s.Unlabeled (Session.fresh o).control.realm.lattice [] ∧
      ∀ m ∈ ms, m.Unlabeled (Session.fresh o).control.realm.lattice :=
  Course.unlabeled hhosts (Session.untouched_fresh o) h hreads

/-! ## A script without classified labels -/

instance (l : Lattice) (k : Label) : Decidable (l.Low k) :=
  inferInstanceAs (Decidable (k = .none ∨ k = l.bottom))

instance (l : Lattice) (name : String) : Decidable ((Grade.lowest l).Names name) :=
  match h : l.lookup? name with
  | some k => decidable_of_iff (l.Low k)
      ⟨fun hk _ hk' => by rw [h] at hk'; cases hk'; exact hk, fun hname => hname k h⟩
  | none => isTrue fun k hk => by rw [h] at hk; cases hk

/-- The program names the least label only. -/
def Lattice.allowsOnlyLeast (l : Lattice) (node : Node Span) : Bool :=
  match node with
  | .expr (.label _ name _) => (Grade.lowest l).Names name
  | _ => true

lemma Lattice.allows_of_allowsOnlyLeast {l : Lattice} {node : Node Span}
    (h : l.allowsOnlyLeast node = true) : (Grade.lowest l).Allows node := by
  rintro s name operand rfl
  exact of_decide_eq_true h

/-- The text can be read, and names the least label only. -/
def Lattice.readsOnlyLeast (l : Lattice) (source file : String) (line : Int) : Bool :=
  match Script.parse defaultIntrinsic file source line with
  | .ok program => (program.nodes true).all l.allowsOnlyLeast
  | .error _ => false

lemma Lattice.readsOnlyLeast_ofList (l : Lattice) (cs : List Char) (file : String) (line : Int) :
    l.readsOnlyLeast (String.ofList cs) file line =
      match Script.parseChars defaultIntrinsic file cs line with
      | .ok program => (program.nodes true).all l.allowsOnlyLeast
      | .error _ => false := by
  rw [readsOnlyLeast, Script.parse_ofList]

lemma Lattice.deed_of_readsOnlyLeast {l : Lattice} {source file : String} {line : Int} {s : Store}
    (h : l.readsOnlyLeast source file line = true) :
    Deed (Grade.lowest l) s (evaluate source file line) := by
  refine .evaluate source file line fun program hprogram node hnode => ?_
  unfold readsOnlyLeast at h
  rw [hprogram] at h
  exact allows_of_allowsOnlyLeast (List.all_eq_true.1 h node hnode)

/-- A function was allocated last but one: its prototype comes after it. -/
def Heap.endsWithFunction (h : Heap) : Bool :=
  match (h.get (h.size - 2)).behaviour with
  | .closure .. => true
  | _ => false

lemma Heap.endsWithFunction_update_push (h : Heap) (o o' : Object) (f : Object → Object) :
    (Heap.update ((h.push o).push o') h.size f).endsWithFunction =
      match (f o).behaviour with
      | .closure .. => true
      | _ => false := by
  have hsize : (Heap.update ((h.push o).push o') h.size f).size - 2 = h.size := by
    rw [Heap.size_update, Array.size_push, Array.size_push]
    omega
  have hlt : h.size < ((h.push o).push o').size := by
    rw [Array.size_push, Array.size_push]
    omega
  unfold Heap.endsWithFunction
  rw [hsize, Heap.get_update_self hlt, Heap.get_push_lt (by simp), Heap.get_push_size]

/-- The moment comes to an end, in no evaluated text and with no new function. -/
def Moment.readsNothing (m : Moment) : Bool :=
  match m.outcome with
  | .done _ t => m.state.control.kind != .eval && !t.store.heap.endsWithFunction
  | _ => false

section

variable {serve : Service} {chronicle : Chronicle} {fuel : Nat} {s t : State} {v : Value}

/-- A text that has been evaluated has been run in an activation of its own. -/
lemma exists_mem_moments_evalText {source : String} {k : Label}
    (hrun : (evalText source k).run serve fuel s = .done v t) (cs : List Control) :
    ∃ m ∈ (evalText source k).moments serve chronicle fuel cs s, m.state.control.kind = .eval := by
  obtain ⟨_, _, ⟨⟩, hrest⟩ := run_bind_done.1 hrun
  suffices hkind : ∃ m ∈ Action.moments serve chronicle fuel _ cs s,
      m.state.control.kind = .eval from
    hkind.imp fun m hm => ⟨mem_moments_rest (run_current s) hm.1, hm.2⟩
  split_ifs at hrest ⊢ with hroom
  · cases hrest
  cases hparse : Script.parse defaultIntrinsic s.control.file source 1 with
  | error e =>
    rw [hparse] at hrest
    cases hrest
  | ok program =>
    rw [hparse] at hrest
    obtain ⟨_, u, htrace, -⟩ := run_bind_done.1 hrest
    refine ⟨_, mem_moments_rest htrace (mem_moments_first _ (List.mem_cons_of_mem _
      (List.mem_cons_of_mem _ (mem_moments_self (runBody program.body) _ _)))), rfl⟩

/-- A function that has been made of texts is new. -/
lemma endsWithFunction_of_functionFromTexts {texts : List String} {k : Label}
    (hrun : (functionFromTexts texts k).run serve fuel s = .done v t) :
    t.store.heap.endsWithFunction = true := by
  obtain ⟨_, _, ⟨⟩, hrest⟩ := run_bind_done.1 hrun
  cases hparse : Script.parse defaultIntrinsic s.control.file (functionSource texts) 1 with
  | error e =>
    unfold functionSource at hparse
    rw [hparse] at hrest
    cases hrest
  | ok program =>
    unfold functionSource at hparse
    rw [hparse] at hrest
    dsimp only at hrest
    split at hrest
    · simp only [newFunction, run_bind, run_realm, run_allocate, run_change, run_pure] at hrest
      cases hrest
      exact Heap.endsWithFunction_update_push ..
    · cases hrest

attribute [local irreducible] Script.parse in
/-- Where no moment shows that a text has been read, none has been read. -/
lemma Course.reads_of_readsNothing {hosts : Hosts} {l : Lattice} {ms : List Moment}
    (hruns : ∀ m ∈ ms, ∃ rounds levels,
      m.Within (machine hosts rounds levels) (machineChronicle hosts rounds levels) rounds ms)
    (h : ms.all (·.readsNothing) = true) (g : Grade l) : g.Reads ms := by
  intro m hm source hread
  obtain ⟨rounds, levels, houtcome, hsubset⟩ := hruns m hm
  have hnothing : m.readsNothing = true := List.all_eq_true.1 h m hm
  obtain ⟨p, s, cs, o⟩ := m
  dsimp only at houtcome hsubset
  cases o with
  | failed | stuck => cases hnothing
  | done v t =>
    cases hread with
    | eval source k =>
      obtain ⟨m', hm', hkind⟩ := exists_mem_moments_evalText houtcome.symm cs
      have hother := List.all_eq_true.1 h m' (hsubset hm')
      unfold Moment.readsNothing at hother
      rw [hkind] at hother
      split at hother <;> cases hother
    | function texts k =>
      have hends := endsWithFunction_of_functionFromTexts houtcome.symm
      unfold Moment.readsNothing at hnothing
      dsimp only at hnothing
      rw [hends, Bool.not_true, Bool.and_false] at hnothing
      cases hnothing

end

/-- A script that labels a value with the least label, and branches on it. -/
def leastScript : Action Value :=
  evaluate "var o = \x7ba: label('L', true)\x7d; if (o.a) \x7b var b = !o.a; \x7d" "" 1

/-- All that happens while the script runs. -/
def leastMoments : List Moment :=
  leastScript.momentsOn .none 50 50 [] (Session.fresh .standard)

set_option maxRecDepth 100000 in
/-- The script runs to its end without anything being classified. -/
theorem unlabeled_sessions_raise_no_alarm_at_least_label :
    Session.endsWith leastScript .none 50 (Session.fresh .standard) "b" false = true ∧
      ∀ m ∈ leastMoments, m.Unlabeled (Session.fresh .standard).control.realm.lattice := by
  obtain ⟨hends, hleast, hnothing⟩ :
      Session.endsWith leastScript .none 50 (Session.fresh .standard) "b" false = true ∧
      (Session.fresh .standard).control.realm.lattice.readsOnlyLeast
        "var o = \x7ba: label('L', true)\x7d; if (o.a) \x7b var b = !o.a; \x7d" "" 1 = true ∧
      leastMoments.all (·.readsNothing) = true := by
    rw [leastMoments, leastScript, evaluate_ofList, Lattice.readsOnlyLeast_ofList]
    decide +kernel
  have hdeed : Deed (Grade.lowest (Session.fresh .standard).control.realm.lattice)
      (Session.fresh .standard).store leastScript := Lattice.deed_of_readsOnlyLeast hleast
  have hcourse : Course .none (Session.fresh .standard) (Grade.lowest _) ([] ++ leastMoments) _ :=
    .deed 50 50 .start hdeed
  rw [List.nil_append] at hcourse
  have hreads :
      (Grade.lowest (Session.fresh .standard).control.realm.lattice).Reads leastMoments := by
    have hruns : ∀ m ∈ leastMoments, ∃ rounds levels, m.Within (machine .none rounds levels)
        (machineChronicle .none rounds levels) rounds leastMoments := fun m hm =>
      have ⟨n, hwithin⟩ := mem_momentsOn hm
      ⟨50, n, hwithin⟩
    exact Course.reads_of_readsNothing hruns hnothing _
  exact ⟨hends, (unlabeled_sessions_raise_no_alarm Hosts.plain_none hcourse hreads).2⟩

end Clearance
