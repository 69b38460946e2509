/-
# Properties that cannot be deleted

A property that cannot be deleted stays where it is, whatever is run, and a read-only one stays as
it is, unless its name is declared in the object that has it, or the host sets it
(`Course.retains`). This holds of the stores that frames bind names in, and of the objects of the
library.

A run is looked at with its last heap at hand, which tells whether an object that the run makes is
such a store. What a run does to other objects of its own does not matter then, which is how
`Lasting` treats them.
-/
import Clearance.Proofs.Arrays
import Clearance.Proofs.Bindings
import Clearance.Proofs.Trail

namespace Clearance

open Clearance.Action

/-! ## What must not happen -/

/-- The action makes another binding of a name that is bound in an object: it declares the name, or
is what a host does to give a global another value. -/
inductive Redeclares (s : Store) (id : Nat) (name : String) : {α : Type} → Action α → Prop
  | declare {α : Type} {p : Action α} : Declares s id name p → Redeclares s id name p
  | set (v : Value) : Redeclares s id name (change id (·.set name v))
  | install (v : Value) : Redeclares s id name (change id (·.setHidden name v))

/-- The moment does not make another binding of a name. -/
def Moment.Leaves (m : Moment) (id : Nat) (name : String) : Prop :=
  Redeclares m.state.store id name m.action →
    Slots.find? name (m.next.heap.get id).slots = Slots.find? name (m.state.store.heap.get id).slots

/-- What cannot be deleted lasts, if no other binding is made of it. -/
def Moment.Retains (id : Nat) (name : String) (m : Moment) : Prop :=
  m.Leaves id name → (m.state.store.heap.get id).Retains (m.next.heap.get id) name

/-- A moment that leads to no more than the last heap. The object is a store of a frame there, or it
is there from the start. -/
structure Moment.Under (last : Heap) (id : Nat) (m : Moment) : Prop where
  within : m.outcome.state.store.heap.Extends last
  known : (last.get id).cls = "Activation" ∨ id < m.state.store.heap.size

/-- What cannot be deleted lasts in every step of a run, if its moments lead to no more than the
last heap. -/
abbrev Retaining (last : Heap) (id : Nat) (name : String) (serve : Service) (chronicle : Chronicle)
    (fuel : Nat) {α : Type} (p : Action α) (Q : α → Prop) (cs : List Control) (s : State) : Prop :=
  Abides (Moment.Under last id) (Moment.Retains id name) serve chronicle fuel p Q cs s

lemma forSteps_retains (id : Nat) (name : String) : ForSteps (Moment.Retains id name) := by
  intro m hsame _
  rw [hsame.heap]
  exact .refl _ _

namespace Object.Retains

variable {o : Object} {name : String}

/-- An object that is no array gets a property under a name that it has not. -/
lemma extend (hcls : o.cls ≠ "Array") {n : String} (v : Value)
    (hn : n = name → Slots.find? name o.slots = none) : o.Retains (Heap.extend o n v) name := by
  have hextend : Heap.extend o n v = o.define n (.data v) := if_neg hcls
  rw [hextend]
  refine .define fun h q hq => ?_
  rw [hn h] at hq
  cases hq

end Object.Retains

/-- There is an object that has no properties. -/
structure State.Empty (id : Nat) (s : State) : Prop where
  present : id < s.store.heap.size
  slots : (s.store.heap.get id).slots = []

namespace State.Empty

variable {s : State} {id : Nat}

/-- A new object. -/
lemma new {o : Object} {t : State} (ho : o.slots = []) (ht : t.store.heap = s.store.heap.push o) :
    t.Empty s.store.heap.size := by
  refine ⟨by simp [ht], ?_⟩
  rw [ht, Heap.get_push_size, ho]

lemma push (h : s.Empty id) {o : Object} {t : State} (ht : t.store.heap = s.store.heap.push o) :
    t.Empty id := by
  refine ⟨by have := h.present; simp [ht]; omega, ?_⟩
  rw [ht, Heap.get_push_lt h.present, h.slots]

lemma find? (h : s.Empty id) (name : String) :
    Slots.find? name (s.store.heap.get id).slots = none := by
  rw [h.slots]
  rfl

end State.Empty

namespace Retaining

variable {last : Heap} {id : Nat} {name : String} {serve : Service} {chronicle : Chronicle}
  {fuel : Nat} {α : Type} {cs : List Control} {s : State}

/-! ## Single steps -/

/-- A step that leaves the objects alone. -/
lemma note {f : Store → α × Store} (hf : (f s.store).2.heap = s.store.heap) :
    Retaining last id name serve chronicle fuel (.update f) (fun _ => True) cs s := by
  refine Abides.update fun _ => ⟨fun _ => ?_, trivial⟩
  show (s.store.heap.get id).Retains ((f s.store).2.heap.get id) name
  rw [hf]
  exact .refl _ _

lemma pc : Retaining last id name serve chronicle fuel Action.pc (fun _ => True) cs s :=
  .ask (forSteps_retains id name) (.give (forSteps_retains id name) trivial)

/-- A new object is another one, unless it is a store. -/
lemma allocate {face : Face} {o : Object} :
    Retaining last id name serve chronicle fuel (allocate face o)
      (fun r => o.cls ≠ "Activation" → r.id ≠ id) cs s := by
  refine Abides.update fun hD => ⟨fun _ => ?_, fun hcls hid => ?_⟩
  · show (s.store.heap.get id).Retains (Heap.get (s.store.heap.push o) id) name
    by_cases hid : id < s.store.heap.size
    · rw [Heap.get_push_lt hid]
      exact .refl _ _
    · rw [Heap.get_of_size_le (Nat.le_of_not_lt hid)]
      exact .of_none rfl
  · have hext : Heap.Extends (s.store.heap.push o) last := hD.within
    have hshell := hext.shell s.store.heap.size (by simp)
    have hsize : s.store.heap.size = id := hid
    rw [Heap.get_push_size, hsize] at hshell
    rcases hD.known with hactivation | (hlt : id < s.store.heap.size)
    · exact hcls (hshell.cls.symm.trans hactivation)
    · exact absurd hlt (by omega)

/-- A step that changes one object, which is another one or keeps what cannot be deleted. -/
lemma touch {f : Store → α × Store} {j : Nat} {g : Object → Object}
    (hheap : (f s.store).2.heap = s.store.heap.update j g)
    (hg : j = id → id < s.store.heap.size → (f s.store).2.heap.Extends last →
      (s.store.heap.get id).Retains (g (s.store.heap.get id)) name) :
    Retaining last id name serve chronicle fuel (.update f) (fun _ => True) cs s := by
  refine Abides.update fun hD => ⟨fun _ => ?_, trivial⟩
  show (s.store.heap.get id).Retains ((f s.store).2.heap.get id) name
  rw [hheap, Heap.get_update]
  split_ifs with hid
  · obtain ⟨rfl, hlt⟩ := hid
    exact hg rfl hlt hD.within
  · exact .refl _ _

lemma change {j : Nat} {g : Object → Object}
    (hg : j = id → id < s.store.heap.size → (s.store.heap.update j g).Extends last →
      (s.store.heap.get id).Retains (g (s.store.heap.get id)) name) :
    Retaining last id name serve chronicle fuel (Action.change j g) (fun _ => True) cs s :=
  touch rfl hg

/-! ## Wholes -/

section

variable (hcls : (last.get id).cls ≠ "Array")
include hcls

omit hcls in
lemma newArray (elements : List Value) :
    Retaining last id name serve chronicle fuel (newArray elements) (fun r => r.id ≠ id) cs s := by
  have hsteps := forSteps_retains id name
  refine .askRealm hsteps (.seq hsteps pc fun k u _ => .mono allocate fun r hr => hr ?_)
  show "Array" ≠ "Activation"
  decide

/-- An object that is no array gets a property that it has not. -/
lemma putOwn {o : Ref} {n : String} {v : Value}
    (hn : n = name → Slots.find? name (s.store.heap.get o.id).slots = none) :
    Retaining last id name serve chronicle fuel (putOwn o n v) (fun _ => True) cs s := by
  have hsteps := forSteps_retains id name
  refine .seq hsteps (change fun hid hlt hext => ?_) fun _ _ _ => .await hsteps
  subst hid
  have hsame := (hext.shell _ (by simpa using hlt)).cls
  rw [Heap.get_update_self hlt, (Object.sameShell_extend ..).cls] at hsame
  exact .extend (hsame ▸ hcls) v hn

/-- The length of an array is set, which is another object. -/
lemma setLength {o : Ref} {v : Value} (harray : (s.store.heap.get o.id).cls = "Array") :
    Retaining last id name serve chronicle fuel (setLength o v) (fun _ => True) cs s := by
  have hsteps := forSteps_retains id name
  refine .observe hsteps ?_
  generalize s.store.heap.number v.raw = n
  extract_lets length
  split_ifs
  · exact .fail hsteps
  · refine change fun hid hlt hext => ?_
    subst hid
    have hsame := (hext.shell _ (by simpa using hlt)).cls
    rw [Heap.get_update_self hlt, (Object.sameShell_resize ..).cls, harray] at hsame
    exact absurd hsame hcls

/-- Assignments let read-only properties be. -/
lemma putProperty
    (hserve : serve.Abides (Moment.Under last id) (Moment.Retains id name) chronicle)
    {o : Ref} {n : String} {v : Value} :
    Retaining last id name serve chronicle fuel (putProperty o n v) (fun _ => True) cs s := by
  have hsteps := forSteps_retains id name
  refine .observe hsteps ?_
  cases hfound : s.store.heap.find? o.id n with
  | none =>
    refine putOwn hcls fun hn => ?_
    subst hn
    refine Heap.slot_eq_none fun q hq => ?_
    rw [hfound] at hq
    cases hq
  | some found =>
    obtain ⟨owner, p⟩ := found
    dsimp only
    split_ifs with haccessor hfixed
    · split
      · exact .seq hsteps (.invoke hsteps hserve _) fun _ _ _ => .give hsteps trivial
      · exact .give hsteps trivial
    · exact .give hsteps trivial
    · refine .observe hsteps ?_
      split
      · rename_i own howner hown
        split_ifs with hlength
        · exact setLength hcls hlength.1
        · refine change fun hid _ _ => .define fun hn q hq hpermanent => ?_
          subst hid hn
          -- what is assigned to is what was found
          rw [hown] at hq
          cases hq
          rw [Heap.find?_of_own? (Object.own?_of_find? hown)] at hfound
          cases hfound
          exact ⟨hpermanent, rfl, fun h => absurd h hfixed⟩
      · rename_i hother
        refine putOwn hcls fun hn => ?_
        subst hn
        refine Heap.slot_eq_none fun q hq => ?_
        rw [hfound] at hq
        cases hq
        exact hother p (by simp)

omit hcls in
lemma define {n : String} {p : Property} :
    Retaining last id name serve chronicle fuel (define n p) (fun _ => True) cs s := by
  refine .ask (forSteps_retains id name) ?_
  by_cases h : ((s.store.frames.get s.control.scope).store (Frame.sideAt s.control.pc)).id = id ∧
      n = name
  · obtain ⟨hid, rfl⟩ := h
    exact Abides.update fun _ => ⟨fun hleaves => .of_eq (hleaves (.declare (.define hid))), trivial⟩
  · refine touch (g := fun o => o.define n _) rfl fun hid _ _ => .define fun hn => ?_
    exact absurd ⟨hid, hn⟩ h

omit hcls in
/-- A function is made of new objects. -/
lemma newFunction {fn : Script.Function Script.Span} {scope : Nat} {k : Label} :
    Retaining last id name serve chronicle fuel (newFunction fn scope k) (fun _ => True) cs s := by
  have hsteps := forSteps_retains id name
  have hfunction : ("Function" : String) ≠ "Activation" := by decide
  refine .askRealm hsteps (.bind hsteps allocate fun f u _ hf => ?_)
  refine .seq hsteps (.mono allocate fun _ _ => trivial) fun _ _ _ => ?_
  refine .seq hsteps (change fun hid => absurd hid (hf hfunction)) fun _ _ _ => ?_
  exact .give hsteps trivial

omit hcls in
lemma newFrame {parent : Nat} :
    Retaining last id name serve chronicle fuel (newFrame parent) (fun _ => True) cs s := by
  have hsteps := forSteps_retains id name
  refine .askRealm hsteps (.seq hsteps (.mono allocate fun _ _ => trivial) fun _ _ _ => ?_)
  exact .seq hsteps (.mono allocate fun _ _ => trivial) fun _ _ _ => note rfl

omit hcls in
/-- A function that has a name of its own binds it in a new store, in which nothing is bound. -/
lemma functionExpression {fn : Script.Function Script.Span} :
    Retaining last id name serve chronicle fuel (functionExpression fn) (fun _ => True) cs s := by
  have hsteps := forSteps_retains id name
  refine .ask hsteps ?_
  split_ifs
  · exact newFunction
  · refine .seq hsteps newFrame fun frame u hframe => ?_
    refine .seq hsteps newFunction fun f v hfunction => .observe hsteps ?_
    obtain ⟨hlt, k, hblank⟩ := Tidies.blank_of_newFrame hframe (Frame.sideAt s.control.pc)
    obtain ⟨hframes, hstays⟩ := Tidies.stays_of_newFunction hfunction
    refine .seq hsteps (change fun hid _ _ => .of_none ?_) fun _ _ _ => ?_
    · subst hid
      rw [hframes, hstays _ hlt, hblank]
      rfl
    · exact .seq hsteps (note rfl) fun _ _ _ => .give hsteps trivial

omit hcls in
/-- A call binds its parameters in a new store, in which nothing is bound. -/
lemma activate {f : Ref} {fn : Script.Function Script.Span} {scope : Nat} {args : List Value}
    {k : Label} :
    Retaining last id name serve chronicle fuel (activate f fn scope args k)
      (fun _ => True) cs s := by
  have hsteps := forSteps_retains id name
  refine .askRealm hsteps (.seq hsteps (.mono allocate fun _ _ => trivial) fun act u hact => ?_)
  extract_lets bound
  have finish : ∀ r v, State.Empty act.id v →
      Retaining last id name serve chronicle fuel (bound r) (fun _ => True) cs v := by
    intro r v hv
    refine .seq hsteps (.askRealm hsteps (.mono allocate fun _ _ => trivial)) fun a w ha => ?_
    have hw : w.Empty act.id := by
      simp only [newArguments, run_bind, run_realm, run_allocate] at ha
      cases ha
      exact hv.push rfl
    exact .seq hsteps (change fun hid _ _ => .of_none (hid ▸ hw.find? name)) fun _ _ _ => note rfl
  have hu : u.Empty act.id := by
    rw [newStore, run_allocate] at hact
    cases hact
    exact .new rfl rfl
  split_ifs
  all_goals
    refine .seq hsteps (.mono allocate fun _ _ => trivial) fun store v hstore =>
      .seq hsteps (.give hsteps trivial) fun r w hr => ?_
    have hv : v.Empty act.id := by
      rw [newStore, run_allocate] at hstore
      cases hstore
      exact hu.push rfl
    have hw : w = v := by cases hr; rfl
    exact hw ▸ finish r v hv

/-- The operations that are taken as wholes. -/
lemma whole (hserve : serve.Abides (Moment.Under last id) (Moment.Retains id name) chronicle)
    {p : Action α} (h : Clean p) :
    Retaining last id name serve chronicle fuel p (fun _ => True) cs s := by
  cases h with
  | newArray elements => exact .mono (newArray elements) fun _ _ => trivial
  | putProperty o n v => exact putProperty hcls hserve
  | define n _ => exact define
  | functionExpression fn => exact functionExpression

end

end Retaining

/-! ## Runs -/

section

variable {last : Heap} {id : Nat} {name : String} {serve : Service} {chronicle : Chronicle}
  {fuel : Nat} {α : Type} {cs : List Control} {s : State}

/-- What cannot be deleted lasts in whatever is put together in these ways, by induction on how it
is put together: `N` are the other objects. -/
theorem Lasting.retaining (hcls : (last.get id).cls ≠ "Array")
    (hserve : serve.Abides (Moment.Under last id) (Moment.Retains id name) chronicle) {site : Site}
    {W N : Nat → Prop} {p : Action α} {Q : α → Prop} (h : Lasting site W N p Q) (hW : ∀ j, W j)
    (hN : ∀ j, N j ↔ j ≠ id) (hs : site.Covers s.control) :
    Retaining last id name serve chronicle fuel p Q cs s := by
  have hsteps := forSteps_retains id name
  have hkeeps := hserve.keeps
  -- the object is the one outside of `N`, so whatever touches it leaves what is retained
  induction h generalizing cs s with
  | give hQ => exact .give hsteps hQ
  | note hheap => exact .note (hheap _)
  | fail => exact .fail hsteps
  | await => exact .await hsteps
  | mono _ h ih => exact .mono (ih hW hN hs) h
  | guard _ ih => exact .mono (ih (fun _ => trivial) hN hs) fun _ _ => hW _
  | checked _ _ ih => exact ih (fun _ => trivial) hN hs
  | whole hclean hp =>
    intro hD
    exact ⟨(Retaining.whole hcls hserve hclean hD).1, fun a t ha =>
      composed_result hkeeps (hp.composed fun _ => trivial) hW hs ha⟩
  | allocate _ hstore _ =>
    exact .mono Retaining.allocate fun r hr => ⟨hW r.id, (hN r.id).2 (hr hstore)⟩
  | store => exact .mono Retaining.allocate fun r _ => hW r.id
  | touch htouch =>
    obtain ⟨j, g, -, -, hheap, hchange, -⟩ := htouch s.store
    refine .touch hheap fun hid _ _ => ?_
    subst hid
    exact (hchange.resolve_left fun hj => (hN j).1 hj rfl).2 name
  | furnish _ _ _ _ _ ih =>
    -- the array is a new one, and the object is none
    refine .bind hsteps (Retaining.newArray _) fun r u hr hne => ?_
    refine .seq hsteps (Retaining.change fun hid => absurd hid hne) fun _ v hv => ?_
    have hu := hs.of_done hkeeps hr
    exact ih r (hW r.id) hW hN (hu.of_done hkeeps hv)
  | opening => exact .activate
  | ask _ _ ih => exact .ask hsteps (ih _ hs hW hN hs)
  | askRealm _ _ ih => exact .askRealm hsteps (ih _ hW hN hs)
  | andThen _ _ ihp ihk =>
    refine .bind hsteps (ihp hW hN hs) fun b u hb hR => ?_
    exact ihk b hR hW hN (hs.of_done hkeeps hb)
  | @pass _ _ _ _ _ _ _ R _ _ _ _ _ ihp ihok iherr
  | @silence _ _ _ _ _ _ _ R _ _ _ _ _ ihp ihok iherr =>
    refine .bind (R := fun r => ∀ b, r = .ok b → R b) hsteps
      (.attempt hsteps (ihp hW hN hs) (fun a ha b hb => by cases hb; exact ha) (by rintro f b ⟨⟩))
      fun r u hr hR => ?_
    cases r with
    | ok b => exact ihok b (hR b rfl) hW hN (hs.of_done hkeeps hr)
    | error f => exact iherr f hW hN (hs.of_done hkeeps hr)
  | region hpc _ ih => exact .region hsteps (ih hW hN ⟨hpc, hs.level⟩)
  | invoke => exact .invoke hsteps hserve _
  | @loop site _ _ _ _ _ _ I _ hinit hstep ih =>
    exact .loop (I := I) (A := fun u => site.Covers u.control) hsteps
      (fun x u hx hu => ih x hx hW hN hu) (fun x u r v hu hr => hu.of_done hkeeps hr) hinit hs
  | expression _ _ _ ihp iherr =>
    rw [expressionStatement_action]
    refine .seq hsteps (.attempt hsteps (ihp hW hN hs) (fun _ _ => trivial) fun _ => trivial)
      fun r u hr => ?_
    cases r with
    | ok b => exact .seq hsteps (Retaining.note rfl) fun _ _ _ => .give hsteps trivial
    | error f => exact iherr f hW hN (hs.of_done hkeeps hr)
  | enter _ _ ihactivate ihbody =>
    refine .callClosure hsteps (ihactivate _ hW hN hs) fun entry u => ?_
    exact ihbody ⟨.none, none, true⟩ rfl hW hN ⟨Label.none_leq _, by rintro _ ⟨⟩⟩
  | enterText _ ih =>
    refine .evalText hsteps fun file program hprogram entry u => ?_
    exact ih file program hprogram ⟨.none, none, true⟩ rfl hW hN ⟨Label.none_leq _, by rintro _ ⟨⟩⟩
  | enterScript _ _ ih =>
    refine .runProgram hsteps fun entry u => ?_
    exact ih ⟨.none, none, true⟩ rfl hW hN ⟨Label.none_leq _, by rintro _ ⟨⟩⟩

/-- What cannot be deleted lasts in whatever the machine serves, by induction on its levels. -/
theorem machine_retains {hosts : Hosts} (hhosts : hosts.Lasting)
    (hcls : (last.get id).cls ≠ "Array")
    (rounds levels : Nat) :
    (machine hosts rounds levels).Abides (Moment.Under last id) (Moment.Retains id name)
      (machineChronicle hosts rounds levels) := by
  induction levels with
  | zero => exact ⟨machine_keepsControl hosts rounds 0, fun _ _ _ _ => List.forall_mem_nil _⟩
  | succ n ih =>
    refine ⟨machine_keepsControl hosts rounds (n + 1), fun r cs s hD => ?_⟩
    have hneat : Neat ⟨.none, none, false⟩ (fun _ => True) (fun j => j ≠ id) (perform hosts r) :=
      neat_perform hhosts rfl r
    exact (hneat.retaining hcls ih (fun _ => trivial) (fun _ => Iff.rfl)
      ⟨Label.none_leq _, by rintro _ ⟨⟩⟩ hD).1

/-- In a later store, an object is the store of a frame, or it was there before and is no array. -/
structure Store.Keeps (s : Store) (id : Nat) (t : Store) : Prop where
  precedes : s.Precedes t
  kind : (t.heap.get id).cls = "Activation" ∨ id < s.heap.size ∧ (s.heap.get id).cls ≠ "Array"

namespace Store.Keeps

variable {s t u : Store} {id : Nat}

lemma trans (h : s.Keeps id t) (h' : t.Precedes u) : s.Keeps id u := by
  refine ⟨h.precedes.trans h', h.kind.imp_left fun hcls => ?_⟩
  exact (h'.heap.shell id (Heap.lt_of_activation hcls)).cls.trans hcls

lemma lt (h : s.Keeps id t) : id < t.heap.size :=
  h.kind.elim Heap.lt_of_activation fun hid => Nat.lt_of_lt_of_le hid.1 h.precedes.heap.size

lemma not_array (h : s.Keeps id t) : (t.heap.get id).cls ≠ "Array" := by
  rcases h.kind with hcls | ⟨hlt, hcls⟩
  · rw [hcls]
    decide
  · rw [(h.precedes.heap.shell id hlt).cls]
    exact hcls

end Store.Keeps

/-- What a host starts: what cannot be deleted lasts at all moments. -/
theorem retains_of_retaining {hosts : Hosts} (hhosts : hosts.Lasting) {p : Action α}
    {rounds levels : Nat} (hroutine : Routine ⟨.none, none, false⟩ (fun _ => True) p)
    (hp : ∀ last : Heap, (last.get id).cls ≠ "Array" →
      Retaining last id name (machine hosts rounds levels) (machineChronicle hosts rounds levels)
        rounds p (fun _ => True) [] s) :
    ∀ m ∈ p.momentsOn hosts rounds levels [] s,
      s.store.Keeps id m.state.store → m.Retains id name := by
  intro m hm hid
  let last := (p.run (machine hosts rounds levels) rounds s).state.store.heap
  have hgrows : Grows (machine hosts rounds levels) (machineChronicle hosts rounds levels) rounds p
      [] s :=
    Composed.grows (machine_grows hhosts.formed.built.composed rounds levels) hroutine
      (fun _ => trivial) ⟨Label.none_leq _, by rintro _ ⟨⟩⟩
  -- classes never change, so the last heap knows what the object is
  have hlast : (last.get id).cls ≠ "Array" ∧
      ((last.get id).cls = "Activation" ∨ id < s.store.heap.size) := by
    rcases hid.kind with hactivation | ⟨hlt, harray⟩
    · have hm := hgrows.moments m hm
      have hext := (hm.during.trans hm.finish).heap.shell id (Heap.lt_of_activation hactivation)
      have hcls := hext.cls.trans hactivation
      exact ⟨hcls ▸ by decide, .inl hcls⟩
    · exact ⟨(hgrows.start.heap.shell id hlt).cls ▸ harray, .inr hlt⟩
  have hunder : ∀ m ∈ p.momentsOn hosts rounds levels [] s, m.Under last id := fun m hm =>
    ⟨(hgrows.moments m hm).finish.heap, hlast.2.imp_right fun hlt =>
      Nat.lt_of_lt_of_le hlt (hgrows.moments m hm).start.heap.size⟩
  exact (hp last hlast.1 hunder).1 m hm

end

/-! ## Sessions -/

namespace Retaining

variable {last : Heap} {id : Nat} {name : String} {serve : Service} {chronicle : Chronicle}
  {fuel : Nat} {cs : List Control} {s : State}

/-- The host sets a global. -/
lemma setGlobal (n : String) (v : Value) :
    Retaining last id name serve chronicle fuel (Session.setGlobal n v) (fun _ => True) cs s := by
  have hsteps := forSteps_retains id name
  refine .askRealm hsteps (.seq hsteps ?_ fun _ _ _ => note rfl)
  by_cases h : s.control.realm.global = id ∧ n = name
  · obtain ⟨rfl, rfl⟩ := h
    exact Abides.update fun _ => ⟨fun hleaves => .of_eq (hleaves (.set v)), trivial⟩
  · refine change fun hid _ _ => .of_eq ?_
    exact Object.find?_set_ne _ (fun hn => h ⟨hid, hn.symm⟩) v

/-- The host installs a function. -/
lemma defineNative (n : String) (arity : Nat) (fn : Option Native) :
    Retaining last id name serve chronicle fuel (Session.defineNative n arity fn) (fun _ => True)
      cs s := by
  have hsteps := forSteps_retains id name
  refine .askRealm hsteps (.seq hsteps (.mono allocate fun _ _ => trivial) fun f u _ => ?_)
  by_cases h : s.control.realm.global = id ∧ n = name
  · obtain ⟨rfl, rfl⟩ := h
    exact Abides.update fun _ => ⟨fun hleaves => .of_eq (hleaves (.install _)), trivial⟩
  · exact change fun hid _ _ => .define fun hn => absurd ⟨hid, hn⟩ h

end Retaining

namespace Course

variable {hosts : Hosts} {s₀ s : State} {g : Grade s₀.control.realm.lattice} {ms : List Moment}

/-- The moments of a session lead from its start to where it is now. -/
lemma trail (h : Course hosts s₀ g ms s) : Trail s₀.store ms s.store := by
  induction h with
  | start => exact .nil (.refl _)
  | deed rounds levels _ _ ih | global _ rounds levels _ _ ih | native _ _ _ rounds levels _ ih =>
    exact ih.append (Action.trail (machine_trails hosts rounds levels) _ _ _)
  | outside _ _ hsame _ ih => exact ih.congr_right hsame

/-- **What cannot be deleted lasts**, whatever a host has a session do. -/
theorem retains (hhosts : hosts.Lasting) (h : Course hosts s₀ g ms s) (id : Nat) (name : String) :
    s₀.store.Precedes s.store ∧ ∀ m ∈ ms, m.state.store.Precedes m.next ∧
      (s₀.store.Keeps id m.state.store → m.Retains id name) := by
  -- an action that lets it last, from a state in which the objects are still there
  have next : ∀ {ms : List Moment} {s : State} {α : Type} {p : Action α}
      {rounds levels : Nat}, Routine ⟨.none, none, false⟩ (fun _ => True) p →
      (∀ last : Heap, (last.get id).cls ≠ "Array" →
        Retaining last id name (machine hosts rounds levels) (machineChronicle hosts rounds levels)
          rounds p (fun _ => True) [] s) →
      (s₀.store.Precedes s.store ∧ ∀ m ∈ ms, m.state.store.Precedes m.next ∧
        (s₀.store.Keeps id m.state.store → m.Retains id name)) →
      s₀.store.Precedes (p.run (machine hosts rounds levels) rounds s).state.store ∧
        ∀ m ∈ ms ++ p.momentsOn hosts rounds levels [] s, m.state.store.Precedes m.next ∧
          (s₀.store.Keeps id m.state.store → m.Retains id name) := by
    intro ms s α p rounds levels hroutine hp ⟨hprecedes, hms⟩
    have hserve := machine_grows hhosts.formed.built.composed rounds levels
    have hcovers : Site.Covers ⟨.none, none, false⟩ s.control :=
      ⟨Label.none_leq _, by rintro _ ⟨⟩⟩
    have hgrows : Grows (machine hosts rounds levels) (machineChronicle hosts rounds levels) rounds
        p [] s := Composed.grows hserve hroutine (fun _ => trivial) hcovers
    have hsteady : ∀ m ∈ p.momentsOn hosts rounds levels [] s, m.Steady :=
      Composed.steady hserve (machineChronicle_steady hhosts.formed.built.composed rounds levels)
        hroutine (fun _ => trivial) hcovers
    refine ⟨hprecedes.trans hgrows.start, List.forall_mem_append.2 ⟨hms, fun m hm =>
      ⟨Origin.precedes_next hserve (hsteady m hm), fun hid => ?_⟩⟩⟩
    refine retains_of_retaining hhosts hroutine hp m hm
      ⟨(hgrows.moments m hm).start, hid.kind.imp_right fun hid => ?_⟩
    have hshell := hprecedes.heap.shell id hid.1
    exact ⟨Nat.lt_of_lt_of_le hid.1 hprecedes.heap.size, hshell.cls ▸ hid.2⟩
  induction h with
  | start => exact ⟨.refl _, List.forall_mem_nil _⟩
  | deed rounds levels _ hdeed ih =>
    refine next hdeed.entry.composed (fun last hlast => ?_) ih
    have hneat : Neat ⟨.none, none, false⟩ (fun _ => True) (fun j => j ≠ id) _ :=
      hdeed.entry.neat rfl
    exact hneat.retaining hlast (machine_retains hhosts hlast rounds levels)
      (fun _ => trivial) (fun _ => Iff.rfl) ⟨Label.none_leq _, by rintro _ ⟨⟩⟩
  | global n rounds levels _ _ ih =>
    exact next (Origin.routine_setGlobal ..) (fun _ _ => Retaining.setGlobal n _) ih
  | native n arity fn rounds levels _ ih =>
    exact next (Origin.routine_defineNative ..) (fun _ _ => Retaining.defineNative n arity fn) ih
  | outside _ _ hsame _ ih => exact ⟨ih.1.trans hsame.precedes, ih.2⟩

/-- The objects and the frames stay through a part of a session. -/
lemma precedes (hhosts : hosts.Lasting) (h : Course hosts s₀ g ms s) {part : List Moment}
    {t u : Store} (hpart : part ⊆ ms) (htrail : Trail t part u) : t.Precedes u := by
  have hP : Trail.Structural t.Precedes := fun v w hsame hv => hv.trans hsame.precedes
  exact (htrail.preserves hP (fun m hm hv =>
    hv.trans ((h.retains hhosts 0 "").2 m (hpart hm)).1) (.refl t)).1

/-- A property that cannot be deleted lasts through a part of a session, unless another binding is
made of it there. -/
lemma lasts (hhosts : hosts.Lasting) (h : Course hosts s₀ g ms s) {part : List Moment} {t u : Store}
    {id : Nat} {name : String} (hpart : part ⊆ ms) (htrail : Trail t part u)
    (ht : s₀.store.Keeps id t) (hleaves : ∀ m ∈ part, m.Leaves id name) {q : Property}
    (hq : Slots.find? name (t.heap.get id).slots = some q) (hpermanent : q.permanent = true) :
    ∃ q', Slots.find? name (u.heap.get id).slots = some q' ∧ q.Lasts q' := by
  let P : Store → Prop := fun v => s₀.store.Keeps id v ∧
    ∃ q', Slots.find? name (v.heap.get id).slots = some q' ∧ q.Lasts q'
  have hP : Trail.Structural P := fun v w hsame ⟨hv, hslot⟩ =>
    ⟨hv.trans hsame.precedes, by rw [hsame.heap]; exact hslot⟩
  have hstep : ∀ m ∈ part, P m.state.store → P m.next := by
    rintro m hm ⟨hv, q', hq', hlasts⟩
    obtain ⟨hprecedes, hretains⟩ := (h.retains hhosts id name).2 m (hpart hm)
    obtain ⟨q'', hq'', hlasts'⟩ := hretains hv (hleaves m hm) q' hq' hlasts.permanent
    exact ⟨hv.trans hprecedes, q'', hq'', hlasts.trans hlasts'⟩
  exact (htrail.preserves hP hstep ⟨ht, q, hq, .refl hpermanent⟩).1.2

end Course

end Clearance
