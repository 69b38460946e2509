/-
# Arrays in the course of a session

Every array of a session knows its length (`arrays_tidy`), unless a name that arrays count by is
declared in a frame whose store is an array. This can happen, as functions are declared past all
checks, and then the length is lost (`length_declared_away`). The length is within its bound, and
above all elements, if no array is made of more elements than an array can count.

A run is looked at with its last heap at hand, which tells of every object whether it is an array:
classes never change. What is done to the objects that are no arrays does not matter then, which is
how `Built` treats them.
-/
import Clearance.Proofs.Invariant
import Clearance.Proofs.Stock
import Clearance.Proofs.Violation

namespace Clearance

open Clearance.Action

/-! ## Heaps -/

namespace Heap

variable {B : Prop} {h last : Heap} {id : Nat}

/-- Every array knows its length. -/
def Tidy (h : Heap) (B : Prop) : Prop := ∀ id, (h.get id).Tidy B

lemma Tidy.push (hh : h.Tidy B) {o : Object} (ho : o.Tidy B) : Heap.Tidy (h.push o) B := by
  intro id
  by_cases hid : id = h.size
  · rw [hid, get_push_size]
    exact ho
  · rw [get_push_ne hid]
    exact hh id

lemma Tidy.update (hh : h.Tidy B) {f : Object → Object}
    (hf : id < h.size → (h.get id).Tidy B → (f (h.get id)).Tidy B) :
    Heap.Tidy (h.update id f) B := by
  intro j
  rw [get_update]
  split_ifs with hj
  · exact hf hj.2 (hh id)
  · exact hh j

lemma exists_of_any {f : Object → Bool} (hany : h.toList.any f = true) :
    ∃ id, f (h.get id) = true := by
  obtain ⟨o, ho, hf⟩ := List.any_eq_true.1 hany
  obtain ⟨id, hid, rfl⟩ := Array.getElem_of_mem (Array.mem_toList_iff.1 ho)
  refine ⟨id, ?_⟩
  rw [get, Array.getD_eq_getD_getElem?, Array.getElem?_eq_getElem hid]
  exact hf

/-- What is no array in the end is none before. -/
lemma Extends.not_array (hext : h.Extends last) (hid : id < h.size)
    (hlast : (last.get id).cls ≠ "Array") : (h.get id).cls ≠ "Array" := by
  rw [← (hext.shell id hid).cls]
  exact hlast

/-- A name that is not found is not the length of an array, nor is one that another object owns. -/
lemma Tidy.ne_length (hh : h.Tidy B) {name : String}
    (hfind : ∀ p, h.find? id name ≠ some (id, p) ∨ Slots.find? name (h.get id).slots ≠ some p)
    (hcls : (h.get id).cls = "Array") : name ≠ "length" := by
  rintro rfl
  obtain ⟨n, hn⟩ := hh id hcls
  obtain ⟨p, hp, -⟩ := hn.length
  have hown : (h.get id).own? "length" = some p := by
    rw [Object.own?_of_primitive hn.unwrapped]
    exact hp
  rcases hfind p with hnone | hnone
  · exact hnone (find?_of_own? hown)
  · exact hnone hp

end Heap

/-! ## What must not happen -/

/-- The action declares a name. -/
inductive DeclaresName (name : String) : {α : Type} → Action α → Prop
  | define (p : Property) : DeclaresName name (define name p)

/-- The action makes an array. -/
inductive MakesArray (elements : List Value) : {α : Type} → Action α → Prop
  | newArray : MakesArray elements (newArray elements)

/-- The object in which the machine declares names. -/
def State.declaring (s : State) : Object :=
  s.store.heap.get ((s.store.frames.get s.control.scope).store (Frame.sideAt s.control.pc)).id

/-- Names that arrays count by are not declared in arrays. -/
def Moment.Respects (m : Moment) : Prop :=
  ∀ name, DeclaresName name m.action → m.state.declaring.cls = "Array" →
    name ≠ "length" ∧ arrayIndex? name = none

/-- No array is made of more elements than an array can count. -/
def Moment.Small (m : Moment) : Prop :=
  ∀ elements, MakesArray elements m.action → elements.length ≤ maxLength

/-- A moment at which nothing goes wrong, and which leads to no more than the last heap. -/
structure Moment.Toward (B : Prop) (last : Heap) (m : Moment) : Prop where
  respects : m.Respects
  small : B → m.Small
  within : m.outcome.state.store.heap.Extends last

/-- Arrays stay in order while the action runs, if its moments lead to no more than the last
heap. -/
abbrev Tidies (B : Prop) (last : Heap) (serve : Service) (chronicle : Chronicle)
    (fuel : Nat) {α : Type}
    (p : Action α) (Q : α → Prop) (cs : List Control) (s : State) : Prop :=
  Maintains (Moment.Toward B last) (fun st => st.heap.Tidy B) serve chronicle fuel p Q cs s

namespace Tidies

variable {B : Prop} {last : Heap} {serve : Service} {chronicle : Chronicle} {fuel : Nat} {α : Type}
  {cs : List Control} {s : State}

/-! ## Single steps -/

/-- A step that leaves the objects alone. -/
lemma note {f : Store → α × Store} (hf : (f s.store).2.heap = s.store.heap) :
    Tidies B last serve chronicle fuel (.update f) (fun _ => True) cs s := by
  refine Maintains.update (fun hs _ => ?_) trivial
  rw [hf]
  exact hs

lemma pc : Tidies B last serve chronicle fuel Action.pc (fun _ => True) cs s :=
  Maintains.ask (.give trivial)

/-- A new object is what it is in the last heap. -/
lemma allocate {face : Face} {o : Object}
    (ho : (last.get s.store.heap.size).cls = o.cls → o.Tidy B) :
    Tidies B last serve chronicle fuel (allocate face o)
      (fun r => (last.get r.id).cls = o.cls) cs s := by
  refine Maintains.single rfl fun hs hD => ?_
  have hext : Heap.Extends (s.store.heap.push o) last := hD.within
  have hshell := hext.shell s.store.heap.size (by simp)
  rw [Heap.get_push_size] at hshell
  refine ⟨Heap.Tidy.push hs (ho hshell.cls), fun r t hr => ?_⟩
  cases hr
  exact hshell.cls

/-- A new object of another class. -/
lemma create {face : Face} {o : Object} (hcls : o.cls ≠ "Array") :
    Tidies B last serve chronicle fuel (Action.allocate face o)
      (fun r => (last.get r.id).cls ≠ "Array") cs s :=
  Maintains.mono (allocate fun _ => Object.tidy_of_cls hcls) fun _ h => by rwa [h]

/-- A step that changes one object, which is no array or stays in order. -/
lemma touch {f : Store → α × Store} {id : Nat} {g : Object → Object}
    (hheap : (f s.store).2.heap = s.store.heap.update id g)
    (hg : s.store.heap.Tidy B → (last.get id).cls ≠ "Array" ∨ (g (s.store.heap.get id)).Tidy B) :
    Tidies B last serve chronicle fuel (.update f) (fun _ => True) cs s := by
  refine Maintains.update (fun hs hD => ?_) trivial
  rw [hheap]
  refine Heap.Tidy.update hs fun hid _ => ?_
  have hext : (f s.store).2.heap.Extends last := hD.within
  rw [hheap] at hext
  rcases hg hs with hlast | htidy
  · have hcls := hext.not_array (by simpa using hid) hlast
    rw [Heap.get_update_self hid] at hcls
    exact Object.tidy_of_cls hcls
  · exact htidy

lemma change {id : Nat} {g : Object → Object}
    (hg : s.store.heap.Tidy B → (last.get id).cls ≠ "Array" ∨ (g (s.store.heap.get id)).Tidy B) :
    Tidies B last serve chronicle fuel (Action.change id g) (fun _ => True) cs s :=
  touch rfl hg

/-! ## Wholes -/

lemma newArray (elements : List Value) :
    Tidies B last serve chronicle fuel (newArray elements) (fun _ => True) cs s := by
  intro hs hD
  have hsmall : B → elements.length ≤ maxLength := fun granted =>
    (hD _ (mem_moments_self _ cs s)).small granted elements .newArray
  refine Maintains.askRealm (.seq pc fun k u _ => ?_) hs hD
  exact Maintains.mono (allocate fun _ => Heap.tidy_arrayOf _ k hsmall) fun _ _ => trivial

/-- A property is added to an array, or replaced, under another name than the length. -/
lemma putOwn {o : Ref} {name : String} {v : Value}
    (hname : s.store.heap.Tidy B → (s.store.heap.get o.id).cls = "Array" → name ≠ "length") :
    Tidies B last serve chronicle fuel (putOwn o name v) (fun _ => True) cs s := by
  refine .seq (change fun hs => .inr ?_) fun _ _ _ => .await
  by_cases hcls : (s.store.heap.get o.id).cls = "Array"
  · exact Heap.tidy_extend (hs o.id) (hname hs hcls) v
  · refine Object.tidy_of_cls ?_
    rw [(Object.sameShell_extend _ name v).cls]
    exact hcls

lemma setLength {o : Ref} {v : Value} :
    Tidies B last serve chronicle fuel (setLength o v) (fun _ => True) cs s := by
  refine .observe ?_
  generalize s.store.heap.number v.raw = n
  extract_lets length
  split_ifs
  · exact .fail
  · refine change fun hs => .inr ?_
    have hlength : (Decimal.toWord n).toNat ≤ maxLength := by
      have hlt := (Decimal.toWord n).toNat_lt
      exact Nat.le_sub_one_of_lt hlt
    exact Heap.tidy_resize (hs o.id) hlength v.label

/-- Assignments keep arrays in order: the length is set where it is found. -/
lemma putProperty
    (hserve : serve.Maintains (Moment.Toward B last) (fun st => st.heap.Tidy B) chronicle)
    {o : Ref} {name : String} {v : Value} :
    Tidies B last serve chronicle fuel (putProperty o name v) (fun _ => True) cs s := by
  refine .observe ?_
  cases hfound : s.store.heap.find? o.id name with
  | none =>
    refine putOwn fun hs hcls => hs.ne_length (fun p => .inl ?_) hcls
    rw [hfound]
    rintro ⟨⟩
  | some found =>
    obtain ⟨owner, p⟩ := found
    dsimp only
    split_ifs
    · split
      · exact .seq (.invoke hserve _) fun _ _ _ => .give trivial
      · exact .give trivial
    · exact .give trivial
    · refine .observe ?_
      split
      · rename_i own howner hown
        split_ifs with hlength
        · exact setLength
        · refine change fun hs => .inr fun hcls => ?_
          refine (hs o.id).redefine hown rfl (fun hname => ?_) hcls
          exact absurd ⟨hcls, hname⟩ hlength
      · rename_i hother
        refine putOwn fun hs hcls => hs.ne_length (fun p' => ?_) hcls
        by_cases howner : owner = o.id
        · exact .inr fun hown => hother p' (by simp [howner]) hown
        · refine .inl fun hfind => ?_
          rw [hfound] at hfind
          cases hfind
          exact howner rfl

lemma define {name : String} {p : Property} :
    Tidies B last serve chronicle fuel (define name p) (fun _ => True) cs s := by
  intro hs hD
  have hdeclares := (hD _ (mem_moments_self _ cs s)).respects name (.define p)
  refine Maintains.ask (touch (g := fun o => o.define name _) rfl fun hs => .inr ?_) hs hD
  by_cases hcls : s.declaring.cls = "Array"
  · obtain ⟨hname, helement⟩ := hdeclares hcls
    exact (hs _).define hname helement _
  · exact Object.tidy_of_cls hcls

lemma newFunction {fn : Script.Function Script.Span} {scope : Nat} {k : Label} :
    Tidies B last serve chronicle fuel (newFunction fn scope k) (fun _ => True) cs s := by
  have hfunction : ("Function" : String) ≠ "Array" := by decide
  have hobject : ("Object" : String) ≠ "Array" := by decide
  refine Maintains.askRealm (.bind (create hfunction) fun f u _ hf => ?_)
  refine .seq (Maintains.mono (create hobject) fun _ _ => trivial) fun _ _ _ => ?_
  exact .seq (change fun _ => .inl hf) fun _ _ _ => .give trivial

lemma newFrame {parent : Nat} :
    Tidies B last serve chronicle fuel (newFrame parent) (fun _ => True) cs s := by
  have hstore : ("Activation" : String) ≠ "Array" := by decide
  refine Maintains.askRealm ?_
  refine .seq (Maintains.mono (create hstore) fun _ _ => trivial) fun _ _ _ => ?_
  refine .seq (Maintains.mono (create hstore) fun _ _ => trivial) fun _ _ _ => ?_
  exact note rfl

/-- The stores of a new frame are empty. -/
lemma blank_of_newFrame {parent n : Nat} {t : State}
    (hrun : (Clearance.newFrame parent).run serve fuel s = .done n t) (side : Side) :
    let store := (t.store.frames.get n).store side
    store.id < t.store.heap.size ∧
      ∃ k, t.store.heap.get store.id = Object.blank "Activation" none k := by
  simp only [Clearance.newFrame, newStore, addFrame, run_bind, run_realm, run_allocate,
    run_update] at hrun
  cases hrun
  have hframe : ∀ f : Frame, Frames.get (s.store.frames.push f) s.store.frames.size = f := by
    intro f
    simp [Frames.get]
  dsimp only
  rw [hframe]
  cases side with
  | low =>
    refine ⟨by simp only [Frame.store, Array.size_push]; omega, s.control.realm.lattice.bottom, ?_⟩
    rw [Frame.store, Heap.get_push_ne (by simp), Heap.get_push_size]
  | high =>
    refine ⟨by simp [Frame.store], s.control.realm.lattice.top, ?_⟩
    rw [Frame.store, Heap.get_push_size]

/-- A new function leaves the frames and the objects that are there alone. -/
lemma stays_of_newFunction {fn : Script.Function Script.Span} {scope : Nat} {k : Label} {f : Ref}
    {t : State} (hrun : (Clearance.newFunction fn scope k).run serve fuel s = .done f t) :
    t.store.frames = s.store.frames ∧
      ∀ id < s.store.heap.size, t.store.heap.get id = s.store.heap.get id := by
  simp only [Clearance.newFunction, run_bind, run_realm, run_allocate, run_change,
    run_pure] at hrun
  cases hrun
  refine ⟨rfl, fun id hid => ?_⟩
  dsimp only
  rw [Heap.get_update_ne (by omega), Heap.get_push_lt (by simp; omega), Heap.get_push_lt hid]

lemma functionExpression {fn : Script.Function Script.Span} :
    Tidies B last serve chronicle fuel (functionExpression fn) (fun _ => True) cs s := by
  refine Maintains.ask ?_
  split_ifs
  · exact newFunction
  · refine .seq newFrame fun frame u hframe => .seq newFunction fun f v hfunction => ?_
    refine .observe (.seq (change fun _ => .inr ?_) fun _ _ _ => ?_)
    · obtain ⟨hlt, k, hblank⟩ := blank_of_newFrame hframe (Frame.sideAt s.control.pc)
      obtain ⟨hframes, hstays⟩ := stays_of_newFunction hfunction
      refine Object.tidy_of_cls ?_
      rw [hframes, (Object.sameShell_define ..).cls, hstays _ hlt, hblank]
      exact (by decide : "Activation" ≠ "Array")
    · exact .seq (note rfl) fun _ _ _ => .give trivial

/-- The operations that are taken as wholes keep arrays in order. -/
lemma whole
    (hserve : serve.Maintains (Moment.Toward B last) (fun st => st.heap.Tidy B) chronicle)
    {p : Action α} (h : Whole p) :
    Tidies B last serve chronicle fuel p (fun _ => True) cs s := by
  cases h with
  | newArray elements => exact newArray elements
  | putProperty o name v => exact putProperty hserve
  | define name p => exact define
  | functionExpression fn => exact functionExpression

end Tidies

/-! ## Runs -/

section

variable {B : Prop} {last : Heap} {serve : Service} {chronicle : Chronicle} {fuel : Nat} {α : Type}
  {cs : List Control} {s : State}

/-- Whatever is built in these ways keeps arrays in order, by induction on how it is built: `N` are
the objects that are no arrays in the last heap. -/
theorem Built.tidies
    (hserve : serve.Maintains (Moment.Toward B last) (fun st => st.heap.Tidy B) chronicle)
    {site : Site}
    {W N : Nat → Prop} {p : Action α} {Q : α → Prop} (h : Built site W N p Q) (hW : ∀ id, W id)
    (hN : ∀ id, N id ↔ (last.get id).cls ≠ "Array") (hs : site.Covers s.control) :
    Tidies B last serve chronicle fuel p Q cs s := by
  have hkeeps := hserve.keeps
  induction h generalizing cs s with
  | give hQ => exact .give hQ
  | note hheap => exact .note (hheap _)
  | fail => exact .fail
  | await => exact .await
  | mono _ h ih => exact .mono (ih hW hN hs) h
  | guard _ ih => exact .mono (ih (fun _ => trivial) hN hs) fun _ _ => hW _
  | checked _ _ ih => exact ih (fun _ => trivial) hN hs
  | whole hwhole hp =>
    -- what is known of the result does not depend on the objects in `N`
    intro htidy hD
    exact ⟨(Tidies.whole hserve hwhole htidy hD).1, fun a t ha =>
      composed_result hkeeps (hp.composed fun _ => trivial) hW hs ha⟩
  | @allocate _ W N _ o hcls =>
    refine .mono (Tidies.allocate fun hlast => ?_) fun r hr => ⟨hW r.id, ?_⟩
    · refine Object.tidy_of_cls (hcls.elim id fun hall => ?_)
      rw [← hlast]
      exact (hN _).1 (hall _)
    · refine hcls.elim (fun hcls => (hN _).2 ?_) fun hall => hall _
      rwa [hr]
  | touch htouch =>
    obtain ⟨id, g, -, -, hheap, hg⟩ := htouch s.store
    refine .touch hheap fun htidy => ?_
    exact hg.imp (hN id).1 fun hg => hg B (htidy id)
  | ask _ _ ih => exact .ask (ih _ hs hW hN hs)
  | askRealm _ _ ih => exact .askRealm (ih _ hW hN hs)
  | andThen _ _ ihp ihk =>
    refine .bind (ihp hW hN hs) fun b u hb hR => ?_
    exact ihk b hR hW hN (hs.of_done hkeeps hb)
  | @pass _ _ _ _ _ _ _ R _ _ _ _ _ ihp ihok iherr
  | @silence _ _ _ _ _ _ _ R _ _ _ _ _ ihp ihok iherr =>
    refine .bind (R := fun r => ∀ b, r = .ok b → R b)
      (.attempt (ihp hW hN hs) (fun a ha b hb => by cases hb; exact ha) (by rintro f b ⟨⟩))
      fun r u hr hR => ?_
    cases r with
    | ok b => exact ihok b (hR b rfl) hW hN (hs.of_done hkeeps hr)
    | error f => exact iherr f hW hN (hs.of_done hkeeps hr)
  | region hpc _ ih => exact .region (ih hW hN ⟨hpc, hs.level⟩)
  | invoke => exact .invoke hserve _
  | @loop site _ _ _ _ _ _ I _ hinit hstep ih =>
    exact .loop (I := I) (A := fun u => site.Covers u.control)
      (fun x u hx hu => ih x hx hW hN hu) (fun x u r v hu hr => hu.of_done hkeeps hr) hinit hs
  | expression _ _ _ ihp iherr =>
    rw [expressionStatement_action]
    refine .seq (.attempt (ihp hW hN hs) (fun _ _ => trivial) fun _ => trivial) fun r u hr => ?_
    cases r with
    | ok b => exact .seq (Tidies.note rfl) fun _ _ _ => .give trivial
    | error f => exact iherr f hW hN (hs.of_done hkeeps hr)
  | enter _ _ ihactivate ihbody =>
    refine .callClosure (fun _ _ h => h) (ihactivate _ hW hN hs) fun entry u => ?_
    exact ihbody ⟨.none, none, true⟩ rfl hW hN ⟨Label.none_leq _, by rintro _ ⟨⟩⟩
  | enterText _ ih =>
    refine .evalText (fun _ _ h => h) (fun _ _ h => h) fun file program hprogram entry u => ?_
    exact ih file program hprogram ⟨.none, none, true⟩ rfl hW hN ⟨Label.none_leq _, by rintro _ ⟨⟩⟩
  | enterScript _ _ ih =>
    refine .runProgram (fun _ _ h => h) fun entry u => ?_
    exact ih ⟨.none, none, true⟩ rfl hW hN ⟨Label.none_leq _, by rintro _ ⟨⟩⟩

/-- The machine keeps arrays in order, by induction on its levels. -/
theorem machine_tidies {hosts : Hosts} (hhosts : hosts.Built) (last : Heap)
    (rounds levels : Nat) :
    (machine hosts rounds levels).Maintains (Moment.Toward B last) (fun st => st.heap.Tidy B)
      (machineChronicle hosts rounds levels) := by
  induction levels with
  | zero =>
    exact ⟨machine_keepsControl hosts rounds 0, fun _ _ _ hs _ => hs,
      fun _ _ _ _ _ => List.forall_mem_nil _⟩
  | succ n ih =>
    let site : Site := ⟨.none, none, false⟩
    let N : Nat → Prop := fun id => (last.get id).cls ≠ "Array"
    have hrequest : ∀ r cs s, Tidies B last (machine hosts rounds n)
        (machineChronicle hosts rounds n) rounds (perform hosts r) (fun _ => True) cs s := by
      intro r cs s
      have hbuilt : Ordinary site (fun _ => True) N (perform hosts r) :=
        ordinary_perform hhosts rfl r
      exact hbuilt.tidies ih (fun _ => trivial) (fun _ => Iff.rfl)
        ⟨Label.none_leq _, by rintro _ ⟨⟩⟩
    refine ⟨machine_keepsControl hosts rounds (n + 1), fun r cs s hs hD => ?_,
      fun r cs s hs hD => (hrequest r cs s hs hD).1⟩
    rw [machine_succ]
    exact (hrequest r cs s).finish hs hD

/-- A host has something run: if the names that arrays count by are not declared in arrays, then the
arrays of all stores of the run know their lengths. -/
theorem HostEntry.tidy {hosts : Hosts} (hhosts : hosts.Built)
    {p : Action Value} (hp : HostEntry p) (rounds levels : Nat) {s : State}
    (hs : s.store.heap.Tidy B)
    (hrespects : ∀ m ∈ p.momentsOn hosts rounds levels [] s, m.Respects)
    (hsmall : B → ∀ m ∈ p.momentsOn hosts rounds levels [] s, m.Small) :
    ∀ m ∈ p.momentsOn hosts rounds levels [] s,
      m.state.store.heap.Tidy B ∧ m.outcome.state.store.heap.Tidy B := by
  let last := (p.run (machine hosts rounds levels) rounds s).state.store.heap
  let site : Site := ⟨.none, none, false⟩
  have hcovers : site.Covers s.control := ⟨Label.none_leq _, by rintro _ ⟨⟩⟩
  have hgrows : Grows (machine hosts rounds levels) (machineChronicle hosts rounds levels) rounds p
      [] s :=
    hp.composed.grows (machine_grows hhosts.composed rounds levels) (fun _ => trivial) hcovers
  have htoward : ∀ m ∈ p.momentsOn hosts rounds levels [] s, m.Toward B last := fun m hm =>
    ⟨hrespects m hm, fun granted => hsmall granted m hm, (hgrows.moments m hm).finish.heap⟩
  have hbuilt : Ordinary site (fun _ => True) (fun id => (last.get id).cls ≠ "Array") p :=
    hp.built rfl
  exact (hbuilt.tidies (machine_tidies hhosts last rounds levels) (fun _ => trivial)
    (fun _ => Iff.rfl) hcovers hs htoward).1

end

/-! ## Sessions -/

/-- What has happened in a session in which a host has had one thing after the other run. -/
inductive Session.Plays (hosts : Hosts) (s₀ : State) : List Moment → State → Prop
  | start : Plays hosts s₀ [] s₀
  | run {ms : List Moment} {s : State} {p : Action Value} (rounds levels : Nat) :
      Plays hosts s₀ ms s → HostEntry p →
        Plays hosts s₀ (ms ++ p.momentsOn hosts rounds levels [] s)
          (p.run (machine hosts rounds levels) rounds s).state

/-- There are no arrays in a session in which nothing has run. -/
lemma Session.tidy_fresh (o : Library.Options) (B : Prop) : (fresh o).store.heap.Tidy B := by
  obtain ⟨hstock, -⟩ := untouched_fresh o
  intro id
  by_cases hid : id < (fresh o).store.heap.size
  · by_cases hstore : id = 8
    · rw [hstore, hstock.store]
      exact Object.tidy_of_cls (by decide : "Activation" ≠ "Array")
    · exact Object.tidy_of_cls (hstock.object id hid hstore).ordinary.2
  · rw [Heap.get_of_size_le (Nat.le_of_not_lt hid)]
    exact Object.tidy_of_cls (by decide : (default : Object).cls ≠ "Array")

/-- **Arrays know their lengths.** In all stores of a session every array has a length of its own,
which is a number and cannot be deleted, unless a name that arrays count by is declared in an array.
The length is one that arrays can have, and the elements are below it, if no array is made of more
elements than arrays can count. -/
theorem arrays_tidy {hosts : Hosts} (hhosts : hosts.Built) (o : Library.Options) {ms : List Moment}
    {s : State} (h : Session.Plays hosts (Session.fresh o) ms s)
    (hrespects : ∀ m ∈ ms, m.Respects) :
    let granted := ∀ m ∈ ms, m.Small
    s.store.heap.Tidy granted ∧
      ∀ m ∈ ms, m.state.store.heap.Tidy granted ∧ m.outcome.state.store.heap.Tidy granted := by
  intro granted
  suffices hrun : ∀ B : Prop, (B → ∀ m ∈ ms, m.Small) → s.store.heap.Tidy B ∧
      ∀ m ∈ ms, m.state.store.heap.Tidy B ∧ m.outcome.state.store.heap.Tidy B from
    hrun granted id
  intro B hsmall
  induction h with
  | start => exact ⟨Session.tidy_fresh o B, List.forall_mem_nil _⟩
  | @run ms s p rounds levels _ hp ih =>
    obtain ⟨hbefore, hnow⟩ := List.forall_mem_append.1 hrespects
    have hsmall' := fun granted => List.forall_mem_append.1 (hsmall granted)
    obtain ⟨hs, hms⟩ := ih hbefore fun granted => (hsmall' granted).1
    have htidy := hp.tidy hhosts rounds levels hs hnow fun granted => (hsmall' granted).2
    exact ⟨(htidy _ (mem_moments_self p [] s)).2, List.forall_mem_append.2 ⟨hms, htidy⟩⟩

/-- A script that makes an array and removes an element. -/
def shortened : Action Value := evaluate "var a = [true, false]; delete a['0'];" "" 1

set_option maxRecDepth 100000 in
/-- There is an array in the end, and all arrays know their lengths. -/
theorem arrays_tidy_in_session :
    ∃ ms s, Session.Plays .none (Session.fresh .standard) ms s ∧
      (∃ id, (s.store.heap.get id).cls = "Array") ∧
      s.store.heap.Tidy (∀ m ∈ ms, m.Small) := by
  have hplays : Session.Plays .none (Session.fresh .standard)
      (shortened.momentsOn .none 50 50 [] (Session.fresh .standard))
      (shortened.run (machine .none 50 50) 50 (Session.fresh .standard)).state := by
    rw [← List.nil_append (shortened.momentsOn ..)]
    exact .run 50 50 .start (.evaluate ..)
  obtain ⟨hdeclaring, harray⟩ :
      (shortened.momentsOn .none 50 50 [] (Session.fresh .standard)).all
        (fun m => m.state.declaring.cls ≠ "Array") = true ∧
      (shortened.run (machine .none 50 50) 50
        (Session.fresh .standard)).state.store.heap.toList.any
          (fun o => o.cls = "Array") = true := by
    rw [shortened, evaluate_ofList]
    decide +kernel
  refine ⟨_, _, hplays, ?_, (arrays_tidy built_none .standard hplays fun m hm => ?_).1⟩
  · obtain ⟨id, hcls⟩ := Heap.exists_of_any harray
    exact ⟨id, of_decide_eq_true hcls⟩
  · have hother := List.all_eq_true.1 hdeclaring m hm
    exact fun name _ hcls => absurd hcls (of_decide_eq_true hother)

/-- A function is declared under the name `length` where an array is the innermost scope. -/
def misdeclared : Action Value :=
  evaluate "var a = []; with (a) \x7b function length() \x7b\x7d \x7d" "" 1

/-- The object is an array, but what it has for a length is no number. -/
def Object.lacksLength (o : Object) : Bool :=
  o.cls = "Array" && match Slots.find? "length" o.slots with
    | some p => match p.value.raw with
      | .number _ => false
      | _ => true
    | none => true

lemma Object.not_tidy_of_lacksLength {o : Object} (h : o.lacksLength = true) (B : Prop) :
    ¬o.Tidy B := by
  intro htidy
  obtain ⟨hcls, hlength⟩ := Bool.and_eq_true_iff.1 h
  obtain ⟨n, hn⟩ := htidy (of_decide_eq_true hcls)
  obtain ⟨p, hp, -, -, hraw⟩ := hn.length
  rw [hp] at hlength
  dsimp only at hlength
  rw [hraw] at hlength
  cases hlength

set_option maxRecDepth 100000 in
/-- **A length can be declared away.** After the script there is an array whose length is a
function, so that nothing of what arrays know is left, whatever is granted. -/
theorem length_declared_away :
    ¬(misdeclared.run (machine .none 50 50) 50
      (Session.fresh .standard)).state.store.heap.Tidy False := by
  have hlacks : (misdeclared.run (machine .none 50 50) 50
      (Session.fresh .standard)).state.store.heap.toList.any Object.lacksLength = true := by
    rw [misdeclared, evaluate_ofList]
    decide +kernel
  obtain ⟨id, hlost⟩ := Heap.exists_of_any hlacks
  exact fun htidy => Object.not_tidy_of_lacksLength hlost False (htidy id)

end Clearance
