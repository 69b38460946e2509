/-
# Objects stay listable in the course of a session

All objects of a session are listable, at all moments of everything that a host has run in it. The
library installs no name twice, and wraps no texts. What is formed keeps objects listable step by
step; the operations that are taken as wholes do so because they replace properties by ones that are
hidden like them.
-/
import Clearance.Proofs.Arrays
import Clearance.Proofs.Index

namespace Clearance

open Clearance.Action

/-! ## Heaps -/

namespace Heap

open Object

variable {h : Heap}

namespace Listable

lemma push (hh : h.Listable) {o : Object} (ho : o.Listable) : Heap.Listable (h.push o) := by
  intro id
  by_cases hid : id = h.size
  · rw [hid, get_push_size]
    exact ho
  · rw [get_push_ne hid]
    exact hh id

lemma update (hh : h.Listable) {id : Nat} {f : Object → Object}
    (hf : (h.get id).Listable → (f (h.get id)).Listable) : Heap.Listable (h.update id f) := by
  intro j
  rw [get_update]
  split_ifs
  · exact hf (hh id)
  · exact hh j

end Listable

/-- The elements of a new array have names of their own. -/
lemma listable_arrayOf (proto : Option Nat) (partition : Label) (elements : List Value) :
    (arrayOf proto partition elements).Listable := by
  let slot : Value × Nat → Option (String × Property) := fun e =>
    if e.1.raw.isAbsent && !e.1.isLabeled then none else some (indexName e.2, Property.data e.1)
  have hname : ∀ e entry, slot e = some entry → entry.1 = indexName e.2 := by
    intro e entry h
    dsimp only [slot] at h
    split_ifs at h
    cases h
    rfl
  have hindices : elements.zipIdx.Pairwise fun e e' => e.2 ≠ e'.2 := by
    refine List.pairwise_map.1 (?_ : (elements.zipIdx.map Prod.snd).Pairwise (· ≠ ·))
    rw [List.zipIdx_map_snd]
    exact List.nodup_range'
  have hnodup : ((elements.zipIdx.filterMap slot).map Prod.fst).Nodup := by
    refine List.pairwise_map.2 (List.pairwise_filterMap.2 (hindices.imp ?_))
    intro e e' hne entry hentry entry' hentry' heq
    rw [hname e entry hentry, hname e' entry' hentry'] at heq
    exact hne (indexName_injective heq)
  refine .of_unwrapped (List.nodup_cons.2 ⟨fun hmem => ?_, hnodup⟩) rfl
  obtain ⟨entry, hentry, hlength⟩ := List.mem_map.1 hmem
  obtain ⟨e, -, he⟩ := List.mem_filterMap.1 hentry
  exact indexName_ne_length e.2 ((hname e entry he).symm.trans hlength)

end Heap

/-! ## Runs -/

/-- Objects stay listable while the action runs. -/
abbrev StaysListable (serve : Service) (chronicle : Chronicle) (fuel : Nat) {α : Type}
    (p : Action α)
    (Q : α → Prop) (cs : List Control) (s : State) : Prop :=
  Maintains (fun _ => True) (fun st => st.heap.Listable) serve chronicle fuel p Q cs s

namespace StaysListable

variable {serve : Service} {chronicle : Chronicle} {fuel : Nat} {α : Type} {cs : List Control}
  {s : State}

/-- A step that leaves the objects alone. -/
lemma note {f : Store → α × Store} (hf : (f s.store).2.heap = s.store.heap) :
    StaysListable serve chronicle fuel (.update f) (fun _ => True) cs s := by
  refine Maintains.update (fun hs _ => ?_) trivial
  rw [hf]
  exact hs

lemma allocate {face : Face} {o : Object} (ho : o.Listable) :
    StaysListable serve chronicle fuel (allocate face o) (fun _ => True) cs s :=
  .update (fun hs _ => Heap.Listable.push hs ho) trivial

/-- A step that changes one object, which stays listable. -/
lemma touch {f : Store → α × Store} {id : Nat} {g : Object → Object}
    (hheap : (f s.store).2.heap = s.store.heap.update id g)
    (hg : (s.store.heap.get id).Listable → (g (s.store.heap.get id)).Listable) :
    StaysListable serve chronicle fuel (.update f) (fun _ => True) cs s := by
  refine Maintains.update (fun hs _ => ?_) trivial
  rw [hheap]
  exact hs.update hg

lemma change {id : Nat} {g : Object → Object}
    (hg : (s.store.heap.get id).Listable → (g (s.store.heap.get id)).Listable) :
    StaysListable serve chronicle fuel (Action.change id g) (fun _ => True) cs s :=
  touch rfl hg

/-! ### Wholes -/

lemma newArray (elements : List Value) :
    StaysListable serve chronicle fuel (newArray elements) (fun _ => True) cs s :=
  .askRealm (.seq (.ask (.give trivial)) fun _ _ _ => allocate (Heap.listable_arrayOf ..))

lemma putOwn {o : Ref} {name : String} {v : Value} :
    StaysListable serve chronicle fuel (putOwn o name v) (fun _ => True) cs s :=
  .seq (change fun h => Heap.listable_extend h name v) fun _ _ _ => .await

lemma setLength {o : Ref} {v : Value} :
    StaysListable serve chronicle fuel (setLength o v) (fun _ => True) cs s := by
  refine .observe ?_
  generalize s.store.heap.number v.raw = n
  extract_lets length
  split_ifs
  · exact .fail
  · exact change fun h => Heap.listable_resize h ..

/-- What is assigned stays hidden, or shown, as it was. -/
lemma putProperty
    (hserve : serve.Maintains (fun _ => True) (fun st => st.heap.Listable) chronicle)
    (o : Ref) (name : String) (v : Value) :
    StaysListable serve chronicle fuel (putProperty o name v) (fun _ => True) cs s := by
  refine .observe ?_
  split
  · exact putOwn
  · split_ifs
    · split
      · exact .seq (.invoke hserve _) fun _ _ _ => .give trivial
      · exact .give trivial
    · exact .give trivial
    · refine .observe ?_
      split
      · rename_i hown
        split_ifs
        · exact setLength
        · exact change fun h => h.redefine (Object.own?_of_find? hown) rfl
      · exact putOwn

lemma define (name : String) {p : Property} (hp : p.hidden = false) :
    StaysListable serve chronicle fuel (define name p) (fun _ => True) cs s :=
  .ask (touch (g := fun o => o.define name _) rfl fun h =>
    h.defineShown (by split_ifs <;> exact hp))

lemma newFunction {fn : Script.Function Script.Span} {scope : Nat} {k : Label} :
    StaysListable serve chronicle fuel (newFunction fn scope k) (fun _ => True) cs s := by
  refine .askRealm (.seq (allocate ?_) fun _ _ _ => .seq (allocate ?_) fun _ _ _ =>
    .seq (change fun h => h.defineNamed (by decide) _) fun _ _ _ => .give trivial)
  · exact .defineNamed (.of_slots_eq_nil rfl) arrayIndex?_length _
  · exact .defineNamed (.blank ..) (by decide) _

lemma newFrame {parent : Nat} :
    StaysListable serve chronicle fuel (newFrame parent) (fun _ => True) cs s :=
  .askRealm (.seq (allocate (.blank ..)) fun _ _ _ =>
    .seq (allocate (.blank ..)) fun _ _ _ => note rfl)

lemma functionExpression (fn : Script.Function Script.Span) :
    StaysListable serve chronicle fuel (functionExpression fn) (fun _ => True) cs s := by
  refine Maintains.ask ?_
  split_ifs
  · exact newFunction
  · exact .seq newFrame fun _ _ _ => .seq newFunction fun _ _ _ =>
      .observe (.seq (change fun h => h.defineShown rfl) fun _ _ _ =>
        .seq (note rfl) fun _ _ _ => .give trivial)

/-- The operations that are taken as wholes keep objects listable. -/
lemma whole (hserve : serve.Maintains (fun _ => True) (fun st => st.heap.Listable) chronicle)
    {p : Action α} (h : Clean p) : StaysListable serve chronicle fuel p (fun _ => True) cs s := by
  cases h with
  | newArray elements => exact newArray elements
  | putProperty o name v => exact putProperty hserve o name v
  | define name hp => exact define name hp
  | functionExpression fn => exact functionExpression fn

end StaysListable

section

variable {serve : Service} {chronicle : Chronicle} {fuel : Nat} {α : Type} {cs : List Control}
  {s : State}

/-- Whatever is formed keeps objects listable, by induction on how it is formed. -/
theorem Formed.staysListable
    (hserve : serve.Maintains (fun _ => True) (fun st => st.heap.Listable) chronicle) {site : Site}
    {W N : Nat → Prop} {p : Action α} {Q : α → Prop} (h : Formed site W N p Q) (hW : ∀ id, W id)
    (hN : ∀ id, N id) (hs : site.Covers s.control) :
    StaysListable serve chronicle fuel p Q cs s := by
  have hkeeps := hserve.keeps
  -- no step but a change of an object matters, and those that are formed keep it listable
  induction h generalizing cs s with
  | give hQ => exact .give hQ
  | note hheap => exact .note (hheap _)
  | fail => exact .fail
  | await => exact .await
  | mono _ h ih => exact .mono (ih hW hN hs) h
  | guard _ ih => exact .mono (ih (fun _ => trivial) hN hs) fun _ _ => hW _
  | checked _ _ ih => exact ih (fun _ => trivial) hN hs
  | whole hclean hp =>
    intro hlist hD
    exact ⟨(StaysListable.whole hserve hclean hlist hD).1, fun a t ha =>
      composed_result hkeeps (hp.composed fun _ => trivial) hW hs ha⟩
  | allocate _ ho => exact .mono (StaysListable.allocate ho) fun r _ => ⟨hW r.id, hN r.id⟩
  | touch htouch =>
    obtain ⟨id, g, -, -, hheap, -, hg⟩ := htouch s.store
    exact .touch hheap hg
  | ask _ _ ih => exact .ask (ih _ hs hW hN hs)
  | askRealm _ _ ih => exact .askRealm (ih _ hW hN hs)
  | andThen _ _ ihp ihk =>
    refine .bind (ihp hW hN hs) fun b u hb hR => ?_
    exact ihk b hR hW hN (hs.of_done hkeeps hb)
  | @pass _ _ _ _ _ _ _ R _ _ _ _ _ ihp ihok iherr
  | @silence _ _ _ _ _ _ _ R _ _ _ _ _ ihp ihok iherr =>
    refine .bind (R := fun r => ∀ b, r = .ok b → R b)
      (.attempt (ihp hW hN hs) (fun a ha b hb => by cases hb; exact ha) (by rintro f b ⟨⟩))
      fun r u hr hR => ?_
    cases r with
    | ok b => exact ihok b (hR b rfl) hW hN (hs.of_done hkeeps hr)
    | error f => exact iherr f hW hN (hs.of_done hkeeps hr)
  | region hpc _ ih => exact .region (ih hW hN ⟨hpc, hs.level⟩)
  | invoke => exact .invoke hserve _
  | @loop site _ _ _ _ _ _ I _ hinit hstep ih =>
    exact .loop (I := I) (A := fun u => site.Covers u.control)
      (fun x u hx hu => ih x hx hW hN hu) (fun x u r v hu hr => hu.of_done hkeeps hr) hinit hs
  | expression _ _ _ ihp iherr =>
    rw [expressionStatement_action]
    refine .seq (.attempt (ihp hW hN hs) (fun _ _ => trivial) fun _ => trivial) fun r u hr => ?_
    cases r with
    | ok b => exact .seq (StaysListable.note rfl) fun _ _ _ => .give trivial
    | error f => exact iherr f hW hN (hs.of_done hkeeps hr)
  | enter _ _ ihactivate ihbody =>
    refine .callClosure (fun _ _ h => h) (ihactivate _ hW hN hs) fun entry u => ?_
    exact ihbody ⟨.none, none, true⟩ rfl hW hN ⟨Label.none_leq _, by rintro _ ⟨⟩⟩
  | enterText _ ih =>
    refine .evalText (fun _ _ h => h) (fun _ _ h => h) fun file program hprogram entry u => ?_
    exact ih file program hprogram ⟨.none, none, true⟩ rfl hW hN ⟨Label.none_leq _, by rintro _ ⟨⟩⟩
  | enterScript _ _ ih =>
    refine .runProgram (fun _ _ h => h) fun entry u => ?_
    exact ih ⟨.none, none, true⟩ rfl hW hN ⟨Label.none_leq _, by rintro _ ⟨⟩⟩

/-- The machine keeps objects listable, by induction on its levels. -/
theorem machine_staysListable {hosts : Hosts} (hhosts : hosts.Formed) (rounds levels : Nat) :
    (machine hosts rounds levels).Maintains (fun _ => True) (fun st => st.heap.Listable)
      (machineChronicle hosts rounds levels) := by
  induction levels with
  | zero =>
    exact ⟨machine_keepsControl hosts rounds 0, fun _ _ _ hs _ => hs,
      fun _ _ _ _ _ => List.forall_mem_nil _⟩
  | succ n ih =>
    let site : Site := ⟨.none, none, false⟩
    have hrequest : ∀ r cs s, StaysListable (machine hosts rounds n)
        (machineChronicle hosts rounds n) rounds (perform hosts r) (fun _ => True) cs s := by
      intro r cs s
      have htrim : Trim site (fun _ => True) (fun _ => True) (perform hosts r) :=
        formed_perform hhosts rfl r
      exact htrim.staysListable ih (fun _ => trivial) (fun _ => trivial)
        ⟨Label.none_leq _, by rintro _ ⟨⟩⟩
    refine ⟨machine_keepsControl hosts rounds (n + 1), fun r cs s hs hD => ?_,
      fun r cs s hs hD => (hrequest r cs s hs hD).1⟩
    rw [machine_succ]
    exact (hrequest r cs s).finish hs hD

/-- What a host does in a session with scripts: it has them run, reads globals and has values and
failures shown, which asks scripts for texts. -/
inductive Session.Does : {α : Type} → Action α → Prop
  | enter {p : Action Value} : HostEntry p → Does p
  | read (name : String) : Does (getGlobal name)
  | inspect (v : Value) : Does (inspect v)
  | report (f : Failure) : Does f.text

lemma Session.Does.neat {p : Action α} (h : Does p) {site : Site} (hfloor : site.floor = .none)
    {W N : Nat → Prop} : Neat site W N p := by
  cases h with
  | enter h => exact h.neat hfloor
  | read name => exact .seq (.realm (fun _ _ => rfl) fun _ => .done _) fun _ => neat_getProperty ..
  | inspect v => exact neat_inspect v
  | report f => exact neat_failureText f

/-- A host does something: the objects of all stores of the run are listable. -/
theorem Session.Does.staysListable {hosts : Hosts} (hhosts : hosts.Formed) {p : Action α}
    (hp : Does p) (rounds levels : Nat) {s : State} (hs : s.store.heap.Listable) :
    ∀ m ∈ p.momentsOn hosts rounds levels [] s,
      m.state.store.heap.Listable ∧ m.outcome.state.store.heap.Listable := by
  have htrim : Trim ⟨.none, none, false⟩ (fun _ => True) (fun _ => True) p := (hp.neat rfl).formed
  have hcovers : Site.Covers ⟨.none, none, false⟩ s.control := ⟨Label.none_leq _, by rintro _ ⟨⟩⟩
  exact (htrim.staysListable (machine_staysListable hhosts rounds levels) (fun _ => trivial)
    (fun _ => trivial) hcovers hs fun _ _ => trivial).1

end

/-! ## What the library installs -/

namespace Library

variable {α β : Type}

/-- A step of an installation installs no name twice. -/
def Build.InstallsOnce (b : Build α) : Prop :=
  ∀ h : Heap, (∀ id, (h.get id).keys.Nodup) → ∀ id, ((b.run h).2.get id).keys.Nodup

namespace Build.InstallsOnce

lemma pure {a : α} : (Pure.pure a : Build α).InstallsOnce := fun _ hh => hh

lemma bind {b : Build β} {k : β → Build α} (hb : b.InstallsOnce) (hk : ∀ x, (k x).InstallsOnce) :
    (b >>= k).InstallsOnce := fun h hh => hk _ _ (hb h hh)

lemma add {o : Object} (ho : o.keys.Nodup) : (add o).InstallsOnce := by
  intro h hh id
  show (Heap.get (h.push o) id).keys.Nodup
  by_cases hid : id = h.size
  · rw [hid, Heap.get_push_size]
    exact ho
  · rw [Heap.get_push_ne hid]
    exact hh id

lemma put {id : Nat} {name : String} {p : Property} : (put id name p).InstallsOnce := by
  intro h hh j
  show ((h.update id _).get j).keys.Nodup
  rw [Heap.get_update]
  split_ifs
  · exact Object.nodup_keys_define (hh id)
  · exact hh j

lemma native {functionProto : Nat} {name : String} {arity : Nat} {fn ctor : Option Native} :
    (nativeObject functionProto name arity fn ctor).keys.Nodup := List.nodup_singleton _

lemma methods {functionProto id : Nat} {ms : List (String × Nat × Builtin)} :
    (methods functionProto id ms).InstallsOnce := by
  induction ms with
  | nil => exact pure
  | cons m ms ih =>
    obtain ⟨name, arity, b⟩ := m
    exact .bind (.bind (add native) fun _ => put) fun _ => ih

lemma constants {id : Nat} {cs : List (String × Float)} : (constants id cs).InstallsOnce := by
  induction cs with
  | nil => exact pure
  | cons c cs ih =>
    obtain ⟨name, x⟩ := c
    exact .bind put fun _ => ih

lemma constructor {functionProto global : Nat} {name : String} {arity proto : Nat}
    {fn ctor : Builtin} :
    (constructor functionProto global name arity proto fn ctor).InstallsOnce :=
  .bind (add (Object.nodup_keys_define native)) fun _ => .bind put fun _ => .bind put fun _ => pure

lemma errorClass {functionProto global parent : Nat} {name : String} :
    (errorClass functionProto global parent name).InstallsOnce :=
  have hblank : (Object.blank "Object" (some parent) .none).keys.Nodup := List.nodup_nil
  .bind (add (Object.nodup_keys_define (Object.nodup_keys_define hblank))) fun _ =>
    .bind constructor fun _ => pure

lemma errorClasses {functionProto global parent : Nat} {names : List String} :
    (errorClasses functionProto global parent names).InstallsOnce := by
  induction names with
  | nil => exact pure
  | cons name names ih => exact .bind errorClass fun _ => .bind ih fun _ => pure

lemma install (o : Options) : (install o).InstallsOnce := by
  have blank : ∀ {cls : String} {proto : Option Nat} {partition : Label},
      (Clearance.Library.add (.blank cls proto partition)).InstallsOnce := add List.nodup_nil
  unfold Library.install
  iterate 9 refine .bind blank fun _ => ?_
  refine .bind put fun _ => .bind put fun _ => .bind put fun _ => ?_
  refine .bind constructor fun _ => .bind methods fun _ => .bind methods fun _ => ?_
  refine .bind constructor fun _ => .bind methods fun _ => ?_
  refine .bind errorClass fun _ => .bind methods fun _ => .bind errorClasses fun _ => ?_
  refine .bind constructor fun _ => .bind methods fun _ => .bind methods fun _ => ?_
  refine .bind constructor fun _ => .bind methods fun _ => .bind methods fun _ => ?_
  refine .bind constructor fun _ => .bind constants fun _ => .bind methods fun _ => ?_
  refine .bind constructor fun _ => .bind methods fun _ => ?_
  refine .bind blank fun _ => .bind constants fun _ => .bind methods fun _ => .bind put fun _ => ?_
  exact .bind constructor fun _ => .bind methods fun _ => .bind methods fun _ =>
    .bind methods fun _ => pure

end Build.InstallsOnce

end Library

/-! ## Sessions -/

/-- A state of a session whose objects are listable. The global object, to which names of all kinds
are added, wraps no text. -/
structure Session.Orderly (s : State) : Prop where
  listable : s.store.heap.Listable
  global : s.control.realm.global < s.store.heap.size
  unwrapped : (s.store.heap.get s.control.realm.global).primitive = none

/-- The states of a session that a host gets to: it has scripts run, sets globals, defines functions
and lends objects of its own. -/
inductive Session.Gets (hosts : Hosts) : State → Prop
  | fresh (o : Library.Options) : Gets hosts (fresh o)
  | run {s : State} {α : Type} {p : Action α} (rounds levels : Nat) : Gets hosts s → Does p →
      Gets hosts (p.run (machine hosts rounds levels) rounds s).state
  | setGlobal {s : State} (name : String) (v : Value) (rounds levels : Nat) : Gets hosts s →
      Gets hosts ((setGlobal name v).run (machine hosts rounds levels) rounds s).state
  | defineNative {s : State} (name : String) (arity : Nat) (fn : Option Native)
      (rounds levels : Nat) : Gets hosts s →
      Gets hosts ((defineNative name arity fn).run (machine hosts rounds levels) rounds s).state
  | lend {s : State} (face : Face) {o : Object} (rounds levels : Nat) : o.Listable →
      Gets hosts s → Gets hosts ((allocate face o).run (machine hosts rounds levels) rounds s).state

/-- The states of a session, those in the middle of a run included. -/
inductive Session.Reaches (hosts : Hosts) : State → Prop
  | between {s : State} : Gets hosts s → Reaches hosts s
  | before {s : State} {α : Type} {p : Action α} (rounds levels : Nat) {m : Moment} :
      Gets hosts s → Does p → m ∈ p.momentsOn hosts rounds levels [] s → Reaches hosts m.state
  | after {s : State} {α : Type} {p : Action α} (rounds levels : Nat) {m : Moment} :
      Gets hosts s → Does p → m ∈ p.momentsOn hosts rounds levels [] s →
        Reaches hosts m.outcome.state

lemma Session.run_defineNative (serve : Service) (fuel : Nat) (s : State) (name : String)
    (arity : Nat) (fn : Option Native) : (defineNative name arity fn).run serve fuel s =
    .done () ⟨s.control, { s.store with
      heap := Heap.update (s.store.heap.push
          (Library.nativeObject s.control.realm.functionProto name arity fn none))
        s.control.realm.global
        (·.setHidden name (Raw.object ⟨s.store.heap.size, .native⟩)) }⟩ := rfl

/-- There are no wrappers in a session in which nothing has run. -/
lemma Session.orderly_fresh (o : Library.Options) : Orderly (fresh o) := by
  obtain ⟨hstock, hglobal, -⟩ := untouched_fresh o
  have hnine := hstock.nine
  have hprimitive : ∀ id, ((fresh o).store.heap.get id).primitive = none := by
    intro id
    by_cases hid : id < (fresh o).store.heap.size
    · by_cases hstore : id = 8
      · rw [hstore, hstock.store]
        rfl
      · exact (hstock.object id hid hstore).primitive
    · rw [Heap.get_of_size_le (Nat.le_of_not_lt hid)]
      rfl
  refine ⟨fun id => .of_unwrapped ?_ (hprimitive id), by omega, hprimitive _⟩
  rw [fresh_heap]
  refine Library.Build.InstallsOnce.install o #[] (fun id => ?_) id
  rw [Heap.get_of_size_le (Nat.zero_le id)]
  exact List.nodup_nil

/-- Changes of the global object keep a session in order. -/
lemma Session.Orderly.change {s t : State} (h : Orderly s) {heap : Heap} {f : Object → Object}
    (hcontrol : t.control = s.control) (hext : s.store.heap.Extends heap) (hheap : heap.Listable)
    (hupdate : t.store.heap = heap.update s.control.realm.global f)
    (hf : ∀ o : Object, o.SameShell (f o))
    (hlist : ∀ o : Object, o.Listable → o.primitive = none → (f o).Listable) : Orderly t := by
  have hsize := Nat.lt_of_lt_of_le h.global hext.size
  have hprimitive := (hext.shell _ h.global).primitive.trans h.unwrapped
  refine ⟨?_, ?_, ?_⟩
  · rw [hupdate]
    exact hheap.update fun ho => hlist _ ho hprimitive
  · rw [hcontrol, hupdate, Heap.size_update]
    exact hsize
  · rw [hcontrol, hupdate, Heap.get_update_self hsize, (hf _).primitive]
    exact hprimitive

lemma Session.Gets.orderly {hosts : Hosts} (hhosts : hosts.Formed) {s : State} (h : Gets hosts s) :
    Orderly s := by
  induction h with
  | fresh o => exact orderly_fresh o
  | @run s α p rounds levels _ hp ih =>
    have hneat : Neat ⟨.none, none, false⟩ (fun _ => True) (fun _ => True) p := hp.neat rfl
    have hgrows : Grows (machine hosts rounds levels)
        (machineChronicle hosts rounds levels) rounds p
        [] s := hneat.routine.grows (machine_grows hhosts.built.composed rounds levels)
      (fun _ => trivial) ⟨Label.none_leq _, by rintro _ ⟨⟩⟩
    have hext := hgrows.start.heap
    refine ⟨(hp.staysListable hhosts rounds levels ih.listable _ (mem_moments_self p [] s)).2, ?_,
      ?_⟩
    · rw [run_control (machine_keepsControl _ _ _)]
      exact Nat.lt_of_lt_of_le ih.global hext.size
    · rw [run_control (machine_keepsControl _ _ _), (hext.shell _ ih.global).primitive]
      exact ih.unwrapped
  | @setGlobal s name v rounds levels _ ih =>
    rw [run_setGlobal]
    exact ih.change rfl (.refl _) ih.listable rfl (fun o => Object.sameShell_set ..)
      fun o ho _ => ho.set ..
  | @defineNative s name arity fn rounds levels _ ih =>
    rw [run_defineNative]
    refine ih.change rfl (.push _ _) (.push ih.listable ?_) rfl
      (fun o => Object.sameShell_define ..)
      fun o ho hnone => ho.defineUnwrapped hnone ..
    exact .defineNamed (.of_slots_eq_nil rfl) arrayIndex?_length _
  | lend face rounds levels ho _ ih =>
    have hsize := Nat.lt_succ_of_lt ih.global
    refine ⟨ih.listable.push ho, ?_, ?_⟩
    · rw [run_control (machine_keepsControl _ _ _)]
      exact hsize.trans_eq (Array.size_push _).symm
    · rw [run_control (machine_keepsControl _ _ _)]
      exact (congrArg Object.primitive (Heap.get_push_lt ih.global _)).trans ih.unwrapped

/-- Objects are listable in all states of a session. -/
theorem Session.Reaches.listable {hosts : Hosts} (hhosts : hosts.Formed) {s : State}
    (h : Reaches hosts s) : s.store.heap.Listable := by
  cases h with
  | between h => exact (h.orderly hhosts).listable
  | before rounds levels h hp hm =>
    exact (hp.staysListable hhosts rounds levels (h.orderly hhosts).listable _ hm).1
  | after rounds levels h hp hm =>
    exact (hp.staysListable hhosts rounds levels (h.orderly hhosts).listable _ hm).2

end Clearance
