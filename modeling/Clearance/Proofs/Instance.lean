/-
# Instances of closures

A closure constructs an object whose prototype is the object that its own `prototype` property
refers to. The prototype of an object is recorded by its number alone and never changes, and chains
of prototypes come to an end. So the new object is an instance of the closure, as long as the
property is not set to something else, and whatever it does not own itself it finds where its
prototype finds it.

A function has two references, one that is called and one that shows it as a record of properties.
`Object.getPrototypeOf` gives the record. It is what the closure's property holds, unless this is a
function (`State.InstanceContract`).
-/
import Clearance.Proofs.Chains
import Clearance.Proofs.Elements

namespace Clearance

open Clearance.Action

/-- The object that a data property refers to, where the property is found from an object on. -/
def Heap.referent? (h : Heap) (id : Nat) (name : String) : Option Ref :=
  match h.find? id name with
  | some (_, q) => if q.isAccessor then none else q.value.raw.object?
  | none => none

lemma Heap.find?_of_referent? {h : Heap} {id : Nat} {name : String} {p : Ref}
    (hp : h.referent? id name = some p) :
    ∃ owner q, h.find? id name = some (owner, q) ∧ q.isAccessor = false ∧
    q.value.raw = .object p := by
  unfold referent? at hp
  split at hp
  · rename_i owner q hfind
    split_ifs at hp with hdata
    exact ⟨owner, q, hfind, Bool.eq_false_of_not_eq_true hdata, Raw.object?_eq hp⟩
  · cases hp

section

variable (serve : Service) (fuel : Nat) {s : State} {F p : Ref}

lemma run_getProperty_referent {name : String}
    (hp : s.store.heap.referent? F.id name = some p) :
    ∃ v : Value, v.raw = .object p ∧ (getProperty F name).run serve fuel s = .done v s := by
  obtain ⟨owner, q, hfind, hdata, hraw⟩ := Heap.find?_of_referent? hp
  refine ⟨q.value, hraw, ?_⟩
  unfold getProperty
  rw [run_bind, run_look]
  dsimp only
  rw [hfind]
  dsimp only
  rw [hdata]
  rfl

/-! ## Construction -/

/-- The state in which the body of a constructor starts: there is a new object, with the
prototype. -/
def State.instantiating (s : State) (p : Ref) : State :=
  s.withHeap (s.store.heap.push (Object.blank "Object" (some p.id) s.control.pc))

/-- The object that is made next. -/
def State.nextObject (s : State) : Ref := ⟨s.store.heap.size, .plain⟩

/-- What is constructed: what the body returns if that is an object, and else the new object. -/
def constructed (o : Ref) (result : Value) : Value :=
  match result.raw with
  | .object _ => result
  | _ => (Raw.object o).labeled result.label

lemma constructed_of_primitive {o : Ref} {result : Value} (h : result.raw.object? = none) :
    constructed o result = (Raw.object o).labeled result.label := by
  unfold constructed
  split
  · rename_i hraw
    rw [hraw] at h
    cases h
  · rfl

end

/-- A closure that constructs runs its body on a new object. -/
lemma mem_moments_constructClosure {serve : Service} (chronicle : Chronicle) {fuel : Nat}
    (cs : List Control) {s t : State} {F p : Ref} {fn : Script.Function Script.Span} {scope : Nat}
    {args : List Value} {r : Value} (hp : s.store.heap.referent? F.id "prototype" = some p)
    (hrun : (constructClosure F fn scope args).run serve fuel s = .done r t) :
    ∃ v : Value, r = constructed s.nextObject v ∧
      ⟨callClosure F fn scope (Raw.object s.nextObject) args, s.instantiating p, cs, .done v t⟩ ∈
        (constructClosure F fn scope args).moments serve chronicle fuel cs s := by
  obtain ⟨q, hq, hget⟩ := run_getProperty_referent serve fuel hp
  unfold constructClosure at hrun ⊢
  rw [run_bind_of_done hget] at hrun
  dsimp only at hrun
  rw [hq] at hrun
  obtain ⟨v, u, hcall, hlast⟩ := run_bind_done.1 hrun
  cases hcall
  obtain ⟨_, _, hpc, hrun⟩ := run_bind_done.1 hlast
  cases hpc
  obtain ⟨_, _, hallocate, hrun⟩ := run_bind_done.1 hrun
  cases hallocate
  obtain ⟨v, u, hcall, hlast⟩ := run_bind_done.1 hrun
  have hresult : r = constructed s.nextObject v ∧ t = u := by
    unfold constructed
    cases hraw : v.raw
    all_goals
      rw [hraw] at hlast
      cases hlast
      exact ⟨rfl, rfl⟩
  obtain ⟨rfl, rfl⟩ := hresult
  refine ⟨v, rfl, mem_moments_rest hget ?_⟩
  dsimp only
  rw [hq]
  refine mem_moments_rest rfl (mem_moments_rest rfl (mem_moments_rest rfl (mem_moments_first _ ?_)))
  rw [← hcall]
  exact mem_moments_self ..

/-! ## The new object -/

/-- What an object has to do with a closure whose property `prototype` refers to `p`. -/
structure State.InstanceContract (s : State) (F p o : Ref) : Prop where
  /-- The object is an instance of the closure. -/
  isInstance : ∀ (hosts : Hosts) (serve : Service) (fuel : Nat) (r : Value), r.raw = .object o →
    (performHasInstance hosts F r).run serve fuel s = .done (Raw.bool true) s
  /-- What the object does not own is found where it is found from `p` on. -/
  lookup : ∀ name, (s.store.heap.get o.id).own? name = none →
    s.store.heap.find? o.id name = s.store.heap.find? p.id name
  /-- `Object.getPrototypeOf` gives the record of `p`. -/
  prototype : ∀ (serve : Service) (fuel : Nat) (this r : Value) (args : List Value),
    r.raw = .object o → ∃ e : Value, e.raw = .object ⟨p.id, .plain⟩ ∧
      (Library.run .getPrototypeOf this (r :: args)).run serve fuel s = .done e s
  /-- This is what the property refers to if `p` is a record itself. -/
  same : (Raw.object ⟨p.id, .plain⟩).same (.object p) = true ↔ p.face = .plain
  /-- All else are functions. -/
  function : p.face ≠ .plain → (s.store.heap.get p.id).behaviour ≠ .none

lemma Face.Suits.behaviour_ne_none {face : Face} {b : Behaviour} (h : face.Suits b)
    (hface : face ≠ .plain) : b ≠ .none := by
  rintro rfl
  cases face <;> first | exact hface rfl | exact h

lemma Store.Founded.mem_chain_tail {s : Store} (h : s.Founded) {id q : Nat}
    (hq : (s.heap.get id).proto = some q) : q ∈ (s.heap.chain id).tail := by
  rw [h.chain id, hq]
  dsimp only [List.tail_cons]
  rw [h.chain q]
  exact List.mem_cons_self

section

variable {s : State} {F p o : Ref}

lemma run_performHasInstance {hosts : Hosts} {serve : Service} {fuel : Nat} {r : Value}
    (hfounded : s.store.Founded) (hF : ∀ n, (s.store.heap.get F.id).behaviour ≠ .host n)
    (hp : s.store.heap.referent? F.id "prototype" = some p)
    (ho : (s.store.heap.get o.id).proto = some p.id) (hr : r.raw = .object o) :
    (performHasInstance hosts F r).run serve fuel s = .done (Raw.bool true) s := by
  obtain ⟨q, hq, hget⟩ := run_getProperty_referent serve fuel hp
  have hordinary : (ordinaryHasInstance F r).run serve fuel s = .done true s := by
    unfold ordinaryHasInstance
    rw [hr]
    dsimp only
    rw [run_bind_of_done hget, hq]
    dsimp only
    rw [run_look, List.contains_iff_mem.2 (hfounded.mem_chain_tail ho)]
  unfold performHasInstance
  rw [run_bind, run_object]
  dsimp only
  split
  · rename_i n hbehaviour
    exact absurd hbehaviour (hF n)
  · rw [run_bind_of_done hordinary]
    rfl

lemma run_getPrototypeOf {serve : Service} {fuel : Nat} {this r : Value} {args : List Value}
    {q : Nat} (ho : (s.store.heap.get o.id).proto = some q) (hr : r.raw = .object o) :
    ∃ e : Value, e.raw = .object ⟨q, .plain⟩ ∧
      (Library.run .getPrototypeOf this (r :: args)).run serve fuel s = .done e s := by
  refine ⟨((Raw.object ⟨q, .plain⟩ : Value)).wrap (Value.joinLabels (this :: r :: args)),
    Value.wrap_raw .., ?_⟩
  have hrun : (Library.prototypeOf this.raw ((r :: args).map Value.raw)).run serve fuel s =
      .done (Raw.object ⟨q, .plain⟩) s := by
    unfold Library.prototypeOf rawAt
    rw [List.map_cons, List.getD_cons_zero, hr]
    dsimp only
    rw [run_bind, run_object]
    dsimp only
    rw [ho]
    rfl
  show (lift Library.prototypeOf this (r :: args)).run serve fuel s = _
  unfold lift
  rw [run_bind_of_done hrun]
  rfl

lemma Heap.find?_of_proto {s : Store} (h : s.Founded) {id q : Nat} {name : String}
    (hq : (s.heap.get id).proto = some q) (hnone : (s.heap.get id).own? name = none) :
    s.heap.find? id name = s.heap.find? q name := by
  rw [h.find? id, hnone, hq]

end

/-! ## Sessions -/

section

variable {hosts : Hosts} (hhosts : hosts.Modest) {s₀ : State} (h₀ : Library.Untouched s₀)
  {ms : List Moment} {s : State} (h : Course hosts s₀ (Grade.full s₀.control.realm.lattice) ms s)
  {F p : Ref} {args : List Value} {cs : List Control} {r : Value} {t u : State}
include hhosts h₀ h

/-- A function that is found under `prototype` does something. -/
lemma Course.behaviour_of_referent (hm : ⟨.invoke (.construct F args), t, cs, .done r u⟩ ∈ ms)
    (hp : u.store.heap.referent? F.id "prototype" = some p) (hface : p.face ≠ .plain) :
    (u.store.heap.get p.id).behaviour ≠ .none := by
  have hsees := (Course.lived_full hhosts h₀ h).sees _ hm
  obtain ⟨hbase, hstarts⟩ := hsees.final
  obtain ⟨_, hrequest⟩ := hsees.request t.store hsees.start.fst rfl _ rfl
  cases hrequest with
  | construct hmaker =>
    have hF := @Origin.fits_widen _ _ _ _ hbase hsees.during _ hmaker.fits
    obtain ⟨owner, q, hfind, hdata, hraw⟩ := Heap.find?_of_referent? hp
    obtain ⟨hnone, -⟩ | ⟨owner', q', q'', hfind', -, -, hq⟩ :=
      hstarts.together.heaps.find? (World.fits_object _ hF) "prototype"
    · exact nomatch hfind.symm.trans hnone
    · obtain ⟨rfl, rfl⟩ := Prod.mk.inj (Option.some.inj (hfind.symm.trans hfind'))
      rcases hq.contents (by simp [hdata]) with hvalues | ⟨-, hname, -⟩
      · exact (hvalues.raw.sound p hraw).2.behaviour_ne_none hface
      · exact absurd hname (by decide)

/-- What a closure has constructed when its body has run. -/
lemma Course.constructs (hm : ⟨.invoke (.construct F args), t, cs, .done r u⟩ ∈ ms)
    {fn : Script.Function Script.Span} {scope : Nat}
    (hF : (t.store.heap.get F.id).behaviour = .closure fn scope)
    (hp : t.store.heap.referent? F.id "prototype" = some p) :
    ∃ v : Value, r = constructed t.nextObject v ∧
      ⟨callClosure F fn scope (Raw.object t.nextObject) args, t.instantiating p, cs, .done v u⟩ ∈
        ms := by
  obtain ⟨rounds, levels, houtcome, hmoments⟩ := (Course.lived_full hhosts h₀ h).runs _ hm
  cases levels with
  | zero => cases houtcome
  | succ n =>
    have hrun : (perform hosts (.construct F args)).run (machine hosts rounds n) rounds t =
        .done r u :=
      (machine_succ ..).symm.trans houtcome.symm
    have hconstruct : (constructClosure F fn scope args).run (machine hosts rounds n) rounds t =
        .done r u := by
      obtain ⟨_, _, hobject, hrun⟩ := run_bind_done.1 hrun
      cases hobject
      rwa [hF] at hrun
    obtain ⟨v, hr, hmem⟩ := mem_moments_constructClosure
      (machineChronicle hosts rounds n) cs hp hconstruct
    refine ⟨v, hr, hmoments (List.mem_cons_of_mem _ ?_)⟩
    refine mem_moments_rest (p := object F.id) rfl ?_
    rw [hF]
    exact hmem

/-- The new object stays as related to the closure as its property does. -/
lemma Course.instanceContract (hm : ⟨.invoke (.construct F args), t, cs, .done r u⟩ ∈ ms)
    {fn : Script.Function Script.Span} {scope : Nat}
    (hF : (t.store.heap.get F.id).behaviour = .closure fn scope)
    (hbefore : t.store.heap.referent? F.id "prototype" = some p)
    (hafter : u.store.heap.referent? F.id "prototype" = some p) :
    u.InstanceContract F p t.nextObject := by
  obtain ⟨v, -, hbody⟩ := Course.constructs hhosts h₀ h hm hF hbefore
  obtain ⟨-, hfounded, -, -⟩ := (Course.founded hhosts h₀ h).2 _ hm
  obtain ⟨-, -, hkeeps, -⟩ := (Course.founded hhosts h₀ h).2 _ hbody
  have hproto : (u.store.heap.get t.nextObject.id).proto = some p.id := by
    refine (hkeeps.proto t.nextObject.id (by simp [State.instantiating, State.nextObject])).trans ?_
    dsimp only [State.instantiating, State.nextObject, State.heap_withHeap]
    rw [Heap.get_push_size]
    rfl
  have hshell : (u.store.heap.get F.id).behaviour = .closure fn scope := by
    have hlt : F.id < t.store.heap.size := Nat.lt_of_not_le fun hle => by
      rw [Heap.get_of_size_le hle] at hF
      cases hF
    exact (((Course.lived_full hhosts h₀ h).sees _ hm).during.heap.shell _ hlt).behaviour.trans hF
  exact {
    isInstance := fun _ _ _ _ hr =>
      run_performHasInstance hfounded (by rw [hshell]; nofun) hafter hproto hr
    lookup := fun _ hnone => Heap.find?_of_proto hfounded hproto hnone
    prototype := fun _ _ _ _ _ hr => run_getPrototypeOf hproto hr
    same := by
      obtain ⟨id, face⟩ := p
      cases face <;> simp [Raw.same]
    function := Course.behaviour_of_referent hhosts h₀ h hm hafter }

end

/-- **Construction, `instanceof` and `Object.getPrototypeOf` agree up to the reference.** Whenever a
closure constructs in the course of a session, and its property `prototype` refers to one object
before and after, its body is run on a new object, which is the result if the body returns no
object. The new object is an instance of the closure, what it does not own is found from the
prototype on, and `Object.getPrototypeOf` gives the record of the prototype: this is the reference
that the property holds, unless the prototype is a function. -/
theorem instance_of_construct {hosts : Hosts} (hhosts : hosts.Modest) {o : Library.Options}
    {ms : List Moment} {s : State}
    (h : Course hosts (Session.fresh o) (Grade.full (Session.fresh o).control.realm.lattice) ms s)
    {F p : Ref} {args : List Value} {cs : List Control} {r : Value} {t u : State}
    (hm : ⟨.invoke (.construct F args), t, cs, .done r u⟩ ∈ ms)
    {fn : Script.Function Script.Span} {scope : Nat}
    (hF : (t.store.heap.get F.id).behaviour = .closure fn scope)
    (hbefore : t.store.heap.referent? F.id "prototype" = some p)
    (hafter : u.store.heap.referent? F.id "prototype" = some p) :
    ∃ v : Value, r = constructed t.nextObject v ∧
      ⟨callClosure F fn scope (Raw.object t.nextObject) args, t.instantiating p, cs,
        .done v u⟩ ∈ ms ∧
      (v.raw.object? = none → r.raw = .object t.nextObject) ∧
      u.InstanceContract F p t.nextObject := by
  have h₀ := Session.untouched_fresh o
  obtain ⟨v, hr, hbody⟩ := Course.constructs hhosts h₀ h hm hF hbefore
  refine ⟨v, hr, hbody, fun hv => ?_, Course.instanceContract hhosts h₀ h hm hF hbefore hafter⟩
  rw [hr, constructed_of_primitive hv]
  exact Value.wrap_raw ..

/-- A closure constructs and returns no object. -/
def constructingScript : Action Value := evaluate "function F() \x7b\x7d new F()" "" 1

/-- A closure has constructed an object, and its property `prototype` is as before. -/
def Moment.instantiates : Moment → Bool
  | ⟨.invoke (.construct F _), t, _, .done r u⟩ =>
    match (t.store.heap.get F.id).behaviour, t.store.heap.referent? F.id "prototype",
      u.store.heap.referent? F.id "prototype" with
    | .closure .., some p, some p' => p == p' && r.raw.object? == some t.nextObject
    | _, _, _ => false
  | _ => false

lemma Moment.exists_of_instantiates {m : Moment} (hm : m.instantiates = true) :
    ∃ (F p : Ref) (fn : Script.Function Script.Span) (scope : Nat) (args : List Value)
      (cs : List Control) (r : Value) (t u : State),
      m = ⟨.invoke (.construct F args), t, cs, .done r u⟩ ∧
      (t.store.heap.get F.id).behaviour = .closure fn scope ∧
      t.store.heap.referent? F.id "prototype" = some p ∧
      u.store.heap.referent? F.id "prototype" = some p ∧ r.raw = .object t.nextObject := by
  unfold instantiates at hm
  split at hm
  · split at hm
    · rename_i hF hbefore hafter
      simp only [Bool.and_eq_true, beq_iff_eq] at hm
      obtain ⟨rfl, hr⟩ := hm
      exact ⟨_, _, _, _, _, _, _, _, _, rfl, hF, hbefore, hafter, Raw.object?_eq hr⟩
    · cases hm
  · cases hm

set_option maxRecDepth 100000 in
/-- The script makes an instance. -/
theorem instance_of_construct_in_script : ∃ (F p : Ref) (args : List Value) (cs : List Control)
    (r : Value) (t u : State), ⟨.invoke (.construct F args), t, cs, .done r u⟩ ∈
      constructingScript.momentsOn .none 50 50 [] (Session.fresh .standard) ∧
    r.raw = .object t.nextObject ∧ u.InstanceContract F p t.nextObject := by
  have hcourse : Course .none (Session.fresh .standard) (Grade.full _)
      ([] ++ constructingScript.momentsOn .none 50 50 [] (Session.fresh .standard)) _ :=
    .deed 50 50 .start (.evaluate _ _ _ fun _ _ node _ => Grade.allows_full node)
  have hany : (constructingScript.momentsOn .none 50 50 [] (Session.fresh .standard)).any
      Moment.instantiates = true := by decide +kernel
  obtain ⟨m, hm, hinstantiates⟩ := List.any_eq_true.1 hany
  obtain ⟨F, p, fn, scope, args, cs, r, t, u, rfl, hF, hbefore, hafter, hr⟩ :=
    Moment.exists_of_instantiates hinstantiates
  obtain ⟨v, -, -, -, hcontract⟩ :=
    instance_of_construct Hosts.modest_none hcourse (List.mem_append_right _ hm) hF hbefore hafter
  exact ⟨F, p, args, cs, r, t, u, hm, hr, hcontract⟩

/-- Compares the prototype of a closure, which is a function, with what its instance shows. -/
def functionalScript : Action Value :=
  evaluate ("function F() \x7b\x7d F.prototype = F; " ++
    "Object.getPrototypeOf(new F()) !== F.prototype") "" 1

/-- A run ends with the value that is true. -/
def Outcome.isTrue : Outcome Value → Bool
  | .done ⟨.bool b, _⟩ _ => b
  | _ => false

set_option maxRecDepth 100000 in
/-- The two references are different. -/
theorem getPrototypeOf_differs_for_function :
    (functionalScript.run (machine .none 50 50) 50 (Session.fresh .standard)).isTrue = true := by
  rw [functionalScript, ← String.ofList_append, evaluate_ofList]
  decide +kernel

end Clearance
