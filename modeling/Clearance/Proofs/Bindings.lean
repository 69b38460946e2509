/-
# What bindings are classified as

A binding that is made under a program counter is classified as the program counter from then on:
by the label of its value, or by the partition of the store that it is in. Later writes keep the
label, whatever the program counter is then. So whoever reads the binding, as long as it has been
neither deleted nor declared again, reads what is classified at least as the program counter was.
-/
import Clearance.Proofs.Paired.Course

namespace Clearance

open Clearance.Action

/-! ## The life of a binding -/

/-- The moment binds a name in a store, at a program counter: a single step adds the name, or the
name is declared, be it bound before or not. -/
inductive Moment.Binds (id : Nat) (name : String) : Moment → Label → Prop
  | added {m : Moment} {q : Property} :
      Slots.find? name (m.state.store.heap.get id).slots = none →
      Slots.find? name (m.next.heap.get id).slots = some q → Binds id name m m.state.control.pc
  | declared {s : State} {cs : List Control} {o : Outcome Unit} {n : Nat} {pc : Label}
      {p : Property} : ((s.store.frames.get n).store (Frame.sideAt pc)).id = id →
        Binds id name ⟨defineIn n pc name p, s, cs, o⟩ pc

/-- The store is one for bindings: of an activation, of a catch clause or of the own name of a
function expression, or the one of the global frame that belongs to the program counter. -/
inductive Moment.Houses (m : Moment) (id : Nat) (pc : Label) : Prop
  | scope : (m.next.heap.get id).cls = "Activation" → Houses m id pc
  | global :
  ((m.next.frames.get m.state.control.realm.globalFrame).store (Frame.sideAt pc)).id = id →
      Houses m id pc

/-- The moment neither deletes a binding nor makes another one of it by declaring it. -/
structure Moment.Spares (m : Moment) (id : Nat) (name : String) : Prop where
  present : Slots.find? name (m.next.heap.get id).slots ≠ none
  undeclared : Declares m.state.store id name m.action →
    Slots.find? name (m.next.heap.get id).slots = Slots.find? name (m.state.store.heap.get id).slots

/-- A binding whose label, or whose store, is classified at least as `pc`. -/
def Store.Classifies (id : Nat) (name : String) (pc : Label) (s : Store) : Prop :=
  ∃ q, Slots.find? name (s.heap.get id).slots = some q ∧
    pc.leq (q.value.label.join (s.heap.get id).partition) = true

/-- The name is bound in a store, as far as one sees along the scope chain. -/
def State.Resolves (s : State) (name : String) (id : Nat) : Prop :=
  ∃ n side frames, s.store.frames.lookup s.store.heap s.control.scope name =
  (some (n, side), frames) ∧
    ((frames.get n).store side).id = id

/-- What is read is classified at least as `pc`. A classification above the bottom does not come
from nothing: then there is something to read. -/
structure Outcome.Yields (o : Outcome Rated) (pc : Label) : Prop where
  label : ∀ {r t}, o = .done r t → pc.leq r.label = true
  done : Label.none.less pc = true → ∃ r t, o = .done r t

/-- Whoever reads a binding reads what is classified at least as `pc`: wherever the store itself is
read, and wherever an expression names the binding and the scope chain leads to the store. -/
structure Store.Shields (s : Store) (id : Nat) (name : String) (pc : Label) : Prop where
  place : ∀ (S : Ref) (k : Label) (serve : Service) (fuel : Nat) (c : Control), S.id = id →
    ((Operand.place ⟨some S, name⟩ k).resolve.run serve fuel ⟨c, s⟩).Yields pc
  ident : ∀ (i : Script.Ident Script.Span) (serve : Service) (fuel : Nat) (c : Control),
    i.name = name → State.Resolves ⟨c, s⟩ name id →
      ((valueOf (Script.Expr.ident i).action).run serve fuel ⟨c, s⟩).Yields pc

lemma Store.structural_classifies {id : Nat} {name : String} {pc : Label} :
    Trail.Structural (Classifies id name pc) := by
  rintro s t ⟨hheap, -⟩ hs
  unfold Classifies
  rw [hheap]
  exact hs

lemma Heap.lt_of_activation {h : Heap} {id : Nat} (hcls : (h.get id).cls = "Activation") :
    id < h.size := by
  by_contra hid
  rw [Heap.get_of_size_le (Nat.le_of_not_lt hid)] at hcls
  revert hcls
  decide

lemma Heap.lt_of_find? {h : Heap} {id : Nat} {name : String} {q : Property}
    (hq : Slots.find? name (h.get id).slots = some q) : id < h.size := by
  by_contra hid
  rw [Heap.get_of_size_le (Nat.le_of_not_lt hid)] at hq
  cases hq

lemma heap_defineIn {s : Store} {n id : Nat} {pc : Label} {name : String} {p : Property}
    (hid : ((s.frames.get n).store (Frame.sideAt pc)).id = id) :
    ((defineIn n pc name p).step s).heap = s.heap.update id (·.define name
      (if (s.heap.get id).partition.less pc then { p with value := p.value.wrap pc } else p)) := by
  subst hid
  rfl

/-- A declaration classifies what it declares as its program counter. -/
lemma classifies_defineIn {s : Store} {n id : Nat} {pc : Label} {name : String} {p : Property}
    (hid : ((s.frames.get n).store (Frame.sideAt pc)).id = id) (hlt : id < s.heap.size) :
    ((defineIn n pc name p).step s).Classifies id name pc := by
  unfold Store.Classifies
  rw [heap_defineIn hid, Heap.get_update, if_pos ⟨rfl, hlt⟩]
  refine ⟨_, (Slots.find?_put ..).trans (if_pos rfl), ?_⟩
  show pc.leq (Label.join _ (s.heap.get id).partition) = true
  rw [Label.leq_iff, Label.height_join]
  split_ifs with hless
  · dsimp only
    rw [Value.height_wrap]
    omega
  · have := Label.leq_iff.1 (Label.leq_of_not_less hless)
    omega

section

variable {O : Origin} {m : Moment} {id : Nat} {name : String} {pc : Label}

/-- What binds a name classifies it as the program counter. -/
lemma Moment.Binds.classifies (h : m.Binds id name pc) (hsees : O.Sees m)
    (hcls : (m.next.heap.get id).cls = "Activation") : m.next.Classifies id name pc := by
  have hstep := hsees.step _ hsees.start.fst rfl
  cases h with
  | @added m q hnone hq =>
    have hbinds := hstep.binds hcls hnone hq
    refine ⟨q, hq, ?_⟩
    rw [Label.leq_iff, Label.height_join] at hbinds ⊢
    by_cases hlt : id < m.state.store.heap.size
    · rw [(hsees.next.heap.shell id hlt).partition]
      exact hbinds
    · rw [Heap.get_of_size_le (Nat.le_of_not_lt hlt)] at hbinds
      have hone : (default : Object).partition.height = 1 := rfl
      have := Label.one_le_height q.value.label
      omega
  | declared hid =>
    refine classifies_defineIn hid ?_
    have hlt := Heap.lt_of_activation hcls
    unfold Moment.next at hlt
    rw [heap_defineIn hid, Heap.size_update] at hlt
    exact hlt

/-- What spares a binding keeps its classification. -/
lemma Moment.Spares.classifies (h : m.Spares id name) (hsees : O.Sees m)
    (hcls : (m.next.heap.get id).cls = "Activation")
    (hs : m.state.store.Classifies id name pc) : m.next.Classifies id name pc := by
  have hstep := hsees.step _ hsees.start.fst rfl
  obtain ⟨q, hq, hpc⟩ := hs
  obtain ⟨q', hq'⟩ := Option.ne_none_iff_exists'.1 h.present
  have hkeeps : q.value.label.leq q'.value.label = true := by
    by_cases hdeclares : Declares m.state.store id name m.action
    · have hsame := h.undeclared hdeclares
      rw [hq, hq'] at hsame
      cases hsame
      exact Label.leq_refl _
    · exact hstep.keeps hcls hq hq' hdeclares
  refine ⟨q', hq', ?_⟩
  rw [(hsees.next.heap.shell id (Heap.lt_of_find? hq)).partition]
  rw [Label.leq_iff, Label.height_join] at hpc ⊢
  rw [Label.leq_iff] at hkeeps
  omega

end

/-! ## Reading -/

section

variable {s : Store} {id : Nat} {name : String} {pc : Label}

lemma Outcome.yields_of_bottom {o : Outcome Rated} (hpc : pc.height = 1) : o.Yields pc := by
  refine ⟨fun _ => ?_, fun hless => ?_⟩
  · rw [Label.leq_iff, hpc]
    exact Label.one_le_height _
  · rw [Label.less_iff, Label.height_none, hpc] at hless
    omega

/-- An expression that names a binding reads the place that the scope chain leads to. -/
lemma run_valueOf_ident {c : Control} {i : Script.Ident Script.Span} (serve : Service) (fuel : Nat)
    (hi : i.name = name) (hs : State.Resolves ⟨c, s⟩ name id) : ∃ S frames, S.id = id ∧
      (valueOf (Script.Expr.ident i).action).run serve fuel ⟨c, s⟩ =
        (Operand.place ⟨some S, name⟩ .none).resolve.run serve fuel ⟨c, { s with frames }⟩ := by
  obtain ⟨n, side, frames, hlookup, hid⟩ := hs
  refine ⟨(frames.get n).store side, frames, hid, ?_⟩
  subst hi
  simp only [valueOf, Script.Expr.action, placeOf, run_bind, run_current, run_update, hlookup,
    Option.map_some, run_pure]

/-- Reading the place of a binding gives what the store holds. -/
lemma Store.Classifies.yields (hs : s.Classifies id name pc) (hbare : (s.heap.get id).Bare)
    (hdata : ∀ q, Slots.find? name (s.heap.get id).slots = some q → q.isAccessor = false) {S : Ref}
    (hS : S.id = id) (k : Label) (serve : Service) (fuel : Nat) (c : Control) :
    ((Operand.place ⟨some S, name⟩ k).resolve.run serve fuel ⟨c, s⟩).Yields pc := by
  subst hS
  obtain ⟨q, hq, hpc⟩ := hs
  have hfind : s.heap.find? S.id name = some (S.id, q) := by
    rw [find?_bare hbare, hq]
    rfl
  simp only [Operand.resolve, Place.cell, getProperty, Place.partition, run_bind, run_look, hfind,
    hdata q hq, run_pure, run_object]
  refine ⟨?_, fun _ => ⟨_, _, rfl⟩⟩
  rintro _ _ ⟨⟩
  rw [Label.leq_iff] at hpc ⊢
  simp only [Label.height_join] at hpc ⊢
  omega

/-- A classified binding is shielded. -/
lemma Store.Classifies.shields (hs : s.Classifies id name pc) (hbare : (s.heap.get id).Bare)
    (hdata : ∀ q, Slots.find? name (s.heap.get id).slots = some q → q.isAccessor = false) :
    s.Shields id name pc := by
  refine ⟨fun S k serve fuel c hS => hs.yields hbare hdata hS k serve fuel c,
    fun i serve fuel c hi hresolves => ?_⟩
  obtain ⟨S, frames, hS, hrun⟩ := run_valueOf_ident serve fuel hi hresolves
  rw [hrun]
  exact Classifies.yields (s := { s with frames }) hs hbare hdata hS _ serve fuel c

lemma Store.shields_of_bottom (hpc : pc.height = 1) : s.Shields id name pc :=
  ⟨fun _ _ _ _ _ _ => Outcome.yields_of_bottom hpc,
    fun _ _ _ _ _ _ => Outcome.yields_of_bottom hpc⟩

end

section

variable {hosts : Hosts} (hhosts : hosts.Modest) {s₀ : State} (h₀ : Library.Untouched s₀)
  {id : Nat} {name : String} {pc : Label}
include hhosts h₀

omit hhosts in
/-- A store that houses bindings is one for bindings, or the program counter is at the bottom. -/
lemma Moment.Houses.activation {m : Moment} (h : m.Houses id pc)
    (hsees : (h₀.origin .full).Sees m) :
    (m.next.heap.get id).cls = "Activation" ∨ pc.height = 1 := by
  cases h with
  | scope hcls => exact .inl hcls
  | global hid =>
    have hprecedes : s₀.store.Precedes m.next := hsees.start.fst.trans hsees.next
    have hrealm : m.state.control.realm = s₀.control.realm :=
      hsees.start.snd.together.control.realm
    have hframe : 0 < s₀.store.frames.size := by rw [h₀.frames]; exact Nat.one_pos
    rw [hrealm, h₀.globalFrame, (hprecedes.frames.links 0 hframe).store,
      h₀.frame_store hframe] at hid
    cases hside : Frame.sideAt pc with
    | low =>
      refine .inr ?_
      have := Label.one_le_height pc
      unfold Frame.sideAt at hside
      split_ifs at hside with hless
      rw [Label.less_iff, Label.height_none] at hless
      omega
    | high =>
      rw [hside] at hid
      subst hid
      refine .inl ?_
      have hshell := hprecedes.heap.shell 8 (Nat.lt_of_lt_of_le (by decide) h₀.stock.nine)
      refine hshell.cls.trans ?_
      rw [h₀.stock.store]
      rfl

/-- A binding that is spared is classified as it was made. -/
lemma Course.classifies {before between after : List Moment} {m₀ m₁ : Moment} {s : State}
    (h : Course hosts s₀ (Grade.full s₀.control.realm.lattice)
      (before ++ m₀ :: (between ++ m₁ :: after)) s)
    (hbinds : m₀.Binds id name pc) (hcls : (m₀.next.heap.get id).cls = "Activation")
    (hspared : ∀ m ∈ between, m.Spares id name) :
    (m₁.state.store.heap.get id).cls = "Activation" ∧ m₁.state.store.Classifies id name pc := by
  have hlived := Course.lived_full hhosts h₀ h
  have hsees : ∀ m ∈ m₀ :: (between ++ m₁ :: after), (h₀.origin .full).Sees m :=
    fun m hm => hlived.sees m (List.mem_append_right _ hm)
  obtain ⟨_, -, -, htrail⟩ := Trail.of_append hlived.trail
  obtain ⟨_, hbetween, hread, -⟩ := Trail.of_append htrail
  let P : Store → Prop := fun t => (t.heap.get id).cls = "Activation" ∧ t.Classifies id name pc
  have hP : Trail.Structural P := fun t u hsame ht =>
    ⟨by rw [hsame.heap]; exact ht.1, Store.structural_classifies t u hsame ht.2⟩
  have hstart : P m₀.next := ⟨hcls, hbinds.classifies (hsees m₀ List.mem_cons_self) hcls⟩
  have hkept := hbetween.preserves hP (fun m hm hm' => ?_) hstart
  · exact hP _ _ hread hkept.1
  · have hm₀ := hsees m (List.mem_cons_of_mem _ (List.mem_append_left _ hm))
    have hcls' := ((hm₀.next.heap.shell id (Heap.lt_of_activation hm'.1)).cls).trans hm'.1
    exact ⟨hcls', (hspared m hm).classifies hm₀ hcls' hm'.2⟩

/-- A binding that is spared is shielded. -/
lemma Course.shields {before between after : List Moment} {m₀ m₁ : Moment} {s : State}
    (h : Course hosts s₀ (Grade.full s₀.control.realm.lattice)
      (before ++ m₀ :: (between ++ m₁ :: after)) s)
    (hbinds : m₀.Binds id name pc) (hhouses : m₀.Houses id pc)
    (hspared : ∀ m ∈ between, m.Spares id name) : m₁.state.store.Shields id name pc := by
  have hlived := Course.lived_full hhosts h₀ h
  rcases hhouses.activation h₀ (hlived.sees m₀ (by simp)) with hcls | hbottom
  · obtain ⟨hcls₁, hs⟩ := Course.classifies hhosts h₀ h hbinds hcls hspared
    have hkept := (hlived.sees m₁ (by simp)).start.snd.together.kept
    exact hs.shields (Setting.Kept.bare hkept _ (.inr hcls₁)) fun q hq =>
      (Setting.Kept.slots hkept _ (.inr hcls₁) _ (Slots.mem_of_find? hq)).isAccessor.1
  · exact Store.shields_of_bottom hbottom

end

/-- **Bindings keep the classification of the program counter that they were made under.** However
a host uses a fresh session: when a name has been bound in a store for bindings, or in the global
frame, at a program counter `pc`, and the binding has since been neither deleted nor declared
again, then whoever reads it, through whatever scope chain, gets an effective label of at least
`pc`. -/
theorem bindings_keep_classification {hosts : Hosts} (hhosts : hosts.Modest) {o : Library.Options}
    {before between after : List Moment} {m₀ m₁ : Moment} {s : State}
    (h : Course hosts (Session.fresh o) (Grade.full (Session.fresh o).control.realm.lattice)
      (before ++ m₀ :: (between ++ m₁ :: after)) s)
    {id : Nat} {name : String} {pc : Label} (hbinds : m₀.Binds id name pc)
    (hhouses : m₀.Houses id pc) (hspared : ∀ m ∈ between, m.Spares id name) :
    m₁.state.store.Shields id name pc :=
  Course.shields hhosts (Session.untouched_fresh o) h hbinds hhouses hspared

/-! ## A parameter that outlives its call -/

/-- A function that is called in a region of a secret leaves a closure behind, which reads the
parameter later on, outside of the region. -/
def parameterScript : Action Value :=
  evaluate ("var f = label('H', 0); " ++
    "if (secret) \x7b (function(a) \x7b f = function() \x7b return a; \x7d; \x7d)(true) \x7d f();")
      "" 1

/-- A session whose host has set a secret. -/
def sessionWithSecret : State :=
  ((Session.setGlobal "secret" ⟨.bool true, ⟨2, "H"⟩⟩).run (machine .none 0 0) 0
    (Session.fresh .standard)).state

/-- All that happens while the script runs. -/
def parameterMoments : List Moment := parameterScript.momentsOn .none 50 50 [] sessionWithSecret

/-- Both are data properties that hold the same truth value in the same way. -/
def Property.sameFlag : Option Property → Option Property → Bool
  | some ⟨⟨.bool b, k⟩, .absent, .absent, hidden, readOnly, permanent⟩,
    some ⟨⟨.bool b', k'⟩, .absent, .absent, hidden', readOnly', permanent'⟩ =>
      b == b' && k == k' && hidden == hidden' && readOnly == readOnly' && permanent == permanent'
  | _, _ => false

lemma Property.eq_of_sameFlag {p q : Option Property} (h : sameFlag p q = true) :
    p = q ∧ p ≠ none := by
  unfold sameFlag at h
  split at h
  · simp only [Bool.and_eq_true, beq_iff_eq] at h
    obtain ⟨⟨⟨⟨rfl, rfl⟩, rfl⟩, rfl⟩, rfl⟩ := h
    exact ⟨rfl, Option.some_ne_none _⟩
  · cases h

/-- The moment adds a name to an activation, under a secret. -/
def Moment.addsUnderSecret (id : Nat) (name : String) (m : Moment) : Bool :=
  m.state.control.pc == ⟨2, "H"⟩ && (Slots.find? name (m.state.store.heap.get id).slots).isNone &&
    (Slots.find? name (m.next.heap.get id).slots).isSome &&
    (m.next.heap.get id).cls == "Activation"

/-- The moment leaves the truth value that a name is bound to. -/
def Moment.leavesFlag (id : Nat) (name : String) (m : Moment) : Bool :=
  Property.sameFlag (Slots.find? name (m.next.heap.get id).slots)
    (Slots.find? name (m.state.store.heap.get id).slots)

lemma Moment.binds_of_addsUnderSecret {id : Nat} {name : String} {m : Moment}
    (h : m.addsUnderSecret id name = true) :
    m.Binds id name ⟨2, "H"⟩ ∧ m.Houses id ⟨2, "H"⟩ := by
  simp only [addsUnderSecret, Bool.and_eq_true, beq_iff_eq, Option.isNone_iff_eq_none,
    Option.isSome_iff_exists] at h
  obtain ⟨⟨⟨hpc, hnone⟩, q, hq⟩, hcls⟩ := h
  exact ⟨hpc ▸ .added hnone hq, .scope hcls⟩

lemma Moment.spares_of_leavesFlag {id : Nat} {name : String} {m : Moment}
    (h : m.leavesFlag id name = true) : m.Spares id name :=
  have hsame := Property.eq_of_sameFlag h
  ⟨hsame.2, fun _ => hsame.1⟩

/-- A name is bound under a secret, and left alone up to the last moment. -/
def boundUnderSecret (id : Nat) (name : String) (ms : List Moment) : Bool :=
  match ms.dropWhile (fun m => !m.addsUnderSecret id name) with
  | m :: rest => m.addsUnderSecret id name && !rest.isEmpty && rest.all (·.leavesFlag id name)
  | [] => false

lemma exists_of_boundUnderSecret {id : Nat} {name : String} {ms : List Moment}
    (h : boundUnderSecret id name ms = true) : ∃ before m₀ between m₁,
      ms = before ++ m₀ :: (between ++ [m₁]) ∧ m₀.Binds id name ⟨2, "H"⟩ ∧
        m₀.Houses id ⟨2, "H"⟩ ∧ ∀ m ∈ between, m.Spares id name := by
  have hsplit := List.takeWhile_append_dropWhile
    (p := fun m => !m.addsUnderSecret id name) (l := ms)
  unfold boundUnderSecret at h
  split at h
  · rename_i m rest hdrop
    simp only [Bool.and_eq_true, Bool.not_eq_true', List.all_eq_true] at h
    obtain ⟨⟨hadds, hrest⟩, hleaves⟩ := h
    have hne : rest ≠ [] := by
      rintro rfl
      cases hrest
    obtain ⟨hbinds, hhouses⟩ := Moment.binds_of_addsUnderSecret hadds
    rw [hdrop, ← List.dropLast_append_getLast hne] at hsplit
    exact ⟨_, m, _, _, hsplit.symm, hbinds, hhouses, fun m' hm' =>
      Moment.spares_of_leavesFlag (hleaves m' (List.dropLast_subset rest hm'))⟩
  · cases h

set_option maxRecDepth 100000 in
/-- The parameter is still shielded when the closure has been called. -/
theorem bindings_keep_classification_of_parameter : ∃ before m₀ between m₁,
    parameterMoments = before ++ m₀ :: (between ++ [m₁]) ∧ m₀.Binds 110 "a" ⟨2, "H"⟩ ∧
      m₁.state.store.Shields 110 "a" ⟨2, "H"⟩ := by
  have hbound : boundUnderSecret 110 "a" parameterMoments = true := by
    rw [parameterMoments, parameterScript, ← String.ofList_append, evaluate_ofList]
    decide +kernel
  obtain ⟨before, m₀, between, m₁, hms, hbinds, hhouses, hspared⟩ :=
    exists_of_boundUnderSecret hbound
  refine ⟨before, m₀, between, m₁, hms, hbinds, ?_⟩
  have hlent : Value.Lent (Grade.full (Session.fresh .standard).control.realm.lattice)
      (Session.fresh .standard).store ⟨.bool true, ⟨2, "H"⟩⟩ :=
    ⟨show Label.leq _ _ = true by decide +kernel, by decide, rfl, by rintro _ ⟨⟩⟩
  have hcourse : Course .none (Session.fresh .standard) (Grade.full _) ([] ++
      (Session.setGlobal "secret" ⟨.bool true, ⟨2, "H"⟩⟩).momentsOn .none 0 0 [] _ ++
        parameterMoments) _ :=
    .deed 50 50 (.global "secret" 0 0 .start hlent)
      (.evaluate _ _ _ fun _ _ node _ => Grade.allows_full node)
  rw [hms, ← List.append_assoc] at hcourse
  exact bindings_keep_classification Hosts.modest_none hcourse hbinds hhouses hspared

end Clearance
