/-
# Constants

A constant is bound when an activation is entered, as a property of the store of its frame that
cannot be deleted. When its initialiser has run, the property holds its value and is read-only. What
cannot be deleted lasts, so from then on the binding holds this value, unless the name is declared
in this store as a function (`constants_last`). Declaring it as a variable changes nothing, and
declaring it as a constant is refused.
-/
import Clearance.Proofs.Agreement
import Clearance.Proofs.Instance
import Clearance.Proofs.Location
import Clearance.Proofs.Run
import Clearance.Proofs.Retention
import Clearance.Proofs.Write

namespace Clearance

open Clearance.Action Script

/-! ## The life of a constant -/

/-- Declarations of the current activation are made in a store. -/
def State.DeclaresIn (s : State) (id : Nat) : Prop :=
  ((s.store.frames.get s.control.scope).store (Frame.sideAt s.control.pc)).id = id

/-- An activation of global code or of a function binds a constant in a store, which is that of a
function or the global object. -/
inductive BindsConstant (hosts : Hosts) (global id : Nat) (name : String) : List Moment → Prop
  | intro {body : List (Stmt Span)} {rounds levels : Nat} {cs : List Control} {s t : State} :
      (instantiate body).run (machine hosts rounds levels) rounds s = .done () t →
      s.control.kind ≠ .eval → ⟨name, true⟩ ∈ hoistedVars body → s.DeclaresIn id →
      ((s.store.heap.get id).cls = "Activation" ∨ id = global) →
      BindsConstant hosts global id name ((instantiate body).momentsOn hosts rounds levels cs s)

/-- The initialiser of a constant has given a value, which is stored, for the first time. -/
inductive InitialisesConstant (hosts : Hosts) (id : Nat) (name : String) (r : Rated) :
    List Moment → Prop
  | intro {store : Ref} {line rounds levels : Nat} {cs : List Control} {s t : State} :
      (declareAt line .constant ⟨some store, name⟩ r).run (machine hosts rounds levels) rounds s =
        .done () t → store.id = id →
      (∀ q, Slots.find? name (s.store.heap.get id).slots = some q → q.readOnly = false) →
      InitialisesConstant hosts id name r
        ((declareAt line .constant ⟨some store, name⟩ r).momentsOn hosts rounds levels cs s)

/-- The initialised value is read, with at least its label. -/
def Outcome.Reads (o : Outcome Rated) (r : Rated) : Prop :=
  ∃ v t, o = .done v t ∧ v.raw = r.raw ∧ r.label.leq v.label = true

/-- The run fails, as one of the constants that it declares has been declared before. -/
def Outcome.Redeclares (o : Outcome Unit) (vs : List HoistedVar) : Prop :=
  ∃ w t, ⟨w, true⟩ ∈ vs ∧ o = .failed (.fault "TypeError" ("redeclaration of const " ++ w)) t

lemma Outcome.Redeclares.cons {o : Outcome Unit} {vs : List HoistedVar} (h : o.Redeclares vs)
    (v : HoistedVar) : o.Redeclares (v :: vs) := by
  obtain ⟨w, t, hw, ho⟩ := h
  exact ⟨w, t, List.mem_cons_of_mem _ hw, ho⟩

/-- What a store has under a name is a constant with a value: whoever reads the binding gets the
value, and no declaration of a variable or a constant makes another binding of it. -/
structure Store.HasConstant (s : Store) (id : Nat) (name : String) (r : Rated) : Prop where
  place : ∀ (S : Ref) (k : Label) (serve : Service) (fuel : Nat) (c : Control), S.id = id →
    ((Operand.place ⟨some S, name⟩ k).resolve.run serve fuel ⟨c, s⟩).Reads r
  ident : ∀ (i : Ident Span) (serve : Service) (fuel : Nat) (c : Control), i.name = name →
    State.Resolves ⟨c, s⟩ name id →
      ((valueOf (Expr.ident i).action).run serve fuel ⟨c, s⟩).Reads r
  declared : ∀ (body : List (Stmt Span)) (serve : Service) (fuel : Nat) (c : Control),
    State.DeclaresIn ⟨c, s⟩ id → (∀ fn ∈ hoistedFunctions body, fn.name ≠ name) →
      Slots.find? name (((instantiate body).run serve fuel ⟨c, s⟩).state.store.heap.get id).slots =
        Slots.find? name (s.heap.get id).slots
  redeclared : ∀ (body : List (Stmt Span)) (serve : Service) (fuel : Nat) (c : Control),
    State.DeclaresIn ⟨c, s⟩ id → ⟨name, true⟩ ∈ hoistedVars body →
      ((instantiate body).run serve fuel ⟨c, s⟩).Redeclares (hoistedVars body)

/-- A property that holds the value of a constant. -/
structure Property.Constant (q : Property) (r : Rated) : Prop where
  permanent : q.permanent = true
  data : q.isAccessor = false
  readOnly : q.readOnly = true
  raw : q.value.raw = r.raw
  label : r.label.leq q.value.label = true

/-- A data property that cannot be deleted, as declarations of programs and functions bind it. -/
structure Property.Bound (q : Property) : Prop where
  permanent : q.permanent = true
  data : q.isAccessor = false

lemma Property.Bound.of_lasts {q q' : Property} (h : q.Bound) (hlasts : q.Lasts q') : q'.Bound :=
  ⟨hlasts.permanent, hlasts.accessor.trans h.data⟩

lemma Property.Constant.of_lasts {q q' : Property} {r : Rated} (h : q.Constant r)
    (hlasts : q.Lasts q') : q'.Constant r := by
  obtain rfl := hlasts.fixed h.readOnly
  exact h

/-! ## Initialisers -/

section

variable {serve : Service} {fuel : Nat} {s t : State} {name : String}

/-- An assignment that is done stores the value in a binding. -/
lemma assign_bound {line : Nat} {S : Ref} {chosen : Label} {r : Rated} {declare : Bool}
    {q : Property}
    {a : Value} (hrun : (assign line ⟨some S, name⟩ chosen r declare).run serve fuel s = .done a t)
    (hq : Slots.find? name (s.store.heap.get S.id).slots = some q) (hbound : q.Bound)
    (hfree : q.readOnly = false) (hcls : (s.store.heap.get S.id).cls ≠ "Array") :
    ∃ v : Value, v.raw = r.raw ∧ r.label.leq v.label = true ∧
      t.store.heap = s.store.heap.update S.id (·.define name { q with value := v }) := by
  rcases run_assign line ⟨some S, name⟩ chosen r declare s with ⟨⟨v, e, hfailed⟩, -⟩ | ⟨u, hpass⟩
  · rw [hfailed] at hrun
    cases hrun
  rw [hpass.run] at hrun
  obtain ⟨_, _, hwrite, ⟨⟩⟩ := run_bind_done.1 hrun
  refine ⟨(Place.locationIn ⟨some S, name⟩ s).stored s.control.pc chosen r,
    Location.stored_raw .., Location.label_leq_stored .., ?_⟩
  rw [Place.run_write, run_putProperty_slot (by rw [hpass.heap]; exact hq) hbound.data hfree,
    hpass.heap, if_neg fun h => hcls h.1] at hwrite
  cases hwrite
  dsimp only
  rw [hpass.heap]
  rfl

/-- A declaration with an initialiser makes a constant of a binding. -/
lemma constant_of_declareAt {line : Nat} {S : Ref} {r : Rated} {q : Property}
    (hrun : (declareAt line .constant ⟨some S, name⟩ r).run serve fuel s = .done () t)
    (hq : Slots.find? name (s.store.heap.get S.id).slots = some q) (hbound : q.Bound)
    (hfree : q.readOnly = false) (hcls : (s.store.heap.get S.id).cls ≠ "Array") :
    ∃ q', Slots.find? name (t.store.heap.get S.id).slots = some q' ∧ q'.Constant r := by
  have hlt := Heap.lt_of_find? hq
  rw [declareAt] at hrun
  obtain ⟨_, u, hassign, hfreeze⟩ := run_bind_done.1 hrun
  obtain ⟨v, hraw, hlabel, hheap⟩ := assign_bound hassign hq hbound hfree hcls
  have hslot : Slots.find? name (u.store.heap.get S.id).slots = some { q with value := v } := by
    rw [hheap, Heap.get_update_self hlt]
    exact (Slots.find?_put ..).trans (if_pos rfl)
  refine ⟨{ q with value := v, readOnly := true }, ?_, hbound.permanent, hbound.data, rfl, hraw,
    hlabel⟩
  simp only [if_true, freeze, run_change] at hfreeze
  cases hfreeze
  dsimp only
  rw [Heap.get_update_self (Heap.lt_of_find? hslot), Object.own?_of_find? hslot]
  exact (Slots.find?_put ..).trans (if_pos rfl)

/-! ## Declarations -/

variable {id : Nat}

/-- Declarations in a store leave alone what they do not bind, and take no name away. -/
structure State.Declares (id : Nat) (bound : String → Prop) (s t : State) : Prop where
  control : t.control = s.control
  declaresIn : t.DeclaresIn id
  size : s.store.heap.size ≤ t.store.heap.size
  unbound : ∀ n, ¬bound n → Slots.find? n (t.store.heap.get id).slots =
    Slots.find? n (s.store.heap.get id).slots
  present : ∀ n q, Slots.find? n (s.store.heap.get id).slots = some q →
    ∃ q', Slots.find? n (t.store.heap.get id).slots = some q'

namespace State.Declares

variable {bound bound' : String → Prop} {u : State}

lemma refl (h : s.DeclaresIn id) : s.Declares id bound s :=
  ⟨rfl, h, Nat.le_refl _, fun _ _ => rfl, fun _ q hq => ⟨q, hq⟩⟩

lemma trans (h : s.Declares id bound t) (h' : t.Declares id bound u) : s.Declares id bound u := by
  refine ⟨h'.control.trans h.control, h'.declaresIn, Nat.le_trans h.size h'.size,
    fun n hn => (h'.unbound n hn).trans (h.unbound n hn), fun n q hq => ?_⟩
  obtain ⟨q', hq'⟩ := h.present n q hq
  exact h'.present n q' hq'

lemma mono (h : s.Declares id bound t) (hbound : ∀ n, bound n → bound' n) :
    s.Declares id bound' t :=
  { h with unbound := fun n hn => h.unbound n fun hb => hn (hbound n hb) }

end State.Declares

/-- A declaration binds its name. -/
lemma done_define (serve : Service) (fuel : Nat) (h : s.DeclaresIn id)
    (hlt : id < s.store.heap.size) (n : String) (p : Property) : ∃ t,
      (define n p).run serve fuel s = .done () t ∧ s.Declares id (· = n) t ∧
      ∃ v, Slots.find? n (t.store.heap.get id).slots = some { p with value := v } := by
  obtain ⟨v, hv⟩ : ∃ v, (if (s.store.heap.get id).partition.less s.control.pc
      then { p with value := p.value.wrap s.control.pc } else p) = { p with value := v } := by
    split_ifs
    · exact ⟨_, rfl⟩
    · exact ⟨_, rfl⟩
  let t : State := ⟨s.control, (defineIn s.control.scope s.control.pc n p).step s.store⟩
  have hheap : t.store.heap = s.store.heap.update id (·.define n { p with value := v }) := by
    rw [← hv]
    exact heap_defineIn h
  have hget : t.store.heap.get id = (s.store.heap.get id).define n { p with value := v } := by
    rw [hheap, Heap.get_update_self hlt]
  have hlinks : ∀ m, (s.store.frames.get m).SameLinks (t.store.frames.get m) := by
    intro m
    show Frame.SameLinks _ (Frames.get (s.store.frames.setIfInBounds s.control.scope _) m)
    rw [Frames.get_set]
    split_ifs with hm
    · rw [hm.1]
      exact Frame.links_bind ..
    · exact .refl _
  have hslot : Slots.find? n (t.store.heap.get id).slots = some { p with value := v } := by
    rw [hget, Object.find?_define, if_pos rfl]
  refine ⟨t, rfl, ⟨rfl, ?_, ?_, fun m hm => ?_, fun m q hq => ?_⟩, v, hslot⟩
  · unfold State.DeclaresIn
    rw [(hlinks _).store]
    exact h
  · rw [hheap, Heap.size_update]
  · rw [hget, Object.find?_define_ne hm]
  · by_cases hm : m = n
    · exact ⟨_, hm ▸ hslot⟩
    · exact ⟨q, by rw [hget, Object.find?_define_ne hm, hq]⟩

/-- A new function binds nothing. -/
lemma done_newFunction (serve : Service) (fuel : Nat) (h : s.DeclaresIn id)
    (hlt : id < s.store.heap.size) (fn : Function Span) (scope : Nat) (k : Label) : ∃ f t,
      (newFunction fn scope k).run serve fuel s = .done f t ∧ s.Declares id (fun _ => False) t := by
  obtain ⟨f, t, hrun, hcontrol, hsize⟩ : ∃ f t,
      (newFunction fn scope k).run serve fuel s = .done f t ∧ t.control = s.control ∧
        s.store.heap.size ≤ t.store.heap.size := by
    simp only [newFunction, run_bind, run_realm, run_allocate, run_change, run_pure]
    refine ⟨_, _, rfl, rfl, ?_⟩
    simp only [Heap.size_update, Array.size_push]
    omega
  obtain ⟨hframes, hstays⟩ := Tidies.stays_of_newFunction hrun
  have hget := hstays id hlt
  refine ⟨f, t, hrun, hcontrol, ?_, hsize, fun n _ => by rw [hget],
    fun n q hq => ⟨q, by rw [hget, hq]⟩⟩
  unfold State.DeclaresIn
  rw [hframes, hcontrol]
  exact h

/-- The functions of a body are bound under their names, one after the other. -/
lemma done_bindFunctions (serve : Service) (fuel : Nat) (permanent : Bool)
    (fns : List (Function Span)) (h : s.DeclaresIn id) (hlt : id < s.store.heap.size) : ∃ t,
      (bindFunctions permanent fns).run serve fuel s = .done () t ∧
        s.Declares id (fun n => ∃ fn ∈ fns, fn.name = n) t := by
  induction fns generalizing s with
  | nil => exact ⟨s, rfl, .refl h⟩
  | cons fn fns ih =>
    obtain ⟨f, u, hfunction, hu⟩ := done_newFunction serve fuel h hlt fn s.control.scope
      s.control.pc
    obtain ⟨v, hdefine, hv, -⟩ := done_define serve fuel hu.declaresIn
      (Nat.lt_of_lt_of_le hlt hu.size) fn.name { Property.data (Raw.object f) with permanent }
    have hsv := (hu.mono fun _ => False.elim).trans hv
    obtain ⟨t, hrest, ht⟩ := ih hsv.declaresIn (Nat.lt_of_lt_of_le hlt hsv.size)
    refine ⟨t, ?_, .trans (hsv.mono ?_) (ht.mono ?_)⟩
    · simp only [bindFunctions, run_bind, run_current, hfunction, hdefine, hrest]
    · rintro n rfl
      exact ⟨fn, List.mem_cons_self, rfl⟩
    · rintro n ⟨fn', hfn', hn⟩
      exact ⟨fn', List.mem_cons_of_mem _ hfn', hn⟩

/-- How one variable is bound, after which the others are: not at all if its name is taken, and a
constant is refused then. -/
lemma bindVars_step (serve : Service) (fuel : Nat) (permanent : Bool) {S : Ref} (v : HoistedVar)
    (vs : List HoistedVar) (h : s.DeclaresIn S.id) (hlt : S.id < s.store.heap.size) :
    ((s.store.heap.get S.id).hasOwn v.name = true ∧ v.constant = true ∧
      (bindVars permanent S (v :: vs)).run serve fuel s =
        .failed (.fault "TypeError" ("redeclaration of const " ++ v.name)) s) ∨
    ((s.store.heap.get S.id).hasOwn v.name = true ∧ v.constant = false ∧
      (bindVars permanent S (v :: vs)).run serve fuel s =
        (bindVars permanent S vs).run serve fuel s) ∨
    ((s.store.heap.get S.id).hasOwn v.name = false ∧ ∃ t, s.Declares S.id (· = v.name) t ∧
      (∃ q, Slots.find? v.name (t.store.heap.get S.id).slots = some q ∧ q.isAccessor = false ∧
        q.permanent = permanent) ∧
      (bindVars permanent S (v :: vs)).run serve fuel s =
        (bindVars permanent S vs).run serve fuel t) := by
  obtain ⟨n, constant⟩ := v
  dsimp only
  cases htaken : (s.store.heap.get S.id).hasOwn n with
  | true =>
    cases constant with
    | true =>
      refine .inl ⟨rfl, rfl, ?_⟩
      simp only [bindVars, run_bind, run_object, htaken, Bool.and_self, if_true,
        typeError, run_fail]
    | false =>
      refine .inr (.inl ⟨rfl, rfl, ?_⟩)
      simp [bindVars, run_bind, htaken]
  | false =>
    obtain ⟨t, hdefine, ht, value, hslot⟩ := done_define serve fuel h hlt n
      { Property.data .undefined with permanent }
    refine .inr (.inr ⟨rfl, t, ht, ⟨_, hslot, rfl, rfl⟩, ?_⟩)
    simp [bindVars, run_bind, htaken, hdefine]

/-- Variables are not bound again, and constants cannot be. -/
lemma bindVars_of_slot (serve : Service) (fuel : Nat) (permanent : Bool) {S : Ref}
    (vs : List HoistedVar) (h : s.DeclaresIn S.id) {q : Property}
    (hq : Slots.find? name (s.store.heap.get S.id).slots = some q) :
    Slots.find? name (((bindVars permanent S vs).run serve fuel s).state.store.heap.get
      S.id).slots =
        some q ∧
      (⟨name, true⟩ ∈ vs → ((bindVars permanent S vs).run serve fuel s).Redeclares vs) := by
  induction vs generalizing s with
  | nil => exact ⟨hq, fun h => absurd h List.not_mem_nil⟩
  | cons v vs ih =>
    have hname : (s.store.heap.get S.id).hasOwn name = true := by
      rw [Object.hasOwn, Object.own?_of_find? hq]
      rfl
    rcases bindVars_step serve fuel permanent v vs h (Heap.lt_of_find? hq) with
      ⟨-, hconstant, hrun⟩ | ⟨-, hvariable, hrun⟩ | ⟨hfree, t, ht, -, hrun⟩
    · obtain ⟨n, constant⟩ := v
      obtain rfl : constant = true := hconstant
      rw [hrun]
      exact ⟨hq, fun _ => ⟨n, s, List.mem_cons_self, rfl⟩⟩
    · obtain ⟨hslot, hrefused⟩ := ih h hq
      rw [hrun]
      refine ⟨hslot, fun hmem => ?_⟩
      rcases List.mem_cons.1 hmem with heq | hmem
      · rw [← heq] at hvariable
        cases hvariable
      · exact (hrefused hmem).cons v
    · have hne : name ≠ v.name := by
        rintro rfl
        rw [hname] at hfree
        cases hfree
      obtain ⟨hslot, hrefused⟩ := ih ht.declaresIn ((ht.unbound name hne).trans hq)
      rw [hrun]
      refine ⟨hslot, fun hmem => ?_⟩
      rcases List.mem_cons.1 hmem with heq | hmem
      · rw [← heq] at hne
        exact absurd rfl hne
      · exact (hrefused hmem).cons v

/-- A constant that is bound with the others is bound for good. -/
lemma bound_of_bindVars {S : Ref} {vs : List HoistedVar} (h : s.DeclaresIn S.id)
    (hlt : S.id < s.store.heap.size) (hmem : ⟨name, true⟩ ∈ vs)
    (hrun : (bindVars true S vs).run serve fuel s = .done () t) :
    ∃ q, Slots.find? name (t.store.heap.get S.id).slots = some q ∧ q.Bound := by
  induction vs generalizing s with
  | nil => cases hmem
  | cons v vs ih =>
    rcases bindVars_step serve fuel true v vs h hlt with
      ⟨-, -, hstep⟩ | ⟨-, hvariable, hstep⟩ | ⟨-, u, hu, ⟨q, hq, hdata, hpermanent⟩, hstep⟩
    · rw [hstep] at hrun
      cases hrun
    · rw [hstep] at hrun
      rcases List.mem_cons.1 hmem with heq | hmem
      · rw [← heq] at hvariable
        cases hvariable
      · exact ih h hlt hmem hrun
    · rw [hstep] at hrun
      rcases List.mem_cons.1 hmem with heq | hmem
      · subst heq
        have hkept := (bindVars_of_slot serve fuel true vs hu.declaresIn hq).1
        rw [hrun] at hkept
        exact ⟨q, hkept, hpermanent, hdata⟩
      · exact ih hu.declaresIn (Nat.lt_of_lt_of_le hlt hu.size) hmem hrun

/-- The functions are bound first, then the variables, in the same store. -/
lemma run_instantiate_eq (serve : Service) (fuel : Nat) (body : List (Stmt Span))
    (h : s.DeclaresIn id) (hlt : id < s.store.heap.size) : ∃ t S, S.id = id ∧
      s.Declares id (fun n => ∃ fn ∈ hoistedFunctions body, fn.name = n) t ∧
      (instantiate body).run serve fuel s =
        (bindVars (s.control.kind ≠ .eval) S (hoistedVars body)).run serve fuel t := by
  obtain ⟨t, hrun, ht⟩ := done_bindFunctions serve fuel
    (decide (s.control.kind ≠ .eval)) (hoistedFunctions body) h hlt
  have hdeclares := ht.declaresIn
  unfold State.DeclaresIn at hdeclares
  rw [ht.control] at hdeclares
  refine ⟨t, _, hdeclares, ht, ?_⟩
  simp only [instantiate, run_bind, run_current, hrun, run_look]

/-- An activation of global code or of a function binds its constants for good. -/
lemma bound_of_instantiate {body : List (Stmt Span)} (h : s.DeclaresIn id)
    (hlt : id < s.store.heap.size) (hkind : s.control.kind ≠ .eval)
    (hmem : ⟨name, true⟩ ∈ hoistedVars body)
    (hrun : (instantiate body).run serve fuel s = .done () t) :
    ∃ q, Slots.find? name (t.store.heap.get id).slots = some q ∧ q.Bound := by
  obtain ⟨u, S, rfl, hu, heq⟩ := run_instantiate_eq serve fuel body h hlt
  rw [heq, decide_eq_true hkind] at hrun
  exact bound_of_bindVars hu.declaresIn (Nat.lt_of_lt_of_le hlt hu.size) hmem hrun

end

/-! ## What a constant is worth -/

/-- A property that holds the value of a constant makes the binding a constant. -/
lemma Property.Constant.hasConstant {s : Store} {id : Nat} {name : String} {r : Rated}
    {q : Property}
    (hq : Slots.find? name (s.heap.get id).slots = some q) (h : q.Constant r) :
    s.HasConstant id name r := by
  have hread : ∀ (s : State) (S : Ref) (k : Label) (serve : Service) (fuel : Nat), S.id = id →
      Slots.find? name (s.store.heap.get id).slots = some q →
      ((Operand.place ⟨some S, name⟩ k).resolve.run serve fuel s).Reads r := by
    rintro s S k serve fuel rfl hq
    simp only [Operand.resolve, Place.cell, Place.partition, run_bind,
      run_getProperty_slot hq h.data, run_pure, run_object]
    refine ⟨_, _, rfl, h.raw, ?_⟩
    have := Label.leq_iff.1 h.label
    rw [Label.leq_iff]
    simp only [Label.height_join]
    omega
  have hlt := Heap.lt_of_find? hq
  refine ⟨fun S k serve fuel c hS => hread _ S k serve fuel hS hq,
    fun i serve fuel c hi hresolves => ?_, fun body serve fuel c hdeclares hfree => ?_,
    fun body serve fuel c hdeclares hmem => ?_⟩
  · obtain ⟨S, frames, hS, hrun⟩ := run_valueOf_ident serve fuel hi hresolves
    rw [hrun]
    exact hread _ S .none serve fuel hS hq
  · obtain ⟨t, S, rfl, ht, hrun⟩ := run_instantiate_eq serve fuel body hdeclares hlt
    have hkept := ht.unbound name (by rintro ⟨fn, hfn, hname⟩; exact hfree fn hfn hname)
    rw [hrun, (bindVars_of_slot serve fuel _ _ ht.declaresIn (hkept.trans hq)).1, hq]
  · obtain ⟨t, S, rfl, ht, hrun⟩ := run_instantiate_eq serve fuel body hdeclares hlt
    obtain ⟨q', hq'⟩ := ht.present name q hq
    rw [hrun]
    exact (bindVars_of_slot serve fuel _ _ ht.declaresIn hq').2 hmem

/-! ## Runs -/

/-- The store in which the first of the moments starts, or in which they end. -/
def reached (ms : List Moment) (s : State) : Store :=
  match ms with
  | [] => s.store
  | m :: _ => m.state.store

lemma Trail.same_reached {s : Store} {ms : List Moment} {t : State} (h : Trail s ms t.store) :
    s.Same (reached ms t) := by
  cases ms with
  | nil => exact h
  | cons m ms => exact h.1

/-- The global object of a fresh session is no array. -/
lemma Library.Untouched.global_object {s : State} (h : Library.Untouched s) :
    s.control.realm.global < s.store.heap.size ∧
      (s.store.heap.get s.control.realm.global).cls ≠ "Array" := by
  have hlt := Nat.lt_of_lt_of_le (by decide : 7 < 9) h.stock.nine
  rw [h.global]
  exact ⟨hlt, (h.stock.object 7 hlt (by decide)).ordinary.2⟩

section

variable {hosts : Hosts} {s₀ t u : Store} {part : List Moment} {global id : Nat} {name : String}

/-- Where a constant has been bound, there is a binding. -/
lemma BindsConstant.bound (h : BindsConstant hosts global id name part) (htrail : Trail t part u)
    (ht : s₀.Precedes t) (hglobal : global < s₀.heap.size ∧ (s₀.heap.get global).cls ≠ "Array") :
    s₀.Keeps id t ∧ ∃ q, Slots.find? name (u.heap.get id).slots = some q ∧ q.Bound := by
  obtain ⟨hdone, hkind, hmem, hdeclares, hhouses⟩ := h
  obtain ⟨hstart, hend⟩ := htrail.of_momentsOn
  have hkeeps : s₀.Keeps id t := by
    refine ⟨ht, hhouses.imp (fun hcls => ?_) ?_⟩
    · rw [← hstart.heap]
      exact hcls
    · rintro rfl
      exact hglobal
  obtain ⟨q, hq, hbound⟩ := bound_of_instantiate hdeclares
    (by rw [hstart.heap]; exact hkeeps.lt) hkind
    hmem hdone
  rw [hdone] at hend
  exact ⟨hkeeps, q, by rw [hend.heap]; exact hq, hbound⟩

/-- Where a binding has been initialised, it is a constant. -/
lemma InitialisesConstant.constant {r : Rated} (h : InitialisesConstant hosts id name r part)
    (htrail : Trail t part u) (ht : s₀.Keeps id t) {q : Property}
    (hq : Slots.find? name (t.heap.get id).slots = some q) (hbound : q.Bound) :
    ∃ q', Slots.find? name (u.heap.get id).slots = some q' ∧ q'.Constant r := by
  obtain ⟨hdone, rfl, hfree⟩ := h
  obtain ⟨hstart, hend⟩ := htrail.of_momentsOn
  rw [← hstart.heap] at hq
  obtain ⟨q', hq', hconstant⟩ := constant_of_declareAt hdone hq hbound (hfree q hq)
    (by rw [hstart.heap]; exact ht.not_array)
  rw [hdone] at hend
  exact ⟨q', by rw [hend.heap]; exact hq', hconstant⟩

end

/-- **Constants last.** However a host uses a fresh session: when global code or a function has
bound a constant, and its initialiser has run, the binding is a constant with the initialised value
at every later point, whatever runs meanwhile, as long as neither a function of that name is
declared in the same store nor the host sets the name (`Redeclares`). -/
theorem constants_last {hosts : Hosts} (hhosts : hosts.Lasting) {o : Library.Options}
    {g : Grade (Session.fresh o).control.realm.lattice}
    {before binding prior initialising between after : List Moment} {s : State}
    (h : Course hosts (Session.fresh o) g
      (before ++ binding ++ prior ++ initialising ++ between ++ after) s)
    {id : Nat} {name : String} {r : Rated}
    (hbinding : BindsConstant hosts (Session.fresh o).control.realm.global id name binding)
    (hinitialising : InitialisesConstant hosts id name r initialising)
    (hleaves : ∀ m ∈ prior ++ between, m.Leaves id name) :
    (reached after s).HasConstant id name r := by
  obtain ⟨t₅, ht₅, hafter⟩ := h.trail.of_append
  obtain ⟨t₄, ht₄, hbetween⟩ := ht₅.of_append
  obtain ⟨t₃, ht₃, hinit⟩ := ht₄.of_append
  obtain ⟨t₂, ht₂, hprior⟩ := ht₃.of_append
  obtain ⟨t₁, hbefore, hbind⟩ := ht₂.of_append
  have h₁ := h.precedes hhosts (fun _ hm => by simp [hm]) hbefore
  have h₂ := h.precedes hhosts (fun _ hm => by simp [hm]) hbind
  have h₃ := h.precedes hhosts (fun _ hm => by simp [hm]) hprior
  have h₄ := h.precedes hhosts (fun _ hm => by simp [hm]) hinit
  rw [List.forall_mem_append] at hleaves
  -- the constant is bound
  obtain ⟨hkeeps, q, hq, hbound⟩ :=
    hbinding.bound hbind h₁ (Session.untouched_fresh o).global_object
  -- it is still there when its initialiser runs
  obtain ⟨q', hq', hlasts⟩ := h.lasts hhosts (fun _ hm => by simp [hm]) hprior (hkeeps.trans h₂)
    hleaves.1 hq hbound.permanent
  obtain ⟨q'', hq'', hconstant⟩ := hinitialising.constant hinit ((hkeeps.trans h₂).trans h₃) hq'
    (hbound.of_lasts hlasts)
  -- and it stays as it is from then on
  obtain ⟨p, hp, hlasts'⟩ := h.lasts hhosts (fun _ hm => by simp [hm]) hbetween
    (((hkeeps.trans h₂).trans h₃).trans h₄) hleaves.2 hq'' hconstant.permanent
  refine (hconstant.of_lasts hlasts').hasConstant ?_
  rw [hafter.same_reached.heap]
  exact hp

/-! ## Scripts that declare a constant -/

section

variable {serve : Service} {chronicle : Chronicle} {fuel : Nat} {s : State}

/-- The body of a script is run in the course of the script. -/
lemma infix_runTree (body : List (Stmt Span)) (cs : List Control) (s : State) :
    (runBody body).moments serve chronicle fuel (s.control.entry s.control.file :: cs)
      (s.entered s.control.file) <:+: (Session.runTree body).moments serve chronicle fuel cs s := by
  refine .trans ?_ (infix_moments_rest (run_current s) _ _)
  refine .trans ?_ (infix_moments_rest (run_current s) _ _)
  refine .trans ?_ (infix_moments_first _ _ _ _)
  exact List.infix_cons List.infix_rfl

/-- A declaration of one variable with an initialiser. -/
lemma infix_initialise (cs : List Control) {kind : VarKind} {i : Initialiser}
    {rest : List Initialiser} {place : Place} {r : Rated} {t u : State}
    (hplace : (placeOf i.name).run serve fuel s = .done place t)
    (hvalue : (valueOf i.value).run serve fuel t = .done r u) :
    (declareAt i.line kind place r).moments serve chronicle fuel cs u <:+:
      (initialise kind (i :: rest)).moments serve chronicle fuel cs s := by
  refine .trans ?_ (infix_moments_first _ _ _ _)
  refine .trans ?_ (List.infix_cons List.infix_rfl)
  refine .trans ?_ (infix_moments_rest hplace _ _)
  exact infix_moments_rest hvalue _ _

/-- A body that begins with a declaration: what it declares is bound, and then initialised. -/
lemma moments_runBody (chronicle : Chronicle) (cs : List Control) {body : List (Stmt Span)}
    {kind : VarKind} {i : Initialiser} {is : List Initialiser} {rest : List (Action Completion)}
    {place : Place} {r : Rated} {t u v : State}
    (hbody : stmtActions body = initialise kind (i :: is) :: rest)
    (hbind : (instantiate body).run serve fuel s = .done () t)
    (hplace : (placeOf i.name).run serve fuel t = .done place u)
    (hvalue : (valueOf i.value).run serve fuel u = .done r v) :
    ∃ before prior after, (runBody body).moments serve chronicle fuel cs s =
      before ++ (instantiate body).moments serve chronicle fuel cs s ++ prior ++
        (declareAt i.line kind place r).moments serve chronicle fuel cs v ++ after := by
  have hattempt : (attempt (instantiate body)).run serve fuel s = .done (.ok ()) t := by
    rw [run_attempt, hbind]
  have hinit : (declareAt i.line kind place r).moments serve chronicle fuel cs v <:+:
      (inOrder (stmtActions body)).moments serve chronicle fuel cs t := by
    rw [hbody]
    exact .trans (infix_initialise cs hplace hvalue) (infix_moments_first _ _ _ _)
  rw [runBody, guarded, moments_bind, hattempt]
  dsimp only
  obtain ⟨b, c, hrest⟩ := hinit.trans (infix_moments_first _ _ _ _)
  rw [← hrest, moments]
  have hsplit : ∀ (m m' : Moment) (binding initialising : List Moment),
      m :: (m' :: binding ++ (b ++ initialising ++ c)) =
        [m, m'] ++ binding ++ b ++ initialising ++ c := by simp
  exact ⟨_, b, c, hsplit _ _ _ _⟩

end

/-! ## A constant that a script assigns to -/

/-- Declares a constant. -/
def constantBody : List (Stmt Span) :=
  [.declare .unknown .constant [.mk .unknown ⟨.unknown, "K"⟩ (some (.bool .unknown true))]]

/-- Declares the same name as a variable, and assigns to it. -/
def assigningBody : List (Stmt Span) :=
  [.declare .unknown .mutable [.mk .unknown ⟨.unknown, "K"⟩ (some (.bool .unknown false))]]

/-- A session that has a constant. -/
def constantSession : State :=
  ((Session.runTree constantBody).run (machine .none 50 50) 50 (Session.fresh .standard)).state

/-- The session when another script has assigned to the constant. -/
def assignedSession : State :=
  ((Session.runTree assigningBody).run (machine .none 50 50) 50 constantSession).state

/-- All that happens in it. -/
def assignedMoments : List Moment :=
  (Session.runTree constantBody).momentsOn .none 50 50 [] (Session.fresh .standard) ++
    (Session.runTree assigningBody).momentsOn .none 50 50 [] constantSession

/-- Both are absent, both are undefined, or both hold the same truth value in the same way. -/
def Property.alike : Option Property → Option Property → Bool
  | none, none => true
  | some ⟨⟨.undefined, k⟩, .absent, .absent, hidden, readOnly, permanent⟩,
    some ⟨⟨.undefined, k'⟩, .absent, .absent, hidden', readOnly', permanent'⟩ =>
      k == k' && hidden == hidden' && readOnly == readOnly' && permanent == permanent'
  | p, q => sameFlag p q

lemma Property.eq_of_alike {p q : Option Property} (h : alike p q = true) : p = q := by
  unfold alike at h
  split at h
  · rfl
  · simp only [Bool.and_eq_true, beq_iff_eq] at h
    obtain ⟨⟨⟨rfl, rfl⟩, rfl⟩, rfl⟩ := h
    rfl
  · exact (eq_of_sameFlag h).1

/-- The moment changes what is bound to a name. -/
def Moment.changes (id : Nat) (name : String) (m : Moment) : Bool :=
  !Property.alike (Slots.find? name (m.next.heap.get id).slots)
    (Slots.find? name (m.state.store.heap.get id).slots)

lemma Moment.leaves_of_not_changes {id : Nat} {name : String} {m : Moment}
    (h : ¬m.changes id name = true) : m.Leaves id name := by
  intro _
  refine Property.eq_of_alike ?_
  unfold changes at h
  simpa using h

/-- The run ends with the value. -/
def Outcome.gives {α : Type} [DecidableEq α] (o : Outcome α) (a : α) : Bool :=
  match o with
  | .done b _ => b = a
  | _ => false

lemma Outcome.eq_of_gives {α : Type} [DecidableEq α] {o : Outcome α} {a : α}
    (h : o.gives a = true) : o = .done a o.state := by
  unfold gives at h
  split at h
  · rw [of_decide_eq_true h]
    rfl
  · cases h

/-- The script that declares the constant is entered. -/
def declaringState : State :=
  (Session.fresh .standard).entered (Session.fresh .standard).control.file

/-- The constant is bound. -/
def boundState : State :=
  ((instantiate constantBody).run (machine .none 50 50) 50 declaringState).state

/-- The constant is looked up for its initialiser. -/
def placedState : State := ((placeOf "K").run (machine .none 50 50) 50 boundState).state

/-- What happens while the constant is bound. -/
def bindingMoments : List Moment :=
  (instantiate constantBody).momentsOn .none 50 50 [declaringState.control] declaringState

/-- What happens while the constant is initialised. -/
def initialisingMoments : List Moment :=
  (declareAt 0 .constant ⟨some ⟨7, .plain⟩, "K"⟩ ⟨.bool true, .none⟩).momentsOn .none 50 50
    [declaringState.control] placedState

set_option maxRecDepth 100000 in
/-- How each step of the script ends, and how many moments change the constant. -/
lemma steps_assigned :
    (((instantiate constantBody).run (machine .none 50 50) 50 declaringState).gives () = true ∧
      ((declaringState.store.frames.get declaringState.control.scope).store
        (Frame.sideAt declaringState.control.pc)).id = 7) ∧
    ((placeOf "K").run (machine .none 50 50) 50 boundState).gives ⟨some ⟨7, .plain⟩, "K"⟩ = true ∧
    (((declareAt 0 .constant ⟨some ⟨7, .plain⟩, "K"⟩ ⟨.bool true, .none⟩).run
      (machine .none 50 50) 50
        placedState).gives () = true ∧
      (Slots.find? "K" (placedState.store.heap.get 7).slots).all (!·.readOnly) = true) ∧
    assignedMoments.countP (Moment.changes 7 "K") = 3 ∧
    bindingMoments.countP (Moment.changes 7 "K") = 1 ∧
    initialisingMoments.countP (Moment.changes 7 "K") = 2 := by
  -- in one evaluation, as all of this is about one run
  decide +kernel

lemma run_instantiate_constantBody : (instantiate constantBody).run (machine .none 50 50) 50
    declaringState = .done () boundState :=
  Outcome.eq_of_gives steps_assigned.1.1

lemma bindsConstant_bindingMoments :
    BindsConstant .none (Session.fresh .standard).control.realm.global 7 "K" bindingMoments :=
  .intro run_instantiate_constantBody (by decide) (by decide) steps_assigned.1.2
    (.inr (Session.untouched_fresh .standard).global.symm)

lemma initialisesConstant_initialisingMoments :
    InitialisesConstant .none 7 "K" ⟨.bool true, .none⟩ initialisingMoments := by
  obtain ⟨-, -, ⟨hgives, hfree⟩, -⟩ := steps_assigned
  refine .intro (Outcome.eq_of_gives hgives) rfl fun q hq => ?_
  rw [hq] at hfree
  simpa using hfree

/-- The script binds the constant, and then initialises it. -/
lemma exists_assignedMoments : ∃ before prior between,
    assignedMoments = before ++ bindingMoments ++ prior ++ initialisingMoments ++ between := by
  have hplace : (placeOf "K").run (machine .none 50 50) 50 boundState =
      .done ⟨some ⟨7, .plain⟩, "K"⟩ placedState :=
    Outcome.eq_of_gives steps_assigned.2.1
  have hvalue : ∀ s, (valueOf (Expr.bool Span.unknown true).action).run (machine .none 50 50) 50 s =
      .done ⟨.bool true, .none⟩ s := fun _ => rfl
  have hstatements : stmtActions constantBody =
      [initialise .constant [⟨0, "K", (Expr.bool Span.unknown true).action⟩]] := rfl
  obtain ⟨a, prior, c, hbody⟩ := moments_runBody (machineChronicle .none 50 50)
    [declaringState.control] hstatements run_instantiate_constantBody hplace (hvalue placedState)
  obtain ⟨before, after, hscript⟩ :
      (runBody constantBody).momentsOn .none 50 50 [declaringState.control] declaringState <:+:
        (Session.runTree constantBody).momentsOn .none 50 50 [] (Session.fresh .standard) :=
    infix_runTree constantBody _ _
  refine ⟨before ++ a, prior,
    c ++ after ++ (Session.runTree assigningBody).momentsOn .none 50 50 [] constantSession, ?_⟩
  rw [assignedMoments, ← hscript, momentsOn, hbody, bindingMoments, initialisingMoments]
  simp only [momentsOn, List.append_assoc]

/-- The constant has its value when the other script has run. -/
theorem constants_last_when_assigned :
    assignedSession.store.HasConstant 7 "K" ⟨.bool true, .none⟩ := by
  have hcourse : Course .none (Session.fresh .standard) (Grade.full _) ([] ++ _ ++ _)
      assignedSession :=
    .deed 50 50 (.deed 50 50 .start (.runTree constantBody trivial fun node _ =>
      Grade.allows_full node))
      (.runTree assigningBody trivial fun node _ => Grade.allows_full node)
  obtain ⟨before, prior, between, hms⟩ := exists_assignedMoments
  -- one moment binds the constant, two initialise it, and no other one changes it
  obtain ⟨-, -, -, hcount, hbinding, hinitialising⟩ := steps_assigned
  rw [hms] at hcount
  simp only [List.countP_append, hbinding, hinitialising] at hcount
  have hleaves : ∀ m ∈ prior ++ between, m.Leaves 7 "K" := by
    intro m hm
    have hnone : (prior ++ between).countP (Moment.changes 7 "K") = 0 := by
      rw [List.countP_append]
      omega
    exact Moment.leaves_of_not_changes (List.countP_eq_zero.1 hnone m hm)
  rw [List.nil_append] at hcourse
  have hsplit : Course .none (Session.fresh .standard) (Grade.full _)
      (before ++ bindingMoments ++ prior ++ initialisingMoments ++ between ++ [])
      assignedSession := by
    rw [List.append_nil, ← hms]
    exact hcourse
  exact constants_last lasting_none hsplit bindsConstant_bindingMoments
    initialisesConstant_initialisingMoments hleaves

set_option maxRecDepth 100000 in
/-- A function of the same name takes the place of the constant. -/
theorem function_replaces_constant :
    ((evaluate "K === true" "" 1).run (machine .none 50 50) 50 constantSession).isTrue = true ∧
    ((evaluate "function K() \x7b\x7d typeof K === 'function'" "" 1).run (machine .none 50 50) 50
      constantSession).isTrue = true := by
  rw [evaluate_ofList, evaluate_ofList]
  decide +kernel

end Clearance
