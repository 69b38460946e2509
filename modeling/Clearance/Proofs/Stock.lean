/-
# What a fresh session consists of

Whatever the library installs is plain: ordinary objects without labels, whose prototypes were there
before, whose functions are built in, and whose properties hold primitive values or refer to objects
that are there. The one exception is the store for classified globals, which is empty. This is said
of one step of an installation after the other.
-/
import Clearance.Proofs.Extent
import Clearance.Proofs.Fresh
import Clearance.Proofs.Paired.World

namespace Clearance

open Library

/-- A reference to an ordinary object of a fresh session. -/
structure Heap.Offers (h : Heap) (o : Ref) : Prop where
  lt : o.id < h.size
  ordinary : o.id ≠ 8
  suits : o.face.Suits (h.get o.id).behaviour

lemma Heap.Offers.mono {h h' : Heap} {o : Ref} (ho : h.Offers o) (hext : h.Extends h') :
    h'.Offers o := by
  refine ⟨Nat.lt_of_lt_of_le ho.lt hext.size, ho.ordinary, ?_⟩
  rw [(hext.shell _ ho.lt).behaviour]
  exact ho.suits

/-- A property that holds a primitive value or refers to an object that is there. -/
def Property.Stock (h : Heap) (p : Property) : Prop :=
  ∃ r hidden readOnly permanent, p = ⟨.plain r, .absent, .absent, hidden, readOnly, permanent⟩ ∧
    (r.isPrimitive = true ∨ ∃ o, r = .object o ∧ h.Offers o)

/-- An object as the library installs it under a number. -/
structure Object.Stock (l : Lattice) (h : Heap) (id : Nat) (o : Object) : Prop where
  ordinary : o.cls ≠ "Activation" ∧ o.cls ≠ "Array"
  proto : ∀ q ∈ o.proto, q < id ∧ q ≠ 8
  partition : o.partition = .none ∨ o.partition = l.bottom
  primitive : o.primitive = none
  behaviour : o.behaviour = .none ∨ ∃ name arity fn ctor, o.behaviour = .native name arity fn ctor
  slots : ∀ slot ∈ o.slots, slot.2.Stock h

/-- A heap of a fresh session. -/
structure Heap.Stock (l : Lattice) (h : Heap) : Prop where
  nine : 9 ≤ h.size
  store : h.get 8 = .blank "Activation" none l.top
  object : ∀ id < h.size, id ≠ 8 → (h.get id).Stock l h id

variable {l : Lattice}

lemma Property.Stock.mono {h h' : Heap} {p : Property} (hp : p.Stock h) (hext : h.Extends h') :
    p.Stock h' := by
  obtain ⟨r, hidden, readOnly, permanent, rfl, hr⟩ := hp
  exact ⟨r, hidden, readOnly, permanent, rfl, hr.imp_right fun ⟨o, heq, ho⟩ =>
    ⟨o, heq, ho.mono hext⟩⟩

lemma Object.Stock.mono {h h' : Heap} {id : Nat} {o : Object} (ho : o.Stock l h id)
    (hext : h.Extends h') : o.Stock l h' id :=
  { ho with slots := fun slot hslot => (ho.slots slot hslot).mono hext }

lemma Object.Stock.define {h : Heap} {id : Nat} {o : Object} (ho : o.Stock l h id) {name : String}
    {p : Property} (hp : p.Stock h) : (o.define name p).Stock l h id := by
  refine { ho with slots := fun slot hslot => ?_ }
  rcases Slots.mem_put hslot with rfl | hold
  · exact hp
  · exact ho.slots slot hold

lemma Object.Stock.blank {h : Heap} {id : Nat} {cls : String} {proto : Option Nat} {k : Label}
    (hcls : cls ≠ "Activation" ∧ cls ≠ "Array") (hproto : ∀ q ∈ proto, q < id ∧ q ≠ 8)
    (hk : k = .none ∨ k = l.bottom) : (Object.blank cls proto k).Stock l h id :=
  ⟨hcls, hproto, hk, rfl, .inl rfl, List.forall_mem_nil _⟩

lemma Property.Stock.plain {h : Heap} {r : Raw} (hr : r.isPrimitive = true) (hidden : Bool)
    (readOnly permanent : Bool) :
    Property.Stock h ⟨.plain r, .absent, .absent, hidden, readOnly, permanent⟩ :=
  ⟨r, hidden, readOnly, permanent, rfl, .inl hr⟩

lemma Property.Stock.object {h : Heap} {o : Ref} (ho : h.Offers o) (hidden : Bool)
    (readOnly permanent : Bool) :
    Property.Stock h ⟨.plain (.object o), .absent, .absent, hidden, readOnly, permanent⟩ :=
  ⟨.object o, hidden, readOnly, permanent, rfl, .inr ⟨o, rfl, ho⟩⟩

namespace Library

variable {α β : Type}

/-- What a step of an installation leaves behind is as it should be, and what it gives. -/
def Build.Stocks (l : Lattice) (b : Build α) (h : Heap) (Q : α → Heap → Prop) : Prop :=
  (b.run h).2.Stock l ∧ h.Extends (b.run h).2 ∧ Q (b.run h).1 (b.run h).2

namespace Build.Stocks

variable {h : Heap} {Q : α → Heap → Prop}

lemma pure (hh : h.Stock l) {a : α} (ha : Q a h) : (Pure.pure a : Build α).Stocks l h Q :=
  ⟨hh, .refl h, ha⟩

lemma bind {b : Build β} {k : β → Build α} {R : β → Heap → Prop} (hb : b.Stocks l h R)
    (hk : ∀ x h', h'.Stock l → h.Extends h' → R x h' → (k x).Stocks l h' Q) :
    (b >>= k).Stocks l h Q := by
  obtain ⟨hh, hext, hR⟩ := hb
  obtain ⟨hh', hext', hQ⟩ := hk _ _ hh hext hR
  exact ⟨hh', hext.trans hext', hQ⟩

/-- A step that gives nothing of interest. -/
lemma seq {b : Build β} {k : β → Build α} (hb : b.Stocks l h fun _ _ => True)
    (hk : ∀ x h', h'.Stock l → h.Extends h' → (k x).Stocks l h' Q) : (b >>= k).Stocks l h Q :=
  bind hb fun x h' hh hext _ => hk x h' hh hext

lemma mono {b : Build α} {R : α → Heap → Prop} (hb : b.Stocks l h R)
    (hmono : ∀ x h', h'.Stock l → h.Extends h' → R x h' → Q x h') : b.Stocks l h Q := by
  obtain ⟨hh, hext, hR⟩ := hb
  exact ⟨hh, hext, hmono _ _ hh hext hR⟩

end Build.Stocks

/-- The object of a number is a new ordinary object with a behaviour. -/
def New (b : Behaviour) (n : Nat) (h : Heap) : Prop :=
  n < h.size ∧ n ≠ 8 ∧ (h.get n).behaviour = b

variable {h : Heap}

lemma stocks_add (hh : h.Stock l) {o : Object} (ho : o.Stock l h h.size) :
    (add o).Stocks l h (New o.behaviour) := by
  have hext := Heap.Extends.push h o
  have hnine := hh.nine
  refine ⟨⟨?_, ?_, fun id hid hne => ?_⟩, hext, ?_⟩
  · show 9 ≤ (h.push o).size
    simp
    omega
  · show Heap.get (h.push o) 8 = _
    rw [Heap.get_push_lt (by omega)]
    exact hh.store
  · show (Heap.get (h.push o) id).Stock l (h.push o) id
    by_cases hlast : id = h.size
    · rw [hlast, Heap.get_push_size]
      exact ho.mono hext
    · have hlt : id < (h.push o).size := hid
      rw [Array.size_push] at hlt
      rw [Heap.get_push_ne hlast]
      exact (hh.object id (by omega) hne).mono hext
  · refine ⟨?_, ?_, ?_⟩
    · show h.size < (h.push o).size
      simp
    · show h.size ≠ 8
      omega
    · show (Heap.get (h.push o) h.size).behaviour = _
      rw [Heap.get_push_size]

lemma stocks_put (hh : h.Stock l) {id : Nat} (hid : id ≠ 8) {name : String} {p : Property}
    (hp : p.Stock h) : (put id name p).Stocks l h fun _ _ => True := by
  have hext : h.Extends (h.update id (·.define name p)) := .update (Object.sameShell_define ..)
  refine ⟨⟨?_, ?_, fun j hj hne => ?_⟩, hext, trivial⟩
  · show 9 ≤ (h.update id _).size
    rw [Heap.size_update]
    exact hh.nine
  · show (h.update id _).get 8 = _
    rw [Heap.get_update_ne hid.symm]
    exact hh.store
  · have hlt : j < h.size := by
      rw [← Heap.size_update h id]
      exact hj
    show ((h.update id _).get j).Stock l _ j
    refine Object.Stock.mono ?_ hext
    rw [Heap.get_update]
    split_ifs with hjid
    · obtain ⟨rfl, -⟩ := hjid
      exact (hh.object _ hlt hne).define hp
    · exact hh.object j hlt hne

/-- The prototype of all functions is there. -/
lemma stock_native (hh : h.Stock l) (name : String) (arity : Nat) (fn ctor : Option Native) :
    (nativeObject 1 name arity fn ctor).Stock l h h.size := by
  have hblank : (Object.blank "Function" (some 1) .none).Stock l h h.size := by
    refine .blank (by decide) ?_ (.inl rfl)
    rintro _ ⟨⟩
    have := hh.nine
    omega
  have hnative : Object.Stock l h h.size
      { Object.blank "Function" (some 1) .none with behaviour := .native name arity fn ctor } :=
    { hblank with behaviour := .inr ⟨_, _, _, _, rfl⟩ }
  exact hnative.define (.plain (r := Raw.ofNat arity) rfl ..)

lemma stocks_methods (hh : h.Stock l) {id : Nat} (hid : id ≠ 8)
    (ms : List (String × Nat × Builtin)) : (methods 1 id ms).Stocks l h fun _ _ => True := by
  induction ms generalizing h with
  | nil => exact .pure hh trivial
  | cons m ms ih =>
    obtain ⟨name, arity, b⟩ := m
    refine .seq (.bind (stocks_add hh (stock_native hh ..)) fun f h' hh' _ hf => ?_)
      fun _ h' hh' _ => ih hh'
    obtain ⟨hlt, hne, hbehaviour⟩ := hf
    refine stocks_put hh' hid (.object ⟨hlt, hne, ?_⟩ ..)
    rw [hbehaviour]
    trivial

lemma stocks_constants (hh : h.Stock l) {id : Nat} (hid : id ≠ 8) (cs : List (String × Float)) :
    (constants id cs).Stocks l h fun _ _ => True := by
  induction cs generalizing h with
  | nil => exact .pure hh trivial
  | cons c cs ih =>
    obtain ⟨name, x⟩ := c
    exact .seq (stocks_put hh hid (.plain rfl ..)) fun _ h' hh' _ => ih hh'

/-- A number of an ordinary object. -/
def Old (n : Nat) (h : Heap) : Prop := n < h.size ∧ n ≠ 8

lemma Old.mono {n : Nat} {h' : Heap} (hn : Old n h) (hext : h.Extends h') : Old n h' :=
  ⟨Nat.lt_of_lt_of_le hn.1 hext.size, hn.2⟩

lemma stocks_constructor (hh : h.Stock l) {proto : Nat} (hproto : Old proto h) (name : String)
    (arity : Nat) (fn ctor : Builtin) :
    (constructor 1 7 name arity proto fn ctor).Stocks l h Old := by
  have hoffered : h.Offers ⟨proto, .plain⟩ := ⟨hproto.1, hproto.2, trivial⟩
  have hprototype : Property.Stock h (.constant (Raw.object ⟨proto, .plain⟩)) := .object hoffered ..
  refine .bind (stocks_add hh ((stock_native hh ..).define hprototype)) fun f h' hh' hext hf => ?_
  obtain ⟨hlt, hne, hbehaviour⟩ := hf
  have hoffers : h'.Offers ⟨f, .native⟩ := by
    refine ⟨hlt, hne, ?_⟩
    rw [hbehaviour]
    trivial
  refine .seq (stocks_put hh' hproto.2 (.object hoffers ..)) fun _ h₂ hh₂ hext₂ => ?_
  refine .seq (stocks_put hh₂ (by decide) (.object (hoffers.mono hext₂) ..))
    fun _ h₃ hh₃ hext₃ => ?_
  exact .pure hh₃ (Old.mono ⟨hlt, hne⟩ (hext₂.trans hext₃))

lemma stocks_errorClass (hh : h.Stock l) {parent : Nat} (hparent : Old parent h) (name : String) :
    (errorClass 1 7 parent name).Stocks l h fun r h' => Old r.2 h' := by
  have hblank : (Object.blank "Object" (some parent) .none).Stock l h h.size :=
    .blank (by decide) (by rintro _ ⟨⟩; exact hparent) (.inl rfl)
  refine .bind (stocks_add hh ((hblank.define (.plain rfl ..)).define (.plain rfl ..)))
    fun proto h' hh' _ hproto => ?_
  have hold : Old proto h' := ⟨hproto.1, hproto.2.1⟩
  exact .bind (stocks_constructor hh' hold ..) fun _ h₂ hh₂ hext₂ _ => .pure hh₂ (hold.mono hext₂)

lemma stocks_errorClasses (hh : h.Stock l) {parent : Nat} (hparent : Old parent h)
    (names : List String) : (errorClasses 1 7 parent names).Stocks l h
      fun rs h' => ∀ r ∈ rs, Old r.2 h' := by
  induction names generalizing h with
  | nil => exact .pure hh (List.forall_mem_nil _)
  | cons name names ih =>
    refine .bind (stocks_errorClass hh hparent name) fun first h' hh' hext hfirst => ?_
    refine .bind (ih hh' (hparent.mono hext)) fun others h₂ hh₂ hext₂ hothers => ?_
    exact .pure hh₂ (List.forall_mem_cons.2 ⟨hfirst.mono hext₂, hothers⟩)

/-- The first nine objects are plain. -/
lemma stock_foundation (l : Lattice) : (foundation l).Stock l := by
  have hplain : ∀ id, id ≠ 0 → (Object.blank "Object" (some 0) .none).Stock l
      (foundation l) id := by
    intro id hid
    refine .blank (by decide) ?_ (.inl rfl)
    rintro _ ⟨⟩
    omega
  refine ⟨Nat.le_refl 9, rfl, fun id hid hne => ?_⟩
  have hlt : id < 9 := hid
  match id, hlt with
  | 0, _ => exact .blank (by decide) (by rintro _ ⟨⟩) (.inl rfl)
  | 1, _ => exact .blank (by decide) (by rintro _ ⟨⟩; decide) (.inl rfl)
  | 2, _ | 3, _ | 4, _ | 5, _ | 6, _ => exact hplain _ (by decide)
  | 7, _ => exact .blank (by decide) (by rintro _ ⟨⟩; decide) (.inr rfl)
  | 8, _ => exact absurd rfl hne

/-- The objects that a machine of a fresh session refers to are there. -/
structure Settles (o : Options) (realm : Realm) (h : Heap) : Prop where
  lattice : realm.lattice = o.lattice
  global : realm.global = 7
  globalFrame : realm.globalFrame = 0
  protos : ∀ id ∈ [realm.objectProto, realm.functionProto, realm.arrayProto, realm.stringProto,
    realm.numberProto, realm.booleanProto, realm.regexpProto], Old id h
  errors : ∀ r ∈ realm.errorProtos, Old r.2 h

/-- What is installed is plain. -/
theorem stocks_install (o : Options) : (install o).Gives #[] fun realm h =>
    h.Stock o.lattice ∧ Settles o realm h := by
  have hstart : ∀ n, n ≠ 8 → n < 9 → ∀ h : Heap, h.Stock o.lattice → Old n h :=
    fun n hne hn h hh => ⟨Nat.lt_of_lt_of_le hn hh.nine, hne⟩
  have h7 : (7 : Nat) ≠ 8 := by decide
  unfold install
  dsimp only
  refine gives_add (gives_add (gives_add (gives_add (gives_add (gives_add (gives_add (gives_add
    (gives_add ?_))))))))
  suffices hrest : Build.Stocks o.lattice _ (foundation o.lattice)
      fun realm h => Settles o realm h from ⟨hrest.1, hrest.2.2⟩
  refine .seq (stocks_put (stock_foundation _) h7 (.plain rfl ..)) fun _ _ hh _ => ?_
  refine .seq (stocks_put hh h7 (.plain rfl ..)) fun _ _ hh _ => ?_
  refine .seq (stocks_put hh h7 (.plain rfl ..)) fun _ _ hh _ => ?_
  refine .bind (stocks_constructor hh (hstart 0 (by decide) (by decide) _ hh) ..)
    fun object _ hh _ hobject => ?_
  refine .seq (stocks_methods hh hobject.2 _) fun _ _ hh _ => ?_
  refine .seq (stocks_methods hh (by decide) _) fun _ _ hh _ => ?_
  refine .bind (stocks_constructor hh (hstart 1 (by decide) (by decide) _ hh) ..)
    fun _ _ hh _ _ => ?_
  refine .seq (stocks_methods hh (by decide) _) fun _ _ hh _ => ?_
  refine .bind (stocks_errorClass hh (hstart 0 (by decide) (by decide) _ hh) _)
    fun base _ hh _ hbase => ?_
  refine .bind (stocks_methods hh hbase.2 _) fun _ _ hh hext _ => ?_
  replace hbase := hbase.mono hext
  refine .bind (stocks_errorClasses hh hbase _) fun errors h' hh hext herrors => ?_
  replace hbase := hbase.mono hext
  -- what is still to come refers to the errors only in what it gives
  suffices hrest : Build.Stocks o.lattice _ h' fun (realm : Realm) _ => realm.lattice = o.lattice ∧
      realm.global = 7 ∧ realm.globalFrame = 0 ∧ realm.errorProtos = base :: errors ∧
      [realm.objectProto, realm.functionProto, realm.arrayProto, realm.stringProto,
        realm.numberProto, realm.booleanProto, realm.regexpProto] = [0, 1, 2, 3, 4, 5, 6] by
    refine hrest.mono fun realm h'' hh'' hext ⟨hlattice, hglobal, hframe, herror, hprotos⟩ => ?_
    refine ⟨hlattice, hglobal, hframe, fun id hid => ?_, fun r hr => ?_⟩
    · rw [hprotos] at hid
      have hnine := hh''.nine
      simp only [List.mem_cons, List.not_mem_nil, or_false] at hid
      exact ⟨by omega, by omega⟩
    · rw [herror] at hr
      rcases List.mem_cons.1 hr with rfl | hr
      · exact hbase.mono hext
      · exact (herrors r hr).mono hext
  refine .bind (stocks_constructor hh (hstart 2 (by decide) (by decide) _ hh) ..)
    fun array _ hh _ harray => ?_
  refine .seq (stocks_methods hh harray.2 _) fun _ _ hh _ => ?_
  refine .seq (stocks_methods hh (by decide) _) fun _ _ hh _ => ?_
  refine .bind (stocks_constructor hh (hstart 3 (by decide) (by decide) _ hh) ..)
    fun string _ hh _ hstring => ?_
  refine .seq (stocks_methods hh hstring.2 _) fun _ _ hh _ => ?_
  refine .seq (stocks_methods hh (by decide) _) fun _ _ hh _ => ?_
  refine .bind (stocks_constructor hh (hstart 4 (by decide) (by decide) _ hh) ..)
    fun number _ hh _ hnumber => ?_
  refine .seq (stocks_constants hh hnumber.2 _) fun _ _ hh _ => ?_
  refine .seq (stocks_methods hh (by decide) _) fun _ _ hh _ => ?_
  refine .bind (stocks_constructor hh (hstart 5 (by decide) (by decide) _ hh) ..)
    fun _ _ hh _ _ => ?_
  refine .seq (stocks_methods hh (by decide) _) fun _ _ hh _ => ?_
  have hmath : ∀ {h : Heap}, h.Stock o.lattice →
      (Object.blank "Math" (some 0) o.lattice.bottom).Stock o.lattice h h.size := fun hh =>
    .blank (by decide) (by rintro _ ⟨⟩; have := hh.nine; omega) (.inr rfl)
  refine .bind (stocks_add hh (hmath hh)) fun math _ hh _ hnew => ?_
  have hold : Old math _ := ⟨hnew.1, hnew.2.1⟩
  refine .seq (stocks_constants hh hold.2 _) fun _ _ hh hext => ?_
  replace hold := hold.mono hext
  refine .seq (stocks_methods hh hold.2 _) fun _ _ hh hext => ?_
  replace hold := hold.mono hext
  have hoffers : Heap.Offers _ ⟨math, .plain⟩ := ⟨hold.1, hold.2, trivial⟩
  refine .seq (stocks_put hh h7 (.object hoffers ..)) fun _ _ hh _ => ?_
  refine .bind (stocks_constructor hh (hstart 6 (by decide) (by decide) _ hh) ..)
    fun _ _ hh _ _ => ?_
  refine .seq (stocks_methods hh (by decide) _) fun _ _ hh _ => ?_
  refine .seq (stocks_methods hh (by decide) _) fun _ _ hh _ => ?_
  refine .seq (stocks_methods hh h7 _) fun _ _ hh _ => ?_
  exact .pure hh ⟨rfl, rfl, rfl, rfl, rfl⟩

/-- A session in which nothing has happened. -/
structure Untouched (s : State) : Prop where
  stock : s.store.heap.Stock s.control.realm.lattice
  global : s.control.realm.global = 7
  globalFrame : s.control.realm.globalFrame = 0
  landmarks : ∀ id ∈ s.control.realm.landmarks, Old id s.store.heap
  frames : s.store.frames = #[⟨⟨7, .plain⟩, ⟨8, .plain⟩, [], none, true⟩]
  pc : s.control.pc = s.control.realm.lattice.bottom
  scope : s.control.scope = 0
  this : s.control.this = Raw.object ⟨s.control.realm.global, .plain⟩
  result : s.store.result = .undefined

end Library

/-- In a fresh session nothing has happened. -/
theorem Session.untouched_fresh (o : Library.Options) : Library.Untouched (fresh o) := by
  obtain ⟨hstock, hsettles⟩ := Library.stocks_install o
  unfold fresh
  generalize (Library.install o).run #[] = r at hstock hsettles
  obtain ⟨realm, heap⟩ := r
  obtain ⟨hlattice, hglobal, hframe, hprotos, herrors⟩ := hsettles
  dsimp only at *
  refine ⟨by rw [hlattice]; exact hstock, hglobal, hframe, fun id hid => ?_, ?_, rfl, rfl, rfl, rfl⟩
  · show Old id heap
    have hnine := hstock.nine
    simp only [Realm.landmarks, List.mem_append, List.mem_cons, List.mem_map, List.not_mem_nil,
      or_false] at hid
    simp only [List.forall_mem_cons] at hprotos
    obtain ⟨h1, h2, h3, h4, h5, h6, h7, -⟩ := hprotos
    rcases hid with (rfl | rfl | rfl | rfl | rfl | rfl | rfl | rfl | rfl) | ⟨r, hr, rfl⟩
    · exact ⟨by omega, by decide⟩
    · rw [hglobal]
      exact ⟨by omega, by decide⟩
    all_goals first | assumption | exact herrors r hr
  · rw [hglobal]

end Clearance
