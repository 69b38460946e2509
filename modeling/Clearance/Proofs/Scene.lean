/-
# Globals of the core

A program of the core sees one object, the global one, through the outermost frame. `Scene` says
what the store must be for that: the names of the program are primitive data properties of the
global object, or are not bound at all, and the store for classified bindings holds none of them.

Two global objects agree up to a level if they have the same properties with the same attributes,
and what is classified up to the level is the same in both.
-/
import Clearance.Proofs.Assign
import Clearance.Proofs.Heap

namespace Clearance

open Clearance.Action

/-! ## Agreement up to a level -/

/-- Two properties, of objects of a partition, that hold the same up to a level. -/
structure Property.Agrees (l partition : Label) (q q' : Property) : Prop where
  attributes : { q' with value := q.value } = q
  cell : ((q.value.label.join partition).leq l = true ∧ q'.value.raw = q.value.raw ∧
      q'.value.label.join partition = q.value.label.join partition) ∨
    (l.less (q.value.label.join partition) = true ∧ l.less (q'.value.label.join partition) = true)

/-- Two objects that hold the same up to a level. -/
structure Object.Agrees (l : Label) (o o' : Object) : Prop where
  partition : o'.partition = o.partition
  properties : ∀ name, Option.Rel (Property.Agrees l o.partition) (Slots.find? name o.slots)
    (Slots.find? name o'.slots)

/-- The global object. -/
def State.globals (s : State) : Object := s.store.heap.get s.control.realm.global

namespace Property.Agrees

variable {l k : Label} {q q' q'' : Property}

/-- What is the same in both agrees at every level. -/
lemma of_eq (hattributes : { q' with value := q.value } = q) (hraw : q'.value.raw = q.value.raw)
    (hlabel : q'.value.label.join k = q.value.label.join k) : q.Agrees l k q' := by
  refine ⟨hattributes, ?_⟩
  by_cases h : l.less (q.value.label.join k) = true
  · exact .inr ⟨h, by rwa [hlabel]⟩
  · exact .inl ⟨Label.leq_of_not_less h, hraw, hlabel⟩

lemma refl (q : Property) : q.Agrees l k q := of_eq rfl rfl rfl

lemma symm (h : q.Agrees l k q') : q'.Agrees l k q := by
  refine ⟨by rw [← h.attributes], ?_⟩
  rcases h.cell with ⟨hleq, hraw, hlabel⟩ | ⟨hless, hless'⟩
  · exact .inl ⟨by rwa [hlabel], hraw.symm, hlabel.symm⟩
  · exact .inr ⟨hless', hless⟩

lemma trans (h : q.Agrees l k q') (h' : q'.Agrees l k q'') : q.Agrees l k q'' := by
  refine ⟨by rw [← h.attributes, ← h'.attributes], ?_⟩
  rcases h.cell with ⟨hleq, hraw, hlabel⟩ | ⟨hless, hless'⟩
  · rcases h'.cell with ⟨-, hraw', hlabel'⟩ | ⟨hless, -⟩
    · exact .inl ⟨hleq, hraw'.trans hraw, hlabel'.trans hlabel⟩
    · rw [hlabel] at hless
      exact absurd hless (Label.not_less_of_leq hleq)
  · rcases h'.cell with ⟨hleq, -, -⟩ | ⟨-, hless''⟩
    · exact absurd hless' (Label.not_less_of_leq hleq)
    · exact .inr ⟨hless, hless''⟩

end Property.Agrees

namespace Object.Agrees

variable {l : Label} {o o' o'' : Object}

lemma refl (o : Object) : o.Agrees l o := by
  refine ⟨rfl, fun name => ?_⟩
  cases Slots.find? name o.slots with
  | none => exact .none
  | some q => exact .some (.refl q)

lemma symm (h : o.Agrees l o') : o'.Agrees l o := by
  refine ⟨h.partition.symm, fun name => ?_⟩
  have hname := h.properties name
  rw [h.partition]
  revert hname
  cases Slots.find? name o.slots <;> cases Slots.find? name o'.slots <;> intro hname <;>
    cases hname
  · exact .none
  · rename_i hq
    exact .some hq.symm

lemma trans (h : o.Agrees l o') (h' : o'.Agrees l o'') : o.Agrees l o'' := by
  refine ⟨h'.partition.trans h.partition, fun name => ?_⟩
  have hname := h.properties name
  have hname' := h'.properties name
  rw [h.partition] at hname'
  revert hname hname'
  cases Slots.find? name o.slots <;> cases Slots.find? name o'.slots <;>
    cases Slots.find? name o''.slots <;> intro hname hname' <;> cases hname <;> cases hname'
  · exact .none
  · rename_i hq hq'
    exact .some (hq.trans hq')

/-- Both objects have a property of the name, or neither has one. -/
lemma cases_find? (h : o.Agrees l o') (name : String) :
    (Slots.find? name o.slots = none ∧ Slots.find? name o'.slots = none) ∨
    ∃ q q', Slots.find? name o.slots = some q ∧ Slots.find? name o'.slots = some q' ∧
      q.Agrees l o.partition q' := by
  have hname := h.properties name
  cases hq : Slots.find? name o.slots <;> cases hq' : Slots.find? name o'.slots <;>
    rw [hq, hq'] at hname <;> cases hname
  · exact .inl ⟨rfl, rfl⟩
  · rename_i q q' hagrees
    exact .inr ⟨q, q', rfl, rfl, hagrees⟩

end Object.Agrees

/-! ## Scenes -/

/-- A name is that of a primitive data property of an object, or it is not found at all. -/
def Heap.Plain (h : Heap) (id : Nat) (name : String) : Prop :=
  (∃ q, Slots.find? name (h.get id).slots = some q ∧ q.isAccessor = false ∧
    q.value.raw.isPrimitive = true) ∨ h.find? id name = none

/-- The global frame as the host has set it up, apart from the properties of the global
object. -/
structure Stage (ns : List String) (realm : Realm) (s : Store) : Prop where
  low : (s.frames.get realm.globalFrame).low = ⟨realm.global, .plain⟩
  parent : (s.frames.get realm.globalFrame).parent = none
  dynamic : (s.frames.get realm.globalFrame).dynamic = true
  /-- The store for classified bindings is another object, without the names. -/
  apart : (s.frames.get realm.globalFrame).high.id ≠ realm.global
  allocated : (s.frames.get realm.globalFrame).high.id < s.heap.size
  proto : (s.heap.get (s.frames.get realm.globalFrame).high.id).proto = none
  vacant : ∀ n ∈ ns, (s.heap.get (s.frames.get realm.globalFrame).high.id).own? n = none
  inside : realm.global < s.heap.size
  cls : (s.heap.get realm.global).cls ≠ "Array"
  primitive : (s.heap.get realm.global).primitive = none
  bottom : (s.heap.get realm.global).partition.height = 1

/-- A stage whose names are plain. -/
structure Scene (ns : List String) (realm : Realm) (s : Store) : Prop
    extends Stage ns realm s where
  plain : ∀ n ∈ ns, s.heap.Plain realm.global n

/-- Global code in a scene. -/
structure State.Staged (ns : List String) (s : State) : Prop where
  scope : s.control.scope = s.control.realm.globalFrame
  scene : Scene ns s.control.realm s.store

namespace Heap

variable {h : Heap} {id : Nat} {name : String}

/-- What is found does not depend on later objects. -/
lemma find?_push (hid : id < h.size) (o : Object) : find? (h.push o) id name = h.find? id name :=
  findWithin_congr _ _ _ fun _ hj => get_push_lt (Nat.lt_of_le_of_lt hj hid) o

/-- A change of an object that leaves a name alone does not make it found. -/
lemma find?_update_of_none {f : Object → Object} (hnone : h.find? id name = none)
    (hproto : (f (h.get id)).proto = (h.get id).proto)
    (hown : (f (h.get id)).own? name = (h.get id).own? name) :
    (h.update id f).find? id name = none := by
  have hget : ∀ j, (h.update id f).get j = h.get j ∨
      j = id ∧ (h.update id f).get j = f (h.get id) := by
    intro j
    rw [get_update]
    split_ifs with hj
    · exact .inr ⟨hj.1, rfl⟩
    · exact .inl rfl
  have hsame : ((h.update id f).get id).own? name = (h.get id).own? name ∧
      ((h.update id f).get id).proto = (h.get id).proto := by
    rcases hget id with hid | ⟨-, hid⟩
    · rw [hid]
      exact ⟨rfl, rfl⟩
    · rw [hid]
      exact ⟨hown, hproto⟩
  unfold find? findWithin at hnone ⊢
  dsimp only at hnone ⊢
  rw [hsame.1, hsame.2]
  cases hq : (h.get id).own? name with
  | some q =>
    rw [hq] at hnone
    cases hnone
  | none =>
    rw [hq] at hnone
    cases hproto : (h.get id).proto with
    | none => rfl
    | some q =>
      rw [hproto] at hnone
      dsimp only at hnone ⊢
      split_ifs at hnone ⊢ with hlt
      · rw [← hnone]
        -- the prototypes are older than the object that has changed
        refine findWithin_congr _ _ _ fun j hj => get_update_ne ?_ f
        exact Nat.ne_of_lt (Nat.lt_of_le_of_lt hj hlt)
      · rfl

namespace Plain

lemma push (hp : h.Plain id name) (hid : id < h.size) (o : Object) :
    Heap.Plain (h.push o) id name := by
  unfold Plain
  rw [get_push_lt hid, find?_push hid]
  exact hp

/-- Plain names stay plain when a plain property is written. -/
lemma define (hp : h.Plain id name) (hid : id < h.size) {n : String} {q : Property}
    (hdata : q.isAccessor = false) (hvalue : q.value.raw.isPrimitive = true) :
    (h.update id (·.define n q)).Plain id name := by
  unfold Plain
  rw [get_update_self hid, Object.find?_define]
  split_ifs with hn
  · exact .inl ⟨q, rfl, hdata, hvalue⟩
  · rcases hp with hp | hnone
    · exact .inl hp
    · refine .inr (find?_update_of_none hnone rfl (Object.own?_congr rfl ?_))
      rw [Object.find?_define, if_neg hn]

end Plain
end Heap

section

variable {ns : List String} {realm : Realm} {s : Store}

namespace Stage

/-- A stage does not depend on which names the global frame lists. -/
lemma frames (h : Stage ns realm s) {frames : Frames}
    (hlow : (frames.get realm.globalFrame).low = (s.frames.get realm.globalFrame).low)
    (hhigh : (frames.get realm.globalFrame).high = (s.frames.get realm.globalFrame).high)
    (hparent : (frames.get realm.globalFrame).parent = (s.frames.get realm.globalFrame).parent)
    (hdynamic : (frames.get realm.globalFrame).dynamic =
      (s.frames.get realm.globalFrame).dynamic) : Stage ns realm { s with frames } where
  low := hlow.trans h.low
  parent := hparent.trans h.parent
  dynamic := hdynamic.trans h.dynamic
  apart := by rw [hhigh]; exact h.apart
  allocated := by rw [hhigh]; exact h.allocated
  proto := by rw [hhigh]; exact h.proto
  vacant := by rw [hhigh]; exact h.vacant
  inside := h.inside
  cls := h.cls
  primitive := h.primitive
  bottom := h.bottom

/-- A stage depends on the heap and on the frames only. -/
lemma congr (h : Stage ns realm s) {s' : Store} (hheap : s'.heap = s.heap)
    (hframes : s'.frames = s.frames) : Stage ns realm s' where
  low := by rw [hframes]; exact h.low
  parent := by rw [hframes]; exact h.parent
  dynamic := by rw [hframes]; exact h.dynamic
  apart := by rw [hframes]; exact h.apart
  allocated := by rw [hframes, hheap]; exact h.allocated
  proto := by rw [hframes, hheap]; exact h.proto
  vacant := by rw [hframes, hheap]; exact h.vacant
  inside := by rw [hheap]; exact h.inside
  cls := by rw [hheap]; exact h.cls
  primitive := by rw [hheap]; exact h.primitive
  bottom := by rw [hheap]; exact h.bottom

lemma push (h : Stage ns realm s) (o : Object) :
    Stage ns realm { s with heap := s.heap.push o } where
  low := h.low
  parent := h.parent
  dynamic := h.dynamic
  apart := h.apart
  allocated := by rw [Array.size_push]; exact Nat.lt_succ_of_lt h.allocated
  proto := by rw [Heap.get_push_lt h.allocated]; exact h.proto
  vacant := by rw [Heap.get_push_lt h.allocated]; exact h.vacant
  inside := by rw [Array.size_push]; exact Nat.lt_succ_of_lt h.inside
  cls := by rw [Heap.get_push_lt h.inside]; exact h.cls
  primitive := by rw [Heap.get_push_lt h.inside]; exact h.primitive
  bottom := by rw [Heap.get_push_lt h.inside]; exact h.bottom

/-- A change of the global object that leaves its shell alone. -/
lemma update (h : Stage ns realm s) {f : Object → Object}
    (hcls : (f (s.heap.get realm.global)).cls = (s.heap.get realm.global).cls)
    (hprimitive : (f (s.heap.get realm.global)).primitive = (s.heap.get realm.global).primitive)
    (hpartition : (f (s.heap.get realm.global)).partition =
      (s.heap.get realm.global).partition) :
    Stage ns realm { s with heap := s.heap.update realm.global f } where
  low := h.low
  parent := h.parent
  dynamic := h.dynamic
  apart := h.apart
  allocated := by rw [Heap.size_update]; exact h.allocated
  proto := by rw [Heap.get_update_ne h.apart]; exact h.proto
  vacant := by rw [Heap.get_update_ne h.apart]; exact h.vacant
  inside := by rw [Heap.size_update]; exact h.inside
  cls := by rw [Heap.get_update_self h.inside, hcls]; exact h.cls
  primitive := by rw [Heap.get_update_self h.inside, hprimitive]; exact h.primitive
  bottom := by rw [Heap.get_update_self h.inside, hpartition]; exact h.bottom

lemma define (h : Stage ns realm s) (n : String) (q : Property) :
    Stage ns realm { s with heap := s.heap.update realm.global (·.define n q) } :=
  h.update rfl rfl rfl

end Stage

namespace Scene

lemma congr (h : Scene ns realm s) {s' : Store} (hheap : s'.heap = s.heap)
    (hframes : s'.frames = s.frames) : Scene ns realm s' :=
  ⟨h.toStage.congr hheap hframes, by rw [hheap]; exact h.plain⟩

lemma push (h : Scene ns realm s) (o : Object) :
    Scene ns realm { s with heap := s.heap.push o } :=
  ⟨h.toStage.push o, fun n hn => (h.plain n hn).push h.inside o⟩

lemma define (h : Scene ns realm s) (n : String) {q : Property} (hdata : q.isAccessor = false)
    (hvalue : q.value.raw.isPrimitive = true) :
    Scene ns realm { s with heap := s.heap.update realm.global (·.define n q) } :=
  ⟨h.toStage.define n q,
    fun m hm => (h.plain m hm).define h.inside hdata hvalue⟩

/-- The global object holds a name, or it is not found. -/
lemma find?_global (h : Scene ns realm s) {n : String} (hn : n ∈ ns) :
    s.heap.find? realm.global n =
      (Slots.find? n (s.heap.get realm.global).slots).map fun q => (realm.global, q) := by
  rcases h.plain n hn with ⟨q, hq, -, -⟩ | hnone
  · rw [hq]
    exact Heap.find?_of_own? (Object.own?_of_find? hq)
  · rw [Heap.slot_eq_none (by simp [hnone]), hnone]
    rfl

/-- What the global object holds under a name is primitive data. -/
lemma of_find? (h : Scene ns realm s) {n : String} (hn : n ∈ ns) {q : Property}
    (hq : Slots.find? n (s.heap.get realm.global).slots = some q) :
    q.isAccessor = false ∧ q.value.raw.isPrimitive = true := by
  rcases h.plain n hn with ⟨q', hq', hdata, hvalue⟩ | hnone
  · rw [hq] at hq'
    cases hq'
    exact ⟨hdata, hvalue⟩
  · rw [Heap.find?_of_own? (Object.own?_of_find? hq)] at hnone
    cases hnone

end Scene
/-! ## Names -/

/-- The place of a name: in the global object if it holds the name, else nowhere. -/
def State.placed (s : State) (n : String) : Place :=
  ⟨(Slots.find? n s.globals.slots).map fun _ => ⟨s.control.realm.global, .plain⟩, n⟩

/-- The global frame finds the names that the global object holds. -/
lemma Scene.own_eq (h : Scene ns realm s) {n : String} (hn : n ∈ ns) :
    ∃ f, (s.frames.get realm.globalFrame).own s.heap n =
        ((Slots.find? n (s.heap.get realm.global).slots).map fun _ => .low, f) ∧
      (f = s.frames.get realm.globalFrame ∨ f = (s.frames.get realm.globalFrame).unbind n) := by
  have hlow : (s.heap.get (s.frames.get realm.globalFrame).low.id).hasOwn n =
      (Slots.find? n (s.heap.get realm.global).slots).isSome := by
    rw [h.low, Object.hasOwn, Object.own?_of_primitive h.primitive]
  have hhigh : (s.heap.get (s.frames.get realm.globalFrame).high.id).hasOwn n = false := by
    rw [Object.hasOwn, h.vacant n hn]
    rfl
  have hhas : s.heap.has (s.frames.get realm.globalFrame).low.id n =
      (Slots.find? n (s.heap.get realm.global).slots).isSome := by
    rw [h.low, Heap.has, h.find?_global hn]
    cases Slots.find? n (s.heap.get realm.global).slots <;> rfl
  have hnot : s.heap.has (s.frames.get realm.globalFrame).high.id n = false := by
    simp [Heap.has, Heap.find?, Heap.findWithin, h.vacant n hn, h.proto]
  cases hslot : Slots.find? n (s.heap.get realm.global).slots with
  | none =>
    rw [hslot] at hlow hhas
    refine ⟨(s.frames.get realm.globalFrame).unbind n, ?_, .inr rfl⟩
    cases hindex : List.lookup n (s.frames.get realm.globalFrame).index with
    | none => simp [Frame.own, Frame.unbind, hindex, h.dynamic, hnot, hhas]
    | some side =>
      cases side <;> simp [Frame.own, Frame.unbind, Frame.store, hindex, h.dynamic, hnot, hhas,
        hlow, hhigh]
  | some q =>
    rw [hslot] at hlow hhas
    cases hindex : List.lookup n (s.frames.get realm.globalFrame).index with
    | none =>
      refine ⟨(s.frames.get realm.globalFrame).unbind n, ?_, .inr rfl⟩
      simp [Frame.own, Frame.unbind, hindex, h.dynamic, hnot, hhas]
    | some side =>
      cases side with
      | low =>
        refine ⟨s.frames.get realm.globalFrame, ?_, .inl rfl⟩
        simp [Frame.own, Frame.store, hindex, hlow]
      | high =>
        refine ⟨(s.frames.get realm.globalFrame).unbind n, ?_, .inr rfl⟩
        simp [Frame.own, Frame.unbind, Frame.store, hindex, h.dynamic, hnot, hhas, hhigh]

/-- Dropping a stale entry keeps the stage. -/
lemma Stage.set (h : Stage ns realm s) {f : Frame}
    (hf : f.low = (s.frames.get realm.globalFrame).low ∧
      f.high = (s.frames.get realm.globalFrame).high ∧
      f.parent = (s.frames.get realm.globalFrame).parent ∧
      f.dynamic = (s.frames.get realm.globalFrame).dynamic) :
    Stage ns realm { s with frames := s.frames.setIfInBounds realm.globalFrame f } := by
  have hget : Frames.get (s.frames.setIfInBounds realm.globalFrame f) realm.globalFrame = f ∨
      Frames.get (s.frames.setIfInBounds realm.globalFrame f) realm.globalFrame =
        s.frames.get realm.globalFrame := by
    unfold Frames.get
    by_cases hid : realm.globalFrame < s.frames.size
    · exact .inl (by simp [Array.getD, hid])
    · exact .inr (by simp [Array.getD, hid])
  rcases hget with hget | hget
  · exact h.frames (by rw [hget]; exact hf.1) (by rw [hget]; exact hf.2.1)
      (by rw [hget]; exact hf.2.2.1) (by rw [hget]; exact hf.2.2.2)
  · exact h.frames (by rw [hget]) (by rw [hget]) (by rw [hget]) (by rw [hget])

end

/-- A state with other frames. -/
def State.withFrames (s : State) (frames : Frames) : State := ⟨s.control, { s.store with frames }⟩

section

variable {ns : List String} {serve : Service} {fuel : Nat} {s : State}

/-- A name is looked up in the global object. -/
lemma run_placeOf (h : s.Staged ns) {n : String} (hn : n ∈ ns) :
    ∃ frames, (placeOf n).run serve fuel s = .done (s.placed n) (s.withFrames frames) ∧
      (s.withFrames frames).Staged ns := by
  obtain ⟨f, hown, hf⟩ := h.scene.own_eq hn
  have hfields : f.low = (s.store.frames.get s.control.realm.globalFrame).low ∧
      f.high = (s.store.frames.get s.control.realm.globalFrame).high ∧
      f.parent = (s.store.frames.get s.control.realm.globalFrame).parent ∧
      f.dynamic = (s.store.frames.get s.control.realm.globalFrame).dynamic := by
    rcases hf with rfl | rfl <;> exact ⟨rfl, rfl, rfl, rfl⟩
  have hparent : f.parent = none := hfields.2.2.1.trans h.scene.parent
  have hstage : ∀ frames, Stage ns s.control.realm { s.store with frames } →
      (s.withFrames frames).Staged ns := fun frames hframes => ⟨h.scope, hframes, h.scene.plain⟩
  have hlookup : ∃ frames, s.store.frames.lookup s.store.heap s.control.realm.globalFrame n =
        ((Slots.find? n s.globals.slots).map fun _ => (s.control.realm.globalFrame, .low), frames) ∧
      Stage ns s.control.realm { s.store with frames } := by
    unfold Frames.lookup Frames.lookupWithin
    rw [hown]
    dsimp only
    rw [hparent]
    split_ifs
    · refine ⟨s.store.frames, ?_, h.scene.toStage⟩
      unfold State.globals
      cases Slots.find? n (s.store.heap.get s.control.realm.global).slots <;> rfl
    · refine ⟨s.store.frames.setIfInBounds s.control.realm.globalFrame f, ?_,
        h.scene.toStage.set hfields⟩
      unfold State.globals
      cases Slots.find? n (s.store.heap.get s.control.realm.global).slots <;> rfl
  obtain ⟨frames, hlookup, hstage'⟩ := hlookup
  refine ⟨frames, ?_, hstage frames hstage'⟩
  simp only [placeOf, run_bind, run_current, run_update, h.scope, hlookup, State.placed,
    State.withFrames, Option.map_map]
  have hlow : ((frames.get s.control.realm.globalFrame).store .low) =
      ⟨s.control.realm.global, .plain⟩ := hstage'.low
  cases Slots.find? n s.globals.slots
  · rfl
  · simp [hlow]

/-! ## Reading and writing -/

/-- What the global object holds under a name, with its classification. -/
def State.rated (s : State) (n : String) : Rated :=
  match Slots.find? n s.globals.slots with
  | none => ⟨.undefined, (Label.none.join .none).join s.globals.partition⟩
  | some q => ⟨q.value.raw, (Label.none.join q.value.label).join s.globals.partition⟩

/-- A name is read from the global object. -/
lemma run_resolve (h : s.Staged ns) {n : String} (hn : n ∈ ns) :
    (Operand.place ⟨some ⟨s.control.realm.global, .plain⟩, n⟩ .none).resolve.run serve fuel s =
      .done (s.rated n) s := by
  have hfind := h.scene.find?_global hn
  simp only [Operand.resolve, Place.cell, getProperty, run_bind, run_look, run_partition, hfind,
    State.rated]
  cases hq : Slots.find? n s.globals.slots with
  | none =>
    have hslot : Slots.find? n (s.store.heap.get s.control.realm.global).slots = none := hq
    rw [hslot]
    rfl
  | some q =>
    have hslot : Slots.find? n (s.store.heap.get s.control.realm.global).slots = some q := hq
    simp only [hslot, Option.map_some, (h.scene.of_find? hn hslot).1, Bool.false_eq_true, if_false,
      run_pure]
    rfl

lemma isPrimitive_rated (h : s.Staged ns) {n : String} (hn : n ∈ ns) :
    (s.rated n).raw.isPrimitive = true := by
  unfold State.rated
  split
  · rfl
  · rename_i q hq
    exact (h.scene.of_find? hn hq).2

/-- The property that an assignment leaves behind. -/
def Property.assigned (old : Option Property) (v : Value) : Property :=
  match old with
  | none => .data v
  | some q => if q.readOnly then q else { q with value := v }

/-- One property of the global object is all that differs. -/
structure Wrote (ns : List String) (s t : State) (n : String) (q : Property) : Prop where
  staged : t.Staged ns
  control : t.control = s.control
  partition : t.globals.partition = s.globals.partition
  find? : ∀ m, Slots.find? m t.globals.slots =
    if m = n then some q else Slots.find? m s.globals.slots

lemma wrote_define (h : s.Staged ns) (n : String) {q : Property} (hdata : q.isAccessor = false)
    (hvalue : q.value.raw.isPrimitive = true) :
    Wrote ns s ⟨s.control, { s.store with
      heap := s.store.heap.update s.control.realm.global (·.define n q) }⟩ n q := by
  refine ⟨⟨h.scope, h.scene.define n hdata hvalue⟩, rfl, ?_, fun m => ?_⟩
  · unfold State.globals
    rw [Heap.get_update_self h.scene.inside]
    rfl
  · unfold State.globals
    rw [Heap.get_update_self h.scene.inside]
    exact Object.find?_define ..

/-- Only arrays grow with their elements. -/
lemma Heap.extend_eq_define {o : Object} (ho : o.cls ≠ "Array") (n : String) (v : Value) :
    Heap.extend o n v = o.define n (.data v) := by
  unfold Heap.extend
  dsimp only
  exact if_neg ho

/-- An assignment to a name changes its property. -/
lemma run_putProperty (h : s.Staged ns) {n : String} (hn : n ∈ ns) {v : Value}
    (hv : v.raw.isPrimitive = true) :
    ∃ t, (putProperty ⟨s.control.realm.global, .plain⟩ n v).run serve fuel s = .done () t ∧
      Wrote ns s t n (.assigned (Slots.find? n s.globals.slots) v) := by
  have hfind := h.scene.find?_global hn
  simp only [putProperty, run_bind, run_look, hfind]
  cases hq : Slots.find? n s.globals.slots with
  | none =>
    have hslot : Slots.find? n (s.store.heap.get s.control.realm.global).slots = none := hq
    rw [hslot]
    refine ⟨_, run_putOwn serve fuel v (Heap.counts_of_cls h.scene.cls n), ?_⟩
    unfold State.extended
    dsimp only
    rw [Heap.update_congr (g := (·.define n (.data v))) (Heap.extend_eq_define h.scene.cls n v)]
    exact wrote_define h n rfl hv
  | some q =>
    have hslot : Slots.find? n (s.store.heap.get s.control.realm.global).slots = some q := hq
    obtain ⟨hdata, hvalue⟩ := h.scene.of_find? hn hslot
    simp only [hslot, Option.map_some, hdata, Bool.false_eq_true, if_false]
    by_cases hro : q.readOnly = true
    · simp only [if_pos hro, Property.assigned]
      refine ⟨s, rfl, h, rfl, rfl, fun m => ?_⟩
      split_ifs with hm
      · rw [hm, hq]
      · rfl
    · simp only [if_neg hro, run_bind, run_object, hslot, beq_self_eq_true, h.scene.cls,
        false_and, if_false, Property.assigned]
      exact ⟨_, rfl, wrote_define h n hdata hv⟩

/-- An operand of the core: a primitive value, or the place of a name. -/
inductive Operand.Core (ns : List String) (realm : Realm) : Operand → Prop
  | value {v : Value} : v.raw.isPrimitive = true → Core ns realm (.value v)
  | global {n : String} : n ∈ ns → Core ns realm (.place ⟨some ⟨realm.global, .plain⟩, n⟩ .none)
  | nowhere {n : String} : n ∈ ns → Core ns realm (.place ⟨none, n⟩ .none)

/-- A name that is nowhere is written to the global object too. -/
lemma run_write (h : s.Staged ns) {p : Place}
    (hp : Operand.Core ns s.control.realm (.place p .none)) {v : Value}
    (hv : v.raw.isPrimitive = true) :
    ∃ t, (p.write v).run serve fuel s = .done () t ∧
      Wrote ns s t p.name (.assigned (Slots.find? p.name s.globals.slots) v) := by
  cases hp with
  | global hn => exact run_putProperty h hn hv
  | nowhere hn =>
    obtain ⟨t, hrun, hwrote⟩ := run_putProperty h hn hv
    refine ⟨t, ?_, hwrote⟩
    simp only [Place.write, run_bind, run_realm]
    exact hrun

/-- An assignment to a name reports a violation or changes the property of the name, if the
labels permit that. -/
lemma run_assign_name (h : s.Staged ns) {p : Place}
    (hp : Operand.Core ns s.control.realm (.place p .none)) (line : Nat) {r : Rated}
    (hr : r.raw.isPrimitive = true) (declare : Bool) :
    (∃ v e, (assign line p .none r declare).run serve fuel s =
      .failed (.violation v) (s.recorded e)) ∨
    ∃ t, (assign line p .none r declare).run serve fuel s = .done r.value t ∧
      Wrote ns s t p.name (.assigned (Slots.find? p.name s.globals.slots)
        ((p.locationIn s).stored s.control.pc .none r)) ∧
      (s.control.pc.join (Label.none.join (p.locationIn s).label)).leq
        ((p.locationIn s).label.join (p.locationIn s).cell) = true ∧
      ((p.locationIn s).established = true ∨ declare = false →
        r.label.leq (p.locationIn s).label = true) := by
  rcases run_assign line p .none r declare s with hviolation | ⟨u, hpass⟩
  · exact .inl hviolation.1
  have hu : u.Staged ns := by
    refine ⟨?_, ?_⟩
    · rw [hpass.control]
      exact h.scope
    · rw [hpass.control]
      exact h.scene.congr hpass.heap hpass.frames
  have hglobals : u.globals = s.globals := by
    unfold State.globals
    rw [hpass.heap, hpass.control]
  have hraw : ((p.locationIn s).stored s.control.pc .none r).raw.isPrimitive = true := by
    rw [Location.stored_raw]
    exact hr
  obtain ⟨t, hrun, hwrote⟩ := run_write hu (hpass.control ▸ hp) hraw
  refine .inr ⟨t, ?_, ⟨hwrote.staged, hwrote.control.trans hpass.control, ?_, fun m => ?_⟩,
    hpass.context, hpass.data⟩
  · rw [hpass.run, run_bind, hrun]
    rfl
  · rw [hwrote.partition, hglobals]
  · rw [hwrote.find?, hglobals]

end

end Clearance
