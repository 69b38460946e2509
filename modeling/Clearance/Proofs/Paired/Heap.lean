/-
# Heaps side by side

What is found in heaps that correspond, and what corresponding changes of their objects give.
Lookups along prototypes never pass a store, so they find the same property on both sides, with
values that correspond.
-/
import Clearance.Proofs.Heap
import Clearance.Proofs.Paired.World
import Clearance.Proofs.Scripted.Access

namespace Clearance

open Script

/-! ## Rewritten code -/

namespace Script

variable {α : Type}

@[simp] lemma Ident.map_id : (Ident.map id : Ident α → Ident α) = id := rfl

variable (g : Expr Span → Expr Span) (fn : Script.Function Span)

@[simp] lemma Function.rebuild_name : (fn.rebuild id g).name = fn.name := by
  obtain ⟨s, n, ps, b, form, src⟩ := fn
  simp [Function.rebuild, Function.name, Function.ident?]

@[simp] lemma Function.rebuild_params : (fn.rebuild id g).params = fn.params := by
  obtain ⟨s, n, ps, b, form, src⟩ := fn
  simp [Function.rebuild, Function.params]

@[simp] lemma Function.rebuild_body :
    (fn.rebuild id g).body = rebuildStmts id g fn.body := by
  obtain ⟨s, n, ps, b, form, src⟩ := fn
  simp [Function.rebuild, Function.body]

@[simp] lemma Function.rebuild_form : (fn.rebuild id g).form = fn.form := by
  obtain ⟨s, n, ps, b, form, src⟩ := fn
  simp [Function.rebuild, Function.form]

@[simp] lemma Function.rebuild_source : (fn.rebuild id g).source = fn.source := by
  obtain ⟨s, n, ps, b, form, src⟩ := fn
  simp [Function.rebuild, Function.source]

end Script

namespace World

variable {W : World}

/-! ## Properties and listings -/

namespace Properties

variable {cls name : String} {p p' : Property} {v v' : Value}

lemma of_contents (h : W.Contents cls name v v') (hidden readOnly permanent : Bool) :
    W.Properties cls name ⟨v, .absent, .absent, hidden, readOnly, permanent⟩
      ⟨v', .absent, .absent, hidden, readOnly, permanent⟩ :=
  ⟨rfl, by rintro o ⟨⟩, rfl, by rintro o ⟨⟩, rfl, rfl, rfl, .inl h⟩

lemma of_values (h : W.Values v v') (hidden readOnly permanent : Bool) :
    W.Properties cls name ⟨v, .absent, .absent, hidden, readOnly, permanent⟩
      ⟨v', .absent, .absent, hidden, readOnly, permanent⟩ :=
  of_contents (.inl h) ..

lemma data (h : W.Values v v') : W.Properties cls name (.data v) (.data v') := of_values h ..

lemma hiddenData (h : W.Values v v') : W.Properties cls name (.hiddenData v) (.hiddenData v') :=
  of_values h ..

lemma constant (h : W.Values v v') : W.Properties cls name (.constant v) (.constant v') :=
  of_values h ..

lemma isAccessor (h : W.Properties cls name p p') : p'.isAccessor = p.isAccessor := by
  unfold Property.isAccessor
  rw [h.getter, h.setter]

lemma withValue (h : W.Properties cls name p p') {cls' name' : String}
    (hv : W.Contents cls' name' v v') :
    W.Properties cls' name' { p with value := v } { p' with value := v' } :=
  ⟨h.getter, h.getter_sound, h.setter, h.setter_sound, h.hidden, h.readOnly, h.permanent, .inl hv⟩

lemma withReadOnly (h : W.Properties cls name p p') :
    W.Properties cls name { p with readOnly := true } { p' with readOnly := true } :=
  ⟨h.getter, h.getter_sound, h.setter, h.setter_sound, h.hidden, rfl, h.permanent, h.value⟩

/-- What a data property holds. -/
lemma contents (h : W.Properties cls name p p') (hp : ¬p.isAccessor = true) :
    W.Contents cls name p.value p'.value :=
  h.value.resolve_right fun hacc => hp hacc.1

/-- A property other than a message holds a value, unless it is an accessor. -/
lemma cells (h : W.Properties cls name p p') (hname : name ≠ "message") :
    W.Cells p.value p'.value := by
  rcases h.value with (hv | ⟨-, rfl, -⟩) | ⟨-, hv, hv'⟩
  · exact .inl hv
  · exact absurd rfl hname
  · exact .inr ⟨hv, hv'⟩

end Properties

/-- Two lookups find nothing, or properties that correspond. -/
def Finds (cls name : String) (found found' : Option Property) : Prop :=
  (found = none ∧ found' = none) ∨
    ∃ p p', found = some p ∧ found' = some p' ∧ W.Properties cls name p p'

namespace Listings

variable {cls name : String} {slots slots' : Slots} {p p' : Property}

lemma nil : W.Listings cls [] [] := List.Forall₂.nil

lemma find? (h : W.Listings cls slots slots') (name : String) :
    W.Finds cls name (Slots.find? name slots) (Slots.find? name slots') := by
  induction h with
  | nil => exact .inl ⟨rfl, rfl⟩
  | @cons a b _ _ hab _ ih =>
    obtain ⟨n, p⟩ := a
    obtain ⟨_, p'⟩ := b
    obtain ⟨rfl, hp⟩ := hab
    unfold Slots.find?
    dsimp only at hp ⊢
    split_ifs with hn
    · subst hn
      exact .inr ⟨p, p', rfl, rfl, hp⟩
    · exact ih

lemma put (h : W.Listings cls slots slots') (hp : W.Properties cls name p p') :
    W.Listings cls (slots.put name p) (slots'.put name p') := by
  induction h with
  | nil => exact .cons ⟨rfl, hp⟩ .nil
  | @cons a b _ _ hab hrest ih =>
    obtain ⟨n, q⟩ := a
    obtain ⟨_, q'⟩ := b
    obtain ⟨rfl, hq⟩ := hab
    unfold Slots.put
    dsimp only at hq ⊢
    split_ifs with hn
    · subst hn
      exact .cons ⟨rfl, hp⟩ hrest
    · exact .cons ⟨rfl, hq⟩ ih

lemma erase (h : W.Listings cls slots slots') (name : String) :
    W.Listings cls (slots.erase name) (slots'.erase name) := by
  induction h with
  | nil => exact .nil
  | @cons a b _ _ hab _ ih =>
    obtain ⟨n, q⟩ := a
    obtain ⟨_, q'⟩ := b
    obtain ⟨rfl, hq⟩ := hab
    unfold Slots.erase
    dsimp only at hq ⊢
    split_ifs
    · exact ih
    · exact .cons ⟨rfl, hq⟩ ih

lemma map_eq {α : Type} (h : W.Listings cls slots slots') (f : String × Property → α)
    (hf : ∀ name p p', W.Properties cls name p p' → f (name, p') = f (name, p)) :
    slots'.map f = slots.map f := by
  induction h with
  | nil => rfl
  | @cons a b _ _ hab _ ih =>
    obtain ⟨n, q⟩ := a
    obtain ⟨_, q'⟩ := b
    obtain ⟨rfl, hq⟩ := hab
    rw [List.map_cons, List.map_cons, ih, hf _ _ _ hq]

lemma names (h : W.Listings cls slots slots') : slots'.names = slots.names :=
  h.map_eq Prod.fst fun _ _ _ _ => rfl

end Listings

/-! ## Objects -/

namespace Objects

variable {o o' : Object} {name : String} {p p' : Property} {v v' : Value}

lemma blank {cls : String} {proto : Option Nat} {k k' : Label} (hcls : cls ≠ "Activation")
    (hproto : ∀ q ∈ proto, ¬W.store q) (hk : W.Labels k k') :
    W.Objects (.blank cls proto k) (.blank cls proto k') :=
  ⟨rfl, hcls, rfl, hproto, hk, rfl, by rintro v ⟨⟩, rfl, .none, .nil⟩

lemma withSlots (h : W.Objects o o') {slots slots' : Slots} (hs : W.Listings o.cls slots slots') :
    W.Objects { o with slots } { o' with slots := slots' } :=
  ⟨h.cls, h.ordinary, h.proto, h.proto_object, h.partition, h.primitive, h.wrapped, h.pattern,
    h.behaviour, hs⟩

/-- Wrappers of primitives. -/
lemma withPrimitive (h : W.Objects o o') {r : Raw} (hr : r.isPrimitive = true) :
    W.Objects { o with primitive := some r } { o' with primitive := some r } :=
  ⟨h.cls, h.ordinary, h.proto, h.proto_object, h.partition, rfl, by rintro _ ⟨⟩; exact ⟨rfl, hr⟩,
    h.pattern, h.behaviour, h.slots⟩

lemma withPattern (h : W.Objects o o') (code : Pattern.Code) :
    W.Objects { o with pattern := some code } { o' with pattern := some code } :=
  ⟨h.cls, h.ordinary, h.proto, h.proto_object, h.partition, h.primitive, h.wrapped, rfl,
    h.behaviour, h.slots⟩

lemma withBehaviour (h : W.Objects o o') {b b' : Behaviour} (hb : W.Behaviours b b') :
    W.Objects { o with behaviour := b } { o' with behaviour := b' } :=
  ⟨h.cls, h.ordinary, h.proto, h.proto_object, h.partition, h.primitive, h.wrapped, h.pattern, hb,
    h.slots⟩

lemma define (h : W.Objects o o') (hp : W.Properties o.cls name p p') :
    W.Objects (o.define name p) (o'.define name p') := h.withSlots (h.slots.put hp)

lemma find? (h : W.Objects o o') (name : String) :
    W.Finds o.cls name (Slots.find? name o.slots) (Slots.find? name o'.slots) := h.slots.find? name

lemma set (h : W.Objects o o') (hv : W.Values v v') :
    W.Objects (o.set name v) (o'.set name v') := by
  unfold Object.set
  rcases h.find? name with ⟨hn, hn'⟩ | ⟨p, p', hp, hp', hpp⟩
  · rw [hn, hn']
    exact h.define (.data hv)
  · rw [hp, hp']
    dsimp only
    rw [hpp.isAccessor]
    split_ifs
    · exact h.define (.data hv)
    · exact h.define (hpp.withValue (.inl hv))

lemma setHidden (h : W.Objects o o') (hv : W.Contents o.cls name v v') :
    W.Objects (o.setHidden name v) (o'.setHidden name v') :=
  h.define (.of_contents hv ..)

lemma text? (h : W.Objects o o') : o'.text? = o.text? := by
  unfold Object.text?
  rw [h.primitive]

lemma own? (h : W.Objects o o') (name : String) :
    W.Finds o.cls name (o.own? name) (o'.own? name) := by
  unfold Object.own?
  rw [h.text?]
  rcases h.find? name with ⟨hn, hn'⟩ | ⟨p, p', hp, hp', hpp⟩
  · rw [hn, hn']
    dsimp only
    split
    · exact .inl ⟨rfl, rfl⟩
    · rename_i s _
      split_ifs
      · exact .inr ⟨_, _, rfl, rfl, .constant (.primitive rfl)⟩
      · split
        · rename_i i _
          cases s.toList[i]? with
          | none => exact .inl ⟨rfl, rfl⟩
          | some c => exact .inr ⟨_, _, rfl, rfl, .of_values (.primitive rfl) ..⟩
        · exact .inl ⟨rfl, rfl⟩
  · rw [hp, hp']
    exact .inr ⟨p, p', rfl, rfl, hpp⟩

lemma hasOwn (h : W.Objects o o') (name : String) : o'.hasOwn name = o.hasOwn name := by
  unfold Object.hasOwn
  rcases h.own? name with ⟨hn, hn'⟩ | ⟨p, p', hp, hp', -⟩
  · rw [hn, hn']
  · rw [hp, hp']
    rfl

lemma keys (h : W.Objects o o') : o'.keys = o.keys := h.slots.names

/-- Deleting gives the same answer and objects that correspond. -/
lemma delete (h : W.Objects o o') (name : String) :
    (o'.delete name).1 = (o.delete name).1 ∧ W.Objects (o.delete name).2 (o'.delete name).2 := by
  unfold Object.delete
  rcases h.find? name with ⟨hn, hn'⟩ | ⟨p, p', hp, hp', hpp⟩
  · rw [hn, hn', h.hasOwn]
    exact ⟨rfl, h⟩
  · rw [hp, hp']
    dsimp only
    rw [hpp.permanent]
    split_ifs
    · exact ⟨rfl, h⟩
    · exact ⟨rfl, h.withSlots (h.slots.erase name)⟩

/-- What is recorded as the length of an array. -/
lemma arrayLength (h : W.Objects o o') : Heap.arrayLength o' = Heap.arrayLength o := by
  unfold Heap.arrayLength
  rcases h.find? "length" with ⟨hn, hn'⟩ | ⟨p, p', hp, hp', hpp⟩
  · rw [hn, hn']
  · rw [hp, hp']
    dsimp only
    rw [(hpp.cells (by decide)).raw]

lemma recordLength (h : W.Objects o o') (hv : W.Values v v') :
    W.Objects (Heap.recordLength o v) (Heap.recordLength o' v') := by
  unfold Heap.recordLength
  rcases h.find? "length" with ⟨hn, hn'⟩ | ⟨p, p', hp, hp', hpp⟩
  · rw [hn, hn']
    exact h
  · rw [hp, hp']
    exact h.define (hpp.withValue (.inl hv))

lemma dropFrom (h : W.Objects o o') (n : Nat) :
    W.Objects (Heap.dropFrom o n) (Heap.dropFrom o' n) := by
  unfold Heap.dropFrom
  rw [h.keys]
  generalize o.keys = names
  induction names generalizing o o' with
  | nil => exact h
  | cons name names ih =>
    rw [List.foldl_cons, List.foldl_cons]
    refine ih ?_
    split
    · split_ifs
      · exact (h.delete name).2
      · exact h
    · exact h

lemma resize (h : W.Objects o o') (n : Nat) {k k' : Label} (hk : W.Labels k k') :
    W.Objects (Heap.resize o n k) (Heap.resize o' n k') :=
  (h.dropFrom n).recordLength (.labeled (.primitive rfl) hk)

lemma extend (h : W.Objects o o') (hv : W.Values v v') :
    W.Objects (Heap.extend o name v) (Heap.extend o' name v') := by
  have hdefine : W.Objects (o.define name (.data v)) (o'.define name (.data v')) :=
    h.define (.data hv)
  unfold Heap.extend
  dsimp only
  rw [hdefine.cls, hdefine.arrayLength]
  split_ifs
  · split
    · split_ifs
      · exact hdefine.recordLength (.primitive rfl)
      · exact hdefine
    · exact hdefine
  · exact hdefine

/-- Both arrays record a length, or neither does. -/
lemma counts (h : W.Objects o o') (name : String) : Heap.counts o' name = Heap.counts o name := by
  unfold Heap.counts
  rw [h.cls]
  rcases h.find? "length" with ⟨hn, hn'⟩ | ⟨p, p', hp, hp', -⟩
  · rw [hn, hn']
  · rw [hp, hp']
    rfl

lemma functionText (h : W.Objects o o') : Heap.functionText o' = Heap.functionText o := by
  unfold Heap.functionText
  have hb := h.behaviour
  generalize o.behaviour = b at hb
  generalize o'.behaviour = b' at hb
  cases hb with
  | closure hfn => simp [hfn.code]
  | none | native | host => rfl

lemma ownListing (h : W.Objects o o') : Heap.ownListing o' = Heap.ownListing o := by
  unfold Heap.ownListing
  rw [h.text?, h.slots.map_eq (fun slot => (slot.1, !slot.2.hidden)) fun _ _ _ hp => by
    dsimp only
    rw [hp.hidden]]

/-- Arrays of elements that correspond. -/
lemma arrayOf {proto : Option Nat} (hproto : ∀ q ∈ proto, ¬W.store q) {k k' : Label}
    (hk : W.Labels k k') {vs vs' : List Value} (hvs : List.Forall₂ W.Cells vs vs') :
    W.Objects (Heap.arrayOf proto k vs) (Heap.arrayOf proto k' vs') := by
  unfold Heap.arrayOf
  dsimp only
  rw [hvs.length_eq]
  refine (blank (by decide) hproto hk).withSlots (.cons ⟨rfl, .of_values (.primitive rfl) ..⟩ ?_)
  have helements : ∀ n, W.Listings "Array"
      ((vs.zipIdx n).filterMap fun p =>
        if p.1.raw.isAbsent && !p.1.isLabeled then none
        else some (indexName p.2, Property.data p.1))
      ((vs'.zipIdx n).filterMap fun p =>
        if p.1.raw.isAbsent && !p.1.isLabeled then none
        else some (indexName p.2, Property.data p.1)) := by
    clear hk
    induction hvs with
    | nil => exact fun _ => .nil
    | cons hv _ ih =>
      intro n
      rw [List.zipIdx_cons, List.zipIdx_cons, List.filterMap_cons, List.filterMap_cons]
      dsimp only
      rcases hv with hv | ⟨rfl, rfl⟩
      · rw [hv.raw.present, hv.raw.same, hv.raw.present]
        exact .cons ⟨rfl, .data hv⟩ (ih (n + 1))
      · exact ih (n + 1)
  exact helements 0

end Objects

/-! ## Heaps -/

namespace Heaps

variable {h h' : Heap} {id : Nat}

/-- A lookup along the prototypes finds nothing, or properties that correspond on one object. -/
lemma find? (hh : W.Heaps h h') (hid : ¬W.store id) (name : String) :
    (h.find? id name = none ∧ h'.find? id name = none) ∨
      ∃ owner p p', h.find? id name = some (owner, p) ∧ h'.find? id name = some (owner, p') ∧
        ¬W.store owner ∧ W.Properties (h.get owner).cls name p p' := by
  have hwithin : ∀ fuel id, ¬W.store id →
      (Heap.findWithin h name fuel id = none ∧ Heap.findWithin h' name fuel id = none) ∨
      ∃ owner p p', Heap.findWithin h name fuel id = some (owner, p) ∧
        Heap.findWithin h' name fuel id = some (owner, p') ∧
        ¬W.store owner ∧ W.Properties (h.get owner).cls name p p' := by
    intro fuel
    induction fuel with
    | zero => exact fun _ _ => .inl ⟨rfl, rfl⟩
    | succ fuel ih =>
      intro id hid
      have ho := hh.object id hid
      unfold Heap.findWithin
      dsimp only
      rw [ho.proto]
      rcases ho.own? name with ⟨hn, hn'⟩ | ⟨p, p', hp, hp', hpp⟩
      · rw [hn, hn']
        dsimp only
        split
        · rename_i q hq
          split_ifs
          · exact ih q (ho.proto_object q hq)
          · exact .inl ⟨rfl, rfl⟩
        · exact .inl ⟨rfl, rfl⟩
      · rw [hp, hp']
        exact .inr ⟨id, p, p', rfl, rfl, hid, hpp⟩
  exact hwithin _ _ hid

lemma has (hh : W.Heaps h h') (hid : ¬W.store id) (name : String) :
    h'.has id name = h.has id name := by
  unfold Heap.has
  rcases hh.find? hid name with ⟨hn, hn'⟩ | ⟨owner, p, p', hp, hp', -⟩
  · rw [hn, hn']
  · rw [hp, hp']
    rfl

/-- The prototypes of an object are no stores, and the same on both sides. -/
lemma chain (hh : W.Heaps h h') (hid : ¬W.store id) :
    h'.chain id = h.chain id ∧ ∀ j ∈ h.chain id, ¬W.store j := by
  have hwithin : ∀ fuel id, ¬W.store id →
      Heap.chainWithin h' fuel id = Heap.chainWithin h fuel id ∧
        ∀ j ∈ Heap.chainWithin h fuel id, ¬W.store j := by
    intro fuel
    induction fuel with
    | zero => exact fun _ _ => ⟨rfl, by rintro j ⟨⟩⟩
    | succ fuel ih =>
      intro id hid
      have ho := hh.object id hid
      unfold Heap.chainWithin
      rw [ho.proto]
      split
      · rename_i q hq
        obtain ⟨heq, hrest⟩ := ih q (ho.proto_object q hq)
        split_ifs
        · exact ⟨by rw [heq], List.forall_mem_cons.2 ⟨hid, hrest⟩⟩
        · exact ⟨rfl, List.forall_mem_singleton.2 hid⟩
      · exact ⟨rfl, List.forall_mem_singleton.2 hid⟩
  exact hwithin _ _ hid

lemma enumerable (hh : W.Heaps h h') (hid : ¬W.store id) : h'.enumerable id = h.enumerable id := by
  obtain ⟨heq, hchain⟩ := hh.chain hid
  unfold Heap.enumerable
  rw [heq]
  congr 1
  exact List.flatMap_congr fun j hj => (hh.object j (hchain j hj)).ownListing

lemma sound_of_isPrimitive {r : Raw} (hr : r.isPrimitive = true) : W.Sound r := by
  rintro o rfl
  cases hr

/-- Conversions look at wrapped primitives only, which are the same on both sides. -/
lemma number (hh : W.Heaps h h') {r : Raw} (hr : W.Sound r) : h'.number r = h.number r := by
  have hwithin : ∀ fuel r, W.Sound r →
      Heap.numberWithin h' fuel r = Heap.numberWithin h fuel r := by
    intro fuel
    induction fuel with
    | zero => exact fun _ _ => rfl
    | succ fuel ih =>
      intro r hr
      cases r with
      | object o =>
        have ho := hh.object o.id (W.fits_object (hr o rfl))
        unfold Heap.numberWithin
        dsimp only
        rw [ho.primitive]
        split
        · rename_i p hp
          exact ih _ (sound_of_isPrimitive (ho.wrapped p hp).2)
        · rfl
      | _ => rfl
  unfold Heap.number
  rw [hh.size]
  exact hwithin _ r hr

lemma text (hh : W.Heaps h h') {r : Raw} (hr : W.Sound r) : h'.text r = h.text r := by
  have hwithin : ∀ fuel r, W.Sound r → Heap.textWithin h' fuel r = Heap.textWithin h fuel r := by
    intro fuel
    induction fuel with
    | zero => exact fun _ _ => rfl
    | succ fuel ih =>
      intro r hr
      cases r with
      | object o =>
        have ho := hh.object o.id (W.fits_object (hr o rfl))
        unfold Heap.textWithin
        dsimp only
        rw [ho.primitive, ho.functionText, ho.cls]
        split
        · rfl
        · rfl
        all_goals
          split
          · rename_i p hp
            exact ih _ (sound_of_isPrimitive (ho.wrapped p hp).2)
          · rfl
      | _ => rfl
  unfold Heap.text
  rw [hh.size]
  exact hwithin _ r hr

lemma word (hh : W.Heaps h h') {r : Raw} (hr : W.Sound r) : h'.word r = h.word r := by
  unfold Heap.word
  rw [hh.number hr]

lemma looselyEqual (hh : W.Heaps h h') {a b : Raw} (ha : W.Sound a) (hb : W.Sound b) :
    h'.looselyEqual a b = h.looselyEqual a b := by
  unfold Heap.looselyEqual
  rw [hh.number ha, hh.number hb]

lemma isConstructor (hh : W.Heaps h h') {r : Raw} (hr : W.Sound r) :
    h'.isConstructor r = h.isConstructor r := by
  cases r with
  | object o =>
    have hb := (hh.object o.id (W.fits_object (hr o rfl))).behaviour
    unfold Heap.isConstructor
    dsimp only
    generalize (h.get o.id).behaviour = b at hb
    generalize (h'.get o.id).behaviour = b' at hb
    cases hb <;> cases o.face <;> rfl
  | _ => rfl

/-! ## Changes -/

lemma push (hh : W.Heaps h h') {o o' : Object} (ho : ¬W.store h.size → W.Objects o o') :
    W.Heaps (h.push o) (h'.push o') := by
  refine ⟨by simp [hh.size], fun id hid => ?_⟩
  by_cases hlt : id < h.size
  · rw [Heap.get_push_lt hlt, Heap.get_push_lt (by rw [hh.size]; exact hlt)]
    exact hh.object id hid
  · by_cases heq : id = h.size
    · subst heq
      have hnew : Heap.get (h.push o) h.size = o := by simp [Heap.get, Array.getD]
      have hnew' : Heap.get (h'.push o') h.size = o' := by simp [Heap.get, Array.getD, ← hh.size]
      rw [hnew, hnew']
      exact ho hid
    · have hout := hh.object id hid
      rw [Heap.get_of_size_le (by omega), Heap.get_of_size_le (by rw [hh.size]; omega)] at hout
      rw [Heap.get_of_size_le (by simp; omega), Heap.get_of_size_le (by simp [hh.size]; omega)]
      exact hout

lemma update (hh : W.Heaps h h') {f f' : Object → Object}
    (hf : ¬W.store id → W.Objects (f (h.get id)) (f' (h'.get id))) :
    W.Heaps (h.update id f) (h'.update id f') := by
  refine ⟨by simp [hh.size], fun j hj => ?_⟩
  rw [Heap.get_update, Heap.get_update, hh.size]
  split_ifs with hc
  · obtain ⟨rfl, -⟩ := hc
    exact hf hj
  · exact hh.object j hj

/-- Changes of stores are not seen. -/
lemma of_stores (hh : W.Heaps h h') {g g' : Heap} (hsize : g.size = h.size)
    (hsize' : g'.size = h'.size) (hg : ∀ id, ¬W.store id → g.get id = h.get id)
    (hg' : ∀ id, ¬W.store id → g'.get id = h'.get id) : W.Heaps g g' :=
  ⟨by rw [hsize, hsize', hh.size], fun id hid => by
    rw [hg id hid, hg' id hid]
    exact hh.object id hid⟩

end Heaps
end World
end Clearance
