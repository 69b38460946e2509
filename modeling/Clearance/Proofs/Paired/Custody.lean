/-
# Bindings side by side

What a keeper has to know of the stores and the frames, said of single steps on them: how a name is
looked up, what opening a frame and binding a name do, and that a binding may be changed, or
deleted, on both sides at once. From this follow the operations that bind names or touch
bindings, as `Knows` wants them.
-/
import Clearance.Proofs.Paired.Sound

namespace Clearance

open Clearance.Action Script

/-! ## Frames and stores -/

/-- An object that inherits nothing, wraps nothing and does nothing. -/
structure Object.Bare (o : Object) : Prop where
  cls : o.cls ≠ "Array"
  proto : o.proto = none
  primitive : o.primitive = none
  behaviour : o.behaviour = .none

lemma Object.Bare.of_shell {o o' : Object} (h : o.Bare) (hsame : o.SameShell o') : o'.Bare :=
  ⟨by rw [hsame.cls]; exact h.cls, by rw [hsame.proto]; exact h.proto,
    by rw [hsame.primitive]; exact h.primitive, by rw [hsame.behaviour]; exact h.behaviour⟩

/-- An empty store for bindings. -/
def Object.vacant (partition : Label) : Object := .blank "Activation" none partition

/-- A frame that has the object `act` on a side. -/
def Frame.facing (side : Side) (act other : Ref) (names : List String) (parent : Nat)
    (dynamic : Bool) : Frame :=
  match side with
  | .low => ⟨act, other, names.map fun name => (name, side), some parent, dynamic⟩
  | .high => ⟨other, act, names.map fun name => (name, side), some parent, dynamic⟩

lemma own?_bare {o : Object} (hbare : o.Bare) (name : String) :
    o.own? name = Slots.find? name o.slots := by
  unfold Object.own? Object.text?
  rw [hbare.primitive]
  cases Slots.find? name o.slots <;> rfl

lemma find?_bare {h : Heap} {id : Nat} (hbare : (h.get id).Bare) (name : String) :
    h.find? id name = (Slots.find? name (h.get id).slots).map fun p => (id, p) := by
  unfold Heap.find? Heap.findWithin
  dsimp only
  rw [own?_bare hbare, hbare.proto]
  cases Slots.find? name (h.get id).slots <;> rfl

/-- What a frame has found is there. -/
lemma Frame.has_of_own {f : Frame} {h : Heap} {name : String} {side : Side}
    (hfound : (f.own h name).1 = some side) : h.has (f.store side).id name = true := by
  unfold Frame.own at hfound
  dsimp only at hfound
  split_ifs at hfound with hlive _ hhigh hlow
  · dsimp only at hfound
    rw [hfound] at hlive
    obtain ⟨p, hp⟩ := Option.isSome_iff_exists.1 hlive
    exact Option.isSome_iff_exists.2 ⟨_, Heap.find?_of_own? hp⟩
  · cases hfound
    exact hhigh
  · cases hfound
    exact hlow

/-- A store belongs to one frame at most, on one side. -/
def Frames.Apart (fs : Frames) (store : Nat → Prop) : Prop :=
  ∀ n < fs.size, ∀ m < fs.size, ∀ side side', store ((fs.get n).store side).id →
    ((fs.get m).store side').id = ((fs.get n).store side).id → m = n ∧ side' = side

namespace Frames.Apart

variable {fs : Frames} {store : Nat → Prop}

lemma mono (h : fs.Apart store) {store' : Nat → Prop} (hmono : ∀ id, store' id → store id) :
    fs.Apart store' :=
  fun n hn m hm side side' hstore => h n hn m hm side side' (hmono _ hstore)

/-- The stores of a frame stay what they are. -/
lemma set (h : fs.Apart store) {n : Nat} {f : Frame} (hf : (fs.get n).SameLinks f) :
    Frames.Apart (fs.setIfInBounds n f) store := by
  have hstore : ∀ m side, ((Frames.get (fs.setIfInBounds n f) m).store side) =
      (fs.get m).store side := by
    intro m side
    rw [Frames.get_set]
    split_ifs with hm
    · obtain ⟨rfl, -⟩ := hm
      exact hf.store side
    · rfl
  intro m hm k hk side side'
  rw [Array.size_setIfInBounds] at hm hk
  rw [hstore, hstore]
  exact h m hm k hk side side'

/-- A new frame has stores of its own. -/
lemma push (h : fs.Apart store) {f : Frame}
    (hown : ∀ side side', store (f.store side).id → (f.store side').id = (f.store side).id →
      side' = side)
    (hfree : ∀ n < fs.size, ∀ side side', store (f.store side').id →
      ((fs.get n).store side).id ≠ (f.store side').id) : Frames.Apart (fs.push f) store := by
  have hcases : ∀ n < (fs.push f).size, (n < fs.size ∧ Frames.get (fs.push f) n = fs.get n) ∨
      (n = fs.size ∧ Frames.get (fs.push f) n = f) := by
    intro n hn
    rw [Array.size_push] at hn
    by_cases hlt : n < fs.size
    · exact .inl ⟨hlt, Frames.get_push_lt hlt⟩
    · obtain rfl : n = fs.size := by omega
      exact .inr ⟨rfl, Frames.get_push_size⟩
  intro n hn m hm side side' hstore heq
  rcases hcases n hn with ⟨hn, hget⟩ | ⟨rfl, hget⟩ <;>
    rcases hcases m hm with ⟨hm, hget'⟩ | ⟨rfl, hget'⟩ <;>
    simp only [hget, hget'] at hstore heq
  · exact h n hn m hm side side' hstore heq
  · exact absurd heq.symm (hfree n hn side side' (heq.symm ▸ hstore))
  · exact absurd heq (hfree m hm side' side hstore)
  · exact ⟨rfl, hown side side' hstore heq⟩

end Frames.Apart

namespace World

variable (W : World)

/-! ## Bindings that correspond -/

/-- Bindings are data properties. -/
def Slot (p p' : Property) : Prop :=
  ∃ v v' readOnly permanent, W.Values v v' ∧ p = { Property.data v with readOnly, permanent } ∧
    p' = { Property.data v' with readOnly, permanent }

/-- What two stores hold under a name. -/
def Bound (q q' : Option Property) : Prop :=
  (q = none ∧ q' = none) ∨ ∃ p p', q = some p ∧ q' = some p' ∧ W.Slot p p'

/-- The sides on which the two machines bind a name. Where the runs meet different labels, the
second one stays low. -/
structure Sides (side side' : Side) : Prop where
  same : W.faithful → side' = side
  low : ¬W.faithful → side' = .low

/-- The partitions of two new stores. -/
inductive Rooms : Label → Label → Prop
  | bottom : Rooms W.realm.lattice.bottom W.realm.lattice.bottom
  | top : Rooms W.realm.lattice.top W.realm.lattice.top
  | context {pc pc' : Label} : W.Labels pc pc' →
      Rooms (W.realm.lattice.bottom.join pc) (W.realm.lattice.bottom.join pc')
  | crossed : ¬W.faithful → Rooms W.realm.lattice.bottom W.realm.lattice.top

/-- The store of a new frame holds bindings, and a younger one holds none. -/
structure Furnished (h h' : Heap) (act other : Ref) (names : List String) : Prop where
  act_store : W.store act.id
  other_store : W.store other.id
  older : act.id < other.id
  act_lt : act.id < h.size
  other_lt : other.id < h.size
  slots : List.Forall₂ (fun a b => b.1 = a.1 ∧ W.Slot a.2 b.2) (h.get act.id).slots
    (h'.get act.id).slots
  listed : ∀ name, Slots.find? name (h.get act.id).slots ≠ none → name ∈ names
  other_slots : (h.get other.id).slots = []
  other_slots' : (h'.get other.id).slots = []

/-- New frames: of a function or a catch clause, or of an object. -/
inductive Opened (h h' : Heap) : Frame → Frame → Prop
  | plain {side side' : Side} {act other : Ref} {names : List String} {parent : Nat} :
      W.Sides side side' → W.Furnished h h' act other names →
      W.left.mem (h.get (Frame.facing side act other names parent false).low.id).partition →
      W.right.mem (h'.get (Frame.facing side' act other names parent false).low.id).partition →
      Opened h h' (.facing side act other names parent false)
        (.facing side' act other names parent false)
  | object {side side' : Side} {o store : Ref} {parent : Nat} : W.Sides side side' →
      W.fits o → W.store store.id → store.id < h.size → (h.get store.id).slots = [] →
      (h'.get store.id).slots = [] →
      (W.store (Frame.facing side o store [] parent true).low.id →
        W.left.mem (h.get store.id).partition) →
      Opened h h' (.facing side o store [] parent true) (.facing side' o store [] parent true)

/-- What two frames have found under a name. -/
inductive Owns (f f' : Frame) (name : String) : Option Side → Option Side → Prop
  | none : Owns f f' name none none
  | some {side side' : Side} :
      W.Places ⟨some (f.store side), name⟩ ⟨some (f'.store side'), name⟩ →
      Owns f f' name (some side) (some side')

/-- The stores that frames refer to exist. -/
def Bounded (s : Store) : Prop :=
  ∀ n < s.frames.size, ∀ side, W.store ((s.frames.get n).store side).id →
    ((s.frames.get n).store side).id < s.heap.size

variable {W}

/-- A new frame has two stores, or an object and a store. -/
lemma Opened.own {h h' : Heap} {f f' : Frame} (hopened : W.Opened h h' f f') {side side' : Side}
    (hstore : W.store (f.store side).id) (heq : (f.store side').id = (f.store side).id) :
    side' = side := by
  cases hopened with
  | @plain s s' act other names parent _ hfurnished _ _ =>
    have holder := hfurnished.older
    cases s <;> cases side <;> cases side' <;> simp only [Frame.facing, Frame.store] at heq ⊢ <;>
      omega
  | @object s s' o store parent _ ho hstore' _ _ _ _ =>
    have hne : o.id ≠ store.id := fun hid => W.fits_object ho (hid ▸ hstore')
    cases s <;> cases side <;> cases side' <;> simp only [Frame.facing, Frame.store] at heq ⊢ <;>
      omega

lemma Labels.sides {pc pc' : Label} (h : W.Labels pc pc') :
    W.Sides (Frame.sideAt pc) (Frame.sideAt pc') := by
  refine ⟨fun hf => by rw [h.same hf], fun hf => ?_⟩
  have hheight := W.right_calm hf pc' h.right
  unfold Frame.sideAt
  rw [if_neg]
  rw [Label.less_iff, hheight, Label.height_none]
  omega

lemma Slot.properties {cls name : String} {p p' : Property} (h : W.Slot p p') :
    W.Properties cls name p p' := by
  obtain ⟨v, v', readOnly, permanent, hv, rfl, rfl⟩ := h
  exact .of_values hv ..

lemma Slot.isAccessor {p p' : Property} (h : W.Slot p p') :
    p.isAccessor = false ∧ p'.isAccessor = false := by
  obtain ⟨v, v', readOnly, permanent, -, rfl, rfl⟩ := h
  exact ⟨rfl, rfl⟩

lemma Slot.value {p p' : Property} (h : W.Slot p p') : W.Values p.value p'.value := by
  obtain ⟨v, v', readOnly, permanent, hv, rfl, rfl⟩ := h
  exact hv

lemma Slot.withValue {p p' : Property} (h : W.Slot p p') {v v' : Value} (hv : W.Values v v') :
    W.Slot { p with value := v } { p' with value := v' } := by
  obtain ⟨_, _, readOnly, permanent, -, rfl, rfl⟩ := h
  exact ⟨v, v', readOnly, permanent, hv, rfl, rfl⟩

lemma Slot.frozen {p p' : Property} (h : W.Slot p p') :
    W.Slot { p with readOnly := true } { p' with readOnly := true } := by
  obtain ⟨v, v', readOnly, permanent, hv, rfl, rfl⟩ := h
  exact ⟨v, v', true, permanent, hv, rfl, rfl⟩

lemma Slot.data {v v' : Value} (h : W.Values v v') : W.Slot (.data v) (.data v') :=
  ⟨v, v', false, false, h, rfl, rfl⟩

end World

namespace Keeper

variable {W : World}

/-- The next frame: it has an object and a store, or two stores, of which the first one is older. -/
structure Foreseen (K : Keeper W) (s : Store) (side : Side) (act other : Ref) (names : List String)
    (dynamic : Bool) : Prop where
  tidy : ∃ (t : Store) (parent : Nat), K.tidy t ∧
    t.frames = s.frames.push (.facing side act other names parent dynamic)
  act_store : W.store act.id ↔ dynamic = false
  older : dynamic = false → act.id < other.id

/-- The next store is the second one of the next frame. -/
def Spare (K : Keeper W) (s : Store) : Prop := ∃ side act names dynamic,
  K.Foreseen s side act ⟨s.heap.size, .plain⟩ names dynamic

/-- How bindings are kept, one step at a time. -/
structure Custody (K : Keeper W) : Prop where
  /-- The frame of a number that there is none of yet has no stores. -/
  zero_object : ¬W.store 0
  frames_size : ∀ {s s' : Store}, K.kept s s' → s'.frames.size = s.frames.size
  parent : ∀ {s s' : Store}, K.kept s s' → ∀ n, (s'.frames.get n).parent = (s.frames.get n).parent
  bounded : ∀ {s s' : Store}, K.kept s s' → W.Bounded s ∧ W.Bounded s'
  bare : ∀ {s s' : Store}, K.kept s s' → ∀ id, W.store id →
    (s.heap.get id).Bare ∧ (s'.heap.get id).Bare
  activation : ∀ {s s' : Store}, K.kept s s' → ∀ id, W.store id → id < s.heap.size →
    (s.heap.get id).cls = "Activation" ∧ (s'.heap.get id).cls = "Activation"
  /-- A name is looked up in a frame, which drops a stale entry. -/
  own : ∀ {s s' : Store}, K.kept s s' → W.Heaps s.heap s'.heap → ∀ n name,
    W.Owns (s.frames.get n) (s'.frames.get n) name ((s.frames.get n).own s.heap name).1
        ((s'.frames.get n).own s'.heap name).1 ∧
      K.kept
        { s with frames := s.frames.setIfInBounds n ((s.frames.get n).own s.heap name).2 }
        { s' with frames := s'.frames.setIfInBounds n ((s'.frames.get n).own s'.heap name).2 }
  /-- A name that has been bound is bound where it may be. -/
  agrees_of_bound : ∀ {s s' t : Store} {pc pc' : Label} {n : Nat} {name : String}, K.kept s s' →
    W.Labels pc pc' → K.tidy t → s.Precedes t → n < s.frames.size →
    (t.frames.get n).index.lookup name = some (Frame.sideAt pc) →
      K.agrees n name (Frame.sideAt pc) (Frame.sideAt pc')
  places : ∀ {s s' : Store} {n : Nat} {name : String} {side side' : Side}, K.kept s s' →
    n < s.frames.size → K.agrees n name side side' →
      W.Places ⟨some ((s.frames.get n).store side), name⟩
        ⟨some ((s'.frames.get n).store side'), name⟩
  places_of_held : ∀ {s s' : Store} {pc pc' : Label} {n : Nat} {name : String}, K.kept s s' →
    W.Labels pc pc' → n < s.frames.size →
    (s.heap.get ((s.frames.get n).store (Frame.sideAt pc)).id).hasOwn name = true →
      W.Places ⟨some ((s.frames.get n).store (Frame.sideAt pc)), name⟩
        ⟨some ((s'.frames.get n).store (Frame.sideAt pc')), name⟩
  cell : ∀ {s s' : Store} {S S' : Ref} {name : String}, K.kept s s' → W.partner S S' name →
    W.Bound (Slots.find? name (s.heap.get S.id).slots) (Slots.find? name (s'.heap.get S'.id).slots)
  partition : ∀ {s s' : Store} {S S' : Ref} {name : String}, K.kept s s' →
    W.partner S S' name → W.Labels (s.heap.get S.id).partition (s'.heap.get S'.id).partition
  put : ∀ {s s' : Store} {S S' : Ref} {name : String} {p p' : Property}, K.kept s s' →
    W.partner S S' name → W.Slot p p' → (¬W.faithful → S.id < s.heap.size) →
      K.kept { s with heap := s.heap.update S.id (·.define name p) }
        { s' with heap := s'.heap.update S'.id (·.define name p') }
  erase : ∀ {s s' : Store} {S S' : Ref} {name : String}, K.kept s s' → W.partner S S' name →
    K.kept { s with heap := s.heap.update S.id fun _ => ((s.heap.get S.id).delete name).2 }
      { s' with heap := s'.heap.update S'.id fun _ => ((s'.heap.get S'.id).delete name).2 }
  bind : ∀ {s s' : Store} {n : Nat} {name : String} {side side' : Side}, K.kept s s' →
    K.agrees n name side side' →
      K.kept
        { s with frames := s.frames.setIfInBounds n ((s.frames.get n).bind name side) }
        { s' with frames := s'.frames.setIfInBounds n ((s'.frames.get n).bind name side') }
  /-- A new store has a label that the second machine meets, or it is not used by it. -/
  push : ∀ {s s' : Store} {part part' : Label}, K.kept s s' → s'.heap.size = s.heap.size →
    W.Rooms part part' → K.Due { s with heap := s.heap.push (.vacant part) } →
    (W.right.mem part' ∨ K.Spare s) →
      K.kept { s with heap := s.heap.push (.vacant part) }
        { s' with heap := s'.heap.push (.vacant part') }
  /-- The store of a frame to come, to which no frame refers, is filled. -/
  fill : ∀ {s s' : Store} {side : Side} {act other : Ref} {names : List String}
    {f f' : Object → Object}, K.kept s s' → W.store act.id → W.store other.id →
    K.Foreseen s side act other names false →
    (s.heap.get act.id).slots = [] → (s'.heap.get act.id).slots = [] →
    (s.heap.get act.id).SameShell (f (s.heap.get act.id)) →
    (s'.heap.get act.id).SameShell (f' (s'.heap.get act.id)) →
    W.left.mem (s.heap.get act.id).partition →
    List.Forall₂ (fun a b => b.1 = a.1 ∧ W.Slot a.2 b.2) (f (s.heap.get act.id)).slots
      (f' (s'.heap.get act.id)).slots →
    (∀ name, Slots.find? name (f (s.heap.get act.id)).slots ≠ none → name ∈ names) →
      K.kept { s with heap := s.heap.update act.id f } { s' with heap := s'.heap.update act.id f' }
  addFrame : ∀ {s s' : Store} {f f' : Frame}, K.kept s s' → W.Opened s.heap s'.heap f f' →
    (∀ n < s.frames.size, ∀ side side', W.store (f.store side').id →
      ((s.frames.get n).store side).id ≠ (f.store side').id) →
    K.Due { s with frames := s.frames.push f } → (∀ m ∈ f.parent, W.frame m) →
    K.tidy { s with frames := s.frames.push f } →
      K.kept { s with frames := s.frames.push f } { s' with frames := s'.frames.push f' }
  message : ¬W.faithful → ∀ {M L} {o : Ref} {k k' : Label}, K.Serves M → W.fits o →
    W.Labels k k' → K.Runs M L (Operand.place ⟨some o, "message"⟩ k).resolve
      (Operand.place ⟨some o, "message"⟩ k').resolve W.Ratings
  source : ¬W.faithful → ∀ {M L} {o : Ref},
    K.Runs M L (readQuietly o "source") (readQuietly o "source") W.Cells →
      K.Runs M L (readQuietly o "source") (readQuietly o "source") fun v v' =>
        W.Cells v v' ∧ v'.isUndefined = v.isUndefined

variable {K : Keeper W}

/-! ## Lookups -/

/-- What two lookups have found. -/
inductive Found (W : World) (fs fs' : Frames) (name : String) :
    Option (Nat × Side) → Option (Nat × Side) → Prop
  | none : Found W fs fs' name none none
  | some {n : Nat} {side side' : Side} :
      W.Places ⟨some ((fs.get n).store side), name⟩ ⟨some ((fs'.get n).store side'), name⟩ →
      Found W fs fs' name (some (n, side)) (some (n, side'))

lemma store_set {fs : Frames} {n : Nat} {f : Frame} (hf : (fs.get n).SameLinks f) (side : Side) :
    (Frames.get (fs.setIfInBounds n f) n).store side = (fs.get n).store side := by
  rw [Frames.get_set]
  split_ifs
  · exact hf.store side
  · rfl

/-- Names are looked up in step. -/
lemma Custody.lookup (hC : K.Custody) (name : String) (fuel n : Nat) {s s' : Store}
    (hkept : K.kept s s') (hheaps : W.Heaps s.heap s'.heap) :
    Found W (s.frames.lookupWithin s.heap name fuel n).2
        (s'.frames.lookupWithin s'.heap name fuel n).2 name
        (s.frames.lookupWithin s.heap name fuel n).1
        (s'.frames.lookupWithin s'.heap name fuel n).1 ∧
      K.kept { s with frames := (s.frames.lookupWithin s.heap name fuel n).2 }
        { s' with frames := (s'.frames.lookupWithin s'.heap name fuel n).2 } := by
  induction fuel generalizing n s s' with
  | zero => exact ⟨.none, hkept⟩
  | succ fuel ih =>
    obtain ⟨howns, hset⟩ := hC.own hkept hheaps n name
    have hlinks := (s.frames.get n).links_own s.heap name
    have hlinks' := (s'.frames.get n).links_own s'.heap name
    have hparent : ((s'.frames.get n).own s'.heap name).2.parent =
        ((s.frames.get n).own s.heap name).2.parent := by
      rw [hlinks'.parent, hlinks.parent]
      exact hC.parent hkept n
    rw [Frames.lookupWithin_succ, Frames.lookupWithin_succ]
    generalize hown : (s.frames.get n).own s.heap name = found at *
    generalize hown' : (s'.frames.get n).own s'.heap name = found' at *
    obtain ⟨side?, f⟩ := found
    obtain ⟨side?', f'⟩ := found'
    dsimp only at howns hset hlinks hlinks' hparent
    cases howns with
    | some hplaces =>
      refine ⟨.some ?_, hset⟩
      rw [store_set hlinks, store_set hlinks']
      exact hplaces
    | none =>
      dsimp only
      rw [hparent]
      cases f.parent with
      | none => exact ⟨.none, hset⟩
      | some p =>
        dsimp only
        split_ifs
        · exact ih p hset hheaps
        · exact ⟨.none, hset⟩

end Keeper
end Clearance
