/-
# Where the other machine binds names

The second machine drops labels, so its program counter never rises and it binds all names of a
frame on the low side. The first machine binds some names in the one store of the frame and some in
the other. What the low side of the second machine is depends on how the frame was opened: it is the
object of the frame, or that one of its stores that was made first. This is the seat of the frame,
and the first machine has it on some side, the face of the frame. The names that the first machine
binds in the other store are bound in the seat, too, by the second one.

So a name of the first machine corresponds to the same name in the seat (`Stocked.cell`), as long as
the first machine always binds it on the same side.
-/
import Clearance.Proofs.Names
import Clearance.Proofs.Paired.Opening

namespace Clearance

open Clearance.Action Script

/-- The other side. -/
def Side.other : Side → Side
  | .low => .high
  | .high => .low

lemma Side.other_ne (side : Side) : side.other ≠ side := by cases side <;> decide

lemma Side.eq_or_eq_other (side side' : Side) : side' = side ∨ side' = side.other := by
  cases side <;> cases side' <;> decide

/-! ## The face of a frame -/

namespace Setting

variable (A : Setting)

instance : DecidablePred A.store := fun _ => inferInstanceAs (Decidable (_ ∨ _))

/-- The side of the object of a frame, or of the older one of its two stores. -/
def face (f : Frame) : Side :=
  if A.store f.low.id ∧ (A.store f.high.id → f.high.id < f.low.id) then .high else .low

variable {A} {f : Frame}

/-- A new frame faces the object or the store that it is opened with. -/
lemma face_facing {side : Side} {act other : Ref} {names : List String} {parent : Nat}
    {dynamic : Bool} (hact : A.store act.id ↔ dynamic = false) (hother : A.store other.id)
    (holder : dynamic = false → act.id < other.id) :
    A.face (.facing side act other names parent dynamic) = side := by
  cases side with
  | low =>
    refine if_neg fun ⟨hstore, hless⟩ => ?_
    have hlt : other.id < act.id := hless hother
    have hlt' := holder (hact.1 hstore)
    omega
  | high => exact if_pos ⟨hother, fun hstore => holder (hact.1 hstore)⟩

lemma face_congr {g : Frame} (h : f.SameLinks g) : A.face g = A.face f := by
  unfold face
  rw [h.low, h.high]

/-- Where there is no object, both sides have stores, and the one faced is older. -/
lemma store_of_face (h : A.store (f.store (A.face f)).id) (side : Side) :
    A.store (f.store side).id ∧ (f.store (A.face f)).id ≤ (f.store side).id := by
  unfold face at h ⊢
  split_ifs at h ⊢ with hhigh
  · obtain ⟨hlow, hless⟩ := hhigh
    have hlt := hless h
    cases side with
    | low => exact ⟨hlow, Nat.le_of_lt hlt⟩
    | high => exact ⟨h, Nat.le_refl _⟩
  · have hother : A.store f.high.id ∧ ¬f.high.id < f.low.id :=
      Classical.not_imp.1 fun hless => hhigh ⟨h, hless⟩
    cases side with
    | low => exact ⟨h, Nat.le_refl _⟩
    | high => exact ⟨hother.1, Nat.le_of_not_lt hother.2⟩

end Setting

/-! ## Runs whose labels are dropped -/

/-- A run that is followed up to a store, with any labels. The stores of its frames belong to one
frame each, and each name of a frame is to be bound on one side. -/
structure Erasing extends Setting where
  side : Nat → String → Side
  meets : ∀ k : Label, k.leq realm.lattice.top = true → grade.mem k
  apart : last.frames.Apart toSetting.store
  there : ∀ n < last.frames.size, ∀ side, toSetting.store ((last.frames.get n).store side).id →
    ((last.frames.get n).store side).id < last.heap.size

namespace Erasing

variable (A : Erasing)

/-- The side on which the first machine has what the second one binds names in. -/
def face (n : Nat) : Side := A.toSetting.face (A.last.frames.get n)

/-- What the second machine binds the names of a frame in. -/
def seat (n : Nat) : Ref := (A.last.frames.get n).store (A.face n)

/-- What the second machine binds no names in. -/
def back (n : Nat) : Ref := (A.last.frames.get n).store (A.face n).other

/-- What the first machine binds a name in. -/
def home (n : Nat) (name : String) : Ref := (A.last.frames.get n).store (A.side n name)

/-- The second machine drops labels, and meets none but the least one. -/
def world : World where
  realm := A.realm
  left := A.grade
  right := .lowest A.realm.lattice
  faithful := False
  lax := True
  store := A.store
  fits := A.toSetting.world.fits
  frame := A.toSetting.world.frame
  partner S S' name := ∃ n < A.last.frames.size, A.store (A.seat n).id ∧ S = A.home n name ∧
    S' = A.seat n
  named _ := True
  allowed _ := True
  rewrite := A.realm.lattice.erase
  reader := Reader.erasing A.realm.lattice
  fits_object := A.toSetting.world.fits_object
  fits_plain := A.toSetting.world.fits_plain
  global_object := A.toSetting.world.global_object
  global_frame := A.toSetting.world.global_frame
  protos_objects := A.toSetting.world.protos_objects
  right_calm _ := Grade.calm_lowest _
  partner_store := by
    rintro _ _ name ⟨n, -, hseat, rfl, rfl⟩
    exact ⟨(Setting.store_of_face hseat _).1, hseat⟩
  rewrite_other _ h := A.realm.lattice.erase_of_ne h
  named_of_allowed _ := trivial
  proper h := absurd trivial h
  rewrite_label s name operand _ := by
    cases hname : A.realm.lattice.lookup? name with
    | none =>
      refine .inl ⟨?_, by rintro k ⟨⟩⟩
      simp only [Lattice.erase, hname, Option.isSome_none, Bool.false_eq_true, if_false]
    | some k =>
      refine .inr ⟨?_, id, k, rfl, A.meets k (A.realm.lattice.leq_top_of_lookup hname)⟩
      simp only [Lattice.erase, hname, Option.isSome_some, if_true]
  reader_eq _ _ := rfl

variable {A} {n m : Nat} {name : String} {side side' : Side}

/-- A store belongs to one frame, on one side. -/
lemma eq_of_id (hn : n < A.last.frames.size) (hm : m < A.last.frames.size)
    (hstore : A.store ((A.last.frames.get n).store side).id)
    (heq : ((A.last.frames.get m).store side').id = ((A.last.frames.get n).store side).id) :
    m = n ∧ side' = side := A.apart n hn m hm side side' hstore heq

lemma store_home (hseat : A.store (A.seat n).id) (name : String) : A.store (A.home n name).id :=
  (Setting.store_of_face hseat _).1

lemma seat_le_home (hseat : A.store (A.seat n).id) (name : String) :
    (A.seat n).id ≤ (A.home n name).id := (Setting.store_of_face hseat _).2

/-! ## Stores -/

variable (A) in
/-- What is known of the stores of both machines, those of frames to come included. -/
structure Stocked (h h' : Heap) : Prop where
  size : ∀ id, A.store id → (id < h'.size ↔ id < h.size)
  bare : ∀ id, A.store id → (h.get id).Bare ∧ (h'.get id).Bare
  activation : ∀ id, A.store id → id < h.size →
    (h.get id).cls = "Activation" ∧ (h'.get id).cls = "Activation"
  below : ∀ id, A.store id → (h.get id).partition.leq A.realm.lattice.top = true
  low : ∀ n < A.last.frames.size, A.store (A.seat n).id →
    A.realm.lattice.Low (h'.get (A.seat n).id).partition
  cell : ∀ n < A.last.frames.size, A.store (A.seat n).id → ∀ name,
    A.world.Bound (Slots.find? name (h.get (A.home n name).id).slots)
      (Slots.find? name (h'.get (A.seat n).id).slots)
  /-- A store holds no name that the first machine binds elsewhere. -/
  idle : ∀ n < A.last.frames.size, ∀ side, A.store ((A.last.frames.get n).store side).id → ∀ name,
    (A.store (A.seat n).id → side ≠ A.side n name) →
      Slots.find? name (h.get ((A.last.frames.get n).store side).id).slots = none
  spare : ∀ n < A.last.frames.size, A.store (A.back n).id → (h'.get (A.back n).id).slots = []

namespace Stocked

variable {g g' h h' : Heap}

lemma congr (hA : A.Stocked h h') (hget : ∀ id, A.store id → g.get id = h.get id)
    (hget' : ∀ id, A.store id → g'.get id = h'.get id)
    (hsize : ∀ id, A.store id → (id < g.size ↔ id < h.size))
    (hsize' : ∀ id, A.store id → (id < g'.size ↔ id < h'.size)) : A.Stocked g g' where
  size id hid := by rw [hsize id hid, hsize' id hid, hA.size id hid]
  bare id hid := by
    rw [hget id hid, hget' id hid]
    exact hA.bare id hid
  activation id hid hlt := by
    rw [hget id hid, hget' id hid]
    exact hA.activation id hid ((hsize id hid).1 hlt)
  below id hid := by
    rw [hget id hid]
    exact hA.below id hid
  low n hn hseat := by
    rw [hget' _ hseat]
    exact hA.low n hn hseat
  cell n hn hseat name := by
    rw [hget _ (store_home hseat name), hget' _ hseat]
    exact hA.cell n hn hseat name
  idle n hn side hstore name := by
    rw [hget _ hstore]
    exact hA.idle n hn side hstore name
  spare n hn hback := by
    rw [hget' _ hback]
    exact hA.spare n hn hback

/-- The objects are the same but for what they hold. -/
lemma reshape (hA : A.Stocked h h') (hsize : g.size = h.size) (hsize' : g'.size = h'.size)
    (hsame : ∀ id, (h.get id).SameShell (g.get id))
    (hsame' : ∀ id, (h'.get id).SameShell (g'.get id))
    (hcell : ∀ n < A.last.frames.size, A.store (A.seat n).id → ∀ name,
      A.world.Bound (Slots.find? name (g.get (A.home n name).id).slots)
        (Slots.find? name (g'.get (A.seat n).id).slots))
    (hidle : ∀ n < A.last.frames.size, ∀ side, A.store ((A.last.frames.get n).store side).id →
      ∀ name, (A.store (A.seat n).id → side ≠ A.side n name) →
        Slots.find? name (g.get ((A.last.frames.get n).store side).id).slots = none)
    (hspare : ∀ n < A.last.frames.size, A.store (A.back n).id → (g'.get (A.back n).id).slots = []) :
    A.Stocked g g' := by
  refine ⟨fun id hid => ?_, fun id hid => ?_, fun id hid hlt => ?_, fun id hid => ?_,
    fun m hm hseat => ?_, hcell, hidle, hspare⟩
  · rw [hsize, hsize']
    exact hA.size id hid
  · exact (hA.bare id hid).imp (·.of_shell (hsame id)) (·.of_shell (hsame' id))
  · rw [hsize] at hlt
    rw [(hsame id).cls, (hsame' id).cls]
    exact hA.activation id hid hlt
  · rw [(hsame id).partition]
    exact hA.below id hid
  · rw [(hsame' _).partition]
    exact hA.low m hm hseat

/-- One object is changed, but for what it holds it stays the same. -/
lemma sameShell_of_get {id : Nat} {o : Object}
    (hget : ∀ j, g.get j = if j = id then o else h.get j) (hshell : (h.get id).SameShell o) :
    ∀ j, (h.get j).SameShell (g.get j) := by
  intro j
  rw [hget]
  split_ifs with hj
  · exact hj ▸ hshell
  · exact .refl _

/-- What the second machine binds no names in is no seat. -/
lemma back_ne_seat (hn : n < A.last.frames.size) (hseat : A.store (A.seat n).id)
    (hm : m < A.last.frames.size) : (A.back m).id ≠ (A.seat n).id := by
  intro heq
  obtain ⟨rfl, hface⟩ := eq_of_id hn hm hseat heq
  exact (A.face m).other_ne hface

section

variable (hA : A.Stocked h h') (hn : n < A.last.frames.size) (hseat : A.store (A.seat n).id)
  {o o' : Object} (hget' : ∀ id, g'.get id = if id = (A.seat n).id then o' else h'.get id)
  (hsize : g.size = h.size) (hsize' : g'.size = h'.size)
  (hshell' : (h'.get (A.seat n).id).SameShell o')
include hA hn hseat hget' hsize hsize' hshell'

/-- A name is written or deleted, where the first machine binds it and in the seat. -/
lemma write (hget : ∀ id, g.get id = if id = (A.home n name).id then o else h.get id)
    (hshell : (h.get (A.home n name).id).SameShell o)
    (hkeeps : ∀ x ≠ name, Slots.find? x o.slots = Slots.find? x (h.get (A.home n name).id).slots)
    (hkeeps' : ∀ x ≠ name, Slots.find? x o'.slots = Slots.find? x (h'.get (A.seat n).id).slots)
    (hbound : A.world.Bound (Slots.find? name o.slots) (Slots.find? name o'.slots)) :
    A.Stocked g g' := by
  refine hA.reshape hsize hsize' (sameShell_of_get hget hshell) (sameShell_of_get hget' hshell')
    (fun m hm hseat' x => ?_) (fun m hm side hstore x hside => ?_) fun m hm hback => ?_
  · -- the name itself, the other names of the frame, and other frames
    by_cases hmn : m = n
    · subst hmn
      by_cases hx : x = name
      · subst hx
        rw [hget, hget', if_pos rfl, if_pos rfl]
        exact hbound
      · have hleft : Slots.find? x (g.get (A.home m x).id).slots =
            Slots.find? x (h.get (A.home m x).id).slots := by
          rw [hget]
          split_ifs with hid
          · rw [hkeeps x hx, hid]
          · rfl
        rw [hleft, hget', if_pos rfl, hkeeps' x hx]
        exact hA.cell m hm hseat' x
    · have hother : (A.home m x).id ≠ (A.home n name).id := fun heq =>
        hmn (eq_of_id hn hm (store_home hseat name) heq).1
      have hother' : (A.seat m).id ≠ (A.seat n).id := fun heq => hmn (eq_of_id hn hm hseat heq).1
      rw [hget, hget', if_neg hother, if_neg hother']
      exact hA.cell m hm hseat' x
  · have hleft : Slots.find? x (g.get ((A.last.frames.get m).store side).id).slots =
        Slots.find? x (h.get ((A.last.frames.get m).store side).id).slots := by
      rw [hget]
      split_ifs with hid
      · obtain ⟨rfl, rfl⟩ := eq_of_id hn hm (store_home hseat name) hid
        have hx : x ≠ name := fun hx => hside hseat (by rw [hx])
        rw [hkeeps x hx, hid]
      · rfl
    rw [hleft]
    exact hA.idle m hm side hstore x hside
  · rw [hget', if_neg (back_ne_seat hn hseat hm)]
    exact hA.spare m hm hback

/-- The store of a frame to come, which is empty, is filled with names that are to be bound in
it. -/
lemma fill (hget : ∀ id, g.get id = if id = (A.seat n).id then o else h.get id)
    (hshell : (h.get (A.seat n).id).SameShell o) (hempty : (h'.get (A.seat n).id).slots = [])
    (hbound : ∀ x, A.world.Bound (Slots.find? x o.slots) (Slots.find? x o'.slots))
    (hface : ∀ x, Slots.find? x o.slots ≠ none → A.side n x = A.face n) : A.Stocked g g' := by
  refine hA.reshape hsize hsize' (sameShell_of_get hget hshell) (sameShell_of_get hget' hshell')
    (fun m hm hseat' x => ?_) (fun m hm side hstore x hside => ?_) fun m hm hback => ?_
  · by_cases hmn : m = n
    · subst hmn
      have hcell := hA.cell m hm hseat' x
      by_cases hx : A.side m x = A.face m
      · have hhome : A.home m x = A.seat m := by rw [home, hx, seat]
        rw [hget, hget', hhome, if_pos rfl, if_pos rfl]
        exact hbound x
      · -- the name is bound in the other store, and neither machine has it yet
        have hother : (A.home m x).id ≠ (A.seat m).id := fun heq =>
          hx (eq_of_id hn hm hseat heq).2
        have hnone : Slots.find? x o.slots = none := by_contra fun hne => hx (hface x hne)
        have hnone' : Slots.find? x o'.slots = none := by
          rcases hbound x with ⟨-, h⟩ | ⟨p, _, hp, -⟩
          · exact h
          · rw [hnone] at hp
            cases hp
        rw [hempty] at hcell
        rw [hget, hget', if_neg hother, if_pos rfl, hnone']
        exact hcell
    · have hother : (A.home m x).id ≠ (A.seat n).id := fun heq => hmn (eq_of_id hn hm hseat heq).1
      have hother' : (A.seat m).id ≠ (A.seat n).id := fun heq => hmn (eq_of_id hn hm hseat heq).1
      rw [hget, hget', if_neg hother, if_neg hother']
      exact hA.cell m hm hseat' x
  · rw [hget]
    split_ifs with hid
    · obtain ⟨rfl, rfl⟩ := eq_of_id hn hm hseat hid
      exact by_contra fun hne => hside hseat (hface x hne).symm
    · exact hA.idle m hm side hstore x hside
  · rw [hget', if_neg (back_ne_seat hn hseat hm)]
    exact hA.spare m hm hback

end

/-- A new store. The second machine meets its label, or it is the seat of no frame. -/
lemma push (hA : A.Stocked h h') (hsize : h'.size = h.size) {part part' : Label}
    (hbelow : part.leq A.realm.lattice.top = true)
    (hlow : A.realm.lattice.Low part' ∨ ∀ n < A.last.frames.size, (A.seat n).id ≠ h.size) :
    A.Stocked (h.push (.vacant part)) (h'.push (.vacant part')) := by
  have hget : ∀ (g : Heap) part id, Heap.get (g.push (.vacant part)) id =
      if id = g.size then .vacant part else g.get id := by
    intro g part id
    split_ifs with hid
    · rw [hid, Heap.get_push_size]
    · exact Heap.get_push_ne hid
  -- a new store and what is not there yet are alike empty
  have hslots : ∀ (g : Heap) part id, (Heap.get (g.push (.vacant part)) id).slots =
      (g.get id).slots := by
    intro g part id
    rw [hget]
    split_ifs with hid
    · rw [hid, Heap.get_of_size_le (Nat.le_refl _)]
      rfl
    · rfl
  have hbare : ∀ part, (Object.vacant part).Bare := fun part =>
    ⟨by simp [Object.vacant, Object.blank], rfl, rfl, rfl⟩
  refine ⟨fun id _ => ?_, fun id hid => ?_, fun id hid hlt => ?_, fun id hid => ?_,
    fun n hn hseat => ?_, fun n hn hseat x => ?_, fun n hn side hstore x hside => ?_,
    fun n hn hback => ?_⟩
  · rw [Array.size_push, Array.size_push, hsize]
  · obtain ⟨hb, hb'⟩ := hA.bare id hid
    rw [hget, hget]
    split_ifs
    · exact ⟨hbare _, hbare _⟩
    · exact ⟨hbare _, hb'⟩
    · exact ⟨hb, hbare _⟩
    · exact ⟨hb, hb'⟩
  · rw [hget, hget, hsize]
    split_ifs with hid'
    · exact ⟨rfl, rfl⟩
    · rw [Array.size_push] at hlt
      exact hA.activation id hid (by omega)
  · rw [hget]
    split_ifs
    · exact hbelow
    · exact hA.below id hid
  · rw [hget]
    split_ifs with hid
    · exact hlow.resolve_right fun hne => hne n hn (hid.trans hsize)
    · exact hA.low n hn hseat
  · rw [hslots, hslots]
    exact hA.cell n hn hseat x
  · rw [hslots]
    exact hA.idle n hn side hstore x hside
  · rw [hslots]
    exact hA.spare n hn hback

end Stocked

/-! ## Frames -/

variable (A) in
/-- The sides on which a name may be bound. If the frame has an object, it is bound there. -/
def Agrees (n : Nat) (name : String) (side side' : Side) : Prop :=
  side = A.side n name ∧ side' = .low ∧ (¬A.store (A.seat n).id → side = A.face n)

variable (A) in
/-- The entries for a name in the indices of a frame. -/
def Entries (n : Nat) (name : String) (entry entry' : Option Side) : Prop :=
  (entry = none ∧ entry' = none) ∨
    ∃ side side', entry = some side ∧ entry' = some side' ∧ A.Agrees n name side side'

variable (A) in
/-- The frame that the second machine has for a frame. -/
structure Faces (n : Nat) (f f' : Frame) : Prop where
  links : f.SameLinks (A.last.frames.get n)
  low : f'.low = A.seat n
  high : f'.high = A.back n
  parent : f'.parent = f.parent
  dynamic : f'.dynamic = f.dynamic
  entries : ∀ name, A.Entries n name (f.index.lookup name) (f'.index.lookup name)
  fits : ¬A.store (A.seat n).id → A.world.fits (A.seat n)
  back : A.store (A.back n).id
  object : A.store (A.seat n).id ↔ f.dynamic = false

namespace Faces

variable {f f' : Frame}

lemma store (h : A.Faces n f f') (side : Side) : f.store side = (A.last.frames.get n).store side :=
  (h.links.store side).symm

/-- The properties of the object of the frame. -/
lemma member (h : A.Faces n f f') (name : String) (hseat : ¬A.store (A.seat n).id) :
    A.world.Places ⟨some (f.store (A.face n)), name⟩ ⟨some (f'.store .low), name⟩ := by
  have hleft : f.store (A.face n) = A.seat n := h.store _
  have hright : f'.store .low = A.seat n := h.low
  rw [hleft, hright]
  exact .member name (h.fits hseat)

/-- What is bound on sides that correspond. -/
lemma places (h : A.Faces n f f') (hn : n < A.last.frames.size)
    (hagrees : A.Agrees n name side side') :
    A.world.Places ⟨some (f.store side), name⟩ ⟨some (f'.store side'), name⟩ := by
  obtain ⟨rfl, rfl, hface⟩ := hagrees
  by_cases hseat : A.store (A.seat n).id
  · have hright : f'.store .low = A.seat n := h.low
    rw [h.store, hright]
    exact .binding ⟨n, hn, hseat, rfl, rfl⟩
  · rw [hface hseat]
    exact h.member name hseat

/-- A name is bound. -/
lemma bind (h : A.Faces n f f') (hagrees : A.Agrees n name side side') :
    A.Faces n (f.bind name side) (f'.bind name side') := by
  have hlinks := (f.links_bind name side).symm.trans h.links
  refine ⟨hlinks, h.low, h.high, h.parent, h.dynamic, fun x => ?_, h.fits, h.back, h.object⟩
  rw [Frame.lookup_bind, Frame.lookup_bind]
  split_ifs with hx
  · subst hx
    exact .inr ⟨side, side', rfl, rfl, hagrees⟩
  · exact h.entries x

/-- An entry is dropped. -/
lemma unbind (h : A.Faces n f f') (name : String) : A.Faces n (f.unbind name) (f'.unbind name) := by
  have hlinks : (f.unbind name).SameLinks (A.last.frames.get n) :=
    ⟨h.links.low, h.links.high, h.links.parent, h.links.dynamic⟩
  refine ⟨hlinks, h.low, h.high, h.parent, h.dynamic, fun x => ?_, h.fits, h.back, h.object⟩
  rw [Frame.lookup_unbind, Frame.lookup_unbind]
  split_ifs
  · exact .inl ⟨rfl, rfl⟩
  · exact h.entries x

section

variable {g g' : Heap} (h : A.Faces n f f') (hn : n < A.last.frames.size) (hA : A.Stocked g g')
  (hheaps : A.world.Heaps g g') (name : String)
include h hn hA hheaps

/-- A name is there on the one side if it is there on the other. -/
lemma holds (hagrees : A.Agrees n name side side') :
    f'.holds g' side' name = f.holds g side name := by
  obtain ⟨rfl, rfl, hface⟩ := hagrees
  have hleft : f.store (A.side n name) = A.home n name := h.store _
  have hright : f'.store .low = A.seat n := h.low
  unfold Frame.holds
  rw [hleft, hright]
  by_cases hseat : A.store (A.seat n).id
  · have hcell := hA.cell n hn hseat name
    have hhome : A.store (A.home n name).id := store_home hseat name
    unfold Object.hasOwn
    rw [own?_bare (hA.bare _ hseat).2, own?_bare (hA.bare _ hhome).1]
    rcases hcell with ⟨hq, hq'⟩ | ⟨p, p', hq, hq', -⟩
    · rw [hq, hq']
    · rw [hq, hq']
      rfl
  · rw [home, hface hseat]
    exact (hheaps.object _ hseat).hasOwn name

/-- The entries that are not stale. -/
lemma entry : A.Entries n name (f.entry g name) (f'.entry g' name) := by
  unfold Frame.entry
  rcases h.entries name with ⟨hnone, hnone'⟩ | ⟨side, side', hside, hside', hagrees⟩
  · rw [hnone, hnone']
    exact .inl ⟨rfl, rfl⟩
  · rw [hside, hside', Option.filter_some, Option.filter_some, h.holds hn hA hheaps name hagrees]
    split_ifs
    · exact .inr ⟨side, side', rfl, rfl, hagrees⟩
    · exact .inl ⟨rfl, rfl⟩

/-- The properties of the object of a frame are bindings too. -/
lemma visible : (f.visible g name = none ∧ f'.visible g' name = none) ∨
    ¬A.store (A.seat n).id ∧ f.visible g name = some (A.face n) ∧
    f'.visible g' name = some .low := by
  by_cases hdynamic : f.dynamic = true
  · have hseat : ¬A.store (A.seat n).id := fun hstore => by
      rw [h.object.1 hstore] at hdynamic
      cases hdynamic
    -- of the two sides only the seat shows anything: the other one is an empty store
    have hback := hA.bare _ h.back
    have hnone : Slots.find? name (g.get (A.back n).id).slots = none :=
      hA.idle n hn _ h.back name fun hstore => absurd hstore hseat
    have hempty : g.has (A.back n).id name = false := by
      rw [Heap.has, find?_bare hback.1, hnone]
      rfl
    have hempty' : g'.has (A.back n).id name = false := by
      rw [Heap.has, find?_bare hback.2, hA.spare n hn h.back]
      rfl
    have hobject := hheaps.has hseat name
    have hleft : f.visible g name = if g.has (A.seat n).id name then some (A.face n) else none := by
      unfold Frame.visible
      rw [if_pos hdynamic]
      cases hface : A.face n with
      | low =>
        have hlow : f.low = A.seat n := by
          rw [seat, hface]
          exact h.store .low
        have hhigh : f.high = A.back n := by
          rw [Erasing.back, hface]
          exact h.store .high
        rw [hlow, hhigh, hempty]
        rfl
      | high =>
        have hlow : f.low = A.back n := by
          rw [Erasing.back, hface]
          exact h.store .low
        have hhigh : f.high = A.seat n := by
          rw [seat, hface]
          exact h.store .high
        rw [hlow, hhigh, hempty]
        rfl
    have hright : f'.visible g' name = if g'.has (A.seat n).id name then some .low else none := by
      unfold Frame.visible
      rw [if_pos (h.dynamic.trans hdynamic), h.high, h.low, hempty']
      rfl
    rw [hleft, hright, hobject]
    split_ifs
    · exact .inr ⟨hseat, rfl, rfl⟩
    · exact .inl ⟨rfl, rfl⟩
  · refine .inl ⟨if_neg hdynamic, if_neg ?_⟩
    rw [h.dynamic]
    exact hdynamic

/-- **A name is looked up in a frame.** -/
lemma own : A.world.Owns f f' name (f.own g name).1 (f'.own g' name).1 ∧
    A.Faces n (f.own g name).2 (f'.own g' name).2 := by
  rw [Frame.own_eq, Frame.own_eq]
  rcases h.entry hn hA hheaps name with ⟨hnone, hnone'⟩ | ⟨side, side', hside, hside', hagrees⟩
  · rw [hnone, hnone']
    refine ⟨?_, h.unbind name⟩
    dsimp only
    rcases h.visible hn hA hheaps name with ⟨hv, hv'⟩ | ⟨hseat, hv, hv'⟩
    · rw [hv, hv']
      exact .none
    · rw [hv, hv']
      exact .some (h.member name hseat)
  · rw [hside, hside']
    exact ⟨.some (h.places hn hagrees), h⟩

end
end Faces

variable (A) in
/-- The frames of the two machines. -/
structure Linked (fs fs' : Frames) : Prop where
  size : fs'.size = fs.size
  lt : ∀ n < fs.size, n < A.last.frames.size
  faces : ∀ n < fs.size, A.Faces n (fs.get n) (fs'.get n)

namespace Linked

variable {fs fs' : Frames} {f f' : Frame}

lemma parent (h : A.Linked fs fs') (n : Nat) : (fs'.get n).parent = (fs.get n).parent := by
  by_cases hn : n < fs.size
  · exact (h.faces n hn).parent
  · rw [Frames.get_of_size_le (Nat.le_of_not_lt hn), Frames.get_of_size_le (by rw [h.size]; omega)]

lemma set (h : A.Linked fs fs') (hf : n < fs.size → A.Faces n f f') :
    A.Linked (fs.setIfInBounds n f) (fs'.setIfInBounds n f') := by
  refine ⟨?_, fun m hm => ?_, fun m hm => ?_⟩
  · rw [Array.size_setIfInBounds, Array.size_setIfInBounds, h.size]
  all_goals rw [Array.size_setIfInBounds] at hm
  · exact h.lt m hm
  · rw [Frames.get_set, Frames.get_set, h.size]
    split_ifs with hmn
    · obtain ⟨rfl, hn⟩ := hmn
      exact hf hn
    · exact h.faces m hm

lemma push (h : A.Linked fs fs') (hlt : fs.size < A.last.frames.size) (hf : A.Faces fs.size f f') :
    A.Linked (fs.push f) (fs'.push f') := by
  refine ⟨by rw [Array.size_push, Array.size_push, h.size], fun m hm => ?_, fun m hm => ?_⟩
  all_goals rw [Array.size_push] at hm
  · omega
  · by_cases hlast : m = fs.size
    · subst hlast
      rw [Frames.get_push_size, ← h.size, Frames.get_push_size, h.size]
      exact hf
    · have hm' : m < fs.size := by omega
      rw [Frames.get_push_lt hm', Frames.get_push_lt (by rw [h.size]; exact hm')]
      exact h.faces m hm'

end Linked
end Erasing
end Clearance
