/-
# A run beside itself

The simplest use of two runs that go together: the second machine is the first one, and both meet
the same labels. Then whatever corresponds is the same, and that the runs go together says of one
run what there is at each of its moments: which references scripts hold, which labels there are,
and which code is run.

An `Origin` says where runs start and which labels they meet, and a `Setting` up to which store they
are followed.
-/
import Clearance.Proofs.Paired.Cell
import Clearance.Proofs.Rebuild

namespace Clearance

open Clearance.Action Script

namespace World

variable {W : World}

/-! ## What corresponds is the same -/

section

variable (hf : W.faithful)
include hf

lemma Labels.eq {k k' : Label} (h : W.Labels k k') : k' = k := h.same hf

lemma Values.eq {v v' : Value} (h : W.Values v v') : v' = v := by
  obtain ⟨r, k⟩ := v
  obtain ⟨r', k'⟩ := v'
  obtain rfl : r' = r := h.raw.same
  obtain rfl : k' = k := h.label.same hf
  rfl

lemma eq_of_values {vs vs' : List Value} (h : List.Forall₂ W.Values vs vs') : vs' = vs := by
  induction h with
  | nil => rfl
  | cons hv _ ih => rw [ih, hv.eq hf]

lemma Requests.eq {r r' : Request} (h : W.Requests r r') : r' = r := by
  cases h with
  | call _ hthis hargs => rw [hthis.eq hf, eq_of_values hf hargs]
  | construct _ hargs => rw [eq_of_values hf hargs]
  | hasInstance _ hv => rw [hv.eq hf]

lemma Contents.eq {cls name : String} {v v' : Value} (h : W.Contents cls name v v') : v' = v := by
  rcases h with h | ⟨-, -, h⟩
  · exact h.eq hf
  · exact (h.values hf).eq hf

lemma Properties.eq {cls name : String} {p p' : Property} (h : W.Properties cls name p p') :
    p' = p := by
  have hvalue : p'.value = p.value := by
    rcases h.value with hv | ⟨-, hv, hv'⟩
    · exact hv.eq hf
    · rw [hv, hv']
  obtain ⟨v, getter, setter, hidden, readOnly, permanent⟩ := p
  obtain ⟨v', getter', setter', hidden', readOnly', permanent'⟩ := p'
  obtain ⟨hgetter, -, hsetter, -, hhidden, hreadOnly, hpermanent, -⟩ := h
  simp_all

lemma Listings.eq {cls : String} {slots slots' : Slots} (h : W.Listings cls slots slots') :
    slots' = slots := by
  induction h with
  | nil => rfl
  | @cons a b _ _ hab _ ih =>
    obtain ⟨n, p⟩ := a
    obtain ⟨n', p'⟩ := b
    obtain ⟨hn, hp⟩ := hab
    dsimp only at hn hp
    rw [ih, hn, hp.eq hf]

lemma Slot.eq {p p' : Property} (h : W.Slot p p') : p' = p := by
  obtain ⟨v, v', readOnly, permanent, hv, rfl, rfl⟩ := h
  rw [hv.eq hf]

lemma Controls.eq {c c' : Control} (h : W.Controls c c') : c' = c := by
  rw [h.rest, h.pc.eq hf, h.this.eq hf]

/-- Bindings that correspond are the same. -/
lemma slots_eq {slots slots' : Slots}
    (h : List.Forall₂ (fun a b => b.1 = a.1 ∧ W.Slot a.2 b.2) slots slots') :
    slots' = slots ∧ ∀ slot ∈ slots, W.Slot slot.2 slot.2 := by
  induction h with
  | nil => exact ⟨rfl, List.forall_mem_nil _⟩
  | @cons a b _ _ hab _ ih =>
    obtain ⟨n, p⟩ := a
    obtain ⟨n', p'⟩ := b
    obtain ⟨hn, hp⟩ := hab
    obtain ⟨heq, hall⟩ := ih
    dsimp only at hn hp
    obtain rfl := hp.eq hf
    exact ⟨by rw [heq, hn], List.forall_mem_cons.2 ⟨hp, hall⟩⟩

omit hf in
lemma Behaviours.eq (hid : W.rewrite = id) {b b' : Behaviour} (h : W.Behaviours b b') :
    b' = b := by
  cases h with
  | none | native | host => rfl
  | closure hfn _ => rw [hfn.code, hid, Script.Function.rebuild_id]

lemma Objects.eq (hid : W.rewrite = id) {o o' : Object} (h : W.Objects o o') : o' = o := by
  have hslots := h.slots.eq hf
  have hbehaviour := h.behaviour.eq hid
  have hpartition := h.partition.eq hf
  obtain ⟨cls, proto, partition, primitive, pattern, behaviour, slots⟩ := o
  obtain ⟨cls', proto', partition', primitive', pattern', behaviour', slots'⟩ := o'
  obtain ⟨hcls, -, hproto, -, -, hprimitive, -, hpattern, -, -⟩ := h
  simp_all

end
end World

/-! ## Settings -/

section

variable {l : Lattice}

/-- A label expression of this name gives a label of the grade, if it gives one. -/
def Grade.Names (g : Grade l) (name : String) : Prop := ∀ k, l.lookup? name = some k → g.mem k

/-- If the node is a label expression, its name is one of the grade. -/
def Grade.Allows (g : Grade l) (node : Node Span) : Prop :=
  ∀ s name operand, node = .expr (.label s name operand) → g.Names name

end

/-- Where runs start and what they meet. -/
structure Origin where
  realm : Realm
  grade : Grade realm.lattice
  /-- Internal errors may occur. -/
  lax : Prop
  base : Store
  landmarks : ∀ id ∈ realm.landmarks,
    id < base.heap.size ∧ (base.heap.get id).cls ≠ "Activation"
  globalFrame : realm.globalFrame < base.frames.size
  /-- Either no label is above the bottom, or all labels up to the top may occur. -/
  full : grade.Calm ∨ ∀ k : Label, k.leq realm.lattice.top = true → grade.mem k

namespace Origin

variable {O : Origin}

/-- The nodes that code may have: label expressions name labels that may be met, and if there are no
internal errors, everything is as scripts can have it. -/
def allowed (O : Origin) (node : Node Span) : Prop :=
  O.grade.Allows node ∧ (¬O.lax → node.Proper)

lemma allowed_of_lax (hlax : O.lax) {node : Node Span} (h : O.grade.Allows node) : O.allowed node :=
  ⟨h, absurd hlax⟩

end Origin

/-- Runs that are followed up to some store. -/
structure Setting extends Origin where
  last : Store
  precedes : base.Precedes last

namespace Setting

/-- What is known of stores once the last store is known. -/
def store (A : Setting) (id : Nat) : Prop :=
  A.last.heap.size ≤ id ∨ (A.last.heap.get id).cls = "Activation"

lemma not_store_landmark (A : Setting) {id : Nat} (hid : id ∈ A.realm.landmarks) : ¬A.store id := by
  obtain ⟨hlt, hcls⟩ := A.landmarks id hid
  rintro (hle | hstore)
  · have := A.precedes.heap.size
    omega
  · rw [(A.precedes.heap.shell id hlt).cls] at hstore
    exact hcls hstore

/-- The run beside itself. -/
def world (A : Setting) : World where
  realm := A.realm
  left := A.grade
  right := A.grade
  faithful := True
  lax := A.lax
  store := A.store
  fits o := ¬A.store o.id ∧ o.face.Suits (A.last.heap.get o.id).behaviour
  frame n := n < A.last.frames.size
  partner S S' _ :=
    S' = S ∧ A.store S.id ∧ S.id < A.last.heap.size ∧ A.grade.mem (A.last.heap.get S.id).partition
  named := A.grade.Names
  allowed := A.allowed
  rewrite := id
  reader file text := (Script.parse defaultIntrinsic file text 1).map fun program =>
    ⟨program.source, rebuildStmts id id program.body⟩
  fits_object h := h.1
  fits_plain h := ⟨h, trivial⟩
  global_object := A.not_store_landmark (by simp [Realm.landmarks])
  global_frame := Nat.lt_of_lt_of_le A.globalFrame A.precedes.frames.size
  protos_objects id hid := A.not_store_landmark (by
    simp only [Realm.landmarks, List.mem_append, List.mem_cons] at hid ⊢
    tauto)
  right_calm h := absurd trivial h
  partner_store := by
    rintro S _ name ⟨rfl, hS, -, -⟩
    exact ⟨hS, hS⟩
  rewrite_other _ _ := rfl
  named_of_allowed h := h.1 _ _ _ rfl
  proper hlax _ h := h.2 hlax
  rewrite_label _ _ _ hname := .inl ⟨rfl, fun k hk => ⟨hname k hk, hname k hk⟩⟩
  reader_eq _ _ := rfl

variable (A : Setting)

/-- What is known of the bindings of the run. -/
structure Kept (s s' : Store) : Prop where
  frames : s'.frames = s.frames
  objects : ∀ id, A.store id → s'.heap.get id = s.heap.get id
  size : ∀ id, A.store id → (id < s'.heap.size ↔ id < s.heap.size)
  bare : ∀ id, A.store id → (s.heap.get id).Bare
  shell : ∀ id, A.store id → id < s.heap.size →
    id < A.last.heap.size ∧ (s.heap.get id).SameShell (A.last.heap.get id)
  slots : ∀ id, A.store id → ∀ slot ∈ (s.heap.get id).slots, A.world.Slot slot.2 slot.2
  /-- A store that holds something is one whose labels the run meets. -/
  held : ∀ id, A.store id → (s.heap.get id).slots ≠ [] → A.grade.mem (s.heap.get id).partition
  below : ∀ id, A.store id → (s.heap.get id).partition.leq A.realm.lattice.top = true
  links : ∀ n < s.frames.size,
    n < A.last.frames.size ∧ (s.frames.get n).SameLinks (A.last.frames.get n)
  refs : ∀ n < s.frames.size, ∀ side, ¬A.store ((s.frames.get n).store side).id →
    A.world.fits ((s.frames.get n).store side)
  bounded : A.world.Bounded s
  low : ∀ n < s.frames.size, A.store (s.frames.get n).low.id →
    A.grade.mem (s.heap.get (s.frames.get n).low.id).partition
  apart : s.frames.Apart A.store

namespace Kept

variable {A : Setting} {s s' t t' : Store}

lemma congr (h : A.Kept s s') (hframes : t.frames = s.frames) (hframes' : t'.frames = s'.frames)
    (hobjects : ∀ id, A.store id → t.heap.get id = s.heap.get id)
    (hobjects' : ∀ id, A.store id → t'.heap.get id = s'.heap.get id)
    (hsize : ∀ id, A.store id → (id < t.heap.size ↔ id < s.heap.size))
    (hsize' : ∀ id, A.store id → (id < t'.heap.size ↔ id < s'.heap.size)) : A.Kept t t' := by
  refine ⟨by rw [hframes, hframes', h.frames], fun id hid => ?_, fun id hid => ?_, fun id hid => ?_,
    fun id hid hlt => ?_, fun id hid => ?_, fun id hid => ?_, fun id hid => ?_, ?_, ?_, ?_, ?_, ?_⟩
  · rw [hobjects id hid, hobjects' id hid, h.objects id hid]
  · rw [hsize id hid, hsize' id hid, h.size id hid]
  · rw [hobjects id hid]
    exact h.bare id hid
  · rw [hobjects id hid]
    exact h.shell id hid ((hsize id hid).1 hlt)
  · rw [hobjects id hid]
    exact h.slots id hid
  · rw [hobjects id hid]
    exact h.held id hid
  · rw [hobjects id hid]
    exact h.below id hid
  · rw [hframes]
    exact h.links
  · rw [hframes]
    exact h.refs
  · intro n hn side hstore
    rw [hframes] at hn hstore ⊢
    exact (hsize _ hstore).2 (h.bounded n hn side hstore)
  · intro n hn hstore
    rw [hframes] at hn hstore ⊢
    rw [hobjects _ hstore]
    exact h.low n hn hstore
  · rw [hframes]
    exact h.apart

/-- Where a store of a frame may be used by the run, a name may be bound in it. -/
lemma places (h : A.Kept s s') {n : Nat} (hn : n < s.frames.size) {name : String} {side : Side}
    (hmem : A.store ((s.frames.get n).store side).id →
      A.grade.mem (s.heap.get ((s.frames.get n).store side).id).partition) :
    A.world.Places ⟨some ((s.frames.get n).store side), name⟩
      ⟨some ((s'.frames.get n).store side), name⟩ := by
  rw [h.frames]
  by_cases hstore : A.store ((s.frames.get n).store side).id
  · have hlt := h.bounded n hn side hstore
    obtain ⟨hlast, hshell⟩ := h.shell _ hstore hlt
    refine .binding ⟨rfl, hstore, hlast, ?_⟩
    rw [hshell.partition]
    exact hmem hstore
  · exact .member name (h.refs n hn side hstore)

/-- The run meets the labels of the store that a program counter selects. -/
lemma mem_of_side (h : A.Kept s s') {pc : Label} (hpc : A.grade.mem pc) {n : Nat}
    (hn : n < s.frames.size)
    (hstore : A.store ((s.frames.get n).store (Frame.sideAt pc)).id) :
    A.grade.mem (s.heap.get ((s.frames.get n).store (Frame.sideAt pc)).id).partition := by
  cases hside : Frame.sideAt pc with
  | low =>
    rw [hside] at hstore
    exact h.low n hn hstore
  | high =>
    rw [hside] at hstore
    rcases A.full with hcalm | hfull
    · have hheight := hcalm pc hpc
      unfold Frame.sideAt at hside
      rw [if_neg] at hside
      · cases hside
      · rw [Label.less_iff, hheight, Label.height_none]
        omega
    · exact hfull _ (h.below _ hstore)

/-- A frame binds other names. -/
lemma setFrame (h : A.Kept s s') {n : Nat} {f : Frame} (hf : (s.frames.get n).SameLinks f) :
    A.Kept { s with frames := s.frames.setIfInBounds n f }
      { s' with frames := s'.frames.setIfInBounds n f } := by
  have hlinks : ∀ m, (s.frames.get m).SameLinks (Frames.get (s.frames.setIfInBounds n f) m) := by
    intro m
    rw [Frames.get_set]
    split_ifs with hm
    · obtain ⟨rfl, -⟩ := hm
      exact hf
    · exact .refl _
  refine ⟨?_, h.objects, h.size, h.bare, h.shell, h.slots, h.held, h.below, fun m hm => ?_,
    fun m hm side => ?_, fun m hm side => ?_, fun m hm => ?_, h.apart.set hf⟩
  · dsimp only
    rw [h.frames]
  all_goals
    dsimp only at hm ⊢
    rw [Array.size_setIfInBounds] at hm
  · obtain ⟨hlt, hsame⟩ := h.links m hm
    have hm' := hlinks m
    exact ⟨hlt, hm'.symm.trans hsame⟩
  · rw [(hlinks m).store side]
    exact h.refs m hm side
  · rw [(hlinks m).store side]
    exact h.bounded m hm side
  · rw [(hlinks m).low]
    exact h.low m hm

/-- A store whose labels the run meets is changed. -/
lemma update (h : A.Kept s s') {id : Nat} {f f' : Object → Object}
    (hf : (s.heap.get id).SameShell (f (s.heap.get id)))
    (hf' : f' (s.heap.get id) = f (s.heap.get id))
    (hslots : ∀ slot ∈ (f (s.heap.get id)).slots, A.world.Slot slot.2 slot.2)
    (hmem : A.grade.mem (s.heap.get id).partition) :
    A.Kept { s with heap := s.heap.update id f } { s' with heap := s'.heap.update id f' } := by
  have hshell : ∀ j, (s.heap.get j).SameShell (Heap.get (s.heap.update id f) j) := by
    intro j
    rw [Heap.get_update]
    split_ifs with hj
    · obtain ⟨rfl, -⟩ := hj
      exact hf
    · exact .refl _
  have hall : ∀ j, A.store j → ∀ slot ∈ (Heap.get (s.heap.update id f) j).slots,
      A.world.Slot slot.2 slot.2 := by
    intro j hj
    rw [Heap.get_update]
    split_ifs with hjid
    · obtain ⟨rfl, -⟩ := hjid
      exact hslots
    · exact h.slots j hj
  refine ⟨h.frames, fun j hj => ?_, fun j hj => ?_, fun j hj => (h.bare j hj).of_shell (hshell j),
    fun j hj hlt => ?_, hall, fun j hj hne => ?_, fun j hj => ?_, h.links, h.refs,
    fun n hn side hstore => ?_, fun n hn hstore => ?_, h.apart⟩
  · dsimp only
    rw [Heap.get_update, Heap.get_update]
    by_cases hjid : j = id
    · subst hjid
      simp only [h.objects j hj, hf', h.size j hj]
    · rw [if_neg fun hc => hjid hc.1, if_neg fun hc => hjid hc.1, h.objects j hj]
  · dsimp only
    rw [Heap.size_update, Heap.size_update]
    exact h.size j hj
  · dsimp only at hlt ⊢
    rw [Heap.size_update] at hlt
    obtain ⟨hlast, hsame⟩ := h.shell j hj hlt
    exact ⟨hlast, (hshell j).symm.trans hsame⟩
  · dsimp only at hne ⊢
    rw [(hshell j).partition]
    rw [Heap.get_update] at hne
    split_ifs at hne with hjid
    · obtain ⟨rfl, -⟩ := hjid
      exact hmem
    · exact h.held j hj hne
  · dsimp only
    rw [(hshell j).partition]
    exact h.below j hj
  · dsimp only
    rw [Heap.size_update]
    exact h.bounded n hn side hstore
  · dsimp only
    rw [(hshell _).partition]
    exact h.low n hn hstore

/-- A new store. -/
lemma push (h : A.Kept s s') (hsize : s'.heap.size = s.heap.size) {part : Label}
    (hbelow : part.leq A.realm.lattice.top = true)
    (hdue : ({ s with heap := s.heap.push (.vacant part) } : Store).Precedes A.last) :
    A.Kept { s with heap := s.heap.push (.vacant part) }
      { s' with heap := s'.heap.push (.vacant part) } := by
  have hget : ∀ (g : Heap) j, Heap.get (g.push (.vacant part)) j =
      if j = g.size then .vacant part else g.get j := by
    intro g j
    split_ifs with hj
    · rw [hj, Heap.get_push_size]
    · exact Heap.get_push_ne hj
  -- a new store holds nothing, so all that is known of names is known of it
  refine ⟨h.frames, fun j hj => ?_, fun j hj => ?_, fun j hj => ?_, fun j hj hlt => ?_,
    fun j hj => ?_, fun j hj => ?_, fun j hj => ?_, h.links, h.refs, fun n hn side hstore => ?_,
    fun n hn hstore => ?_, h.apart⟩
  · dsimp only
    rw [hget, hget, hsize, h.objects j hj]
  · simp only [Array.size_push, hsize]
  · dsimp only
    rw [hget]
    split_ifs
    · exact ⟨by simp [Object.vacant, Object.blank], rfl, rfl, rfl⟩
    · exact h.bare j hj
  · exact ⟨Nat.lt_of_lt_of_le hlt hdue.heap.size, hdue.heap.shell j hlt⟩
  · dsimp only
    rw [hget]
    split_ifs
    · exact List.forall_mem_nil _
    · exact h.slots j hj
  · dsimp only
    rw [hget]
    split_ifs
    · exact fun hne => absurd rfl hne
    · exact h.held j hj
  · dsimp only
    rw [hget]
    split_ifs
    · exact hbelow
    · exact h.below j hj
  · have hlt := h.bounded n hn side hstore
    dsimp only
    rw [Array.size_push]
    omega
  · have hlt : (s.frames.get n).low.id < s.heap.size := h.bounded n hn .low hstore
    dsimp only
    rw [Heap.get_push_lt hlt]
    exact h.low n hn hstore

/-- A new frame. -/
lemma addFrame (h : A.Kept s s') {f : Frame}
    (hdue : ({ s with frames := s.frames.push f } : Store).Precedes A.last)
    (hrefs : ∀ side, ¬A.store (f.store side).id → A.world.fits (f.store side))
    (hbounded : ∀ side, A.store (f.store side).id → (f.store side).id < s.heap.size)
    (hlow : A.store f.low.id → A.grade.mem (s.heap.get f.low.id).partition)
    (hapart : Frames.Apart (s.frames.push f) A.store) :
    A.Kept { s with frames := s.frames.push f } { s' with frames := s'.frames.push f } := by
  have hcases : ∀ {P : Nat → Frame → Prop}, (∀ n < s.frames.size, P n (s.frames.get n)) →
      P s.frames.size f → ∀ n < (s.frames.push f).size, P n (Frames.get (s.frames.push f) n) := by
    intro P hold hnew n hn
    rw [Array.size_push] at hn
    by_cases hlast : n = s.frames.size
    · subst hlast
      rw [Frames.get_push_size]
      exact hnew
    · have hlt : n < s.frames.size := by omega
      rw [Frames.get_push_lt hlt]
      exact hold n hlt
  refine ⟨?_, h.objects, h.size, h.bare, h.shell, h.slots, h.held, h.below,
    fun n hn => ⟨Nat.lt_of_lt_of_le hn hdue.frames.size, hdue.frames.links n hn⟩,
    hcases (P := fun _ f => ∀ side, ¬A.store (f.store side).id → A.world.fits (f.store side))
      h.refs hrefs,
    hcases (P := fun _ f => ∀ side, A.store (f.store side).id → (f.store side).id < s.heap.size)
      h.bounded hbounded,
    hcases (P := fun _ f => A.store f.low.id → A.grade.mem (s.heap.get f.low.id).partition)
      h.low hlow, hapart⟩
  dsimp only
  rw [h.frames]

/-- The run meets the labels of a store that a name may be bound in. -/
lemma partner_mem (h : A.Kept s s') {id : Nat} (hstore : A.store id)
    (hmem : A.grade.mem (A.last.heap.get id).partition) :
    A.grade.mem (s.heap.get id).partition := by
  by_cases hlt : id < s.heap.size
  · rwa [(h.shell id hstore hlt).2.partition] at hmem
  · rw [Heap.get_of_size_le (Nat.le_of_not_lt hlt)]
    exact A.grade.none

/-! ### Lookups -/

/-- The heaps are the same. -/
lemma heap_eq (h : A.Kept s s') (hheaps : A.world.Heaps s.heap s'.heap) : s'.heap = s.heap := by
  have hget : ∀ id, s'.heap.get id = s.heap.get id := by
    intro id
    by_cases hstore : A.store id
    · exact h.objects id hstore
    · exact (hheaps.object id hstore).eq trivial rfl
  refine Array.ext hheaps.size fun i hi hi' => ?_
  simpa [Heap.get, Array.getD, hi, hi'] using hget i

/-- A name is looked up in a frame. -/
lemma owns (h : A.Kept s s') (n : Nat) (name : String) :
    A.world.Owns (s.frames.get n) (s'.frames.get n) name ((s.frames.get n).own s.heap name).1
      ((s.frames.get n).own s.heap name).1 := by
  cases hfound : ((s.frames.get n).own s.heap name).1 with
  | none => exact .none
  | some side =>
    have hn : n < s.frames.size := by
      by_contra hn
      rw [Frames.get_of_size_le (Nat.le_of_not_lt hn)] at hfound
      cases hfound
    refine .some (h.places hn fun hstore => h.held _ hstore fun hnone => ?_)
    have hhas := Frame.has_of_own hfound
    rw [Heap.has, find?_bare (h.bare _ hstore), hnone] at hhas
    cases hhas

end Kept

/-- The sides on which a name may be bound: they are the same, and the run meets the labels of the
store. -/
def Agrees (n : Nat) (_ : String) (side side' : Side) : Prop :=
  side' = side ∧ (A.store ((A.last.frames.get n).store side).id →
    A.grade.mem (A.last.heap.get ((A.last.frames.get n).store side).id).partition)

/-- The action reads a text as code. -/
inductive Reads : {α : Type} → Action α → String → Prop
  | eval (source : String) (k : Label) : Reads (evalText source k) source
  | function (texts : List String) (k : Label) :
      Reads (functionFromTexts texts k) (functionSource texts)

/-- What is known of a run beside itself. -/
def keeper : Keeper A.world where
  last := A.last
  store_iff _ := .rfl
  fits_iff _ := .rfl
  frame_iff _ := .rfl
  kept := A.Kept
  quiet m := (∀ source, Reads m.action source → A.world.Admits source) ∧ (¬A.lax → m.AsksPresent)
  tidy _ := True
  agrees := A.Agrees
  kept_congr h := h.congr
  quiet_tidy _ := trivial
  evalText_admits {source k _ _ _} h := h.1 source (Reads.eval source k :)
  function_admits {texts k _ _ _} h := h.1 (functionSource texts) (Reads.function texts k :)
  target_exists hlax _ _ _ _ h := h.2 hlax _ rfl
  not_lapses h := absurd trivial h
  not_violates h := absurd trivial h
  partner_lt h := h.2.2.1
  touches_exists h := absurd trivial h

/-- The bindings of a run beside itself are kept one step at a time. -/
theorem custody : A.keeper.Custody where
  zero_object := A.not_store_landmark (by simp [Realm.landmarks])
  frames_size h := by rw [Kept.frames h]
  parent h _ := by rw [Kept.frames h]
  bounded {s s'} h := by
    refine ⟨Kept.bounded h, fun n hn side hstore => ?_⟩
    rw [Kept.frames h] at hn hstore ⊢
    exact (Kept.size h _ hstore).2 (Kept.bounded h n hn side hstore)
  bare h id hid := ⟨Kept.bare h id hid, by rw [Kept.objects h id hid]; exact Kept.bare h id hid⟩
  activation {s s'} h id hid hlt := by
    obtain ⟨hlast, hsame⟩ := Kept.shell h id hid hlt
    have hcls : (s.heap.get id).cls = "Activation" := by
      rw [← hsame.cls]
      exact hid.resolve_left (by omega)
    exact ⟨hcls, by rw [Kept.objects h id hid]; exact hcls⟩
  own {s s'} h hheaps n name := by
    have howns := Kept.owns h n name
    have hset := Kept.setFrame h ((s.frames.get n).links_own s.heap name)
    rw [Kept.heap_eq h hheaps, Kept.frames h] at *
    exact ⟨howns, hset⟩
  agrees_of_bound {s s' t pc pc' n name} h hpc _ _ hn _ := by
    obtain ⟨-, hlinks⟩ := Kept.links h n hn
    rw [hpc.eq trivial]
    refine ⟨rfl, fun hstore => ?_⟩
    rw [hlinks.store] at hstore ⊢
    rw [(Kept.shell h _ hstore (Kept.bounded h n hn _ hstore)).2.partition]
    exact Kept.mem_of_side h hpc.left hn hstore
  places {s s' n name side side'} h hn hagrees := by
    obtain ⟨rfl, hmem⟩ := hagrees
    obtain ⟨-, hlinks⟩ := Kept.links h n hn
    rw [hlinks.store] at hmem
    refine Kept.places h hn fun hstore => ?_
    rw [← (Kept.shell h _ hstore (Kept.bounded h n hn _ hstore)).2.partition]
    exact hmem hstore
  places_of_held {s s' pc pc' n name} h hpc hn _ := by
    rw [hpc.eq trivial]
    exact Kept.places h hn fun hstore => Kept.mem_of_side h hpc.left hn hstore
  cell {s s' S S' name} h hp := by
    obtain ⟨rfl, hstore, -, -⟩ := hp
    rw [Kept.objects h _ hstore]
    cases hq : Slots.find? name (s.heap.get S'.id).slots with
    | none => exact .inl ⟨rfl, rfl⟩
    | some q => exact .inr ⟨q, q, rfl, rfl, Kept.slots h _ hstore _ (Slots.mem_of_find? hq)⟩
  partition {s s' S S' name} h hp := by
    obtain ⟨rfl, hstore, -, hmem⟩ := hp
    rw [Kept.objects h _ hstore]
    have hmem := Kept.partner_mem h hstore hmem
    exact ⟨hmem, hmem, fun _ => rfl⟩
  put {s s' S S' name p p'} h hp hslot _ := by
    obtain ⟨rfl, hstore, -, hmem⟩ := hp
    obtain rfl := hslot.eq trivial
    refine Kept.update h (Object.sameShell_define ..) rfl (fun slot hmem' => ?_)
      (Kept.partner_mem h hstore hmem)
    rcases Slots.mem_put hmem' with rfl | hold
    · exact hslot
    · exact Kept.slots h _ hstore slot hold
  erase {s s' S S' name} h hp := by
    obtain ⟨rfl, hstore, -, hmem⟩ := hp
    rw [Kept.objects h _ hstore]
    exact Kept.update h (Object.sameShell_delete ..) rfl
      (fun slot hmem' => Kept.slots h _ hstore slot (Object.mem_delete hmem'))
      (Kept.partner_mem h hstore hmem)
  bind {s s' n name side side'} h hagrees := by
    obtain ⟨rfl, -⟩ := hagrees
    rw [Kept.frames h]
    exact Kept.frames h ▸ Kept.setFrame h (Frame.links_bind ..)
  push {s s' part part'} h hsize hrooms hdue _ := by
    have hpart : part' = part ∧ part.leq A.realm.lattice.top = true := by
      cases hrooms with
      | bottom => exact ⟨rfl, A.grade.below A.grade.bottom⟩
      | top => exact ⟨rfl, Label.leq_refl _⟩
      | context hpc =>
        rw [hpc.eq trivial]
        exact ⟨rfl, A.grade.below (A.grade.join A.grade.bottom hpc.left)⟩
      | crossed hf => exact absurd trivial hf
    obtain ⟨rfl, hbelow⟩ := hpart
    exact Kept.push h hsize hbelow hdue
  fill {s s' side act other names f f'} h hstore _ _ _ _ hf hf' hmem hslots _ := by
    rw [Kept.objects h _ hstore] at hf' hslots
    obtain ⟨heq, hall⟩ := World.slots_eq trivial hslots
    exact Kept.update h hf (Object.SameShell.eq hf hf' heq) hall hmem
  addFrame {s s' f f'} h hopened hfree hdue _ _ := by
    have hapart : Frames.Apart (s.frames.push f) A.store :=
      (Kept.apart h).push (fun _ _ => hopened.own) hfree
    cases hopened with
    | @plain side side' act other names parent hsides hfurnished hlow _ =>
      obtain rfl := hsides.same trivial
      refine Kept.addFrame h hdue (fun side hside => ?_) (fun side _ => ?_) (fun _ => hlow) hapart
      all_goals cases side' <;> cases side
      all_goals first
        | exact absurd hfurnished.act_store hside
        | exact absurd hfurnished.other_store hside
        | exact hfurnished.act_lt
        | exact hfurnished.other_lt
    | @object side side' o store parent hsides ho hstore hlt _ _ hlow =>
      obtain rfl := hsides.same trivial
      refine Kept.addFrame h hdue (fun side hside => ?_) (fun side hside => ?_)
        (fun hside => ?_) hapart
      · cases side' <;> cases side <;> first | exact ho | exact absurd hstore hside
      · cases side' <;> cases side <;> first | exact hlt | exact absurd hside ho.1
      · cases side' with
        | low => exact absurd hside ho.1
        | high => exact hlow hside
  message hf := absurd trivial hf
  source hf := absurd trivial hf

end Setting
end Clearance
