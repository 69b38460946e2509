/-
# A run and the run without its labels

The bindings of a run and of the run of the erasing machine beside it are kept one step at a time
(`Erasing.custody`), as long as the first run meets nothing that labels change: it violates no flow,
it reads no text that shows labels, and each name of a frame is bound on one side.
-/
import Clearance.Proofs.Paired.Seats

namespace Clearance

open Clearance.Action Script

/-! ## What labels change -/

/-- The message of an error is read. It may show labels. -/
inductive ReadsMessage (h : Heap) : {α : Type} → Action α → Prop
  | intro {o : Ref} {k : Label} {id : Nat} {p : Property} : h.find? o.id "message" = some (id, p) →
      (h.get id).cls = "Error" → p.isAccessor = false →
      ReadsMessage h (Operand.place ⟨some o, "message"⟩ k).resolve

/-- The source of a pattern is read, and it is undefined under a label. -/
inductive ReadsUndefinedSource : {α : Type} → Action α → Outcome α → Prop
  | intro {o : Ref} {v : Value} {t : State} : v.isLabeled = true → v.raw.isUndefined = true →
      ReadsUndefinedSource (readQuietly o "source") (.done v t)

/-- The moment violates no flow. It reads no text that shows labels, and no undefined value under a
label where one without a label is told from others. -/
structure Moment.Discreet (m : Moment) : Prop where
  allowed : ∀ v t, m.outcome ≠ .failed (.violation v) t
  text : ¬Lapses m.action
  message : ¬ReadsMessage m.state.store.heap m.action
  source : ¬ReadsUndefinedSource m.action m.outcome

namespace Erasing

variable (A : Erasing)

/-- The store is one that the run passes, and the names of its frames are bound where they are to be
bound. The frame of an object binds names in the object only. -/
structure Tidy (t : Store) : Prop where
  precedes : t.Precedes A.last
  sides : ∀ n name side, (t.frames.get n).index.lookup name = some side → side = A.side n name
  objects : ∀ n name side, (t.frames.get n).dynamic = true →
    (t.frames.get n).index.lookup name = some side → ¬A.store ((t.frames.get n).store side).id

/-- The moment is provided for. -/
structure Quiet (m : Moment) : Prop where
  discreet : m.Discreet
  tidy : A.Tidy m.outcome.state.store
  grounded : ∀ f : Store → m.α × Store, m.action = .update f → ∀ id, m.state.store.Touches f id →
    id < m.state.store.heap.size

/-- The stores and the frames of both machines. -/
structure Kept (s s' : Store) : Prop where
  stocked : A.Stocked s.heap s'.heap
  linked : A.Linked s.frames s'.frames
  bounded : A.world.Bounded s

variable {A} {s s' t t' : Store}

lemma Kept.congr (h : A.Kept s s') (hframes : t.frames = s.frames)
    (hframes' : t'.frames = s'.frames)
    (hget : ∀ id, A.store id → t.heap.get id = s.heap.get id)
    (hget' : ∀ id, A.store id → t'.heap.get id = s'.heap.get id)
    (hsize : ∀ id, A.store id → (id < t.heap.size ↔ id < s.heap.size))
    (hsize' : ∀ id, A.store id → (id < t'.heap.size ↔ id < s'.heap.size)) : A.Kept t t' := by
  refine ⟨h.stocked.congr hget hget' hsize hsize', ?_, fun n hn side hstore => ?_⟩
  · rw [hframes, hframes']
    exact h.linked
  · rw [hframes] at hn hstore ⊢
    exact (hsize _ hstore).2 (h.bounded n hn side hstore)

/-- The objects are changed, but there are as many as before. -/
lemma Kept.withHeaps (h : A.Kept s s') {g g' : Heap} (hA : A.Stocked g g')
    (hsize : g.size = s.heap.size) :
    A.Kept { s with heap := g } { s' with heap := g' } :=
  ⟨hA, h.linked, fun n hn side hstore => hsize ▸ h.bounded n hn side hstore⟩

/-- A frame binds other names. -/
lemma Kept.setFrame (h : A.Kept s s') {n : Nat} {f f' : Frame} (hf : (s.frames.get n).SameLinks f)
    (hfaces : n < s.frames.size → A.Faces n f f') :
    A.Kept { s with frames := s.frames.setIfInBounds n f }
      { s' with frames := s'.frames.setIfInBounds n f' } := by
  refine ⟨h.stocked, h.linked.set hfaces, fun m hm side hstore => ?_⟩
  dsimp only at hm hstore ⊢
  rw [Array.size_setIfInBounds] at hm
  have hlinks : (s.frames.get m).SameLinks (Frames.get (s.frames.setIfInBounds n f) m) := by
    rw [Frames.get_set]
    split_ifs with hmn
    · exact hmn.1 ▸ hf
    · exact .refl _
  rw [hlinks.store] at hstore ⊢
  exact h.bounded m hm side hstore

/-! ## Frames to come -/

/-- A frame that is added to those of a store on the way. -/
lemma Tidy.next (h : A.Tidy t) {fs : Frames} {f : Frame} (hframes : t.frames = fs.push f) :
    fs.size < A.last.frames.size ∧ f.SameLinks (A.last.frames.get fs.size) ∧
      t.frames.get fs.size = f := by
  have hlt : fs.size < t.frames.size := by rw [hframes, Array.size_push]; omega
  have hget : t.frames.get fs.size = f := by rw [hframes, Frames.get_push_size]
  refine ⟨Nat.lt_of_lt_of_le hlt h.precedes.frames.size, ?_, hget⟩
  rw [← hget]
  exact h.precedes.frames.links _ hlt

section

variable {side : Side} {act other : Ref} {names : List String} {parent : Nat} {dynamic : Bool}

lemma Frame.store_facing_other :
    (Frame.facing side act other names parent dynamic).store side.other = other := by
  cases side <;> rfl

lemma Frame.store_facing : (Frame.facing side act other names parent dynamic).store side = act := by
  cases side <;> rfl

lemma Frame.lookup_facing (name : String) :
    (Frame.facing side act other names parent dynamic).index.lookup name =
      if name ∈ names then some side else none := by
  have hmap : (names.map fun x => (x, side)).lookup name = if name ∈ names then some side
      else none := by
    induction names with
    | nil => rfl
    | cons x xs ih =>
      rw [List.map_cons, List.lookup_cons, ih]
      by_cases hx : name = x
      · simp [hx]
      · simp [hx, beq_eq_false_iff_ne.2 hx]
  cases side <;> exact hmap

/-- The seat of a frame to come is what it is opened with. -/
lemma Tidy.faces (h : A.Tidy t) {fs : Frames}
    (hframes : t.frames = fs.push (.facing side act other names parent dynamic))
    (hact : A.store act.id ↔ dynamic = false) (hother : A.store other.id)
    (holder : dynamic = false → act.id < other.id) :
    fs.size < A.last.frames.size ∧ A.face fs.size = side ∧ A.seat fs.size = act ∧
      A.back fs.size = other := by
  obtain ⟨hlt, hlinks, -⟩ := h.next hframes
  have hface : A.face fs.size = side := by
    rw [face, Setting.face_congr hlinks, Setting.face_facing hact hother holder]
  refine ⟨hlt, hface, ?_, ?_⟩
  · rw [seat, hface, hlinks.store, Frame.store_facing]
  · rw [back, hface, hlinks.store, Frame.store_facing_other]

/-- The names of a frame to come are bound on its face. -/
lemma Tidy.side_eq (h : A.Tidy t) {fs : Frames}
    (hframes : t.frames = fs.push (.facing side act other names parent dynamic)) {name : String}
    (hname : name ∈ names) : A.side fs.size name = side := by
  obtain ⟨-, -, hget⟩ := h.next hframes
  refine (h.sides fs.size name side ?_).symm
  rw [hget, Frame.lookup_facing, if_pos hname]

/-- A new frame faces the one of the second machine, which is low. -/
lemma faces_facing {n : Nat} (hlinks : (Frame.facing side act other names parent dynamic).SameLinks
      (A.last.frames.get n)) (hface : A.face n = side) (hact : A.store act.id ↔ dynamic = false)
    (hother : A.store other.id) (hfits : ¬A.store act.id → A.world.fits act)
    (hnames : ∀ name ∈ names, A.side n name = side) :
    A.Faces n (.facing side act other names parent dynamic)
      (.facing .low act other names parent dynamic) := by
  have hseat : A.seat n = act := by rw [seat, hface, hlinks.store, Frame.store_facing]
  have hback : A.back n = other := by rw [back, hface, hlinks.store, Frame.store_facing_other]
  refine ⟨hlinks, hseat.symm, hback.symm, ?_, ?_, fun name => ?_, ?_, ?_, ?_⟩
  · cases side <;> rfl
  · cases side <;> rfl
  · rw [Frame.lookup_facing, Frame.lookup_facing]
    split_ifs with hname
    · exact .inr ⟨side, .low, rfl, rfl, (hnames name hname).symm, rfl, fun _ => hface.symm⟩
    · exact .inl ⟨rfl, rfl⟩
  · rw [hseat]
    exact hfits
  · rw [hback]
    exact hother
  · rw [hseat, hact]
    cases side <;> exact .rfl

end

/-! ## Bindings -/

lemma get_update_of {h : Heap} {id : Nat} {f : Object → Object}
    (hf : h.size ≤ id → f (h.get id) = h.get id) (j : Nat) :
    Heap.get (h.update id f) j = if j = id then f (h.get id) else h.get j := by
  rw [Heap.get_update]
  by_cases hj : j = id
  · subst hj
    by_cases hlt : j < h.size
    · simp only [hlt, and_self, if_true]
    · rw [if_neg fun hc => hlt hc.2, if_pos rfl, hf (Nat.le_of_not_lt hlt)]
  · rw [if_neg fun hc => hj hc.1, if_neg hj]

lemma delete_of_size_le {h : Heap} {id : Nat} (hid : h.size ≤ id) (name : String) :
    ((h.get id).delete name).2 = h.get id := by
  rw [Heap.get_of_size_le hid]
  rfl

/-- What corresponds is deleted on both sides, or on none. -/
lemma bound_delete {W : World} {o o' : Object} {name : String}
    (h : W.Bound (Slots.find? name o.slots) (Slots.find? name o'.slots)) :
    W.Bound (Slots.find? name (o.delete name).2.slots)
      (Slots.find? name (o'.delete name).2.slots) := by
  unfold Object.delete
  rcases h with ⟨hq, hq'⟩ | ⟨p, p', hq, hq', hslot⟩
  · rw [hq, hq']
    exact .inl ⟨hq, hq'⟩
  · have hpermanent : p'.permanent = p.permanent := by
      obtain ⟨_, _, _, _, -, rfl, rfl⟩ := hslot
      rfl
    rw [hq, hq']
    dsimp only
    rw [hpermanent]
    split_ifs
    · exact .inr ⟨p, p', hq, hq', hslot⟩
    · refine .inl ⟨?_, ?_⟩ <;> exact (Slots.find?_erase ..).trans (if_pos rfl)

lemma bound_of_forall₂ {W : World} {slots slots' : Slots}
    (h : List.Forall₂ (fun a b => b.1 = a.1 ∧ W.Slot a.2 b.2) slots slots') (name : String) :
    W.Bound (Slots.find? name slots) (Slots.find? name slots') := by
  induction h with
  | nil => exact .inl ⟨rfl, rfl⟩
  | @cons a b _ _ hab _ ih =>
    obtain ⟨n, p⟩ := a
    obtain ⟨n', p'⟩ := b
    obtain ⟨rfl, hslot⟩ := hab
    unfold Slots.find?
    split_ifs
    · exact .inr ⟨p, p', rfl, rfl, hslot⟩
    · exact ih

section

variable {n : Nat} {name : String}

/-- What the first machine has bound somewhere is bound there. -/
lemma Kept.agrees_of_bound (h : A.Kept s s') {side : Side} (ht : A.Tidy t) (hs : s.Precedes t)
    (hn : n < s.frames.size) (hentry : (t.frames.get n).index.lookup name = some side) :
    A.Agrees n name side .low := by
  have hfaces := h.linked.faces n hn
  refine ⟨ht.sides n name side hentry, rfl, fun hseat => ?_⟩
  have hlinks := hs.frames.links n hn
  have hdynamic : (t.frames.get n).dynamic = true := by
    rw [hlinks.dynamic]
    exact eq_true_of_ne_false fun hstatic => hseat (hfaces.object.2 hstatic)
  have hobject := ht.objects n name side hdynamic hentry
  rw [hlinks.store, hfaces.store] at hobject
  refine (Side.eq_or_eq_other (A.face n) side).resolve_right fun hside => hobject ?_
  rw [hside]
  exact hfaces.back

/-- What the first machine has somewhere the second machine has in the seat. -/
lemma Kept.places_of_held (h : A.Kept s s') {side : Side} (hn : n < s.frames.size)
    (hheld : (s.heap.get ((s.frames.get n).store side).id).hasOwn name = true) :
    A.world.Places ⟨some ((s.frames.get n).store side), name⟩
      ⟨some ((s'.frames.get n).store .low), name⟩ := by
  have hfaces := h.linked.faces n hn
  have hlt := h.linked.lt n hn
  rw [hfaces.store] at hheld ⊢
  by_cases hstore : A.store ((A.last.frames.get n).store side).id
  · rw [Object.hasOwn, own?_bare (h.stocked.bare _ hstore).1] at hheld
    have hboth : A.store (A.seat n).id ∧ side = A.side n name := by
      by_contra hboth
      rw [h.stocked.idle n hlt side hstore name fun hseat hside => hboth ⟨hseat, hside⟩] at hheld
      cases hheld
    have hagrees : A.Agrees n name side .low := ⟨hboth.2, rfl, fun hseat => absurd hboth.1 hseat⟩
    have hplaces := hfaces.places hlt hagrees
    rwa [hfaces.store] at hplaces
  · have hside : side = A.face n :=
      (Side.eq_or_eq_other (A.face n) side).resolve_right fun hside => by
      rw [hside] at hstore
      exact hstore hfaces.back
    subst hside
    have hplaces := hfaces.member name hstore
    rwa [hfaces.store] at hplaces

end

/-! ## The keeper -/

variable (A) in
/-- What is known of a run and the run without its labels. -/
def keeper : Keeper A.world where
  last := A.last
  store_iff _ := .rfl
  fits_iff _ := .rfl
  frame_iff _ := .rfl
  partner_lt := by
    rintro _ _ name ⟨n, hn, hseat, rfl, -⟩
    exact A.there n hn _ (store_home hseat name)
  kept := A.Kept
  quiet := A.Quiet
  tidy := A.Tidy
  agrees := A.Agrees
  kept_congr h := h.congr
  quiet_tidy h := h.tidy
  evalText_admits _ _ _ _ _ _ := trivial
  function_admits _ _ _ _ _ _ := trivial
  target_exists h := absurd trivial h
  not_lapses _ _ _ _ _ _ h := h.discreet.text
  not_violates _ _ _ _ _ _ _ h := h.discreet.allowed _ _ rfl
  touches_exists _ _ _ _ _ _ h := h.grounded _ rfl

section

variable {M : Machines} {L : Ground}

/-- Reading a message that is not one of an error. -/
lemma runs_message {o : Ref} {k k' : Label} (hserve : A.keeper.Serves M) (ho : A.world.fits o)
    (hk : A.world.Labels k k') :
    A.keeper.Runs M L (Operand.place ⟨some o, "message"⟩ k).resolve
      (Operand.place ⟨some o, "message"⟩ k').resolve A.world.Ratings := by
  intro cs s s' hs hcharges
  have hobject : ¬A.world.store o.id := A.world.fits_object ho
  have hdiscreet : ¬ReadsMessage s.store.heap (Operand.place ⟨some o, "message"⟩ k).resolve :=
    (hcharges _ (mem_moments_self _ cs s)).quiet.discreet.message
  have hread : A.keeper.Goes M (getProperty o "message")
      (getProperty o "message") A.world.Values cs s s' := by
    refine .bind hs hcharges.first
      (.look hs (Q := fun found found' => found = s.store.heap.find? o.id "message" ∧
        found' = s'.store.heap.find? o.id "message") ⟨rfl, rfl⟩) ?_
    rintro _ _ t t' ho ho' ⟨rfl, rfl⟩ hs hrest
    cases ho
    cases ho'
    -- a getter is called on both sides; a message that is a value is one of no error
    rcases hs.together.heaps.find? hobject "message" with
      ⟨hnone, hnone'⟩ | ⟨owner, p, p', hp, hp', -, hpp⟩
    · rw [hnone, hnone']
      exact .pure hs .undefined
    rw [hp] at hrest
    rw [hp, hp']
    dsimp only at hrest ⊢
    rw [hpp.isAccessor, hpp.getter]
    by_cases hacc : p.isAccessor = true
    · rw [if_pos hacc] at hrest
      rw [if_pos hacc, if_pos hacc]
      split at hrest
      · rename_i f hf
        have hpresent : p.getter.isAbsent = false := by
          cases hgetter : p.getter <;> first | rfl | (rw [hgetter] at hf; cases hf)
        have hcallable : A.world.Callee f :=
          World.Raws.callable ⟨rfl, hpp.getter_sound, hpresent⟩ hf
        have hrequest := World.Requests.call hcallable (.object ⟨rfl, ho⟩) .nil
        exact (hserve hrequest hs.anywhere hrest).mono fun _ _ _ _ _ _ hv => hv
      · exact .pure hs .undefined
    · rw [if_neg hacc, if_neg hacc]
      refine .pure hs ((hpp.contents hacc).resolve_right fun hcontents => hdiscreet ?_)
      exact .intro hp hcontents.1 (eq_false_of_ne_true hacc)
  refine .bind hs hcharges hread fun v v' t t' _ _ hv hs hrest => ?_
  have hpartition := (hs.together.heaps.object _ hobject).partition
  refine .bind hs hrest (.bind hs hrest.first (.look hs hpartition) fun k k' _ _ _ _ hk hs _ =>
    .pure hs hk) fun part part' _ _ _ _ hpart hs _ =>
      .pure hs ⟨hv.raw, (hk.join hv.label).join hpart⟩

/-- Reading a source. -/
lemma runs_source {o : Ref}
    (h : A.keeper.Runs M L (readQuietly o "source") (readQuietly o "source") A.world.Cells) :
    A.keeper.Runs M L (readQuietly o "source") (readQuietly o "source") fun v v' =>
      A.world.Cells v v' ∧ v'.isUndefined = v.isUndefined := by
  intro cs s s' hs hcharges
  have hdiscreet := (hcharges _ (mem_moments_self _ cs s)).quiet.discreet.source
  refine (h hs hcharges).mono fun v v' t t' hrun _ hcells => ⟨hcells, ?_⟩
  dsimp only at hdiscreet
  rw [hrun] at hdiscreet
  have hright : v'.isLabeled = false := by
    have hcalm := (Grade.calm_lowest _).not_less (k := .none) hcells.label.right
    exact eq_false_of_ne_true hcalm
  have hleft : (v.isLabeled && v.raw.isUndefined) = false := by
    refine eq_false_of_ne_true fun hboth => hdiscreet ?_
    obtain ⟨hlabeled, hundefined⟩ := Bool.and_eq_true_iff.1 hboth
    exact .intro hlabeled hundefined
  unfold Value.isUndefined
  rw [hright, hcells.raw]
  cases hlabeled : v.isLabeled <;> cases hundefined : v.raw.isUndefined <;> simp_all

end

/-! ## Custody -/

/-- What is below the top may be met. -/
lemma below_of_rooms {part part' : Label} (h : A.world.Rooms part part') :
    part.leq A.realm.lattice.top = true := by
  cases h with
  | bottom | crossed => exact A.grade.below A.grade.bottom
  | top => exact Label.leq_refl _
  | context hpc => exact A.grade.below (A.grade.join A.grade.bottom hpc.left)

/-- The second store of a frame to come is no seat. -/
lemma Kept.seat_ne_of_spare {part : Label}
    (hdue : A.keeper.Due { s with heap := s.heap.push (.vacant part) })
    (hspare : A.keeper.Spare s) {m : Nat}
    (hm : m < A.last.frames.size) : (A.seat m).id ≠ s.heap.size := by
  obtain ⟨side, act, names, dynamic, ⟨t, parent, htidy, hframes⟩, hact, holder⟩ := hspare
  have hstore : A.store s.heap.size := by
    refine (hdue.store_iff (by simp)).2 ?_
    dsimp only
    rw [Heap.get_push_size]
    rfl
  obtain ⟨hn, -, -, hback⟩ := Tidy.faces htidy hframes hact hstore holder
  intro hseat
  have hid : (A.back s.frames.size).id = (A.seat m).id := by rw [hback, hseat]
  exact Stocked.back_ne_seat hm (by rw [hseat]; exact hstore) hn hid

/-- A new frame. -/
lemma Kept.addFrame (h : A.Kept s s') {f f' : Frame} (hopened : A.world.Opened s.heap s'.heap f f')
    (ht : A.Tidy { s with frames := s.frames.push f }) :
    A.Kept { s with frames := s.frames.push f } { s' with frames := s'.frames.push f' } := by
  obtain ⟨hlt, hlinks, -⟩ := ht.next rfl
  have hboth : A.Faces s.frames.size f f' ∧
      ∀ side, A.store (f.store side).id → (f.store side).id < s.heap.size := by
    -- a frame of an activation faces one of its two stores, a frame of an object faces the object
    cases hopened with
    | @plain side side' act other names parent hsides hfurnished _ _ =>
      obtain rfl := hsides.low id
      have hact : A.store act.id ↔ false = false := iff_of_true hfurnished.act_store rfl
      obtain ⟨-, hface, -, -⟩ := ht.faces rfl hact hfurnished.other_store fun _ => hfurnished.older
      refine ⟨faces_facing hlinks hface hact hfurnished.other_store (absurd hfurnished.act_store)
        fun name hname => ht.side_eq rfl hname, fun side₀ _ => ?_⟩
      rcases Side.eq_or_eq_other side side₀ with rfl | rfl
      · rw [Frame.store_facing]
        exact hfurnished.act_lt
      · rw [Frame.store_facing_other]
        exact hfurnished.other_lt
    | @object side side' o store parent hsides ho hstore hid _ _ _ =>
      obtain rfl := hsides.low id
      have hobject : ¬A.store o.id := A.world.fits_object ho
      have hact : A.store o.id ↔ true = false := iff_of_false hobject nofun
      obtain ⟨-, hface, -, -⟩ := ht.faces rfl hact hstore nofun
      refine ⟨faces_facing hlinks hface hact hstore (fun _ => ho) (List.forall_mem_nil _),
        fun side₀ hside => ?_⟩
      rcases Side.eq_or_eq_other side side₀ with rfl | rfl
      · rw [Frame.store_facing] at hside
        exact absurd hside hobject
      · rw [Frame.store_facing_other]
        exact hid
  obtain ⟨hfaces, hthere⟩ := hboth
  refine ⟨h.stocked, h.linked.push hlt hfaces, fun n hn side hstore => ?_⟩
  dsimp only at hn hstore ⊢
  rw [Array.size_push] at hn
  by_cases hlast : n = s.frames.size
  · subst hlast
    rw [Frames.get_push_size] at hstore ⊢
    exact hthere side hstore
  · have hn' : n < s.frames.size := by omega
    rw [Frames.get_push_lt hn'] at hstore ⊢
    exact h.bounded n hn' side hstore

/-- **The bindings of a run and of the run without its labels are kept one step at a time.** -/
theorem custody : A.keeper.Custody where
  zero_object := A.toSetting.not_store_landmark (by simp [Realm.landmarks])
  frames_size h := (Kept.linked h).size
  parent h := (Kept.linked h).parent
  bounded {s s'} h := by
    refine ⟨Kept.bounded h, fun n hn side hstore => ?_⟩
    rw [(Kept.linked h).size] at hn
    have hfaces := (Kept.linked h).faces n hn
    have hright : ∃ side', ((s'.frames.get n).store side) = (s.frames.get n).store side' := by
      cases side with
      | low => exact ⟨A.face n, hfaces.low.trans (hfaces.store _).symm⟩
      | high => exact ⟨(A.face n).other, hfaces.high.trans (hfaces.store _).symm⟩
    obtain ⟨side', hside⟩ := hright
    rw [hside] at hstore ⊢
    exact ((Kept.stocked h).size _ hstore).2 (Kept.bounded h n hn side' hstore)
  bare h := (Kept.stocked h).bare
  activation h := (Kept.stocked h).activation
  own {s s'} h hheaps n name := by
    by_cases hn : n < s.frames.size
    · obtain ⟨howns, hfaces⟩ := ((Kept.linked h).faces n hn).own ((Kept.linked h).lt n hn)
        (Kept.stocked h) hheaps name
      exact ⟨howns, Kept.setFrame h (Frame.links_own ..) fun _ => hfaces⟩
    · have hle := Nat.le_of_not_lt hn
      have hle' : s'.frames.size ≤ n := (Kept.linked h).size.symm ▸ hle
      refine ⟨?_, Kept.setFrame h (Frame.links_own ..) (absurd · hn)⟩
      rw [Frames.get_of_size_le hle, Frames.get_of_size_le hle']
      exact .none
  agrees_of_bound h hpc ht hs hn hentry := by
    rw [hpc.sides.low id]
    exact Kept.agrees_of_bound h ht hs hn hentry
  places h hn hagrees := ((Kept.linked h).faces _ hn).places ((Kept.linked h).lt _ hn) hagrees
  places_of_held h hpc hn hheld := by
    rw [hpc.sides.low id]
    exact Kept.places_of_held h hn hheld
  cell h hp := by
    obtain ⟨n, hn, hseat, rfl, rfl⟩ := hp
    exact (Kept.stocked h).cell n hn hseat _
  partition h hp := by
    obtain ⟨n, hn, hseat, rfl, rfl⟩ := hp
    exact ⟨A.meets _ ((Kept.stocked h).below _ (store_home hseat _)),
      (Kept.stocked h).low n hn hseat,
      False.elim⟩
  put {s s' S S' name p p'} h hp hslot hlt := by
    obtain ⟨n, hn, hseat, rfl, rfl⟩ := hp
    have hhome : (A.home n name).id < s.heap.size := hlt id
    -- the seat is older than the store
    have hseat' : (A.seat n).id < s'.heap.size :=
      ((Kept.stocked h).size _ hseat).2 (Nat.lt_of_le_of_lt (seat_le_home hseat name) hhome)
    refine Kept.withHeaps h ((Kept.stocked h).write hn hseat
      (get_update_of fun hle => absurd hseat' (Nat.not_lt_of_le hle))
      (Heap.size_update ..) (Heap.size_update ..) (Object.sameShell_define ..)
      (get_update_of fun hle => absurd hhome (Nat.not_lt_of_le hle)) (Object.sameShell_define ..)
      (fun x hx => Object.find?_define_ne hx p) (fun x hx => Object.find?_define_ne hx p') ?_)
      (Heap.size_update ..)
    rw [Object.find?_define, Object.find?_define, if_pos rfl, if_pos rfl]
    exact .inr ⟨p, p', rfl, rfl, hslot⟩
  erase {s s' S S' name} h hp := by
    obtain ⟨n, hn, hseat, rfl, rfl⟩ := hp
    exact Kept.withHeaps h ((Kept.stocked h).write hn hseat
      (get_update_of fun hle => delete_of_size_le hle name)
      (Heap.size_update ..) (Heap.size_update ..) (Object.sameShell_delete ..)
      (get_update_of fun hle => delete_of_size_le hle name) (Object.sameShell_delete ..)
      (fun x hx => Object.find?_delete_ne _ hx) (fun x hx => Object.find?_delete_ne _ hx)
      (bound_delete ((Kept.stocked h).cell n hn hseat name))) (Heap.size_update ..)
  bind h hagrees := Kept.setFrame h (Frame.links_bind ..) fun hn =>
    ((Kept.linked h).faces _ hn).bind hagrees
  push {s s' part part'} h hsize hrooms hdue hlow := by
    have hlow' : A.realm.lattice.Low part' ∨ ∀ n < A.last.frames.size,
        (A.seat n).id ≠ s.heap.size :=
      hlow.imp_right fun hspare n hn => Kept.seat_ne_of_spare hdue hspare hn
    have hlinked : A.Linked s.frames s'.frames := Kept.linked h
    refine ⟨(Kept.stocked h).push hsize (below_of_rooms hrooms) hlow', hlinked,
      fun n hn side hstore => ?_⟩
    have hlt := Kept.bounded h n hn side hstore
    dsimp only
    rw [Array.size_push]
    omega
  fill {s s' side act other names f f'} h hact hother hforeseen hempty hempty' hf hf' _ hslots
    hnames := by
    obtain ⟨⟨t, parent, htidy, hframes⟩, hact', holder⟩ := hforeseen
    obtain ⟨hn, hface, hseat, -⟩ := Tidy.faces htidy hframes hact' hother holder
    subst hseat
    have hlater : (A.seat s.frames.size).id < s'.heap.size ↔
        (A.seat s.frames.size).id < s.heap.size :=
      (Kept.stocked h).size _ hact
    by_cases hlt : (A.seat s.frames.size).id < s.heap.size
    · refine Kept.withHeaps h ((Kept.stocked h).fill hn hact
        (get_update_of fun hle => absurd (hlater.2 hlt) (Nat.not_lt_of_le hle))
        (Heap.size_update ..) (Heap.size_update ..) hf'
        (get_update_of fun hle => absurd hlt (Nat.not_lt_of_le hle)) hf hempty'
        (bound_of_forall₂ hslots) fun name hname => ?_) (Heap.size_update ..)
      rw [Tidy.side_eq htidy hframes (hnames name hname), hface]
    · have hsame : ∀ (g : Heap) (φ : Object → Object), ¬(A.seat s.frames.size).id < g.size → ∀ id,
          Heap.get (g.update (A.seat s.frames.size).id φ) id = g.get id := by
        intro g φ hg id
        rw [Heap.get_update, if_neg fun hc => hg hc.2]
      exact Kept.congr h rfl rfl (fun id _ => hsame _ _ hlt id)
        (fun id _ => hsame _ _ (hlater.not.2 hlt) id) (fun id _ => by rw [Heap.size_update])
        fun id _ => by rw [Heap.size_update]
  addFrame h hopened _ _ _ ht := Kept.addFrame h hopened ht
  message _ _ _ _ _ _ hserve ho hk := runs_message hserve ho hk
  source _ _ _ _ h := runs_source h

end Erasing
end Clearance
