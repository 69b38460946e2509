/-
# Bindings are read and written together

What the operations that read, write, freeze and delete do to a binding, on both sides at once. A
binding keeps the label that it has when it is written, and one that comes into being with a write
is classified as the program counter.
-/
import Clearance.Proofs.Paired.Binding

namespace Clearance

open Clearance.Action Script

namespace Keeper.Custody

variable {W : World} {K : Keeper W} {M : Machines} {L : Ground} {cs : List Control}
  {s s' t t' : State} {S S' : Ref} {name : String} {α β : Type}

/-! ## Reading -/

/-- What is found of a binding. -/
lemma withFound (hC : K.Custody) (hp : W.partner S S' name) {Q : α → β → Prop}
    (hs : K.Starts L cs s s') {k : Option (Nat × Property) → Action α}
    {l : Option (Nat × Property) → Action β}
    (hcharges : K.Charges M ((Action.look fun s => s.heap.find? S.id name) >>= k) cs s)
    (hnone : Slots.find? name (s.store.heap.get S.id).slots = none →
      Slots.find? name (s'.store.heap.get S'.id).slots = none →
      K.Charges M (k none) cs s → K.Goes M (k none) (l none) Q cs s s')
    (hsome : ∀ p p', Slots.find? name (s.store.heap.get S.id).slots = some p →
      Slots.find? name (s'.store.heap.get S'.id).slots = some p' → W.Slot p p' →
      K.Charges M (k (some (S.id, p))) cs s →
        K.Goes M (k (some (S.id, p))) (l (some (S'.id, p'))) Q cs s s') :
    K.Goes M ((Action.look fun s => s.heap.find? S.id name) >>= k)
      ((Action.look fun s => s.heap.find? S'.id name) >>= l) Q cs s s' := by
  have hkept := hs.together.kept
  obtain ⟨hS, hS'⟩ := W.partner_store hp
  refine .withLook hs hcharges fun hrest => ?_
  rw [find?_bare (hC.bare hkept _ hS).1] at hrest ⊢
  rw [find?_bare (hC.bare hkept _ hS').2]
  rcases hC.cell hkept hp with ⟨hq, hq'⟩ | ⟨q, q', hq, hq', hslot⟩
  · rw [hq] at hrest ⊢
    rw [hq']
    exact hnone hq hq' hrest
  · rw [hq] at hrest ⊢
    rw [hq']
    exact hsome q q' hq hq' hslot hrest

lemma runs_getProperty (hC : K.Custody) (hp : W.partner S S' name) :
    K.Runs M L (getProperty S name) (getProperty S' name) W.Values := by
  intro cs s s' hs hcharges
  refine hC.withFound hp hs hcharges (fun _ _ _ => .pure hs .undefined)
    fun p p' _ _ hslot _ => ?_
  dsimp only
  rw [if_neg (by simp [hslot.isAccessor.1]), if_neg (by simp [hslot.isAccessor.2])]
  exact .pure hs hslot.value

lemma runs_partition (hC : K.Custody) (hp : W.partner S S' name) :
    K.Runs M L (Place.partition ⟨some S, name⟩) (Place.partition ⟨some S', name⟩) W.Labels := by
  intro cs s s' hs hcharges
  exact .withLook hs hcharges fun _ => .pure hs (hC.partition hs.together.kept hp)

lemma runs_resolve (hC : K.Custody) (hp : W.partner S S' name) {k k' : Label}
    (hk : W.Labels k k') :
    K.Runs M L (Operand.place ⟨some S, name⟩ k).resolve (Operand.place ⟨some S', name⟩ k').resolve
      W.Ratings :=
  Runs.bind (hC.runs_getProperty hp) fun _ _ hv => Runs.bind (hC.runs_partition hp)
    fun _ _ hpart => fun hs _ => .pure hs ⟨hv.raw, (hk.join hv.label).join hpart⟩

/-- What a binding shows before it is written or deleted. -/
lemma runs_peek (hC : K.Custody) (hp : W.partner S S' name) :
    K.Runs M L (Place.peek ⟨some S, name⟩) (Place.peek ⟨some S', name⟩) fun v v' =>
      (v = none ∧ v' = none) ∨ ∃ w w', v = some w ∧ v' = some w' ∧ W.Values w w' := by
  intro cs s s' hs hcharges
  refine hC.withFound hp hs hcharges (fun _ _ _ => .pure hs (.inl ⟨rfl, rfl⟩))
    fun p p' _ _ hslot _ => .pure hs (.inr ⟨p.value, p'.value, ?_, ?_, hslot.value⟩)
  · rw [if_neg (by simp [hslot.isAccessor.1])]
  · rw [if_neg (by simp [hslot.isAccessor.2])]

lemma runs_location (hC : K.Custody) (hp : W.partner S S' name) :
    K.Runs M L (Place.location ⟨some S, name⟩) (Place.location ⟨some S', name⟩) W.Locations := by
  refine Runs.bind (hC.runs_partition hp) fun k k' hk => Runs.bind (hC.runs_peek hp) ?_
  rintro _ _ (⟨rfl, rfl⟩ | ⟨w, w', rfl, rfl, hw⟩)
  · exact fun hs _ => .pure hs ⟨.none, hk, rfl⟩
  · exact fun hs _ => .pure hs ⟨hw.label, hw.label.join hk, by rw [hw.raw.same]⟩

lemma runs_receiverOf (hC : K.Custody) {k k' : Label} (hp : W.partner S S' name)
    (hS_known : L.known S.id) (hS'_known : L.known S'.id) :
    K.Runs M L (receiverOf (.place ⟨some S, name⟩ k)) (receiverOf (.place ⟨some S', name⟩ k'))
      W.Values := by
  intro cs s s' hs hcharges
  obtain ⟨hS, hS'⟩ := W.partner_store hp
  have hkept := hs.together.kept
  refine .withLook hs hcharges fun _ => ?_
  rw [if_pos (hC.activation hkept _ hS (hs.known _ hS_known)).1,
    if_pos (hC.activation hkept _ hS' (hs.known _ hS'_known)).2]
  exact .pure hs .undefined

/-! ## Writing -/

/-- An object that holds something is there. -/
lemma lt_of_slot {q : Property} (hq : Slots.find? name (s.store.heap.get S.id).slots = some q) :
    S.id < s.store.heap.size := by
  by_contra hid
  rw [Heap.get_of_size_le (Nat.le_of_not_lt hid)] at hq
  cases hq

/-- Both sides put a property where a name is bound. -/
lemma goes_put (hC : K.Custody) (hp : W.partner S S' name) (hs : K.Starts L cs s s')
    (hlt : ¬W.faithful → S.id < s.store.heap.size) {f f' : Object → Object} {p p' : Property}
    (hslot : W.Slot p p')
    (hf : f (s.store.heap.get S.id) = (s.store.heap.get S.id).define name p)
    (hf' : f' (s'.store.heap.get S'.id) = (s'.store.heap.get S'.id).define name p')
    (hkeeps : ∀ q, Slots.find? name (s.store.heap.get S.id).slots = some q →
      q.value.label.leq p.value.label = true)
    (hbinds : Slots.find? name (s.store.heap.get S.id).slots = none →
      s.control.pc.leq (p.value.label.join (s.store.heap.get S.id).partition) = true) :
    K.Goes M (change S.id f) (change S'.id f') (fun _ _ => True) cs s s' := by
  have hheap : s.store.heap.update S.id f = s.store.heap.update S.id (·.define name p) :=
    Heap.update_congr hf
  have hheap' : s'.store.heap.update S'.id f' = s'.store.heap.update S'.id (·.define name p') :=
    Heap.update_congr hf'
  refine .update hs (.update (K.partner_lt hp) (fun _ => ⟨_, rfl⟩)
    (.put hheap rfl (fun q hq => .inl (hkeeps q hq)) fun hnone _ => hbinds hnone)) fun _ =>
      ⟨trivial, ?_⟩
  dsimp only
  rw [hheap, hheap']
  exact hs.together.put hC (.binding hp) hslot fun hf _ => hlt hf

lemma extend_bare {o : Object} (ho : o.Bare) (name : String) (v : Value) :
    Heap.extend o name v = o.define name (.data v) := by
  unfold Heap.extend
  dsimp only
  rw [if_neg]
  exact ho.cls

/-- Both sides write a binding. -/
lemma goes_putProperty (hC : K.Custody) (hp : W.partner S S' name) (hs : K.Starts L cs s s')
    {v v' : Value} (hv : W.Values v v')
    (hkeeps : ∀ q, Slots.find? name (s.store.heap.get S.id).slots = some q →
      q.value.label.leq v.label = true)
    (hbinds : Slots.find? name (s.store.heap.get S.id).slots = none →
      s.control.pc.leq (v.label.join (s.store.heap.get S.id).partition) = true)
    (hcharges : K.Charges M (putProperty S name v) cs s) :
    K.Goes M (putProperty S name v) (putProperty S' name v') (fun _ _ => True) cs s s' := by
  have hkept := hs.together.kept
  obtain ⟨hS, hS'⟩ := W.partner_store hp
  have hbare := (hC.bare hkept _ hS).1
  have hbare' := (hC.bare hkept _ hS').2
  refine hC.withFound hp hs hcharges (fun hq _ hrest => ?_) fun p p' hq hq' hslot hrest => ?_
  · -- what would be changed is there
    have hquiet := (hrest.first _ (mem_moments_self _ cs s)).quiet
    have htouch : s.store.Touches (fun u : Store =>
        ((), { u with heap := u.heap.update S.id (Heap.extend · name v) })) S.id :=
      .of_define (o := Object.vacant .none) (g := (Heap.extend · name v))
        (extend_bare ⟨by decide, rfl, rfl, rfl⟩ name v) rfl fun _ => rfl
    have hlt : ¬W.faithful → S.id < s.store.heap.size := fun hf =>
      K.touches_exists hf hquiet S.id htouch
    refine .bind hs hrest (hC.goes_put hp hs hlt (.data hv) (extend_bare hbare name v)
      (extend_bare hbare' name v') hkeeps hbinds) fun _ _ _ _ _ _ _ hu _ => ?_
    -- stores of bindings are no arrays
    have hkept_after := hu.together.kept
    exact .insist hu (Heap.counts_of_cls (hC.bare hkept_after _ hS).1.cls _)
      (Heap.counts_of_cls (hC.bare hkept_after _ hS').2.cls _)
  have hread : p'.readOnly = p.readOnly := by
    obtain ⟨_, _, _, _, -, rfl, rfl⟩ := hslot
    rfl
  dsimp only at hrest ⊢
  obtain ⟨hdata, hdata'⟩ := hslot.isAccessor
  simp only [hdata, hdata', hread, Bool.false_eq_true, if_false] at hrest ⊢
  by_cases honly : p.readOnly = true
  · rw [if_pos honly, if_pos honly]
    exact .pure hs trivial
  rw [if_neg honly] at hrest
  rw [if_neg honly, if_neg honly]
  refine .withLook hs hrest fun hrest => ?_
  have hcls : ¬((s.store.heap.get S.id).cls = "Array" ∧ name = "length") := fun h => hbare.cls h.1
  have hcls' : ¬((s'.store.heap.get S'.id).cls = "Array" ∧ name = "length") :=
    fun h => hbare'.cls h.1
  simp only [beq_self_eq_true, hq, hq', if_neg hcls, if_neg hcls']
  exact hC.goes_put hp hs (fun _ => lt_of_slot hq) (hslot.withValue hv) rfl rfl hkeeps hbinds

/-- What a binding is classified as before a write. -/
lemma cell_locationIn (hC : K.Custody) (hp : W.partner S S' name) (hkept : K.kept s.store s'.store)
    {q : Property} (hq : Slots.find? name (s.store.heap.get S.id).slots = some q) :
    (Place.locationIn ⟨some S, name⟩ s).cell = q.value.label := by
  obtain ⟨hS, -⟩ := W.partner_store hp
  have hfind := find?_bare (hC.bare hkept _ hS).1 name
  rcases hC.cell hkept hp with ⟨hnone, -⟩ | ⟨p, p', hsome, -, hslot⟩
  · rw [hq] at hnone
    cases hnone
  · rw [hq] at hsome hfind
    cases hsome
    simp only [Place.locationIn, hfind, Option.map_some, Property.peeked, hslot.isAccessor.1,
      Bool.false_eq_true, if_false]

/-- A name that a store does not bind is classified as the store. -/
lemma label_locationIn (hC : K.Custody) (hp : W.partner S S' name) (hkept : K.kept s.store s'.store)
    (hq : Slots.find? name (s.store.heap.get S.id).slots = none) :
    (Place.locationIn ⟨some S, name⟩ s).label = (s.store.heap.get S.id).partition := by
  obtain ⟨hS, -⟩ := W.partner_store hp
  have hfind := find?_bare (hC.bare hkept _ hS).1 name
  rw [hq] at hfind
  simp only [Place.locationIn, hfind, Option.map_none]

/-- The checked write of a binding. -/
lemma runs_assign (hC : K.Custody) {line : Nat} {k k' : Label} {r r' : Rated} {declare : Bool}
    (hp : W.partner S S' name) (hk : W.Labels k k') (hr : W.Ratings r r') :
    K.Runs M L (assign line ⟨some S, name⟩ k r declare) (assign line ⟨some S', name⟩ k' r' declare)
      W.Values := by
  intro cs s s' hs hcharges
  have hkept := hs.together.kept
  refine .bind hs hcharges (hC.runs_location hp hs hcharges.first)
    fun loc loc' t t' ho ho' hloc _ hrest => ?_
  rw [run_location] at ho ho'
  cases ho
  cases ho'
  refine .withPc hs hrest fun hrest => ?_
  have hpc := hs.together.control.pc
  -- what is stored keeps the label of the binding and includes the program counter
  have hkeeps : ∀ q, Slots.find? name (s.store.heap.get S.id).slots = some q →
      q.value.label.leq ((Place.locationIn ⟨some S, name⟩ s).stored s.control.pc k r).label =
      true := by
    intro q hq
    rw [← hC.cell_locationIn hp hkept hq]
    exact Location.cell_leq_stored ..
  have hbinds : Slots.find? name (s.store.heap.get S.id).slots = none →
      s.control.pc.leq (((Place.locationIn ⟨some S, name⟩ s).stored s.control.pc k r).label.join
        (s.store.heap.get S.id).partition) = true := by
    intro hq
    rw [← hC.label_locationIn hp hkept hq]
    exact Location.pc_leq_stored ..
  generalize Place.locationIn ⟨some S, name⟩ s = loc at *
  generalize Place.locationIn ⟨some S', name⟩ s' = loc' at *
  have hcontext := hpc.join (hk.join hloc.label)
  have hbound := hloc.label.join hloc.cell
  unfold assignTo at hrest ⊢
  dsimp only at hrest ⊢
  refine .check hs hrest (fun hcalm => hcontext.not_less_left hcalm)
    (fun hcalm => hcontext.not_less_right hcalm)
    (fun hf => by rw [hcontext.same hf, hbound.same hf]) hcontext hbound fun hrest => ?_
  refine .check hs hrest (fun hcalm h => ?_) (fun hcalm h => ?_) (fun hf => ?_) hr.label hloc.label
    fun hrest => ?_
  · exact hr.label.not_less_left hcalm (Bool.and_eq_true_iff.1 h).2
  · exact hr.label.not_less_right hcalm (Bool.and_eq_true_iff.1 h).2
  · rw [hloc.established, hr.label.same hf, hloc.label.same hf]
  refine .noted hs hrest fun u u' hc hheap hu hrest => ?_
  refine .bind hu hrest (hC.goes_putProperty hp hu (hloc.stored hpc hk hr) ?_ ?_ hrest.first)
    fun _ _ v v' _ _ _ hv _ => .pure hv hr.value
  · rw [hheap]
    exact hkeeps
  · rw [hheap, hc]
    exact hbinds

/-- A change of neither side. -/
lemma goes_unchanged (hs : K.Starts L cs s s') {id id' : Nat} (hid : id < K.last.heap.size)
    {f f' : Object → Object}
    (hf : f (s.store.heap.get id) = s.store.heap.get id)
    (hf' : f' (s'.store.heap.get id') = s'.store.heap.get id') :
    K.Goes M (change id f) (change id' f') (fun _ _ => True) cs s s' := by
  have hheap : s.store.heap.update id f = s.store.heap := Heap.update_eq_self fun _ => hf
  have hheap' : s'.store.heap.update id' f' = s'.store.heap := Heap.update_eq_self fun _ => hf'
  refine .update hs (.update hid (fun _ => ⟨_, rfl⟩) (.of_heap hheap rfl)) fun _ => ⟨trivial, ?_⟩
  dsimp only
  rw [hheap, hheap']
  exact hs.together

lemma runs_freeze (hC : K.Custody) (hp : W.partner S S' name) :
    K.Runs M L (freeze ⟨some S, name⟩) (freeze ⟨some S', name⟩) fun _ _ => True := by
  intro cs s s' hs hcharges
  have hkept := hs.together.kept
  obtain ⟨hS, hS'⟩ := W.partner_store hp
  have hbare := (hC.bare hkept _ hS).1
  have hbare' := (hC.bare hkept _ hS').2
  rcases hC.cell hkept hp with ⟨hq, hq'⟩ | ⟨q, q', hq, hq', hslot⟩
  · refine goes_unchanged hs (K.partner_lt hp) ?_ ?_
    · rw [own?_bare hbare, hq]
    · rw [own?_bare hbare', hq']
  · refine hC.goes_put hp hs (fun _ => lt_of_slot hq) hslot.frozen ?_ ?_ ?_ ?_
    · rw [own?_bare hbare, hq]
    · rw [own?_bare hbare', hq']
    · rw [hq]
      rintro _ ⟨⟩
      exact Label.leq_refl _
    · rw [hq]
      rintro ⟨⟩

/-- Both sides delete a binding. -/
lemma goes_delete (hC : K.Custody) (hp : W.partner S S' name) (hs : K.Starts L cs s s') :
    K.Goes M
      (.update fun s =>
        let (gone, obj) := (s.heap.get S.id).delete name
        (gone, { s with heap := s.heap.update S.id fun _ => obj }))
      (.update fun s =>
        let (gone, obj) := (s.heap.get S'.id).delete name
        (gone, { s with heap := s.heap.update S'.id fun _ => obj }))
      (fun gone gone' => gone' = gone) cs s s' := by
  have h := hs.together
  obtain ⟨hS, hS'⟩ := W.partner_store hp
  have hbare := (hC.bare h.kept _ hS).1
  have hbare' := (hC.bare h.kept _ hS').2
  have hkept := hC.erase h.kept hp
  refine .update hs (.update (K.partner_lt hp)
    (fun h => ⟨fun _ => ((h.get S.id).delete name).2, rfl⟩) ?_) fun _ =>
    ⟨?_, h.control, h.heaps.of_stores (by simp) (by simp)
    (fun id hid => ?_) (fun id hid => ?_), h.result, h.seed, h.files, hkept⟩
  · exact .delete
  · unfold Object.delete
    rcases hC.cell h.kept hp with ⟨hq, hq'⟩ | ⟨q, q', hq, hq', hslot⟩
    · rw [hq, hq']
      unfold Object.hasOwn
      rw [own?_bare hbare, own?_bare hbare', hq, hq']
    · rw [hq, hq']
      obtain ⟨_, _, _, permanent, -, rfl, rfl⟩ := hslot
      cases permanent <;> rfl
  · exact Heap.get_update_ne (by rintro rfl; exact hid hS) _
  · exact Heap.get_update_ne (by rintro rfl; exact hid hS') _

/-- The checked deletion of a binding. -/
lemma goes_erase (hC : K.Custody) (hp : W.partner S S' name) (hs : K.Starts L cs s s') {line : Nat}
    {k k' location location' : Label} (hk : W.Labels k k') (hlocation : W.Labels location location')
    (hcharges : K.Charges M (Action.pc >>= fun pc =>
      if location.less (pc.join k) then violate line name (pc.join k) location
      else do
        let gone ← .update fun s =>
          let (gone, obj) := (s.heap.get S.id).delete name
          (gone, { s with heap := s.heap.update S.id fun _ => obj })
        return (.value (Raw.bool gone) : Operand)) cs s) :
    K.Goes M
      (Action.pc >>= fun pc =>
        if location.less (pc.join k) then violate line name (pc.join k) location
        else do
          let gone ← .update fun s =>
            let (gone, obj) := (s.heap.get S.id).delete name
            (gone, { s with heap := s.heap.update S.id fun _ => obj })
          return (.value (Raw.bool gone) : Operand))
      (Action.pc >>= fun pc =>
        if location'.less (pc.join k') then violate line name (pc.join k') location'
        else do
          let gone ← .update fun s =>
            let (gone, obj) := (s.heap.get S'.id).delete name
            (gone, { s with heap := s.heap.update S'.id fun _ => obj })
          return (.value (Raw.bool gone) : Operand))
      W.Operands cs s s' := by
  refine .withPc hs hcharges fun hrest => ?_
  have hcontext := hs.together.control.pc.join hk
  refine .check hs hrest (fun hcalm => hcontext.not_less_left hcalm)
    (fun hcalm => hcontext.not_less_right hcalm)
    (fun hf => by rw [hcontext.same hf, hlocation.same hf]) hcontext hlocation fun hrest => ?_
  refine .bind hs hrest (hC.goes_delete hp hs) fun gone gone' u u' _ _ hgone hu _ =>
    .pure hu (.value ?_)
  rw [hgone]
  exact .primitive rfl

lemma runs_eraseAt (hC : K.Custody) {line : Nat} {k k' : Label} (hp : W.partner S S' name)
    (hk : W.Labels k k') :
    K.Runs M L (eraseAt line ⟨some S, name⟩ k) (eraseAt line ⟨some S', name⟩ k') W.Operands := by
  intro cs s s' hs hcharges
  refine .bind hs hcharges (hC.runs_partition hp hs hcharges.first)
    fun part part' t t' _ _ hpart hs hrest => ?_
  refine .bind hs hrest (hC.runs_peek hp hs hrest.first)
    fun found found' t t' _ _ hfound hs hrest => ?_
  rcases hfound with ⟨rfl, rfl⟩ | ⟨w, w', rfl, rfl, hw⟩
  · exact hC.goes_erase hp hs hk hpart hrest
  · exact hC.goes_erase hp hs hk (hpart.join hw.label) hrest

/-! ## All operations -/

/-- Where bindings are kept one step at a time, the operations on bindings go together. -/
theorem knows (hC : K.Custody) : K.Knows where
  placeOf := hC.runs_placeOf
  define := hC.runs_define
  instantiate := hC.runs_instantiate
  newFrame := hC.runs_newFrame
  withFrame := hC.runs_withFrame
  functionExpression := hC.runs_functionExpression
  enterFrame := hC.runs_enterFrame
  resolve hp hk := hC.runs_resolve hp hk
  assign hp hk hr := hC.runs_assign hp hk hr
  freeze := hC.runs_freeze
  eraseAt hp hk := hC.runs_eraseAt hp hk
  receiverOf hp hS hS' := hC.runs_receiverOf hp hS hS'
  message hf := hC.message hf
  source hf := hC.source hf

end Keeper.Custody
end Clearance
