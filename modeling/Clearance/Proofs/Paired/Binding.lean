/-
# Operations on bindings go together

The operations that bind names, and those that touch bindings, go together, provided that the
bindings are kept one step at a time. Each proof follows the definition of its operation; what is
known of the state at a step comes from running the steps before it.
-/
import Clearance.Proofs.Paired.Custody

namespace Clearance

open Clearance.Action Script

/-- What is stored at a location includes the program counter, unless the location does. -/
lemma Location.pc_leq_stored (loc : Location) (pc chosen : Label) (r : Rated) :
    pc.leq ((loc.stored pc chosen r).label.join loc.label) = true := by
  rw [Label.leq_iff, Label.height_join]
  unfold Location.stored
  rw [Value.height_wrap]
  split_ifs with horder
  · unfold Value.raiseAbove
    split_ifs with hleq
    · rw [Label.leq_iff, Label.height_join] at hleq
      omega
    · rw [Value.height_wrap, Label.height_join]
      omega
  · rw [Value.height_wrap]
    omega

/-- A property is put into a store: a binding keeps its label or is declared, and a new binding is
classified as the program counter. -/
lemma World.Step.put {W : World} {c : Control} {α : Type} {action : Action α} {s t : Store}
    {id : Nat} {name : String} {p : Property} (hheap : t.heap = s.heap.update id (·.define name p))
    (hframes : t.frames.size = s.frames.size)
    (hkeeps : ∀ q, Slots.find? name (s.heap.get id).slots = some q →
      q.value.label.leq p.value.label = true ∨ Declares s id name action)
    (hbinds : Slots.find? name (s.heap.get id).slots = none → (s.heap.get id).cls = "Activation" →
      c.pc.leq (p.value.label.join (s.heap.get id).partition) = true) : W.Step c action s t := by
  have hget : ∀ {j n q'}, Slots.find? n (t.heap.get j).slots = some q' →
      Slots.find? n (s.heap.get j).slots = some q' ∨ (j = id ∧ n = name ∧ q' = p) := by
    intro j n q' hq'
    rw [hheap, Heap.get_update] at hq'
    split_ifs at hq' with hj
    · rw [Object.find?_define] at hq'
      obtain ⟨rfl, -⟩ := hj
      split_ifs at hq' with hn
      · cases hq'
        exact .inr ⟨rfl, hn.symm ▸ rfl, rfl⟩
      · exact .inl hq'
    · exact .inl hq'
  have hcls : ∀ j, (t.heap.get j).cls = (s.heap.get j).cls := by
    intro j
    rw [hheap, Heap.get_update]
    split_ifs <;> simp_all [Object.define]
  refine ⟨fun {j n q q'} _ hq hq' hdeclares => ?_, fun {j n q'} hact hq hq' => ?_,
    fun {j q} hj hq => ?_, World.Step.parent_of_frames hframes _ _⟩
  · rcases hget hq' with hsame | ⟨rfl, rfl, rfl⟩
    · rw [hq] at hsame
      cases hsame
      exact Label.leq_refl _
    · exact (hkeeps q hq).resolve_right hdeclares
  · rcases hget hq' with hsame | ⟨rfl, rfl, rfl⟩
    · rw [hq] at hsame
      cases hsame
    · rw [hcls] at hact
      exact hbinds hq hact
  · rw [hheap] at hq
    exact (World.Step.proto_of_size (by simpa using hj) hq).elim

/-- An empty store is filled. -/
lemma World.Step.fill {W : World} {c : Control} {α : Type} {action : Action α}
    {s : Store} {id : Nat}
    {f : Object → Object} (hempty : (s.heap.get id).slots = [])
    (hf : (s.heap.get id).SameShell (f (s.heap.get id)))
    (hpc : c.pc.leq (s.heap.get id).partition = true) :
    W.Step c action s { s with heap := s.heap.update id f } := by
  refine ⟨fun {j n q q'} _ hq hq' _ => ?_, fun {j n q'} _ hq hq' => ?_,
    fun {j q} hj hq => (World.Step.proto_of_size (by simpa using hj) hq).elim,
    World.Step.parent_of_frames rfl _ _⟩
  all_goals
    dsimp only at hq'
    rw [Heap.get_update] at hq'
    split_ifs at hq' with hj
  · obtain ⟨rfl, -⟩ := hj
    rw [hempty] at hq
    cases hq
  · rw [hq] at hq'
    cases hq'
    exact Label.leq_refl _
  · obtain ⟨rfl, -⟩ := hj
    refine Label.leq_trans hpc ?_
    rw [Label.leq_iff, Label.height_join]
    exact Nat.le_max_right ..
  · rw [hq] at hq'
    cases hq'

/-- A binding is deleted. -/
lemma World.Step.delete {W : World} {c : Control} {α : Type} {action : Action α} {s : Store}
    {id : Nat} {name : String} : W.Step c action s
      { s with heap := s.heap.update id fun _ => ((s.heap.get id).delete name).2 } := by
  have hfind : ∀ {j n q'}, Slots.find? n (Heap.get
      (s.heap.update id fun _ => ((s.heap.get id).delete name).2) j).slots = some q' →
      Slots.find? n (s.heap.get j).slots = some q' := by
    intro j n q' hq'
    rw [Heap.get_update] at hq'
    split_ifs at hq' with hj
    · obtain ⟨rfl, -⟩ := hj
      exact Object.find?_of_delete hq'
    · exact hq'
  refine ⟨fun {j n q q'} _ hq hq' _ => ?_, fun {j n q'} _ hq hq' => ?_,
    fun {j q} hj hq => (World.Step.proto_of_size (by simpa using hj) hq).elim,
    World.Step.parent_of_frames rfl _ _⟩
  all_goals rw [hfind hq'] at hq
  · cases hq
    exact Label.leq_refl _
  · cases hq

/-! ## What a call binds -/

/-- The names that a frame has bound, the latest first. -/
def boundNames (names : List String) : List String → List String :=
  names.foldl fun bound name => name :: bound.filter (· != name)

lemma mem_boundNames {names bound : List String} {name : String}
    (h : name ∈ names ∨ name ∈ bound) : name ∈ boundNames names bound := by
  unfold boundNames
  induction names generalizing bound with
  | nil => simpa using h
  | cons n names ih =>
    refine ih ?_
    by_cases hn : name = n
    · exact .inr (by simp [hn])
    · simp_all

/-- A frame binds the names of bindings on its side. -/
lemma facing_bound {β : Type} (side : Side) (act other : Ref) (parent : Nat) (dynamic : Bool)
    (bindings : List (String × β)) (bound : List String) :
    bindings.foldl (fun f b => f.bind b.1 side) (Frame.facing side act other bound parent dynamic) =
      Frame.facing side act other (boundNames (bindings.map Prod.fst) bound) parent dynamic := by
  have hbind : ∀ (bound : List String) (name : String),
      (Frame.facing side act other bound parent dynamic).bind name side =
        Frame.facing side act other (name :: bound.filter (· != name)) parent dynamic := by
    intro bound name
    cases side <;>
      simp [Frame.facing, Frame.bind, Frame.unbind, List.filter_map, Function.comp_def]
  induction bindings generalizing bound with
  | nil => rfl
  | cons b bindings ih =>
    rw [List.foldl_cons, hbind, ih]
    rfl

/-- The properties of a store that binds values. -/
def bindAll (bindings : List (String × Value)) (o : Object) : Object :=
  bindings.foldl (fun o (name, v) => o.define name (permanentData v)) o

lemma sameShell_bindAll (bindings : List (String × Value)) (o : Object) :
    o.SameShell (bindAll bindings o) := by
  unfold bindAll
  induction bindings generalizing o with
  | nil => exact .refl _
  | cons b bindings ih => exact (Object.sameShell_define ..).trans (ih _)

lemma find?_bindAll {bindings : List (String × Value)} {o : Object} {name : String}
    (h : Slots.find? name (bindAll bindings o).slots ≠ none) :
    Slots.find? name o.slots ≠ none ∨ name ∈ bindings.map Prod.fst := by
  unfold bindAll at h
  induction bindings generalizing o with
  | nil => exact .inl h
  | cons b bindings ih =>
    rcases ih h with hfind | hmem
    · rw [Object.find?_define] at hfind
      split_ifs at hfind with hname
      · exact .inr (by simp [hname])
      · exact .inl hfind
    · exact .inr (List.mem_cons_of_mem _ hmem)

/-- Properties that correspond are put on both sides. -/
lemma Slots.forall₂_put {R : Property → Property → Prop} {slots slots' : Slots} {name : String}
    {p p' : Property} (h : List.Forall₂ (fun a b => b.1 = a.1 ∧ R a.2 b.2) slots slots')
    (hp : R p p') :
    List.Forall₂ (fun a b => b.1 = a.1 ∧ R a.2 b.2) (slots.put name p) (slots'.put name p') := by
  induction h with
  | nil => exact .cons ⟨rfl, hp⟩ .nil
  | @cons a b _ _ hab hrest ih =>
    obtain ⟨n, q⟩ := a
    obtain ⟨_, q'⟩ := b
    obtain ⟨rfl, hq⟩ := hab
    unfold Slots.put
    dsimp only at hq ⊢
    split_ifs
    · exact .cons ⟨rfl, hp⟩ hrest
    · exact .cons ⟨rfl, hq⟩ ih

lemma forall₂_bindAll {W : World} {bindings bindings' : List (String × Value)}
    (hbindings : List.Forall₂ (fun a b => b.1 = a.1 ∧ W.Values a.2 b.2) bindings bindings')
    {o o' : Object} (ho : List.Forall₂ (fun a b => b.1 = a.1 ∧ W.Slot a.2 b.2) o.slots o'.slots) :
    List.Forall₂ (fun a b => b.1 = a.1 ∧ W.Slot a.2 b.2) (bindAll bindings o).slots
      (bindAll bindings' o').slots := by
  unfold bindAll
  induction hbindings generalizing o o' with
  | nil => exact ho
  | @cons a b _ _ hab _ ih =>
    obtain ⟨name, v⟩ := a
    obtain ⟨_, v'⟩ := b
    obtain ⟨rfl, hv⟩ := hab
    exact ih (Slots.forall₂_put ho ⟨v, v', false, true, hv, rfl, rfl⟩)

/-- What the parameters of a function are bound to. -/
lemma forall₂_parameters {W : World} {args args' : List Value}
    (hargs : List.Forall₂ W.Values args args') (params : List (Ident Span × Nat)) :
    List.Forall₂ (fun a b : String × Value => b.1 = a.1 ∧ W.Values a.2 b.2)
      (params.map fun (p, i) => (p.name, args.getD i .undefined))
      (params.map fun (p, i) => (p.name, args'.getD i .undefined)) := by
  have hget : ∀ i, W.Values (args.getD i .undefined) (args'.getD i .undefined) := by
    intro i
    induction hargs generalizing i with
    | nil => exact .undefined
    | cons hv _ ih =>
      cases i with
      | zero => exact hv
      | succ i => exact ih i
  induction params with
  | nil => exact .nil
  | cons p params ih => exact .cons ⟨rfl, hget _⟩ ih

namespace Keeper

variable {W : World} {K : Keeper W} {M : Machines} {L : Ground} {cs : List Control}
  {s s' t t' : State} {α β γ δ : Type}

/-! ## Steps whose outcome is known -/

section

variable {Q : α → β → Prop}

lemma Goes.withLook (hs : K.Starts L cs s s') {f : Store → γ} {f' : Store → δ} {k : γ → Action α}
    {l : δ → Action β} (hcharges : K.Charges M (Action.look f >>= k) cs s)
    (hk : K.Charges M (k (f s.store)) cs s →
      K.Goes M (k (f s.store)) (l (f' s'.store)) Q cs s s') :
    K.Goes M (Action.look f >>= k) (Action.look f' >>= l) Q cs s s' := by
  refine .bind (R := fun _ _ => True) hs hcharges (.look hs trivial)
    fun x y t t' ho ho' _ _ hrest => ?_
  cases ho
  cases ho'
  exact hk hrest

lemma Goes.withControl (hs : K.Starts L cs s s') {k : Control → Action α} {l : Control → Action β}
    (hcharges : K.Charges M (Action.current >>= k) cs s)
    (hk : K.Charges M (k s.control) cs s → K.Goes M (k s.control) (l s'.control) Q cs s s') :
    K.Goes M (Action.current >>= k) (Action.current >>= l) Q cs s s' := by
  refine .bind hs hcharges (.current hs) fun x y t t' ho ho' _ _ hrest => ?_
  cases ho
  cases ho'
  exact hk hrest

lemma Goes.withRealm (hs : K.Starts L cs s s') {k : Realm → Action α} {l : Realm → Action β}
    (hcharges : K.Charges M (Action.realm >>= k) cs s)
    (hk : K.Charges M (k W.realm) cs s → K.Goes M (k W.realm) (l W.realm) Q cs s s') :
    K.Goes M (Action.realm >>= k) (Action.realm >>= l) Q cs s s' := by
  refine .bind hs hcharges (Runs.realm hs hcharges.first) fun x y t t' ho ho' hR _ hrest => ?_
  obtain ⟨hr, hr'⟩ := hR
  rw [run_realm] at ho ho'
  cases ho
  cases ho'
  rw [hr] at hrest ⊢
  rw [hr']
  exact hk hrest

lemma Goes.withPc (hs : K.Starts L cs s s') {k : Label → Action α} {l : Label → Action β}
    (hcharges : K.Charges M (Action.pc >>= k) cs s)
    (hk : K.Charges M (k s.control.pc) cs s →
      K.Goes M (k s.control.pc) (l s'.control.pc) Q cs s s') :
    K.Goes M (Action.pc >>= k) (Action.pc >>= l) Q cs s s' := by
  refine .bind (R := fun _ _ => True) hs hcharges ?_ fun x y t t' ho ho' _ _ hrest => ?_
  · refine .withControl hs hcharges.first fun _ => .pure hs trivial
  · rw [run_pc] at ho ho'
    cases ho
    cases ho'
    exact hk hrest

lemma Goes.withPure (hs : K.Starts L cs s s') {a : γ} {b : δ} {k : γ → Action α}
    {l : δ → Action β} (hcharges : K.Charges M (Pure.pure a >>= k) cs s)
    (hk : K.Charges M (k a) cs s → K.Goes M (k a) (l b) Q cs s s') :
    K.Goes M (Pure.pure a >>= k) (Pure.pure b >>= l) Q cs s s' := by
  refine .bind (R := fun _ _ => True) hs hcharges (.pure hs trivial)
    fun x y t t' ho ho' _ _ hrest => ?_
  cases ho
  cases ho'
  exact hk hrest

end

/-! ## Changes of the stores -/

/-- Where a property may be put on both sides, it is put on both sides. -/
lemma Together.put (hC : K.Custody) (h : K.Together s s') {S S' : Ref} {name : String}
    (hplaces : W.Places ⟨some S, name⟩ ⟨some S', name⟩) {p p' : Property} (hp : W.Slot p p')
    (hlt : ¬W.faithful → W.store S.id → S.id < s.store.heap.size) :
    K.Together ⟨s.control, { s.store with heap := s.store.heap.update S.id (·.define name p) }⟩
      ⟨s'.control, { s'.store with heap := s'.store.heap.update S'.id (·.define name p') }⟩ := by
  cases hplaces with
  | member _ ho =>
    have hobject := W.fits_object ho
    exact h.change hobject ((h.heaps.object _ hobject).define hp.properties)
  | binding hpartner =>
    obtain ⟨hS, hS'⟩ := W.partner_store hpartner
    refine ⟨h.control, h.heaps.of_stores (by simp) (by simp) (fun id hid => ?_) (fun id hid => ?_),
      h.result, h.seed, h.files, hC.put h.kept hpartner hp fun hf => hlt hf hS⟩
    · exact Heap.get_update_ne (by rintro rfl; exact hid hS) _
    · exact Heap.get_update_ne (by rintro rfl; exact hid hS') _

/-- What is held at places that correspond. -/
lemma Custody.held_places (hC : K.Custody) (h : K.Together s s') {S S' : Ref} {name : String}
    (hplaces : W.Places ⟨some S, name⟩ ⟨some S', name⟩) :
    (s'.store.heap.get S'.id).hasOwn name = (s.store.heap.get S.id).hasOwn name := by
  cases hplaces with
  | member _ ho => exact (h.heaps.object _ (W.fits_object ho)).hasOwn name
  | binding hpartner =>
    obtain ⟨hS, hS'⟩ := W.partner_store hpartner
    unfold Object.hasOwn
    rw [own?_bare (hC.bare h.kept _ hS).1, own?_bare (hC.bare h.kept _ hS').2]
    rcases hC.cell h.kept hpartner with ⟨hq, hq'⟩ | ⟨q, q', hq, hq', -⟩
    · rw [hq, hq']
    · rw [hq, hq']
      rfl

/-- A store of a frame exists. -/
lemma Custody.lt_of_store (hC : K.Custody) (h : K.Together s s') {n : Nat} {side : Side}
    (hstore : W.store ((s.store.frames.get n).store side).id) :
    ((s.store.frames.get n).store side).id < s.store.heap.size := by
  by_cases hn : n < s.store.frames.size
  · exact (hC.bounded h.kept).1 n hn side hstore
  · rw [Frames.get_of_size_le (Nat.le_of_not_lt hn)] at hstore
    cases side <;> exact absurd hstore hC.zero_object

/-- The partitions of places that correspond. -/
lemma Custody.partition_places (hC : K.Custody) (h : K.Together s s') {S S' : Ref} {name : String}
    (hplaces : W.Places ⟨some S, name⟩ ⟨some S', name⟩) :
    W.Labels (s.store.heap.get S.id).partition (s'.store.heap.get S'.id).partition := by
  cases hplaces with
  | member _ ho => exact (h.heaps.object _ (W.fits_object ho)).partition
  | binding hpartner => exact hC.partition h.kept hpartner

/-! ## Names -/

namespace Custody

lemma runs_placeOf (hC : K.Custody) {name : String} :
    K.Runs M L (placeOf name) (placeOf name) W.Places := by
  intro cs s s' hs hcharges
  have h := hs.together
  refine .withControl hs hcharges fun _ => ?_
  have hscope : s'.control.scope = s.control.scope := h.control.scope
  obtain ⟨hfound, hkept⟩ := hC.lookup name (s.control.scope + 1) s.control.scope h.kept h.heaps
  refine .update hs (.aside (fun _ => rfl) ?_) fun _ => ?_
  · show (s.store.frames.lookup s.store.heap s.control.scope name).2.size = _
    exact Frames.size_lookupWithin ..
  · dsimp only
    rw [hscope]
    unfold Frames.lookup
    generalize s.store.frames.lookupWithin _ _ _ _ = r at *
    generalize s'.store.frames.lookupWithin _ _ _ _ = r' at *
    obtain ⟨found, fs⟩ := r
    obtain ⟨found', fs'⟩ := r'
    dsimp only at hfound hkept ⊢
    refine ⟨?_, h.control, h.heaps, h.result, h.seed, h.files, hkept⟩
    cases hfound with
    | none => exact .unbound name
    | some hplaces => exact hplaces

/-- A frame that does not exist has no stores. -/
lemma places_of_lt (hC : K.Custody) (h : K.Together s s') {n : Nat} {name : String}
    {side side' : Side} (hplaces : n < s.store.frames.size →
      W.Places ⟨some ((s.store.frames.get n).store side), name⟩
        ⟨some ((s'.store.frames.get n).store side'), name⟩) :
    W.Places ⟨some ((s.store.frames.get n).store side), name⟩
      ⟨some ((s'.store.frames.get n).store side'), name⟩ := by
  have hsize := hC.frames_size h.kept
  by_cases hn : n < s.store.frames.size
  · exact hplaces hn
  · have hdefault : ∀ side, (default : Frame).store side = ⟨0, .plain⟩ := by
      intro side
      cases side <;> rfl
    rw [Frames.get_of_size_le (by omega), Frames.get_of_size_le (by omega), hdefault, hdefault]
    exact .member name (W.fits_plain hC.zero_object)

/-- The places that a name is bound at, if it is bound in a store that is provided for. -/
lemma places_of_tidy (hC : K.Custody) (h : K.Together s s') {pc pc' : Label}
    (hpc : W.Labels pc pc') {n : Nat} {name : String} {t : Store} (htidy : K.tidy t)
    (hprecedes : s.store.Precedes t)
    (hbound : n < s.store.frames.size →
      (t.frames.get n).index.lookup name = some (Frame.sideAt pc)) :
    (n < s.store.frames.size → K.agrees n name (Frame.sideAt pc) (Frame.sideAt pc')) ∧
      W.Places ⟨some ((s.store.frames.get n).store (Frame.sideAt pc)), name⟩
        ⟨some ((s'.store.frames.get n).store (Frame.sideAt pc')), name⟩ := by
  have hagrees : n < s.store.frames.size → K.agrees n name (Frame.sideAt pc) (Frame.sideAt pc') :=
    fun hn => hC.agrees_of_bound h.kept hpc htidy hprecedes hn (hbound hn)
  exact ⟨hagrees, hC.places_of_lt h fun hn => hC.places h.kept hn (hagrees hn)⟩

/-- A store in which a name is bound in a frame, and a property is put for it into an object. -/
def bound (s : Store) (id n : Nat) (name : String) (p : Property) (side : Side) : Store :=
  { s with
    heap := s.heap.update id (·.define name p)
    frames := s.frames.setIfInBounds n ((s.frames.get n).bind name side) }

lemma precedes_bound (s : Store) (id n : Nat) (name : String) (p : Property) (side : Side) :
    s.Precedes (bound s id n name p side) := by
  have hheap : s.heap.Extends (s.heap.update id (·.define name p)) :=
    .update (Object.sameShell_define ..)
  exact ⟨hheap, .set (Frame.links_bind ..)⟩

lemma lookup_bound {s : Store} {id n : Nat} {name : String} {p : Property} {side : Side}
    (hn : n < s.frames.size) :
    ((bound s id n name p side).frames.get n).index.lookup name = some side := by
  show (Frames.get (s.frames.setIfInBounds n _) n).index.lookup name = _
  rw [Frames.get_set, if_pos ⟨rfl, hn⟩]
  exact List.lookup_cons_self

/-- The store after a property has been defined in a frame. -/
def defined (s : Store) (n : Nat) (pc : Label) (name : String) (p : Property) : Store :=
  let store := (s.frames.get n).store (Frame.sideAt pc)
  bound s store.id n name (if (s.heap.get store.id).partition.less pc
    then { p with value := p.value.wrap pc } else p) (Frame.sideAt pc)

lemma run_defineIn {serve : Service} {fuel n : Nat} {pc : Label} {name : String} {p : Property}
    {s : State} : (defineIn n pc name p).run serve fuel s =
      .done () ⟨s.control, defined s.store n pc name p⟩ := rfl

/-- Defining a property in a frame. -/
lemma goes_defineIn (hC : K.Custody) (hs : K.Starts L cs s s') {n : Nat} {name : String}
    {p p' : Property} (hp : W.Slot p p')
    (hcharges : K.Charges M (defineIn n s.control.pc name p) cs s) :
    K.Goes M (defineIn n s.control.pc name p) (defineIn n s'.control.pc name p')
      (fun _ _ => True) cs s s' := by
  have h := hs.together
  have hpc := h.control.pc
  have htidy := K.quiet_tidy (hcharges _ (mem_moments_self _ cs s)).quiet
  rw [run_defineIn] at htidy
  obtain ⟨hagrees, hplaces⟩ := hC.places_of_tidy h hpc htidy (precedes_bound ..) lookup_bound
  have hpartition := hC.partition_places h hplaces
  -- wrapped or not, what the two runs define corresponds
  have hdefined : W.Slot
      (if (s.store.heap.get ((s.store.frames.get n).store (Frame.sideAt s.control.pc)).id
          ).partition.less s.control.pc then { p with value := p.value.wrap s.control.pc } else p)
      (if (s'.store.heap.get ((s'.store.frames.get n).store (Frame.sideAt s'.control.pc)).id
          ).partition.less s'.control.pc then { p' with value := p'.value.wrap s'.control.pc }
        else p') := by
    have hif : ∀ (c : Prop) [Decidable c] (q : Property) (v : Value),
        (if c then { q with value := v } else q) =
          { q with value := if c then v else q.value } := by
      intro c _ q v
      split_ifs <;> rfl
    rw [hif, hif]
    refine hp.withValue (.ite (hp.value.wrap hpc) hp.value (Value.wrap_raw ..).symm fun hf => ?_)
    rw [hpartition.same hf, hpc.same hf]
  have hput := h.put hC hplaces hdefined fun _ => hC.lt_of_store h
  have htouches : ∀ h : Heap, ∃ g, ((s.store.frames.get n).define h name p s.control.pc).2.2 =
      h.update ((s.store.frames.get n).store (Frame.sideAt s.control.pc)).id g := fun h =>
    ⟨(·.define name (if (h.get ((s.store.frames.get n).store (Frame.sideAt s.control.pc)).id
      ).partition.less s.control.pc then { p with value := p.value.wrap s.control.pc } else p)),
        rfl⟩
  refine .update hs (.update (lt_of_places hplaces) htouches
    (.put rfl (by simp) (fun _ _ => .inr (.define rfl)) fun _ _ => ?_)) fun _ =>
      ⟨trivial, h.control, hput.heaps, h.result, h.seed, h.files, ?_⟩
  · rw [Label.leq_iff, Label.height_join]
    split_ifs with hless
    · dsimp only
      rw [Value.height_wrap]
      omega
    · rw [Label.less_iff] at hless
      omega
  · by_cases hn : n < s.store.frames.size
    · exact hC.bind hput.kept (hagrees hn)
    · have hsize := hC.frames_size h.kept
      refine K.kept_congr hput.kept ?_ ?_ (fun _ _ => rfl) (fun _ _ => rfl) (fun _ _ => .rfl)
        fun _ _ => .rfl
      · exact Array.setIfInBounds_eq_of_size_le (by omega)
      · exact Array.setIfInBounds_eq_of_size_le (by omega)

lemma runs_define (hC : K.Custody) {name : String} {p p' : Property} (hp : W.Bindings p p') :
    K.Runs M L (define name p) (define name p') fun _ _ => True := by
  intro cs s s' hs hcharges
  obtain ⟨v, v', permanent, hv, rfl, rfl⟩ := hp
  refine .withControl hs hcharges fun hrest => ?_
  rw [hs.together.control.scope]
  exact hC.goes_defineIn hs ⟨v, v', false, permanent, hv, rfl, rfl⟩ hrest

/-- Whether a variable is taken is the same on both sides: a store holds it, or the first machine
goes on to bind it. -/
lemma taken (hC : K.Custody) (hs : K.Starts L cs s s') {name : String} {p : Property}
    (hcharges : (s.store.heap.get ((s.store.frames.get s.control.scope).store
        (Frame.sideAt s.control.pc)).id).hasOwn name = false → K.Charges M (define name p) cs s) :
    (s'.store.heap.get ((s'.store.frames.get s.control.scope).store
        (Frame.sideAt s'.control.pc)).id).hasOwn name =
      (s.store.heap.get ((s.store.frames.get s.control.scope).store
        (Frame.sideAt s.control.pc)).id).hasOwn name := by
  have h := hs.together
  refine hC.held_places h (hC.places_of_lt h fun hn => ?_)
  by_cases hheld : (s.store.heap.get ((s.store.frames.get s.control.scope).store
      (Frame.sideAt s.control.pc)).id).hasOwn name = true
  · exact hC.places_of_held h.kept h.control.pc hn hheld
  · have hdefine := (hcharges (Bool.eq_false_iff.2 hheld)).rest (run_current s)
    have htidy := K.quiet_tidy (hdefine _ (mem_moments_self _ cs s)).quiet
    rw [run_defineIn] at htidy
    exact (hC.places_of_tidy h h.control.pc htidy (precedes_bound ..) lookup_bound).2

/-- Binding variables in the store of the current program counter. -/
lemma goes_bindVars (hC : K.Custody) (permanent : Bool) (vs : List HoistedVar) {S S' : Ref}
    (hs : K.Starts L cs s s')
    (hS : (s.store.frames.get s.control.scope).store (Frame.sideAt s.control.pc) = S)
    (hS' : (s'.store.frames.get s.control.scope).store (Frame.sideAt s'.control.pc) = S')
    (hcharges : K.Charges M (bindVars permanent S vs) cs s) :
    K.Goes M (bindVars permanent S vs) (bindVars permanent S' vs) (fun _ _ => True) cs s s' := by
  induction vs generalizing s s' with
  | nil => exact .pure hs trivial
  | cons v vs ih =>
    refine .withLook hs hcharges fun hrest => ?_
    have htaken : (s'.store.heap.get S'.id).hasOwn v.name =
        (s.store.heap.get S.id).hasOwn v.name := by
      rw [← hS, ← hS']
      refine hC.taken (M := M) (p := { Property.data .undefined with permanent }) hs fun hheld => ?_
      rw [hS] at hheld
      simp only [hheld, Bool.and_false, Bool.not_false, Bool.or_true, if_true] at hrest
      exact hrest.first
    dsimp only at hrest ⊢
    rw [htaken]
    -- the stores of the frame stay the same while names are bound
    have hnext : ∀ {t t'}, K.Starts L cs t t' → t.control = s.control → t'.control = s'.control →
        (∀ side, (t.store.frames.get s.control.scope).store side =
          (s.store.frames.get s.control.scope).store side) →
        (∀ side, (t'.store.frames.get s.control.scope).store side =
          (s'.store.frames.get s.control.scope).store side) →
        K.Charges M (bindVars permanent S vs) cs t →
          K.Goes M (bindVars permanent S vs) (bindVars permanent S' vs)
            (fun _ _ => True) cs t t' := by
      intro t t' ht hc hc' hframes hframes' hcharges
      refine ih ht ?_ ?_ hcharges
      · rw [hc, hframes, hS]
      · rw [hc, hc', hframes', hS']
    by_cases hconstant : (v.constant && (s.store.heap.get S.id).hasOwn v.name) = true
    · rw [if_pos hconstant] at hrest
      rw [if_pos hconstant, if_pos hconstant]
      exact .bind (R := fun _ _ => False) hs hrest (.fail hs (.fault _ (.refl _)))
        fun x y t t' _ _ hR => hR.elim
    rw [if_neg hconstant] at hrest
    rw [if_neg hconstant, if_neg hconstant]
    split_ifs at hrest ⊢
    · refine .bind hs hrest (hC.runs_define ⟨_, _, permanent, .undefined, rfl, rfl⟩ hs hrest.first)
        fun x y t t' ho ho' _ ht hrest => ?_
      cases ho
      cases ho'
      refine hnext ht rfl rfl (fun side => ?_) (fun side => ?_) hrest
      · exact store_set (Frame.links_bind ..) side
      · rw [← hs.together.control.scope]
        exact store_set (Frame.links_bind ..) side
    · exact hnext hs rfl rfl (fun _ => rfl) (fun _ => rfl) hrest

lemma runs_instantiate (hC : K.Custody) {body body' : List (Stmt Span)}
    (hfunctions : ∀ permanent, K.Runs M L (bindFunctions permanent (hoistedFunctions body))
      (bindFunctions permanent (hoistedFunctions body')) fun _ _ => True)
    (hvars : hoistedVars body' = hoistedVars body) :
    K.Runs M L (instantiate body) (instantiate body') fun _ _ => True := by
  intro cs s s' hs hcharges
  refine .withControl hs hcharges fun hrest => ?_
  have hkind : s'.control.kind = s.control.kind := hs.together.control.kind
  have hscope : s'.control.scope = s.control.scope := hs.together.control.scope
  dsimp only at hrest ⊢
  rw [hkind, hscope, hvars]
  refine .bind hs hrest (hfunctions _ hs hrest.first) fun _ _ t t' ho ho' _ ht hrest => ?_
  have hc : t.control = s.control := run_done_control M.grows.keeps ho
  have hc' : t'.control = s'.control := run_done_control M.keeps' ho'
  refine .withLook ht hrest fun hrest => hC.goes_bindVars _ _ ht ?_ ?_ hrest
  · rw [hc]
  · rw [hc, hc']

/-! ## Frames -/

/-- A state with one more store. -/
def housed (s : State) (partition : Label) : State :=
  ⟨s.control, { s.store with heap := s.store.heap.push (.vacant partition) }⟩

/-- A store that exists on both sides and is empty. -/
structure Empty (W : World) (s s' : Store) (S : Ref) (part part' : Label) : Prop where
  store : W.store S.id
  lt : S.id < s.heap.size
  left : s.heap.get S.id = .vacant part
  right : s'.heap.get S.id = .vacant part'

/-- An empty store stays empty when objects are added. -/
lemma Empty.push {s s' : Store} {S : Ref} {part part' : Label} (h : Empty W s s' S part part')
    (hsize : s'.heap.size = s.heap.size) (o o' : Object) :
    Empty W { s with heap := s.heap.push o } { s' with heap := s'.heap.push o' } S part part' := by
  have hlt := h.lt
  refine ⟨h.store, ?_, ?_, ?_⟩
  · simp only [Array.size_push]
    omega
  · dsimp only
    rw [Heap.get_push_lt hlt, h.left]
  · dsimp only
    rw [Heap.get_push_lt (by omega), h.right]

/-- A store that has just been made is empty. -/
lemma Empty.housed (hstore : W.store s.store.heap.size)
    (hsize : s'.store.heap.size = s.store.heap.size) (part part' : Label) :
    Empty W (housed s part).store (housed s' part').store
      ⟨s.store.heap.size, .plain⟩ part part' := by
  refine ⟨hstore, by simp [Custody.housed], Heap.get_push_size, ?_⟩
  dsimp only
  rw [← hsize]
  exact Heap.get_push_size

lemma Empty.partition {s s' : Store} {S : Ref} {part part' : Label}
    (h : Empty W s s' S part part') : (s.heap.get S.id).partition = part := by
  rw [h.left]
  rfl

lemma Empty.partition' {s s' : Store} {S : Ref} {part part' : Label}
    (h : Empty W s s' S part part') : (s'.heap.get S.id).partition = part' := by
  rw [h.right]
  rfl

/-- Two empty stores for a new frame. -/
lemma Empty.furnished {s s' : Store} {S T : Ref} {part part' other other' : Label}
    (h : Empty W s s' S part part') (h' : Empty W s s' T other other') (holder : S.id < T.id) :
    W.Furnished s.heap s'.heap S T [] := by
  refine ⟨h.store, h'.store, holder, h.lt, h'.lt, ?_, ?_, ?_, ?_⟩
  · rw [h.left, h.right]
    exact .nil
  · rw [h.left]
    exact fun name hname => absurd rfl hname
  · rw [h'.left]
    rfl
  · rw [h'.right]
    rfl

lemma run_newStore {serve : Service} {fuel : Nat} {partition : Label} {s : State} :
    (newStore partition).run serve fuel s = .done ⟨s.store.heap.size, .plain⟩
    (housed s partition) :=
  rfl

/-- A new store on both sides. -/
lemma withStore (hC : K.Custody) {Q : α → β → Prop} (hs : K.Starts L cs s s') {part part' : Label}
    {k : Ref → Action α} {l : Ref → Action β} (hcharges : K.Charges M (newStore part >>= k) cs s)
    (hrooms : W.Rooms part part')
    (hroom : W.right.mem part' ∨ K.Spare s.store)
    (hk : ∀ S : Ref, S.id = s.store.heap.size →
      Empty W (housed s part).store (housed s' part').store S part part' →
      K.Starts L cs (housed s part) (housed s' part') → K.Charges M (k S) cs (housed s part) →
      K.Goes M (k S) (l S) Q cs (housed s part) (housed s' part')) :
    K.Goes M (newStore part >>= k) (newStore part' >>= l) Q cs s s' := by
  have h := hs.together
  have hsize := h.heaps.size
  have hstore : K.Due (housed s part).store → W.store s.store.heap.size := by
    intro hdue
    have hid : s.store.heap.size < (housed s part).store.heap.size := by simp [housed]
    refine (hdue.store_iff hid).2 ?_
    show (Heap.get (s.store.heap.push _) s.store.heap.size).cls = _
    rw [Heap.get_push_size]
    rfl
  refine .bind (R := fun r r' => r' = r ∧ W.store r.id) hs hcharges
    (.update hs (.push (fun _ => rfl) (.push (fun _ => rfl) (by rintro q ⟨⟩))) fun hdue => ?_)
    fun r r' t t' ho ho' hR ht hrest => ?_
  · refine ⟨⟨?_, hstore hdue⟩, h.control, h.heaps.push fun hid =>
      absurd (hstore hdue) hid, h.result,
      h.seed, h.files, hC.push h.kept hsize hrooms hdue hroom⟩
    simp [Heap.add, hsize]
  · rw [run_newStore] at ho ho'
    cases ho
    cases ho'
    rw [hsize]
    exact hk _ rfl (.housed hR.2 hsize part part') ht hrest

/-- No frame refers to a store that there has not been. -/
lemma free_of_size_le {s : Store} (h : W.Bounded s) {id : Nat} (hid : s.heap.size ≤ id)
    (hstore : W.store id) : ∀ n < s.frames.size, ∀ side, ((s.frames.get n).store side).id ≠ id := by
  rintro n hn side rfl
  exact Nat.not_lt_of_le hid (h n hn side hstore)

/-- A frame that is going to be added is foreseen. -/
lemma foreseen {side : Side} {act other : Ref} {names : List String} {parent : Nat} {dynamic : Bool}
    {u : State} {s : Store}
    (hcharges : K.Charges M (Clearance.addFrame (.facing side act other names parent dynamic)) cs u)
    (hframes : u.store.frames = s.frames) (hstore : W.store act.id ↔ dynamic = false)
    (holder : dynamic = false → act.id < other.id) :
    K.Foreseen s side act other names dynamic := by
  have htidy := K.quiet_tidy (hcharges _ (mem_moments_self _ cs u)).quiet
  refine ⟨⟨_, parent, htidy, ?_⟩, hstore, holder⟩
  rw [← hframes]
  rfl

/-- A new frame on both sides. -/
lemma goes_addFrame (hC : K.Custody) (hs : K.Starts L cs s s') {f f' : Frame}
    (hopened : W.Opened s.store.heap s'.store.heap f f')
    (hfree : ∀ n < s.store.frames.size, ∀ side side', W.store (f.store side').id →
      ((s.store.frames.get n).store side).id ≠ (f.store side').id)
    (hparent : ∀ m ∈ f.parent, W.frame m)
    (hcharges : K.Charges M (Clearance.addFrame f) cs s) :
    K.Goes M (Clearance.addFrame f) (Clearance.addFrame f')
      (fun n n' => n' = n ∧ W.frame n) cs s s' := by
  have h := hs.together
  have htidy := K.quiet_tidy (hcharges _ (mem_moments_self _ cs s)).quiet
  refine .update hs ⟨.enclose hparent, fun _ ht => (ht.false_of_same fun _ => rfl).elim⟩
    fun hdue => ?_
  refine ⟨⟨hC.frames_size h.kept, (K.frame_iff _).2 ?_⟩, h.control, h.heaps, h.result, h.seed,
    h.files, hC.addFrame h.kept hopened hfree hdue hparent htidy⟩
  have hsize := hdue.frames.size
  simp only [Array.size_push] at hsize
  exact hsize

lemma runs_newFrame (hC : K.Custody) {parent : Nat} (hparent : W.frame parent) :
    K.Runs M L (newFrame parent) (newFrame parent) fun n n' => n' = n ∧ W.frame n := by
  intro cs s s' hs hcharges
  refine .withRealm hs hcharges fun hrest => ?_
  obtain ⟨hbounded, -⟩ := hC.bounded hs.together.kept
  refine hC.withStore hs hrest .bottom (.inl W.right.bottom) fun low hlow hempty hs hrest => ?_
  have hsize' := hs.together.heaps.size
  have holder : low.id < (housed s W.realm.lattice.bottom).store.heap.size := hempty.lt
  -- the second store is the one that the second machine does not use
  have hspare : K.Spare (housed s W.realm.lattice.bottom).store :=
    ⟨.low, low, [], false, foreseen (hrest.rest run_newStore) rfl (iff_of_true hempty.store rfl)
      fun _ => holder⟩
  refine hC.withStore hs hrest .top (.inr hspare) fun high hhigh hempty' hs hrest => ?_
  have hempty := hempty.push hsize' (.vacant W.realm.lattice.top) (.vacant W.realm.lattice.top)
  rw [← hhigh] at holder
  have hopened : W.Opened _ _ (.facing .low low high [] parent false)
      (.facing .low low high [] parent false) :=
    .plain ⟨fun _ => rfl, fun _ => rfl⟩ (hempty.furnished hempty' holder)
      (hempty.partition.symm ▸ W.left.bottom) (hempty.partition'.symm ▸ W.right.bottom)
  refine hC.goes_addFrame hs hopened (fun n hn side side' hstore => ?_)
    (by rintro m ⟨⟩; exact hparent) hrest
  refine free_of_size_le hbounded ?_ hstore n hn side
  cases side' with
  | low => exact Nat.le_of_eq hlow.symm
  | high => exact Nat.le_trans (Nat.le_of_eq hlow.symm) (Nat.le_of_lt holder)

/-- A new frame for an object, on the same side as before or on another one. -/
lemma goes_objectFrame (hC : K.Custody) {Q : α → β → Prop} (side side' : Side)
    (hs : K.Starts L cs s s') {o : Ref} (ho : W.fits o) {scope : Nat} (hscope : W.frame scope)
    {part part' : Label}
    (hsides : W.Sides side side') (hrooms : W.Rooms part part')
    (hpart : side = .high → W.left.mem part) {k : Nat → Action α} {l : Nat → Action β}
    (hk : ∀ n, W.frame n → K.Runs M L (k n) (l n) Q)
    (hcharges : K.Charges M (newStore part >>= fun S =>
      (Pure.pure (.facing side o S [] scope true) : Action Frame) >>= fun f =>
        Clearance.addFrame f >>= k) cs s) :
    K.Goes M (newStore part >>= fun S =>
        (Pure.pure (.facing side o S [] scope true) : Action Frame) >>= fun f =>
          Clearance.addFrame f >>= k)
      (newStore part' >>= fun S =>
        (Pure.pure (.facing side' o S [] scope true) : Action Frame) >>= fun f =>
          Clearance.addFrame f >>= l) Q cs s s' := by
  have hobject := W.fits_object ho
  obtain ⟨hbounded, -⟩ := hC.bounded hs.together.kept
  have hspare : K.Spare s.store := ⟨side, o, [], true,
    foreseen ((hcharges.rest run_newStore).rest (run_pure _ _)).first rfl
      (iff_of_false hobject (by decide)) (by rintro ⟨⟩)⟩
  refine hC.withStore hs hcharges hrooms (.inr hspare) fun S hS hempty hs hrest => ?_
  refine .withPure hs hrest fun hrest => ?_
  have hopened : W.Opened (housed s part).store.heap (housed s' part').store.heap
      (.facing side o S [] scope true) (.facing side' o S [] scope true) := by
    refine .object hsides ho hempty.store hempty.lt ?_ ?_ fun hlow => ?_
    · rw [hempty.left]
      rfl
    · rw [hempty.right]
      rfl
    · rw [hempty.partition]
      cases side with
      | low => exact absurd hlow hobject
      | high => exact hpart rfl
  have hfree : ∀ n < s.store.frames.size, ∀ side₁ side₂,
      W.store ((Frame.facing side o S [] scope true).store side₂).id →
      ((s.store.frames.get n).store side₁).id ≠
        ((Frame.facing side o S [] scope true).store side₂).id := by
    intro n hn side₁ side₂ hstore
    -- the object is no store
    have hother : ((Frame.facing side o S [] scope true).store side₂).id = S.id := by
      cases side <;> cases side₂ <;> first | rfl | exact absurd hstore hobject
    rw [hother] at hstore ⊢
    exact free_of_size_le hbounded (Nat.le_of_eq hS.symm) hstore n hn side₁
  refine .bind hs hrest (hC.goes_addFrame hs hopened hfree ?_ hrest.first)
    fun n n' t t' _ _ hR ht hrest => ?_
  · cases side <;> (rintro m ⟨⟩; exact hscope)
  · obtain ⟨rfl, hn⟩ := hR
    exact hk _ hn ht hrest

lemma runs_withFrame (hC : K.Custody) {Q : α → β → Prop} {o : Ref} {pc pc' : Label} {scope : Nat}
    {k : Nat → Action α} {l : Nat → Action β} (ho : W.fits o) (hpc : W.Labels pc pc')
    (hscope : W.frame scope) (hk : ∀ id, W.frame id → K.Runs M L (k id) (l id) Q) :
    K.Runs M L (withFrame W.realm.lattice o pc scope k) (withFrame W.realm.lattice o pc' scope l)
      Q := by
  intro cs s s' hs hcharges
  unfold withFrame at hcharges ⊢
  by_cases hbottom : pc.isBottom = true
  · have hbottom' : pc'.isBottom = true := by
      by_cases hf : W.faithful
      · rw [hpc.same hf, hbottom]
      · exact beq_iff_eq.2 (W.right_calm hf pc' hpc.right)
    rw [if_pos hbottom] at hcharges ⊢
    rw [if_pos hbottom']
    exact hC.goes_objectFrame .low .low hs ho hscope ⟨fun _ => rfl, fun _ => rfl⟩ .top
      (by rintro ⟨⟩) hk hcharges
  · rw [if_neg hbottom] at hcharges ⊢
    by_cases hbottom' : pc'.isBottom = true
    · rw [if_pos hbottom']
      have hf : ¬W.faithful := fun hf => hbottom (by rw [← hpc.same hf, hbottom'])
      exact hC.goes_objectFrame .high .low hs ho hscope
        ⟨fun hf' => absurd hf' hf, fun _ => rfl⟩ (.crossed hf) (fun _ => W.left.bottom) hk hcharges
    · rw [if_neg hbottom']
      have hf : W.faithful := by
        by_contra hf
        exact hbottom' (beq_iff_eq.2 (W.right_calm hf pc' hpc.right))
      exact hC.goes_objectFrame .high .high hs ho hscope ⟨fun _ => rfl, absurd hf⟩ .bottom
        (fun _ => W.left.bottom) hk hcharges

/-! ## Function expressions -/

/-- A new function is allocated behind what there is. -/
lemma run_newFunction {serve : Service} {fuel : Nat} {fn : Script.Function Span} {scope : Nat}
    {pc : Label} {f : Ref} {s t : State}
    (hrun : (newFunction fn scope pc).run serve fuel s = .done f t) :
    t.control = s.control ∧ t.store.frames = s.store.frames ∧
      ∀ id < s.store.heap.size, t.store.heap.get id = s.store.heap.get id := by
  simp only [newFunction, run_bind, run_realm, run_allocate, run_change, run_pure] at hrun
  cases hrun
  refine ⟨rfl, rfl, fun id hid => ?_⟩
  dsimp only
  rw [Heap.get_update_ne (by omega), Heap.get_push_ne (by simp; omega), Heap.get_push_ne (by omega)]

/-- A program counter is below the partition of the store that it selects in a new frame. -/
lemma pc_leq_room {pc pc' : Label} (hpc : W.Labels pc pc') {part : Label}
    (hpart : Frame.sideAt pc = .high → part = W.realm.lattice.top) : pc.leq part = true := by
  cases hside : Frame.sideAt pc with
  | low =>
    unfold Frame.sideAt at hside
    split_ifs at hside with hless
    exact Label.leq_trans (Label.leq_of_not_less hless) (Label.none_leq _)
  | high =>
    rw [hpart hside]
    exact W.left.below hpc.left

/-- A new frame has an empty store on each side. -/
lemma run_newFrame {serve : Service} {fuel parent n : Nat} {s t : State}
    (hrun : (newFrame parent).run serve fuel s = .done n t) :
    t.control = s.control ∧ n < t.store.frames.size ∧ ∀ side,
      ((t.store.frames.get n).store side).id < t.store.heap.size ∧
      ∃ part, t.store.heap.get ((t.store.frames.get n).store side).id = .vacant part ∧
        (side = .high → part = s.control.realm.lattice.top) := by
  have hpush : ∀ o o', Heap.get ((s.store.heap.push o).push o') s.store.heap.size = o := by
    intro o o'
    rw [Heap.get_push_ne (by simp), Heap.get_push_size]
  simp only [newFrame, run_bind, run_realm, run_newStore, housed, Clearance.addFrame,
    run_update] at hrun
  cases hrun
  refine ⟨rfl, by simp, fun side => ?_⟩
  dsimp only
  rw [Frames.get_push_size]
  cases side with
  | low => exact ⟨by simp only [Frame.store, Array.size_push]; omega, _, hpush .., by rintro ⟨⟩⟩
  | high => exact ⟨by simp [Frame.store], _, Heap.get_push_size, fun _ => rfl⟩

lemma runs_functionExpression (hC : K.Custody) {fn fn' : Script.Function Span}
    (hfn : W.Functions fn fn') (hnew : ∀ scope pc pc', W.frame scope → W.Labels pc pc' →
      K.Runs M L (newFunction fn scope pc) (newFunction fn' scope pc') W.Refs) :
    K.Runs M L (functionExpression fn) (functionExpression fn') W.Refs := by
  intro cs s s' hs hcharges
  have hcontrol := hs.together.control
  refine .withControl hs hcharges fun hrest => ?_
  have hname : fn'.name = fn.name := by rw [hfn.code, Script.Function.rebuild_name]
  have hform : fn'.form = fn.form := by rw [hfn.code, Script.Function.rebuild_form]
  have hscope : s'.control.scope = s.control.scope := hcontrol.scope
  dsimp only at hrest ⊢
  rw [hname, hform, hscope]
  split_ifs at hrest ⊢
  · exact hnew _ _ _ hcontrol.scope_frame hcontrol.pc hs hrest
  refine .bind hs hrest (hC.runs_newFrame hcontrol.scope_frame hs hrest.first)
    fun n n' t t' ho ho' hn ht hrest => ?_
  obtain ⟨rfl, hn⟩ := hn
  refine .bind ht hrest (hnew _ _ _ hn hcontrol.pc ht hrest.first)
    fun f f' u u' hf hf' hR hu hrest => ?_
  obtain ⟨ht_control, hn_lt, hrooms⟩ := run_newFrame ho
  obtain ⟨hu_control, hu_frames, hu_get⟩ := run_newFunction hf
  have h := hu.together
  have hpc : u.control.pc = s.control.pc := by rw [hu_control, ht_control]
  -- the store that the name goes to is empty
  obtain ⟨hlt, part, hvacant, hpart⟩ := hrooms (Frame.sideAt s.control.pc)
  rw [← hu_frames] at hn_lt hlt hvacant
  rw [← hu_get _ hlt] at hvacant
  rw [hs.together.control.realm] at hpart
  have hnamed : W.Slot { Property.data (Raw.object f) with readOnly := true, permanent := true }
      { Property.data (Raw.object f') with readOnly := true, permanent := true } :=
    ⟨_, _, true, true, .object hR, rfl, rfl⟩
  refine .withLook hu hrest fun hrest => ?_
  -- the name is bound right after
  have hchange := (hrest.rest (run_change ..)).first
  have htidy := K.quiet_tidy (hchange _ (mem_moments_self _ cs _)).quiet
  simp only [changeFrame, run_revise, Frames.modify_eq_set] at htidy
  change K.tidy (bound u.store _ n' fn.name _ _) at htidy
  obtain ⟨hagrees, hplaces⟩ :=
    hC.places_of_tidy h hcontrol.pc htidy (precedes_bound ..) lookup_bound
  have hput := h.put hC hplaces hnamed fun _ => hC.lt_of_store h
  refine .bind (R := fun _ _ => True) hu hrest (.update hu (.update (lt_of_places hplaces)
    (fun _ => ⟨(·.define fn.name _), rfl⟩) (.put rfl rfl ?_ ?_)) fun _ => ⟨trivial, hput⟩) fun _ _ v
      v' hv hv' _ hv_starts hrest => ?_
  · rw [hvacant]
    rintro q ⟨⟩
  · rw [hvacant, hpc]
    intro _ _
    refine Label.leq_trans (pc_leq_room hcontrol.pc hpart) ?_
    rw [Label.leq_iff, Label.height_join]
    exact Nat.le_max_right ..
  · cases hv
    cases hv'
    refine .bind (R := fun _ _ => True) hv_starts hrest (.update hv_starts (.aside (fun _ => rfl)
      (by simp))
      fun _ => ⟨trivial, hput.control, hput.heaps, hput.result, hput.seed, hput.files, ?_⟩)
      fun _ _ w w' _ _ _ hw _ => .pure hw hR
    dsimp only
    rw [Frames.modify_eq_set, Frames.modify_eq_set]
    exact hC.bind hput.kept (hagrees hn_lt)

/-! ## Calls -/

/-- The arguments of a call are allocated behind what there is. -/
lemma run_newArguments {serve : Service} {fuel : Nat} {f o : Ref} {args : List Value} {pc : Label}
    {s t : State} (hrun : (newArguments f args pc).run serve fuel s = .done o t) :
    ∃ obj, t = ⟨s.control, { s.store with heap := s.store.heap.push obj }⟩ := by
  simp only [newArguments, run_bind, run_realm, run_allocate] at hrun
  cases hrun
  exact ⟨_, rfl⟩

/-- The bindings of a call: `arguments` and the parameters. -/
def callBindings (fn : Script.Function Span) (args : List Value) (arguments : Ref) :
    List (String × Value) :=
  ("arguments", Value.plain (.object arguments)) ::
    fn.params.zipIdx.map fun (p, i) => (p.name, args.getD i .undefined)

/-- Fills the store of a call, and opens its frame. -/
def fillFrame (f : Ref) (fn : Script.Function Span) (args : List Value) (pc : Label) (act : Ref)
    (side : Side) (frame : Frame) : Action Nat := do
  let arguments ← newArguments f args pc
  change act.id (bindAll (callBindings fn args arguments))
  Clearance.addFrame ((callBindings fn args arguments).foldl (fun f b => f.bind b.1 side) frame)

lemma goes_fill (hC : K.Custody) {f : Ref} {fn fn' : Script.Function Span}
    (hparams : fn'.params = fn.params) {args args' : List Value}
    (hargs : List.Forall₂ W.Values args args') (hs : K.Starts L cs s s')
    (hnew : K.Runs M L (newArguments f args s.control.pc)
      (newArguments f args' s'.control.pc) W.Refs)
    {act other : Ref} {scope : Nat} (hscope : W.frame scope) {side side' : Side}
    (hsides : W.Sides side side') {part part' part₂ part₂' : Label}
    (hact : Empty W s.store s'.store act part part')
    (hother : Empty W s.store s'.store other part₂ part₂') (holder : act.id < other.id)
    (hleft : W.left.mem part) (hright : W.right.mem part')
    (hlow : side = .high → W.left.mem part₂) (hlow' : side' = .high → W.right.mem part₂')
    (hpc : s.control.pc.leq part = true)
    (hfree : ∀ id, act.id ≤ id → W.store id →
      ∀ n < s.store.frames.size, ∀ side, ((s.store.frames.get n).store side).id ≠ id)
    (hcharges : K.Charges M (fillFrame f fn args s.control.pc act side
      (.facing side act other [] scope false)) cs s) :
    K.Goes M
      (fillFrame f fn args s.control.pc act side (.facing side act other [] scope false))
      (fillFrame f fn' args' s'.control.pc act side' (.facing side' act other [] scope false))
      (fun n n' => n' = n ∧ W.frame n) cs s s' := by
  have hsize := hs.together.heaps.size
  refine .bind hs hcharges (hnew hs hcharges.first) fun o o' t t' ho ho' hR ht hrest => ?_
  obtain ⟨obj, rfl⟩ := run_newArguments ho
  obtain ⟨obj', rfl⟩ := run_newArguments ho'
  replace hact := hact.push hsize obj obj'
  replace hother := hother.push hsize obj obj'
  have hbindings : List.Forall₂ (fun a b => b.1 = a.1 ∧ W.Values a.2 b.2) (callBindings fn args o)
      (callBindings fn' args' o') := by
    unfold callBindings
    rw [hparams]
    exact .cons ⟨rfl, .object hR⟩ (forall₂_parameters hargs _)
  have hnames : (callBindings fn' args' o').map Prod.fst =
      (callBindings fn args o).map Prod.fst := by
    generalize callBindings fn args o = bs at hbindings
    generalize callBindings fn' args' o' = bs' at hbindings
    induction hbindings with
    | nil => rfl
    | cons hab _ ih => rw [List.map_cons, List.map_cons, hab.1, ih]
  generalize callBindings fn args o = bindings at *
  generalize callBindings fn' args' o' = bindings' at *
  have h := ht.together
  have hslots : List.Forall₂ (fun a b => b.1 = a.1 ∧ W.Slot a.2 b.2)
      (bindAll bindings (.vacant part)).slots (bindAll bindings' (.vacant part')).slots :=
    forall₂_bindAll hbindings .nil
  have hshell : ∀ (h : Heap) bindings, (h.get act.id).SameShell (bindAll bindings (h.get act.id)) :=
    fun _ _ => sameShell_bindAll ..
  have hbound : ∀ name, Slots.find? name (bindAll bindings (.vacant part)).slots ≠ none →
      name ∈ boundNames (bindings.map Prod.fst) [] := by
    intro name hname
    rcases find?_bindAll hname with hnone | hmem
    · exact absurd rfl hnone
    · exact mem_boundNames (.inl hmem)
  -- the frame binds what its store is filled with
  have hforeseen : K.Foreseen { s.store with heap := s.store.heap.push obj } side act other
      (boundNames (bindings.map Prod.fst) []) false := by
    have hadd := hrest.rest (run_change ..)
    rw [facing_bound] at hadd
    exact foreseen hadd rfl (iff_of_true hact.store rfl) fun _ => holder
  have hfilled : K.Together
      ⟨s.control, { s.store with
        heap := Heap.update (s.store.heap.push obj) act.id (bindAll bindings) }⟩
      ⟨s'.control, { s'.store with
        heap := Heap.update (s'.store.heap.push obj') act.id (bindAll bindings') }⟩ := by
    refine ⟨h.control, h.heaps.of_stores (by simp) (by simp) (fun id hid => ?_) (fun id hid => ?_),
      h.result, h.seed, h.files, hC.fill h.kept hact.store hother.store hforeseen ?_ ?_ (hshell _ _)
        (hshell _ _) ?_ ?_ ?_⟩
    · exact Heap.get_update_ne (by rintro rfl; exact hid hact.store) _
    · exact Heap.get_update_ne (by rintro rfl; exact hid hact.store) _
    · rw [hact.left]
      rfl
    · rw [hact.right]
      rfl
    · rw [hact.partition]
      exact hleft
    · rw [hact.left, hact.right]
      exact hslots
    · rw [hact.left]
      exact hbound
  have hthere : act.id < K.last.heap.size := Nat.lt_of_lt_of_le hact.lt ht.due.heap.size
  refine .bind (R := fun _ _ => True) ht hrest (.update ht (.update hthere (fun _ => ⟨_, rfl⟩)
    (.fill ?_ (hshell _ _) ?_)) fun _ => ⟨trivial, hfilled⟩) fun _ _ u u' hu hu' _
      hu_starts hrest => ?_
  · rw [hact.left]
    rfl
  · rw [hact.partition]
    exact hpc
  cases hu
  cases hu'
  have hget := Heap.get_update_self hact.lt (bindAll bindings)
  have hlt' : act.id < (s'.store.heap.push obj').size := by
    have := hact.lt
    simp only [Array.size_push] at this ⊢
    omega
  have hget' := Heap.get_update_self hlt' (bindAll bindings')
  have hlt := hother.lt
  refine hC.goes_addFrame hu_starts ?_ ?_ ?_ hrest
  · rw [facing_bound, facing_bound, hnames]
    have hne := Nat.ne_of_gt holder
    have hother_get := Heap.get_update_ne (h := s.store.heap.push obj) hne (bindAll bindings)
    have hother_get' := Heap.get_update_ne (h := s'.store.heap.push obj') hne (bindAll bindings')
    have hfilled_part : ∀ bindings part, (bindAll bindings (.vacant part)).partition = part :=
      fun _ _ => (sameShell_bindAll ..).partition
    refine .plain hsides ⟨hact.store, hother.store,
      holder, by simpa using hact.lt, by simpa using hlt,
      ?_, ?_, ?_, ?_⟩ ?_ ?_
    · dsimp only
      rw [hget, hget', hact.left, hact.right]
      exact hslots
    · dsimp only
      rw [hget, hact.left]
      exact hbound
    · dsimp only
      rw [hother_get, hother.left]
      rfl
    · dsimp only
      rw [hother_get', hother.right]
      rfl
    · cases side with
      | low =>
        show W.left.mem (Heap.get _ act.id).partition
        rw [hget, hact.left, hfilled_part]
        exact hleft
      | high =>
        show W.left.mem (Heap.get _ other.id).partition
        rw [hother_get, hother.partition]
        exact hlow rfl
    · cases side' with
      | low =>
        show W.right.mem (Heap.get _ act.id).partition
        rw [hget', hact.right, hfilled_part]
        exact hright
      | high =>
        show W.right.mem (Heap.get _ other.id).partition
        rw [hother_get', hother.partition']
        exact hlow' rfl
  · rw [facing_bound]
    intro n hn side₁ side₂ hstore
    refine hfree _ ?_ hstore n hn side₁
    cases side <;> cases side₂ <;> first | exact Nat.le_refl _ | exact Nat.le_of_lt holder
  · rw [facing_bound]
    cases side <;> (rintro m ⟨⟩; exact hscope)

/-- The arguments of a call are always made. -/
lemma done_newArguments (serve : Service) (fuel : Nat) (f : Ref) (args : List Value) (pc : Label)
    (s : State) : ∃ o t, (newArguments f args pc).run serve fuel s = .done o t := by
  simp only [newArguments, run_bind, run_realm, run_allocate]
  exact ⟨_, _, rfl⟩

/-- A store is spare if it is made right before the other one of the frame is filled. -/
lemma spare_of_fill {f : Ref} {fn : Script.Function Span} {args : List Value} {pc : Label}
    {act : Ref} {side : Side} {scope : Nat} {partition : Label}
    (hcharges : K.Charges M (fillFrame f fn args pc act side
      (.facing side act ⟨s.store.heap.size, .plain⟩ [] scope false)) cs (housed s partition))
    (hact : W.store act.id) (holder : act.id < s.store.heap.size) : K.Spare s.store := by
  obtain ⟨o, t, hrun⟩ := done_newArguments M.serve M.fuel f args pc (housed s partition)
  have hadd := (hcharges.rest hrun).rest (run_change ..)
  obtain ⟨obj, rfl⟩ := run_newArguments hrun
  rw [facing_bound] at hadd
  exact ⟨side, act, _, false, foreseen hadd rfl (iff_of_true hact rfl) fun _ => holder⟩

/-- The frame of a call is made. -/
lemma goes_activate (hC : K.Custody) {f : Ref} {fn fn' : Script.Function Span} {scope : Nat}
    {args args' : List Value} (hfn : W.Functions fn fn') (hscope : W.frame scope)
    (hargs : List.Forall₂ W.Values args args') (hs : K.Starts L cs s s')
    (hnew : K.Runs M L (newArguments f args s.control.pc)
      (newArguments f args' s'.control.pc) W.Refs)
    (hcharges : K.Charges M (activate f fn scope args s.control.pc) cs s) :
    K.Goes M (activate f fn scope args s.control.pc) (activate f fn' scope args' s'.control.pc)
      (fun n n' => n' = n ∧ W.frame n) cs s s' := by
  have h := hs.together
  have hpc := h.control.pc
  have hparams : fn'.params = fn.params := by rw [hfn.code, Script.Function.rebuild_params]
  obtain ⟨hbounded, -⟩ := hC.bounded h.kept
  have hleft := W.left.join W.left.bottom hpc.left
  have hright := W.right.join W.right.bottom hpc.right
  refine .withRealm hs hcharges fun hrest => ?_
  refine hC.withStore hs hrest (.context hpc) (.inl hright) fun act hact_id hact hs hrest => ?_
  -- no frame refers to the new stores
  have hfree : ∀ id, act.id ≤ id → W.store id →
      ∀ n < s.store.frames.size, ∀ side, ((s.store.frames.get n).store side).id ≠ id :=
    fun id hid => free_of_size_le hbounded (Nat.le_trans (Nat.le_of_eq hact_id.symm) hid)
  have hsize' := hs.together.heaps.size
  have hleq : s.control.pc.leq (W.realm.lattice.bottom.join s.control.pc) = true := by
    rw [Label.leq_iff, Label.height_join]
    exact Nat.le_max_right ..
  have hfill : ∀ {side side' : Side}, W.Sides side side' → ∀ {part₂ part₂' : Label},
      W.Rooms part₂ part₂' → (side = .high → W.left.mem part₂) →
      (side' = .high → W.right.mem part₂') → K.Charges M
      (newStore part₂ >>= fun S =>
        (Pure.pure (side, .facing side act S [] scope false) : Action (Side × Frame)) >>= fun x =>
          fillFrame f fn args s.control.pc act x.1 x.2)
      cs (housed s (W.realm.lattice.bottom.join s.control.pc)) → K.Goes M
      (newStore part₂ >>= fun S =>
        (Pure.pure (side, .facing side act S [] scope false) : Action (Side × Frame)) >>= fun x =>
          fillFrame f fn args s.control.pc act x.1 x.2)
      (newStore part₂' >>= fun S =>
        (Pure.pure (side', .facing side' act S [] scope false) : Action (Side × Frame)) >>= fun x =>
          fillFrame f fn' args' s'.control.pc act x.1 x.2)
      (fun n n' => n' = n ∧ W.frame n) cs (housed s (W.realm.lattice.bottom.join s.control.pc))
      (housed s' (W.realm.lattice.bottom.join s'.control.pc)) := by
    intro side side' hsides part₂ part₂' hrooms hlow hlow' hrest
    have holder : act.id < (housed s (W.realm.lattice.bottom.join s.control.pc)).store.heap.size :=
      hact.lt
    have hspare : K.Spare (housed s (W.realm.lattice.bottom.join s.control.pc)).store :=
      spare_of_fill ((hrest.rest run_newStore).rest (run_pure _ _)) hact.store holder
    refine hC.withStore hs hrest hrooms (.inr hspare) fun other hother_id hother hs hrest => ?_
    refine .withPure hs hrest fun hrest => ?_
    rw [← hother_id] at holder
    exact hC.goes_fill hparams hargs hs hnew hscope hsides
      (hact.push hsize' _ _) hother holder hleft
      hright hlow hlow' hleq hfree hrest
  have hbottom_iff : ¬W.faithful → s'.control.pc.isBottom = true :=
    fun hf => beq_iff_eq.2 (W.right_calm hf _ hpc.right)
  dsimp only at hrest ⊢
  by_cases hbottom : s.control.pc.isBottom = true
  · have hbottom' : s'.control.pc.isBottom = true := by
      by_cases hf : W.faithful
      · rw [hpc.same hf, hbottom]
      · exact hbottom_iff hf
    rw [if_pos hbottom] at hrest ⊢
    rw [if_pos hbottom']
    exact hfill ⟨fun _ => rfl, fun _ => rfl⟩ .top (by rintro ⟨⟩) (by rintro ⟨⟩) hrest
  · rw [if_neg hbottom] at hrest ⊢
    by_cases hbottom' : s'.control.pc.isBottom = true
    · rw [if_pos hbottom']
      have hf : ¬W.faithful := fun hf => hbottom (by rw [← hpc.same hf, hbottom'])
      exact hfill ⟨fun hf' => absurd hf' hf, fun _ => rfl⟩ (.crossed hf) (fun _ => W.left.bottom)
        (by rintro ⟨⟩) hrest
    · rw [if_neg hbottom']
      have hf : W.faithful := by
        by_contra hf
        exact hbottom' (hbottom_iff hf)
      exact hfill ⟨fun _ => rfl, absurd hf⟩ .bottom (fun _ => W.left.bottom)
        (fun _ => W.right.bottom) hrest

lemma runs_enterFrame (hC : K.Custody) {Q : α → β → Prop} {f : Ref}
    {fn fn' : Script.Function Span} {scope : Nat} {args args' : List Value}
    {k : Control → Nat → Action α} {l : Control → Nat → Action β} (hfn : W.Functions fn fn')
    (hscope : W.frame scope) (hargs : List.Forall₂ W.Values args args')
    (hnew : ∀ pc pc', W.Labels pc pc' →
      K.Runs M L (newArguments f args pc) (newArguments f args' pc') W.Refs)
    (hk : ∀ c c' n, W.Controls c c' → W.frame n → K.Runs M L (k c n) (l c' n) Q) :
    K.Runs M L (enterFrame f fn scope args k) (enterFrame f fn' scope args' l) Q := by
  intro cs s s' hs hcharges
  have hc := hs.together.control
  refine .withControl hs hcharges fun hrest => ?_
  rw [hc.realm] at hrest ⊢
  rw [hc.depth, hc.realm_right]
  split_ifs at hrest ⊢
  · exact .fail hs (.overflow _)
  · refine .bind hs hrest (hC.goes_activate hfn hscope hargs hs (hnew _ _ hc.pc) hrest.first)
      fun n n' t t' _ _ hn ht hrest => ?_
    obtain ⟨rfl, hn⟩ := hn
    exact hk _ _ _ hc hn ht hrest

end Custody
end Keeper
end Clearance
