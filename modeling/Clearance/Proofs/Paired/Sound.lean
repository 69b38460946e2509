/-
# Paired actions go together

The runs of paired actions go together. The proof is an induction over `Paired`. The rules for the
operations that bind names or touch bindings are the keeper's affair, and are taken from `Knows`;
the machine itself follows by induction over the levels.
-/
import Clearance.Proofs.Assign
import Clearance.Proofs.Paired.Keeper
import Clearance.Proofs.Paired.Serve

namespace Clearance

open Clearance.Action Script

namespace Keeper

variable {W : World}

/-- The operations on bindings go together. -/
structure Knows (K : Keeper W) : Prop where
  placeOf : ∀ {M L name}, K.Runs M L (placeOf name) (placeOf name) W.Places
  define : ∀ {M L name p p'}, W.Bindings p p' →
    K.Runs M L (define name p) (define name p') fun _ _ => True
  instantiate : ∀ {M L} {body body' : List (Stmt Span)},
    (∀ permanent, K.Runs M L (bindFunctions permanent (hoistedFunctions body))
      (bindFunctions permanent (hoistedFunctions body')) fun _ _ => True) →
    hoistedVars body' = hoistedVars body →
      K.Runs M L (instantiate body) (instantiate body') fun _ _ => True
  newFrame : ∀ {M L parent}, W.frame parent →
    K.Runs M L (newFrame parent) (newFrame parent) fun n n' => n' = n ∧ W.frame n
  withFrame : ∀ {M L} {α β : Type} {o : Ref} {pc pc' : Label} {scope : Nat} {k : Nat → Action α}
    {l : Nat → Action β} {Q : α → β → Prop}, W.fits o → W.Labels pc pc' → W.frame scope →
    (∀ id, W.frame id → K.Runs M L (k id) (l id) Q) →
      K.Runs M L (withFrame W.realm.lattice o pc scope k)
        (withFrame W.realm.lattice o pc' scope l) Q
  functionExpression : ∀ {M L fn fn'}, W.Functions fn fn' →
    (∀ scope pc pc', W.frame scope → W.Labels pc pc' →
      K.Runs M L (newFunction fn scope pc) (newFunction fn' scope pc') W.Refs) →
      K.Runs M L (functionExpression fn) (functionExpression fn') W.Refs
  enterFrame : ∀ {M L} {α β : Type} {f : Ref} {fn fn' : Script.Function Span} {scope : Nat}
    {args args' : List Value} {k : Control → Nat → Action α} {l : Control → Nat → Action β}
    {Q : α → β → Prop}, W.Functions fn fn' → W.frame scope → List.Forall₂ W.Values args args' →
    (∀ pc pc', W.Labels pc pc' →
      K.Runs M L (newArguments f args pc) (newArguments f args' pc') W.Refs) →
    (∀ c c' n, W.Controls c c' → W.frame n → K.Runs M L (k c n) (l c' n) Q) →
      K.Runs M L (enterFrame f fn scope args k) (enterFrame f fn' scope args' l) Q
  resolve : ∀ {M L} {S S' : Ref} {name : String} {k k' : Label}, W.partner S S' name →
    W.Labels k k' → K.Runs M L (Operand.place ⟨some S, name⟩ k).resolve
      (Operand.place ⟨some S', name⟩ k').resolve W.Ratings
  assign : ∀ {M L} {line : Nat} {S S' : Ref} {name : String} {k k' : Label} {r r' : Rated}
    {declare : Bool}, W.partner S S' name → W.Labels k k' → W.Ratings r r' →
      K.Runs M L (assign line ⟨some S, name⟩ k r declare)
        (assign line ⟨some S', name⟩ k' r' declare) W.Values
  freeze : ∀ {M L} {S S' : Ref} {name : String}, W.partner S S' name →
    K.Runs M L (freeze ⟨some S, name⟩) (freeze ⟨some S', name⟩) fun _ _ => True
  eraseAt : ∀ {M L} {line : Nat} {S S' : Ref} {name : String} {k k' : Label},
    W.partner S S' name → W.Labels k k' →
      K.Runs M L (eraseAt line ⟨some S, name⟩ k) (eraseAt line ⟨some S', name⟩ k') W.Operands
  receiverOf : ∀ {M L} {S S' : Ref} {name : String} {k k' : Label}, W.partner S S' name →
    L.known S.id → L.known S'.id → K.Runs M L (receiverOf (.place ⟨some S, name⟩ k))
      (receiverOf (.place ⟨some S', name⟩ k')) W.Values
  message : ∀ {M L} {o : Ref} {k k' : Label}, ¬W.faithful → K.Serves M → W.fits o →
    W.Labels k k' → K.Runs M L (Operand.place ⟨some o, "message"⟩ k).resolve
      (Operand.place ⟨some o, "message"⟩ k').resolve W.Ratings
  source : ∀ {M L} {o : Ref}, ¬W.faithful →
    K.Runs M L (readQuietly o "source") (readQuietly o "source") W.Cells →
      K.Runs M L (readQuietly o "source") (readQuietly o "source") fun v v' =>
        W.Cells v v' ∧ v'.isUndefined = v.isUndefined

variable {K : Keeper W} {M : Machines} {L : Ground} {cs : List Control} {s s' : State}
  {α β : Type}

/-! ## What exists -/

/-- An object that exists by now is what it will be. -/
lemma Due.shell {s : Store} (h : K.Due s) {id : Nat} (hid : id < s.heap.size) :
    (s.heap.get id).SameShell (K.last.heap.get id) := h.heap.shell id hid

/-- What exists by now is a store if it is one. -/
lemma Due.store_iff {s : Store} (h : K.Due s) {id : Nat} (hid : id < s.heap.size) :
    W.store id ↔ (s.heap.get id).cls = "Activation" := by
  have hlast : ¬K.last.heap.size ≤ id := Nat.not_le.2 (Nat.lt_of_lt_of_le hid h.heap.size)
  rw [K.store_iff, (h.shell hid).cls]
  exact or_iff_right hlast

/-- Scripts may hold a reference to a new object, if it is no store. -/
lemma Due.fits {s : Store} {o : Object} (h : K.Due { s with heap := s.heap.push o })
    (ho : o.cls ≠ "Activation") {face : Face} (hface : face.Suits o.behaviour) :
    W.fits ⟨s.heap.size, face⟩ := by
  have hid : s.heap.size < (s.heap.push o).size := by simp
  have hget : Heap.get (s.heap.push o) s.heap.size = o := Heap.get_push_size
  have hstore := h.store_iff hid
  have hshell := h.shell hid
  dsimp only at hstore hshell
  rw [hget] at hstore hshell
  rw [K.fits_iff]
  refine ⟨fun hs => ho (hstore.1 hs), ?_⟩
  dsimp only
  rw [hshell.behaviour]
  exact hface

/-- An object that scripts may refer to and that exists does what the reference shows. -/
lemma Due.suits {s : Store} (h : K.Due s) {o : Ref} (ho : W.fits o) (hid : o.id < s.heap.size) :
    o.face.Suits (s.heap.get o.id).behaviour := by
  have hsuits := ((K.fits_iff o).1 ho).2
  rwa [(h.shell hid).behaviour] at hsuits

/-! ## Single instructions -/

/-- An object that is no store is changed on both sides. -/
lemma Together.change (h : K.Together s s') {id : Nat} (hid : ¬W.store id) {f f' : Object → Object}
    (hobject : W.Objects (f (s.store.heap.get id)) (f' (s'.store.heap.get id))) :
    K.Together ⟨s.control, { s.store with heap := s.store.heap.update id f }⟩
      ⟨s'.control, { s'.store with heap := s'.store.heap.update id f' }⟩ := by
  have hstores : ∀ {g : Heap} {f : Object → Object}, ∀ j, W.store j →
      (g.update id f).get j = g.get j := by
    intro g f j hj
    exact Heap.get_update_ne (by rintro rfl; exact hid hj) _
  exact ⟨h.control, h.heaps.update fun _ => hobject, h.result, h.seed, h.files,
    K.kept_congr h.kept rfl rfl hstores hstores (fun _ _ => by simp) fun _ _ => by simp⟩

/-- Both sides get a new object. -/
lemma Together.push (h : K.Together s s') {o o' : Object} (ho : W.Objects o o')
    (hid : ¬W.store s.store.heap.size) :
    K.Together ⟨s.control, { s.store with heap := s.store.heap.push o }⟩
      ⟨s'.control, { s'.store with heap := s'.store.heap.push o' }⟩ := by
  have hne : ∀ j, W.store j → j ≠ s.store.heap.size := by
    rintro j hj rfl
    exact hid hj
  refine ⟨h.control, h.heaps.push fun _ => ho, h.result, h.seed, h.files,
    K.kept_congr h.kept rfl rfl (fun j hj => Heap.get_push_ne (hne j hj))
      (fun j hj => Heap.get_push_ne ?_) (fun j hj => ?_) fun j hj => ?_⟩
  · rw [h.heaps.size]
    exact hne j hj
  · have := hne j hj
    simp only [Array.size_push]
    omega
  · have := hne j hj
    rw [← h.heaps.size] at this
    simp only [Array.size_push]
    omega

/-- Events do not matter. -/
lemma Together.recorded (h : K.Together s s') (e : Event) : K.Together s (s'.recorded e) := by
  refine h.note rfl (State.recorded_heap ..) rfl (State.recorded_frames ..) ?_ ?_ ?_ <;>
    dsimp only [State.recorded] <;> split_ifs
  · exact h.result
  · exact h.result
  · exact h.seed
  · exact h.seed
  · exact h.files
  · exact h.files

lemma Goes.realm (hs : K.Starts L cs s s') (hcharges : K.Charges M Action.realm cs s) :
    K.Goes M Action.realm (Pure.pure ()) (fun r _ => r = W.realm) cs s s' := by
  refine .before (R := fun c => c = s.control) hs hcharges ?_ fun c t _ hc ht _ => ?_
  · exact .single hs rfl rfl (by rintro f ⟨⟩) fun _ => .done rfl hs.together
  · exact .pure ht (by rw [hc, hs.together.control.realm])

lemma Goes.pc (hs : K.Starts L cs s s') (hcharges : K.Charges M Action.pc cs s) :
    K.Goes M Action.pc (Pure.pure ()) (fun _ _ => True) cs s s' := by
  refine .before (R := fun _ => True) hs hcharges ?_ fun c t _ _ ht _ => .pure ht trivial
  exact .single hs rfl rfl (by rintro f ⟨⟩) fun _ => .done trivial hs.together

/-- An event that the first machine records. -/
lemma Goes.trace (hs : K.Starts L cs s s') {e : Event} (hcharges : K.Charges M (trace e) cs s) :
    K.Goes M (trace e) (Pure.pure ()) (fun _ _ => True) cs s s' := by
  refine .before hs hcharges (.realm hs hcharges.first) fun r t _ _ ht _ => ?_
  split_ifs
  · refine .single ht rfl rfl ?_ fun _ => .done trivial ?_
    · rintro f ⟨⟩
      exact .aside (fun _ => rfl) rfl
    · have h := ht.together
      exact h.note rfl rfl rfl rfl h.result h.seed h.files
  · exact .pure ht trivial

namespace Runs

lemma realm : K.Runs M L Action.realm Action.realm fun r r' => r = W.realm ∧ r' = W.realm := by
  intro cs s s' hs hcharges
  refine .bind hs hcharges (.current hs) fun c c' t t' _ _ hc ht _ => .pure ht ?_
  have hcontrol := hs.together.control
  rw [hc.1, hc.2]
  exact ⟨hcontrol.realm, hcontrol.realm_right⟩

/-- Both machines record an event. -/
lemma trace (e e' : Event) : K.Runs M L (trace e) (trace e') fun _ _ => True := by
  intro cs s s' hs hcharges
  have hrun : (Action.trace e').run M.serve' M.fuel s' =
      (Pure.pure () : Action Unit).run M.serve' M.fuel (s'.recorded e') := by
    rw [run_trace_eq, run_pure]
  exact .of_run (.trace (hs.withRight (hs.together.recorded e')) hcharges) hrun

/-- Both machines report a violation. -/
lemma violate {line : Nat} {target : String} {k k' l l' : Label} {Q : α → β → Prop}
    (hleft : ¬W.left.Calm) (hright : ¬W.right.Calm) (hk : W.Labels k k') (hl : W.Labels l l') :
    K.Runs M L (violate line target k l) (violate line target k' l') Q := by
  intro cs s s' hs hcharges
  refine .bind hs hcharges (Runs.trace _ _ hs hcharges.first) fun _ _ t t' _ _ _ ht hcharges => ?_
  refine .bind ht hcharges (.current ht) fun c c' u u' _ _ hc hu _ =>
    .fail hu (.violation hleft hright ?_)
  intro hf
  rw [hc.1, hc.2, hk.same hf, hl.same hf, ht.together.control.file]

/-- The program counters of two regions. -/
lemma raisedPc {kind : String} {line : Nat} {k k' : Label} (hk : W.Labels k k') :
    K.Runs M L (raisedPc kind line k) (raisedPc kind line k') W.Labels := by
  intro cs s s' hs hcharges
  have hpc := hs.together.control.pc
  obtain ⟨u, hu, -, -⟩ := run_raisedPc M.serve M.fuel kind line k s
  -- the two machines may record different events
  have hright : ∃ t', K.Together s t' ∧ (Clearance.raisedPc kind line k').run M.serve' M.fuel s' =
      .done (s'.control.pc.raised k') t' := by
    simp only [Clearance.raisedPc, run_bind, run_pc, Label.raised]
    split_ifs
    · exact ⟨s', hs.together, rfl⟩
    · simp only [run_bind, run_trace_eq]
      exact ⟨_, hs.together.recorded _, rfl⟩
    · exact ⟨s', hs.together, rfl⟩
  obtain ⟨t', ht', hrun'⟩ := hright
  have hleft : K.Goes M (Clearance.raisedPc kind line k) (Pure.pure (s'.control.pc.raised k'))
      (fun _ _ => True) cs s t' := by
    have hs' : K.Starts L cs s t' := hs.withRight ht'
    refine .before hs' hcharges (.pc hs' hcharges.first) fun pc t _ _ ht hcharges => ?_
    dsimp only at hcharges ⊢
    split_ifs at hcharges ⊢
    · exact .pure ht trivial
    · exact .before ht hcharges (.trace ht hcharges.first) fun _ u _ _ hu _ => .pure hu trivial
    · exact .pure ht trivial
  refine .of_run (hleft.mono fun a b t u ho ho' _ => ?_) hrun'
  rw [hu] at ho
  cases ho
  cases ho'
  unfold Label.raised
  refine .ite hpc (hpc.join hk) fun hf => ?_
  rw [hpc.same hf, hk.same hf]

/-- A step that only reseeds. Stated for any function of the seed: the one at hand multiplies large
numbers, which nobody should carry out. -/
lemma reseed {g : UInt64 → Raw} (hg : ∀ seed, (g seed).isPrimitive = true)
    (next : UInt64 → UInt64) :
    K.Runs M L (.update fun s => (Value.plain (g (next s.seed)), { s with seed := next s.seed }))
      (.update fun s => (Value.plain (g (next s.seed)), { s with seed := next s.seed }))
      W.Values := by
  intro cs s s' hs _
  have h := hs.together
  have hseed : next s'.store.seed = next s.store.seed := by rw [h.seed]
  refine .note hs (fun _ => rfl) rfl ?_ (h.note rfl rfl rfl rfl h.result hseed h.files)
  dsimp only
  rw [hseed]
  exact .primitive (hg _)

lemma random {this this' : Raw} {args args' : List Raw} :
    K.Runs M L (Library.random this args) (Library.random this' args') W.Values :=
  reseed (g := fun seed => .number ((seed >>> 11).toFloat / 9007199254740992.0)) (fun _ => rfl)
    Library.nextSeed

/-- A change of an object that is no store, with what it tells. -/
lemma alter {id : Nat} {f : Object → α × Object} {f' : Object → β × Object} {Q : α → β → Prop}
    (hid : ¬W.store id) (hshell : ∀ o : Object, o.SameShell (f o).2)
    (hf : ∀ o o', W.Objects o o' → Q (f o).1 (f' o').1 ∧ W.Objects (f o).2 (f' o').2) :
    K.Runs M L (alter id f) (alter id f') Q := by
  intro cs s s' hs _
  have hobject := hs.together.heaps.object _ hid
  obtain ⟨hQ, hchanged⟩ := hf _ _ hobject
  exact .update hs (.update (lt_of_not_store hid) (fun h => ⟨fun _ => (f (h.get id)).2, rfl⟩)
    (.update hobject.ordinary (hshell _))) fun _ => ⟨hQ, hs.together.change hid hchanged⟩

lemma allocate {face : Face} {o o' : Object} (ho : W.Objects o o')
    (hface : face.Suits o.behaviour) :
    K.Runs M L (allocate face o) (allocate face o') W.Refs := by
  intro cs s s' hs _
  have hsize : s'.store.heap.size = s.store.heap.size := hs.together.heaps.size
  refine .update hs (.push (fun _ => rfl) (.push (fun h => absurd h ho.ordinary) ho.proto_object))
    fun hdue => ?_
  have hfits : W.fits ⟨s.store.heap.size, face⟩ := hdue.fits ho.ordinary hface
  refine ⟨⟨?_, hfits⟩, hs.together.push ho (W.fits_object hfits)⟩
  simp [Heap.add, hsize]

end Runs

/-- Events that are recorded on either side or not make no difference. -/
lemma Goes.noted {c c' : Prop} [Decidable c] [Decidable c'] {e e' : Event} {k : Unit → Action α}
    {l : Unit → Action β} {Q : α → β → Prop} (hs : K.Starts L cs s s')
    (hcharges : K.Charges M (if c then Action.trace e >>= k else k ()) cs s)
    (h : ∀ u u' : State, u.control = s.control → u.store.heap = s.store.heap →
      K.Starts L cs u u' → K.Charges M (k ()) cs u → K.Goes M (k ()) (l ()) Q cs u u') :
    K.Goes M (if c then Action.trace e >>= k else k ())
      (if c' then Action.trace e' >>= l else l ()) Q cs s s' := by
  have hright : ∃ t', K.Together s t' ∧
      (if c' then Action.trace e' >>= l else l ()).run M.serve' M.fuel s' =
        (l ()).run M.serve' M.fuel t' := by
    split_ifs
    · exact ⟨_, hs.together.recorded e', by rw [run_bind, run_trace_eq]⟩
    · exact ⟨s', hs.together, rfl⟩
  obtain ⟨t', ht', hrun⟩ := hright
  refine .of_run ?_ hrun
  replace hs := hs.withRight ht'
  split_ifs at hcharges ⊢
  · refine .before hs hcharges (.trace hs hcharges.first) fun _ t ho _ ht hrest => ?_
    rw [run_trace_eq] at ho
    cases ho
    exact h _ _ rfl (State.recorded_heap ..) ht hrest
  · exact h _ _ rfl rfl hs hcharges

/-- A check that only fails where labels are met. -/
lemma Goes.check {c c' : Prop} [Decidable c] [Decidable c'] {line : Nat} {target : String}
    {k k' l l' : Label} {p : Action α} {q : Action β} {Q : α → β → Prop} (hs : K.Starts L cs s s')
    (hcharges : K.Charges M (if c then violate line target k l else p) cs s)
    (hleft : W.left.Calm → ¬c) (hright : W.right.Calm → ¬c') (hiff : W.faithful → (c' ↔ c))
    (hk : W.Labels k k') (hl : W.Labels l l') (h : K.Charges M p cs s → K.Goes M p q Q cs s s') :
    K.Goes M (if c then violate line target k l else p)
      (if c' then violate line target k' l' else q) Q cs s s' := by
  by_cases hc : c
  · rw [if_pos hc] at hcharges ⊢
    by_cases hf : W.faithful
    · rw [if_pos ((hiff hf).2 hc)]
      exact Runs.violate (fun hcalm => hleft hcalm hc) (fun hcalm => hright hcalm ((hiff hf).2 hc))
        hk hl hs hcharges
    · -- where the runs meet different labels, a violation is not provided for
      have hquiet := (hcharges _ (mem_moments_self _ cs s)).quiet
      rw [run_violate] at hquiet
      exact absurd hquiet (K.not_violates hf)
  · have hc' : ¬c' := fun h => by
      by_cases hf : W.faithful
      · exact hc ((hiff hf).1 h)
      · exact hright (W.right_calm hf) h
    rw [if_neg hc] at hcharges ⊢
    rw [if_neg hc']
    exact h hcharges

/-! ## The machine -/

/-- A store that a function is read from exists. -/
lemma exists_of_callable {serve : Service} {fuel : Nat} {t : Operand} {s u : State} {r : Rated}
    (hrun : t.resolve.run serve fuel s = .done r u) (hr : r.raw.callable?.isSome = true) {o : Ref}
    (ho : o ∈ t.store?) : o.id < s.store.heap.size := by
  cases t with
  | value v => cases ho
  | place p k =>
    obtain ⟨base, name⟩ := p
    obtain rfl : base = some o := ho
    by_contra hid
    -- nothing is read from an object that does not exist
    have hobject := Heap.get_of_size_le (Nat.le_of_not_lt hid)
    have hfind : s.store.heap.find? o.id name = none := by
      unfold Heap.find? Heap.findWithin
      rw [hobject]
      rfl
    simp only [Operand.resolve, Place.cell, getProperty, Place.partition, run_bind, run_look, hfind,
      run_pure, run_object] at hrun
    cases hrun
    cases hr

/-- The runs of paired actions go together. -/
theorem Knows.runs (hK : K.Knows) (hserve : K.Serves M) {p : Action α} {q : Action β}
    {Q : α → β → Prop} (h : Paired W L p q Q) : K.Runs M L p q Q := by
  -- one case for each way to go side by side; where bindings are used, the keeper knows what to do
  -- (`hK`)
  induction h with
  | give hQ => exact fun hs _ => .pure hs hQ
  | andThen _ _ ihp ihk => exact Runs.bind ihp ihk
  | mono _ hmono ih =>
    exact fun hs hcharges => (ih hs hcharges).mono fun a b _ _ _ _ hR => hmono a b hR
  | observed _ hresult ih =>
    exact fun hs hcharges => (ih hs hcharges).mono fun a b t _ ho _ hQ => ⟨hQ, hresult _ _ _ _ _ ho⟩
  | current =>
    refine fun {cs s s'} hs _ => (Goes.current hs).mono fun c c' _ _ _ _ hc => ?_
    rw [hc.1, hc.2]
    exact ⟨hs.together.control, hs.kind⟩
  | look hQ => exact fun hs _ => .look hs (hQ _ _ hs.together.heaps)
  | lookLeft hQ => exact fun hs _ => .glance hs (hQ _)
  | @lookRight _ _ _ a f _ hQ =>
    intro cs s s' hs _
    -- only the second run looks, so it is the second run that is replaced by its result
    have hpure : K.Goes M (Pure.pure a) (Pure.pure (f s'.store)) _ cs s s' := .pure hs (hQ _)
    exact hpure.of_run rfl
  | target hfits hknown =>
    exact fun hs _ => .look hs ⟨hs.together.heaps.object _ (W.fits_object hfits),
      fun hlax => hs.due.suits hfits (hs.known _ (hknown hlax))⟩
  | allocate ho hface => exact Runs.allocate ho hface
  | change hid hshell hf =>
    intro cs s s' hs _
    have hobject := hs.together.heaps.object _ hid
    exact .update hs (.update (lt_of_not_store hid) (fun _ => ⟨_, rfl⟩)
      (.update hobject.ordinary (hshell _))) fun _ =>
      ⟨trivial, hs.together.change hid (hf _ _ hobject)⟩
  | alter hid hshell hf => exact Runs.alter hid hshell hf
  | fail hf => exact fun hs _ => .fail hs hf
  | attempt _ ih =>
    exact fun hs hcharges => .attempt hs (ih hs fun m hm => hcharges m (List.mem_cons_of_mem _ hm))
  | @region _ _ _ pc pc' scope p q Q hpc hscope _ ih =>
    intro cs s s' hs hcharges
    have hc := hs.together.control
    have hcontrol : W.Controls { s.control with pc, scope }
        { s'.control with pc := pc', scope } := by
      refine ⟨hc.realm, hscope, ?_, hpc, hc.this⟩
      rw [hc.rest]
    have hinside := hs.together
    exact .region hs (ih ⟨hs.due, ⟨hcontrol, hinside.heaps, hinside.result, hinside.seed,
      hinside.files, hinside.kept⟩, hs.contexts, hs.known, hs.kind⟩
      fun m hm => hcharges m (List.mem_cons_of_mem _ hm))
  | @activation _ _ _ entry entry' p q Q hentry _ ih =>
    intro cs s s' hs hcharges
    have hinside := hs.together
    have hkept : K.kept { s.store with result := .undefined }
        { s'.store with result := .undefined } :=
      K.kept_congr hinside.kept rfl rfl (fun _ _ => rfl) (fun _ _ => rfl) (fun _ _ => .rfl)
        fun _ _ => .rfl
    -- an activation starts with a register of its own; neither objects nor frames change
    have hdue : K.Due { s.store with result := .undefined } :=
      hs.due.of_precedes (.of_eq rfl rfl)
    refine .activation hs (ih ⟨hdue,
      ⟨hentry, hinside.heaps, .undefined, hinside.seed, hinside.files,
      hkept⟩, List.forall_mem_cons.2 ⟨⟨entry', hentry⟩, hs.contexts⟩, hs.known, ?_⟩
      fun m hm => hcharges m (List.mem_cons_of_mem _ hm))
    rintro kind ⟨⟩
    rfl
  | invoke hr => exact fun hs hcharges => hserve hr hs.anywhere hcharges
  | loop hinit _ ih => exact Runs.loop hinit ih
  | @await _ _ f f' hsame =>
    intro cs s s' hs _
    refine .single hs rfl rfl (by rintro f ⟨⟩) fun _ => ?_
    rw [run_await, run_await, hsame _ _ hs.together.heaps hs.together.files]
    cases f s.store with
    | error w => exact .stuck _ hs.together
    | ok a => exact .done rfl hs.together
  | noteLeft _ ih =>
    exact fun hs hcharges => .before hs hcharges (.trace hs hcharges.first)
      fun _ t _ _ ht hrest => ih ht hrest
  | @noteRight _ _ _ e p l _ _ ih =>
    intro cs s s' hs hcharges
    have hrun : (Action.trace e >>= l).run M.serve' M.fuel s' =
        (l ()).run M.serve' M.fuel (s'.recorded e) := by rw [run_bind, run_trace_eq]
    exact .of_run (ih (hs.withRight (hs.together.recorded e)) hcharges) hrun
  | realmLeft _ ih =>
    refine fun hs hcharges => .before hs hcharges (.realm hs hcharges.first)
      fun r t _ hr ht hrest => ?_
    subst hr
    exact ih ht hrest
  | raisedPc hk => exact Runs.raisedPc hk
  | check hleft hright hiff hk hl _ ih =>
    exact fun hs hcharges => .check hs hcharges hleft hright hiff hk hl (ih hs)
  | setResult hv =>
    exact fun hs _ => .note hs (fun _ => rfl) rfl trivial
      (hs.together.note rfl rfl rfl rfl hv hs.together.seed hs.together.files)
  | emitText _ =>
    intro cs s s' hs _
    have h := hs.together
    exact .note hs (fun _ => rfl) rfl trivial (h.note rfl rfl rfl rfl h.result h.seed h.files)
  | random => exact Runs.random
  | placeOf => exact hK.placeOf
  | define hp => exact hK.define hp
  | instantiate _ hvars ih => exact hK.instantiate ih hvars
  | newFrame hparent => exact hK.newFrame hparent
  | withFrame ho hpc hscope _ ih => exact hK.withFrame ho hpc hscope ih
  | functionExpression hfn _ ih => exact hK.functionExpression hfn ih
  | enterFrame hfn hscope hargs _ _ ih ihk => exact hK.enterFrame hfn hscope hargs ih ihk
  | resolve hpartner hk => exact hK.resolve hpartner hk
  | assign hpartner hk hr => exact hK.assign hpartner hk hr
  | freeze hpartner => exact hK.freeze hpartner
  | eraseAt hpartner hk => exact hK.eraseAt hpartner hk
  | receiverOf hpartner hS hS' => exact hK.receiverOf hpartner hS hS'
  | callee _ _ ihp ihk =>
    intro cs s s' hs hcharges
    -- what can be called is there, as callee of the one run or of the other
    refine .bind hs hcharges (ihp hs hcharges.first) fun r r' t t' ho ho' hR ht hrest => ?_
    refine (ihk r r' hR) ⟨ht.due, ht.together, ht.contexts, fun id hid => ?_, ht.kind⟩ hrest
    have hprecedes := hcharges.first.grows.start
    rw [ho] at hprecedes
    have hsize : s.store.heap.size ≤ t.store.heap.size := hprecedes.heap.size
    rcases hid with hid | ⟨hr, ⟨o, hmem, rfl⟩ | ⟨o, hmem, rfl⟩⟩
    · exact ht.known id hid
    · exact Nat.lt_of_lt_of_le (exists_of_callable ho hr hmem) hsize
    · have hid := exists_of_callable ho' (by rw [hR.raw.same]; exact hr) hmem
      rw [hs.together.heaps.size] at hid
      exact Nat.lt_of_lt_of_le hid hsize
  | evalText _ ih =>
    exact fun hs hcharges =>
      ih (K.evalText_admits (hcharges _ (mem_moments_self _ _ _)).quiet) hs hcharges
  | functionFromTexts _ ih =>
    exact fun hs hcharges =>
      ih (K.function_admits (hcharges _ (mem_moments_self _ _ _)).quiet) hs hcharges
  | lapse hf hlapse =>
    exact fun hs hcharges =>
      absurd hlapse (K.not_lapses hf (hcharges _ (mem_moments_self _ _ _)).quiet)
  | message hf ho hk => exact hK.message hf hserve ho hk
  | source hf _ ih => exact hK.source hf ih

/-- Two machines whose requests nest at most `levels` deep. -/
def machines {hosts : Hosts} (hhosts : hosts.Composed .none) (hosts' : Hosts) (read : Reader)
    (rounds levels : Nat) : Machines :=
  ⟨machine hosts rounds levels, machineChronicle hosts rounds levels,
    machineBy hosts' read rounds levels, rounds, machine_grows hhosts rounds levels,
    machineBy_keepsControl hosts' read rounds levels⟩

/-- What the machines serve goes together. -/
theorem Knows.serves (hK : K.Knows) {hosts hosts' : Hosts} (hcomposed : hosts.Composed .none)
    (hhosts : W.Hosts hosts hosts') (rounds levels : Nat) :
    K.Serves (machines hcomposed hosts' W.reader rounds levels) := by
  induction levels with
  | zero =>
    intro r r' hr cs s s' hs _
    refine .cons hs rfl (by rintro f ⟨⟩) ?_ (fun _ => .stuck .fuel hs.together)
      (List.forall_mem_nil _)
    rintro _ ⟨⟩
    exact ⟨r', hr⟩
  | succ n ih =>
    intro r r' hr cs s s' hs hcharges
    let G : Ground := ⟨fun id => ¬W.lax ∧ id = r.target.id, none⟩
    have hquiet := (hcharges _ (mem_moments_self _ cs s)).quiet
    -- what is asked exists
    have hstarts : K.Starts G cs s s' := by
      refine ⟨hs.due, hs.together, hs.contexts, ?_, by rintro _ ⟨⟩⟩
      rintro id ⟨hlax, rfl⟩
      exact K.target_exists hlax hquiet
    have hserved := hK.runs ih (paired_perform (L := G) hhosts hr fun hlax => ⟨hlax, rfl⟩) hstarts
      fun m hm => hcharges m (List.mem_cons_of_mem _ hm)
    have hrun : machine hosts rounds (n + 1) r s =
        (perform hosts r).run (machine hosts rounds n) rounds s := machine_succ hosts rounds n r s
    obtain ⟨hmoments, hends⟩ := hserved
    refine .cons hs rfl (by rintro f ⟨⟩) ?_ ?_ hmoments
    · rintro _ ⟨⟩
      exact ⟨r', hr⟩
    · show K.Due (machine hosts rounds (n + 1) r s).state.store →
        K.Ends _ (machine hosts rounds (n + 1) r s) _
      rw [hrun]
      exact hends

/-- Runs of paired actions on the machines go together. -/
theorem Knows.runs_machines (hK : K.Knows) {hosts hosts' : Hosts}
    (hcomposed : hosts.Composed .none) (hhosts : W.Hosts hosts hosts') (rounds levels : Nat)
    {p : Action α} {q : Action β} {Q : α → β → Prop} (h : Paired W L p q Q) :
    K.Runs (machines hcomposed hosts' W.reader rounds levels) L p q Q :=
  hK.runs (hK.serves hcomposed hhosts rounds levels) h

end Keeper
end Clearance
