/-
# Runs that go together

Two runs go together when they end alike, in states that correspond, and when this can be said of
all moments of the first one. How the stores of bindings correspond is not part of a world: a
`Keeper` says it, and which runs it takes charge of. It knows a store up to which the runs are
followed, and so which objects will be stores of bindings by then. A moment is due as long as the
runs have not gone beyond that store; later moments are not its concern. With the last store of a
run all its moments are due. With the store at a moment, this says what there is at that moment.

This module has the rules by which runs are put together from runs, one for each way to build an
action. That paired actions go together is the subject of `Clearance.Proofs.Paired.Sound`.
-/
import Clearance.Proofs.Extent
import Clearance.Proofs.Paired.Judgment

namespace Clearance

open Clearance.Action

/-! ## Single steps -/

/-- What an instruction asks of a function. -/
def Action.asks? {α : Type} : Action α → Option Request
  | .invoke r => some r
  | _ => none

/-- The function that is asked is there. -/
def Moment.AsksPresent (m : Moment) : Prop :=
  ∀ r ∈ m.action.asks?, r.target.id < m.state.store.heap.size

/-- The action declares a name that is bound in a store. -/
inductive Declares (s : Store) (id : Nat) (name : String) : {α : Type} → Action α → Prop
  | define {n : Nat} {pc : Label} {p : Property} :
      ((s.frames.get n).store (Frame.sideAt pc)).id = id → Declares s id name (defineIn n pc name p)

/-- What an instruction does to the store, seen from bindings, prototypes and frames. -/
structure World.Step (W : World) (c : Control) {α : Type} (p : Action α) (s t : Store) : Prop where
  /-- A binding keeps its label until it is declared again. -/
  keeps : ∀ {id name q q'}, (t.heap.get id).cls = "Activation" →
    Slots.find? name (s.heap.get id).slots = some q →
    Slots.find? name (t.heap.get id).slots = some q' → ¬Declares s id name p →
      q.value.label.leq q'.value.label = true
  /-- A new binding is classified as the program counter. -/
  binds : ∀ {id name q'}, (t.heap.get id).cls = "Activation" →
    Slots.find? name (s.heap.get id).slots = none →
    Slots.find? name (t.heap.get id).slots = some q' →
      c.pc.leq (q'.value.label.join (s.heap.get id).partition) = true
  proto : ∀ {id q}, s.heap.size ≤ id → (t.heap.get id).proto = some q → ¬W.store q
  parent : ∀ {n m}, s.frames.size ≤ n → (t.frames.get n).parent = some m → W.frame m

namespace World.Step

variable {W : World} {c : Control} {α : Type} {p : Action α} {s t : Store}

/-- The properties of the stores stay as they are. -/
lemma of_slots (hslots : ∀ id, (t.heap.get id).cls = "Activation" →
      (t.heap.get id).slots = (s.heap.get id).slots)
    (hproto : ∀ id q, s.heap.size ≤ id → (t.heap.get id).proto = some q → ¬W.store q)
    (hparent : ∀ n m, s.frames.size ≤ n → (t.frames.get n).parent = some m → W.frame m) :
    W.Step c p s t := by
  refine ⟨fun hcls hq hq' _ => ?_, fun hcls hq hq' => ?_, hproto _ _, hparent _ _⟩
  all_goals rw [hslots _ hcls, hq] at hq'
  · cases hq'
    exact Label.leq_refl _
  · cases hq'

lemma proto_of_size {h : Heap} {id q : Nat} (hid : h.size ≤ id) (hq : (h.get id).proto = some q) :
    False := by
  rw [Heap.get_of_size_le hid] at hq
  cases hq

lemma parent_of_size {fs : Frames} {n m : Nat} (hn : fs.size ≤ n)
    (hm : (fs.get n).parent = some m) : False := by
  rw [Frames.get_of_size_le hn] at hm
  cases hm

/-- There is no new frame. -/
lemma parent_of_frames (hsize : t.frames.size = s.frames.size) :
    ∀ n m, s.frames.size ≤ n → (t.frames.get n).parent = some m → W.frame m :=
  fun _ _ hn hm => (parent_of_size (Nat.le_trans (Nat.le_of_eq hsize) hn) hm).elim

/-- Neither objects nor numbers of frames are changed. -/
lemma of_heap (hheap : t.heap = s.heap) (hframes : t.frames.size = s.frames.size) :
    W.Step c p s t := by
  refine of_slots (fun _ _ => by rw [hheap]) (fun _ _ hid hq => ?_) (parent_of_frames hframes)
  rw [hheap] at hq
  exact (proto_of_size hid hq).elim

/-- An object that is no store is changed. -/
lemma update {id : Nat} {f : Object → Object} (hcls : (s.heap.get id).cls ≠ "Activation")
    (hf : (s.heap.get id).SameShell (f (s.heap.get id))) :
    W.Step c p s { s with heap := s.heap.update id f } := by
  refine of_slots (fun j hj => ?_) (fun j q hj hq => ?_) (parent_of_frames rfl)
  · dsimp only at hj ⊢
    rw [Heap.get_update] at hj ⊢
    split_ifs at hj ⊢ with hid
    · obtain ⟨rfl, -⟩ := hid
      rw [hf.cls] at hj
      exact absurd hj hcls
    · rfl
  · exact (proto_of_size (by simpa using hj) hq).elim

/-- An object is added. -/
lemma push {o : Object} (hcls : o.cls = "Activation" → o.slots = [])
    (hproto : ∀ q ∈ o.proto, ¬W.store q) :
    W.Step c p s { s with heap := s.heap.push o } := by
  refine of_slots (fun j hj => ?_) (fun j q hj hq => ?_) (parent_of_frames rfl)
  · by_cases hid : j = s.heap.size
    · subst hid
      dsimp only at hj ⊢
      rw [Heap.get_push_size] at hj ⊢
      rw [hcls hj, Heap.get_of_size_le (Nat.le_refl _)]
      rfl
    · dsimp only
      rw [Heap.get_push_ne hid]
  · by_cases hid : j = s.heap.size
    · subst hid
      dsimp only at hq
      rw [Heap.get_push_size] at hq
      exact hproto q hq
    · dsimp only at hq
      rw [Heap.get_push_ne hid] at hq
      exact (proto_of_size hj hq).elim

/-- A frame is added. -/
lemma enclose {f : Frame} (hparent : ∀ m ∈ f.parent, W.frame m) :
    W.Step c p s { s with frames := s.frames.push f } := by
  refine of_slots (fun _ _ => rfl) (fun _ _ hid hq => (proto_of_size hid hq).elim)
    fun n m hn hm => ?_
  by_cases hid : n = s.frames.size
  · subst hid
    dsimp only at hm
    rw [Frames.get_push_size] at hm
    exact hparent m hm
  · exact (parent_of_size (by simp; omega) hm).elim

end World.Step

/-! ## What a step touches -/

/-- The step would change the object of this number, if there were one. -/
def Store.Touches {α : Type} (s : Store) (f : Store → α × Store) (id : Nat) : Prop :=
  ∃ h : Heap, id < h.size ∧ (f { s with heap := h }).2.heap.get id ≠ h.get id

namespace Store.Touches

variable {α : Type} {s : Store} {f : Store → α × Store} {id : Nat}

/-- A step that leaves the heap alone touches nothing. -/
lemma false_of_same (h : s.Touches f id) (hf : ∀ h, (f { s with heap := h }).2.heap = h) :
    False := by
  obtain ⟨h, -, hne⟩ := h
  exact hne (by rw [hf])

/-- A step that adds an object touches nothing. -/
lemma false_of_push (h : s.Touches f id)
    (hf : ∀ h : Heap, ∃ o, (f { s with heap := h }).2.heap = h.push o) : False := by
  obtain ⟨h, hid, hne⟩ := h
  obtain ⟨o, ho⟩ := hf h
  exact hne (by rw [ho, Heap.get_push_lt hid])

/-- A step that changes one object touches it only. -/
lemma eq_of_update (h : s.Touches f id) {n : Nat}
    (hf : ∀ h : Heap, ∃ g, (f { s with heap := h }).2.heap = h.update n g) : id = n := by
  obtain ⟨h, -, hne⟩ := h
  obtain ⟨g, hg⟩ := hf h
  by_contra hid
  exact hne (by rw [hg, Heap.get_update_ne hid])

/-- A step that would put a property into an object touches it. -/
lemma of_define {n : Nat} {name : String} {g : Object → Object} {o : Object} {p : Property}
    (hg : g o = o.define name p) (ho : Slots.find? name o.slots = none)
    (hf : ∀ h : Heap, (f { s with heap := h }).2.heap = h.update n g) : s.Touches f n := by
  have hsize : n < (Array.replicate (n + 1) o).size := by simp
  have hget : Heap.get (Array.replicate (n + 1) o) n = o := by simp [Heap.get, Array.getD]
  refine ⟨Array.replicate (n + 1) o, hsize, fun heq => ?_⟩
  rw [hf, Heap.get_update_self hsize, hget, hg] at heq
  have hfind := Object.find?_define o name name p
  rw [heq, ho, if_pos rfl] at hfind
  cases hfind

end Store.Touches

/-! ## Keepers -/

/-- What is known of the stores of bindings of two machines. -/
structure Keeper (W : World) where
  /-- The store up to which the runs are followed. -/
  last : Store
  store_iff : ∀ id, W.store id ↔ last.heap.size ≤ id ∨ (last.heap.get id).cls = "Activation"
  fits_iff : ∀ o, W.fits o ↔ ¬W.store o.id ∧ o.face.Suits (last.heap.get o.id).behaviour
  frame_iff : ∀ n, W.frame n ↔ n < last.frames.size
  partner_lt : ∀ {S S' name}, W.partner S S' name → S.id < last.heap.size
  /-- The stores and the frames of the two machines correspond. -/
  kept : Store → Store → Prop
  /-- The moments of the first run that are provided for. -/
  quiet : Moment → Prop
  /-- The stores of the first run that are provided for. -/
  tidy : Store → Prop
  /-- The sides on which a name may be bound in a frame. -/
  agrees : Nat → String → Side → Side → Prop
  /-- Only the stores and the frames matter. -/
  kept_congr : ∀ {s s' t t' : Store}, kept s s' → t.frames = s.frames → t'.frames = s'.frames →
    (∀ id, W.store id → t.heap.get id = s.heap.get id) →
    (∀ id, W.store id → t'.heap.get id = s'.heap.get id) →
    (∀ id, W.store id → (id < t.heap.size ↔ id < s.heap.size)) →
    (∀ id, W.store id → (id < t'.heap.size ↔ id < s'.heap.size)) → kept t t'
  quiet_tidy : ∀ {m : Moment}, quiet m → tidy m.outcome.state.store
  evalText_admits : ∀ {source : String} {k : Label} {cs : List Control} {s : State}
    {o : Outcome Value}, quiet ⟨evalText source k, s, cs, o⟩ → W.Admits source
  function_admits : ∀ {texts : List String} {k : Label} {cs : List Control} {s : State}
    {o : Outcome Value}, quiet ⟨functionFromTexts texts k, s, cs, o⟩ →
      W.Admits (functionSource texts)
  target_exists : ¬W.lax → ∀ {r : Request} {cs : List Control} {s : State} {o : Outcome Value},
    quiet ⟨.invoke r, s, cs, o⟩ → r.target.id < s.store.heap.size
  not_lapses : ¬W.faithful → ∀ {α : Type} {p : Action α} {cs : List Control} {s : State}
    {o : Outcome α}, quiet ⟨p, s, cs, o⟩ → ¬Lapses p
  not_violates : ¬W.faithful → ∀ {α : Type} {p : Action α} {cs : List Control} {s t : State}
    {v : Violation}, ¬quiet ⟨p, s, cs, .failed (.violation v) t⟩
  /-- What a step touches is there. -/
  touches_exists : ¬W.faithful → ∀ {α : Type} {f : Store → α × Store}
    {cs : List Control} {s : State}
    {o : Outcome α}, quiet ⟨.update f, s, cs, o⟩ → ∀ id, s.store.Touches f id →
      id < s.store.heap.size

/-- Two machines, each with its way to serve requests, and the bound on the rounds of their
loops. -/
structure Machines where
  serve : Service
  chronicle : Chronicle
  serve' : Service
  fuel : Nat
  grows : serve.Grows chronicle
  keeps' : serve'.KeepsControl

namespace Keeper

variable {W : World} (K : Keeper W)

/-- The runs have not gone beyond what is followed. -/
def Due (s : Store) : Prop := s.Precedes K.last

/-- A moment that the keeper takes charge of. -/
structure Allowed (m : Moment) : Prop where
  steady : m.Steady
  quiet : K.quiet m

/-- States of the two machines that correspond. -/
structure Together (s s' : State) : Prop where
  control : W.Controls s.control s'.control
  heaps : W.Heaps s.store.heap s'.store.heap
  result : W.Values s.store.result s'.store.result
  seed : s'.store.seed = s.store.seed
  files : s'.store.files = s.store.files
  kept : K.kept s.store s'.store

/-- Runs that end alike. -/
inductive Ends {α β : Type} (Q : α → β → Prop) : Outcome α → Outcome β → Prop
  | done {a : α} {b : β} {t t' : State} : Q a b → K.Together t t' → Ends Q (.done a t) (.done b t')
  | failed {f f' : Failure} {t t' : State} : W.Failures f f' → K.Together t t' →
      Ends Q (.failed f t) (.failed f' t')
  | stuck (w : Stuck) {t t' : State} : K.Together t t' → Ends Q (.stuck w t) (.stuck w t')

/-- Two runs start in states that correspond, on a ground of which `L` says what is known. -/
structure Starts (L : Ground) (cs : List Control) (s s' : State) : Prop where
  due : K.Due s.store
  together : K.Together s s'
  contexts : ∀ c ∈ cs, ∃ c', W.Controls c c'
  known : ∀ id, L.known id → id < s.store.heap.size
  kind : ∀ kind ∈ L.kind, s.control.kind = kind

/-- What can be said of a step: what it does, and that what it touches is there in the end. -/
structure Moves (c : Control) {α : Type} (f : Store → α × Store) (s : Store) : Prop where
  step : W.Step c (.update f) s (f s).2
  touch : ∀ id, s.Touches f id → id < K.last.heap.size

/-- What can be said of a moment of the first run, as long as it is due. -/
structure Seen (m : Moment) : Prop where
  start : K.Due m.state.store → ∃ s', K.Starts .any m.contexts m.state s'
  final : K.Due m.outcome.state.store → ∃ s', K.Together m.outcome.state s'
  failure : K.Due m.outcome.state.store → ∀ f t, m.outcome = .failed f t → ∃ f', W.Failures f f'
  request : K.Due m.state.store → ∀ r ∈ m.action.asks?, ∃ r', W.Requests r r'
  moves : K.Due m.state.store → ∀ f : Store → m.α × Store, m.action = .update f →
    K.Moves m.state.control f m.state.store

section

variable (M : Machines)

/-- Two runs go together. -/
structure Goes {α β : Type} (p : Action α) (q : Action β) (Q : α → β → Prop) (cs : List Control)
    (s s' : State) : Prop where
  moments : ∀ m ∈ p.moments M.serve M.chronicle M.fuel cs s, K.Seen m
  ends : K.Due (p.run M.serve M.fuel s).state.store →
    K.Ends Q (p.run M.serve M.fuel s) (q.run M.serve' M.fuel s')

/-- The keeper takes charge of all moments of a run. -/
def Charges {α : Type} (p : Action α) (cs : List Control) (s : State) : Prop :=
  ∀ m ∈ p.moments M.serve M.chronicle M.fuel cs s, K.Allowed m

/-- All runs of two actions go together, as far as the keeper takes charge of them. -/
def Runs (L : Ground) {α β : Type} (p : Action α) (q : Action β) (Q : α → β → Prop) : Prop :=
  ∀ {cs s s'}, K.Starts L cs s s' → K.Charges M p cs s → K.Goes M p q Q cs s s'

end

/-- What is served goes together. -/
def Serves (M : Machines) : Prop :=
  ∀ {r r' : Request}, W.Requests r r' → K.Runs M .any (.invoke r) (.invoke r') W.Values

variable {K} {M : Machines}
  {L : Ground} {cs : List Control} {s s' t t' : State} {α β γ δ : Type}

lemma Due.of_precedes {s t : Store} (h : K.Due t) (hs : s.Precedes t) : K.Due s := hs.trans h

namespace Moves

variable {c : Control} {f : Store → α × Store} {u : Store}

/-- A step that leaves the objects alone. -/
lemma aside (hf : ∀ h, (f { u with heap := h }).2.heap = h)
    (hframes : (f u).2.frames.size = u.frames.size) : K.Moves c f u :=
  ⟨.of_heap (hf u.heap) hframes, fun _ h => (h.false_of_same hf).elim⟩

/-- A step that adds an object. -/
lemma push {o : Object} (hf : ∀ h : Heap, (f { u with heap := h }).2.heap = h.push o)
    (hstep : W.Step c (.update f) u (f u).2) : K.Moves c f u :=
  ⟨hstep, fun _ h => (h.false_of_push fun h => ⟨o, hf h⟩).elim⟩

/-- A step that changes an object that is there in the end. -/
lemma update {id : Nat} (hid : id < K.last.heap.size)
    (hf : ∀ h : Heap, ∃ g, (f { u with heap := h }).2.heap = h.update id g)
    (hstep : W.Step c (.update f) u (f u).2) : K.Moves c f u :=
  ⟨hstep, fun _ h => (h.eq_of_update hf).symm ▸ hid⟩

end Moves

/-- What is no store is there in the end. -/
lemma lt_of_not_store {id : Nat} (hid : ¬W.store id) : id < K.last.heap.size :=
  Nat.lt_of_not_le fun hle => hid ((K.store_iff id).2 (.inl hle))

/-- What a place is of is there in the end. -/
lemma lt_of_places {S S' : Ref} {name : String}
    (h : W.Places ⟨some S, name⟩ ⟨some S', name⟩) : S.id < K.last.heap.size := by
  cases h with
  | member _ ho => exact lt_of_not_store (W.fits_object ho)
  | binding hp => exact K.partner_lt hp

/-- The store of the first machine is changed, but neither objects nor frames. -/
lemma Together.note (h : K.Together s s') {u u' : Store} (hheap : u.heap = s.store.heap)
    (hheap' : u'.heap = s'.store.heap) (hframes : u.frames = s.store.frames)
    (hframes' : u'.frames = s'.store.frames) (hresult : W.Values u.result u'.result)
    (hseed : u'.seed = u.seed) (hfiles : u'.files = u.files) :
    K.Together ⟨s.control, u⟩ ⟨s'.control, u'⟩ := by
  refine ⟨h.control, ?_, hresult, hseed, hfiles, ?_⟩
  · show W.Heaps u.heap u'.heap
    rw [hheap, hheap']
    exact h.heaps
  · exact K.kept_congr h.kept hframes hframes' (fun id _ => by rw [hheap])
      (fun id _ => by rw [hheap']) (fun id _ => by rw [hheap]) (fun id _ => by rw [hheap'])

namespace Ends

variable {Q : α → β → Prop} {o : Outcome α} {o' : Outcome β}

lemma together (h : K.Ends Q o o') : K.Together o.state o'.state := by
  cases h <;> assumption

lemma failure (h : K.Ends Q o o') {f : Failure} {t : State} (ho : o = .failed f t) :
    ∃ f', W.Failures f f' := by
  cases h with
  | done | stuck => cases ho
  | failed hf _ =>
    cases ho
    exact ⟨_, hf⟩

/-- A run that is done goes beside one that is done. -/
lemma exists_done {a : α} {t : State} (h : K.Ends Q (.done a t) o') :
    ∃ b t', o' = .done b t' ∧ Q a b := by
  cases h with
  | done hQ _ => exact ⟨_, _, rfl, hQ⟩

lemma result {a : α} {t : State} (h : K.Ends Q (.done a t) o') : ∃ b, Q a b := by
  obtain ⟨b, _, _, hQ⟩ := h.exists_done
  exact ⟨b, hQ⟩

/-- What is said of results may be weakened. -/
lemma mono (h : K.Ends Q o o') {R : α → β → Prop}
    (hmono : ∀ a b t t', o = .done a t → o' = .done b t' → Q a b → R a b) : K.Ends R o o' := by
  cases h with
  | done hQ ht => exact .done (hmono _ _ _ _ rfl rfl hQ) ht
  | failed hf ht => exact .failed hf ht
  | stuck w ht => exact .stuck w ht

end Ends

namespace Starts

/-- What is known of the ground stays known as long as the control stays. -/
lemma later (h : K.Starts L cs s s') (hprecedes : s.store.Precedes t.store)
    (hcontrol : t.control = s.control) (hdue : K.Due t.store) (ht : K.Together t t') :
    K.Starts L cs t t' := by
  refine ⟨hdue, ht, h.contexts,
    fun id hid => Nat.lt_of_lt_of_le (h.known id hid) hprecedes.heap.size, ?_⟩
  rw [hcontrol]
  exact h.kind

/-- The state of the second machine may be another one. -/
lemma withRight (h : K.Starts L cs s s') (ht : K.Together s t') : K.Starts L cs s t' :=
  ⟨h.due, ht, h.contexts, h.known, h.kind⟩

lemma anywhere (h : K.Starts L cs s s') : K.Starts .any cs s s' :=
  ⟨h.due, h.together, h.contexts, fun _ => False.elim, by rintro _ ⟨⟩⟩

end Starts

/-- Nothing is asked of a run that starts too late. -/
lemma goes_of_not_due {p : Action α} {q : Action β} {Q : α → β → Prop}
    (hgrows : Grows M.serve M.chronicle M.fuel p cs s) (hdue : ¬K.Due s.store) :
    K.Goes M p q Q cs s s' := by
  refine ⟨fun m hm => ?_, fun h => absurd (h.of_precedes hgrows.start) hdue⟩
  obtain ⟨hstart, hduring, -⟩ := hgrows.moments m hm
  have hlate : ¬K.Due m.state.store := fun h => hdue (h.of_precedes hstart)
  have hend : ¬K.Due m.outcome.state.store := fun h => hlate (h.of_precedes hduring)
  exact ⟨(absurd · hlate), (absurd · hend), (absurd · hend), (absurd · hlate), (absurd · hlate)⟩

/-- The objects and the frames stay in a run that the keeper takes charge of. -/
lemma Charges.grows {p : Action α} (h : K.Charges M p cs s) :
    Grows M.serve M.chronicle M.fuel p cs s :=
  (h _ (mem_moments_self p cs s)).steady _ _ _ M.grows

lemma Charges.first {p : Action γ} {k : γ → Action α} (h : K.Charges M (p >>= k) cs s) :
    K.Charges M p cs s := fun m hm => h m (mem_moments_first k hm)

lemma Charges.rest {p : Action γ} {k : γ → Action α} (h : K.Charges M (p >>= k) cs s) {x : γ}
    (ho : p.run M.serve M.fuel s = .done x t) : K.Charges M (k x) cs t :=
  fun m hm => h m (mem_moments_rest ho hm)

/-- Once the first part of a run is done, what is known of the ground is still known. -/
lemma Starts.done (h : K.Starts L cs s s') {p : Action γ} (hcharges : K.Charges M p cs s) {x : γ}
    (ho : p.run M.serve M.fuel s = .done x t) (hdue : K.Due t.store) (ht : K.Together t t') :
    K.Starts L cs t t' := by
  have hstart := hcharges.grows.start
  rw [ho] at hstart
  exact h.later hstart (run_done_control M.grows.keeps ho) hdue ht

namespace Goes

variable {p : Action α} {q : Action β} {Q : α → β → Prop}

/-! ## Putting runs together -/

/-- An instruction that starts no other one. -/
lemma single (hs : K.Starts L cs s s')
    (hmoments : p.moments M.serve M.chronicle M.fuel cs s = [⟨p, s, cs, p.run M.serve M.fuel s⟩])
    (hplain : p.asks? = none)
    (hmoves : ∀ f : Store → α × Store, p = .update f → K.Moves s.control f s.store)
    (hends : K.Due (p.run M.serve M.fuel s).state.store →
      K.Ends Q (p.run M.serve M.fuel s) (q.run M.serve' M.fuel s')) :
    K.Goes M p q Q cs s s' := by
  refine ⟨?_, hends⟩
  rw [hmoments, List.forall_mem_singleton]
  refine ⟨fun _ => ⟨_, hs.anywhere⟩, fun h => ⟨_, (hends h).together⟩,
    fun h f t => (hends h).failure, fun _ r hr => ?_, fun _ => hmoves⟩
  rw [hplain] at hr
  cases hr

/-- An instruction that starts others. -/
lemma cons {ms : List Moment} (hs : K.Starts L cs s s')
    (hmoments : p.moments M.serve M.chronicle M.fuel cs s =
      ⟨p, s, cs, p.run M.serve M.fuel s⟩ :: ms)
    (hother : ∀ f : Store → α × Store, p ≠ .update f)
    (hrequest : ∀ r ∈ p.asks?, ∃ r', W.Requests r r')
    (hends : K.Due (p.run M.serve M.fuel s).state.store →
      K.Ends Q (p.run M.serve M.fuel s) (q.run M.serve' M.fuel s'))
    (hms : ∀ m ∈ ms, K.Seen m) : K.Goes M p q Q cs s s' := by
  refine ⟨?_, hends⟩
  rw [hmoments, List.forall_mem_cons]
  exact ⟨⟨fun _ => ⟨_, hs.anywhere⟩, fun h => ⟨_, (hends h).together⟩,
    fun h f t => (hends h).failure, fun _ => hrequest, fun _ f hf => absurd hf (hother f)⟩, hms⟩

/-- What is known of the results, if the runs are done. -/
lemma mono {R : α → β → Prop} (h : K.Goes M p q R cs s s')
    (hmono : ∀ a b t t', p.run M.serve M.fuel s = .done a t →
      q.run M.serve' M.fuel s' = .done b t' → R a b → Q a b) : K.Goes M p q Q cs s s' :=
  ⟨h.moments, fun hdue => (h.ends hdue).mono hmono⟩

/-- The second run may be replaced by one that ends in the same way. -/
lemma of_run {q' : Action β} (h : K.Goes M p q' Q cs s t')
    (hq : q.run M.serve' M.fuel s' = q'.run M.serve' M.fuel t') : K.Goes M p q Q cs s s' :=
  ⟨h.moments, fun hdue => by rw [hq]; exact h.ends hdue⟩

lemma pure (hs : K.Starts L cs s s') {a : α} {b : β} (h : Q a b) :
    K.Goes M (Pure.pure a) (Pure.pure b) Q cs s s' :=
  single hs rfl rfl (by rintro f ⟨⟩) fun _ => .done h hs.together

/-- Neither side breaks down. -/
lemma insist (hs : K.Starts L cs s s') {text : String} {holds holds' : Store → Bool}
    (h : holds s.store = true) (h' : holds' s'.store = true) :
    K.Goes M (Action.insist text holds) (Action.insist text holds') (fun _ _ => True) cs s s' := by
  have hstate : ((Action.insist text holds).run M.serve M.fuel s).state = s := state_run_await ..
  refine single hs rfl rfl (by rintro f ⟨⟩) fun _ => ?_
  rw [run_insist_of_holds h, run_insist_of_holds h']
  exact .done trivial hs.together

/-- A step on the stores. -/
lemma update (hs : K.Starts L cs s s') {f : Store → α × Store} {f' : Store → β × Store}
    (hmoves : K.Moves s.control f s.store)
    (hends : K.Due (f s.store).2 → Q (f s.store).1 (f' s'.store).1 ∧
      K.Together ⟨s.control, (f s.store).2⟩ ⟨s'.control, (f' s'.store).2⟩) :
    K.Goes M (.update f) (.update f') Q cs s s' := by
  refine single hs rfl rfl ?_ fun hdue => .done (hends hdue).1 (hends hdue).2
  rintro g hg
  cases hg
  exact hmoves

/-- A step that leaves the objects and the frames alone. -/
lemma note (hs : K.Starts L cs s s') {f : Store → α × Store} {f' : Store → β × Store}
    (hheap : ∀ h, (f { s.store with heap := h }).2.heap = h)
    (hframes : (f s.store).2.frames = s.store.frames)
    (hQ : Q (f s.store).1 (f' s'.store).1)
    (ht : K.Together ⟨s.control, (f s.store).2⟩ ⟨s'.control, (f' s'.store).2⟩) :
    K.Goes M (.update f) (.update f') Q cs s s' :=
  update hs (.aside hheap (by rw [hframes])) fun _ => ⟨hQ, ht⟩

lemma look (hs : K.Starts L cs s s') {f : Store → α} {f' : Store → β}
    (hQ : Q (f s.store) (f' s'.store)) :
    K.Goes M (Action.look f) (Action.look f') Q cs s s' :=
  note hs (fun _ => rfl) rfl hQ hs.together

/-- A look at the first store, while the second machine does nothing. -/
lemma glance (hs : K.Starts L cs s s') {f : Store → α} {b : β} (hQ : Q (f s.store) b) :
    K.Goes M (Action.look f) (Pure.pure b) Q cs s s' :=
  (look hs hQ : K.Goes M (Action.look f) (Action.look fun _ => b) Q cs s s').of_run rfl

lemma fail (hs : K.Starts L cs s s') {f f' : Failure} (h : W.Failures f f') :
    K.Goes M (.fail f : Action α) (.fail f' : Action β) Q cs s s' :=
  single hs rfl rfl (by rintro g ⟨⟩) fun _ => .failed h hs.together

lemma current (hs : K.Starts L cs s s') :
    K.Goes M .current .current
      (fun c c' => c = s.control ∧ c' = s'.control) cs s s' :=
  single hs rfl rfl (by rintro f ⟨⟩) fun _ => .done ⟨rfl, rfl⟩ hs.together

/-- A sequence: the second parts start where the first ones are done. -/
lemma bind {p : Action γ} {q : Action δ} {k : γ → Action α} {l : δ → Action β} {R : γ → δ → Prop}
    (hs : K.Starts L cs s s') (hcharges : K.Charges M (p >>= k) cs s)
    (hp : K.Goes M p q R cs s s')
    (hk : ∀ x y t t', p.run M.serve M.fuel s = .done x t →
      q.run M.serve' M.fuel s' = .done y t' → R x y → K.Starts L cs t t' →
      K.Charges M (k x) cs t → K.Goes M (k x) (l y) Q cs t t') :
    K.Goes M (p >>= k) (q >>= l) Q cs s s' := by
  obtain ⟨hmoments, hends⟩ := hp
  have hrun : (p >>= k).run M.serve M.fuel s = _ := run_bind p k s
  have hrun' : (q >>= l).run M.serve' M.fuel s' = _ := run_bind q l s'
  have hlist : (p >>= k).moments M.serve M.chronicle M.fuel cs s = _ := moments_bind p k cs s
  have hother : ∀ f : Store → α × Store, (p >>= k) ≠ .update f := by rintro f ⟨⟩
  have hasks : ∀ r ∈ (p >>= k).asks?, ∃ r', W.Requests r r' := by rintro r ⟨⟩
  cases ho : p.run M.serve M.fuel s with
  | done x t =>
    rw [ho] at hends
    simp only [ho] at hrun hlist
    have hrest := hcharges.rest ho
    -- if what the first part leaves is not due, nothing is asked of the second run
    by_cases hdue : K.Due t.store
    · cases ho' : q.run M.serve' M.fuel s' with
      | done y t' =>
        rw [ho'] at hends
        simp only [ho'] at hrun'
        obtain ⟨hR, ht⟩ : R x y ∧ K.Together t t' := by
          cases hends hdue with
          | done hR ht => exact ⟨hR, ht⟩
        have hgoes := hk x y t t' ho ho' hR (hs.done hcharges.first ho hdue ht) hrest
        refine cons hs hlist hother hasks (fun h => ?_) ?_
        · rw [hrun] at h ⊢
          rw [hrun']
          exact hgoes.ends h
        · exact List.forall_mem_append.2 ⟨hmoments, hgoes.moments⟩
      | failed | stuck =>
        rw [ho'] at hends
        cases hends hdue
    · have hgoes : K.Goes M (k x) (k x) (fun _ _ => True) cs t t := goes_of_not_due hrest.grows hdue
      refine cons hs hlist hother hasks (fun h => ?_) ?_
      · rw [hrun] at h
        exact absurd (h.of_precedes hrest.grows.start) hdue
      · exact List.forall_mem_append.2 ⟨hmoments, hgoes.moments⟩
  | failed f t =>
    rw [ho] at hends
    simp only [ho, List.append_nil] at hrun hlist
    refine cons hs hlist hother hasks (fun h => ?_) hmoments
    rw [hrun] at h ⊢
    rw [hrun']
    generalize q.run M.serve' M.fuel s' = o' at *
    cases hends h with
    | failed hf ht => exact .failed hf ht
  | stuck w t =>
    rw [ho] at hends
    simp only [ho, List.append_nil] at hrun hlist
    refine cons hs hlist hother hasks (fun h => ?_) hmoments
    rw [hrun] at h ⊢
    rw [hrun']
    generalize q.run M.serve' M.fuel s' = o' at *
    cases hends h with
    | stuck _ ht => exact .stuck w ht

/-- A step of the first run only. -/
lemma before {p : Action γ} {k : γ → Action α} {R : γ → Prop} (hs : K.Starts L cs s s')
    (hcharges : K.Charges M (p >>= k) cs s)
    (hp : K.Goes M p (Pure.pure ()) (fun x _ => R x) cs s s')
    (hk : ∀ x t, p.run M.serve M.fuel s = .done x t → R x → K.Starts L cs t s' →
      K.Charges M (k x) cs t → K.Goes M (k x) q Q cs t s') :
    K.Goes M (p >>= k) q Q cs s s' := by
  have hrun' : ((Pure.pure () : Action Unit) >>= fun _ => q).run M.serve' M.fuel s' =
      q.run M.serve' M.fuel s' := by rw [run_bind, run_pure]
  refine of_run (bind hs hcharges hp fun x y t t' ho ho' hR ht hrest => ?_) hrun'.symm
  cases ho'
  exact hk x t ho hR ht hrest

lemma attempt (hs : K.Starts L cs s s') (hp : K.Goes M p q Q cs s s') :
    K.Goes M (.attempt p) (.attempt q) (W.Attempts Q) cs s s' := by
  obtain ⟨hmoments, hends⟩ := hp
  have hrun : (Action.attempt p).run M.serve M.fuel s = _ := run_attempt p s
  have hrun' : (Action.attempt q).run M.serve' M.fuel s' = _ := run_attempt q s'
  refine cons hs rfl (by rintro f ⟨⟩) (by rintro r ⟨⟩) (fun h => ?_) hmoments
  rw [hrun] at h ⊢
  rw [hrun']
  generalize p.run M.serve M.fuel s = o at *
  generalize q.run M.serve' M.fuel s' = o' at *
  have hdue : K.Due o.state.store := by cases o <;> exact h
  cases hends hdue with
  | done hQ ht => exact .done (.ok hQ) ht
  | failed hf ht => exact .done (.error hf) ht
  | stuck w ht => exact .stuck w ht

/-- A region: the control is put back. -/
lemma region {pc pc' : Label} {scope : Nat} (hs : K.Starts L cs s s')
    (hp : K.Goes M p q Q cs ⟨{ s.control with pc, scope }, s.store⟩
      ⟨{ s'.control with pc := pc', scope }, s'.store⟩) :
    K.Goes M (.region pc scope p) (.region pc' scope q) Q cs s s' := by
  obtain ⟨hmoments, hends⟩ := hp
  have hrun : (Action.region pc scope p).run M.serve M.fuel s = _ := run_region pc scope p s
  have hrun' : (Action.region pc' scope q).run M.serve' M.fuel s' = _ := run_region pc' scope q s'
  refine cons hs rfl (by rintro f ⟨⟩) (by rintro r ⟨⟩) (fun h => ?_) hmoments
  rw [hrun, Outcome.state_mapState] at h
  rw [hrun, hrun']
  -- where the region ends, all but the program counter and the scope is as the region left it
  have hback : ∀ {t t'}, K.Together t t' → K.Together
      ⟨{ t.control with pc := s.control.pc, scope := s.control.scope }, t.store⟩
      ⟨{ t'.control with pc := s'.control.pc, scope := s'.control.scope }, t'.store⟩ := by
    intro t t' ht
    have hc := hs.together.control
    refine ⟨⟨ht.control.realm, hc.scope_frame, ?_, hc.pc, ht.control.this⟩, ht.heaps, ht.result,
      ht.seed, ht.files, ht.kept⟩
    show ({ t'.control with pc := _, scope := _ } : Control) = _
    rw [ht.control.rest, hc.scope]
  generalize p.run M.serve M.fuel ⟨{ s.control with pc, scope }, s.store⟩ = o at *
  generalize q.run M.serve' M.fuel ⟨{ s'.control with pc := pc', scope }, s'.store⟩ = o' at *
  cases hends h with
  | done hQ ht => exact .done hQ (hback ht)
  | failed hf ht => exact .failed hf (hback ht)
  | stuck w ht => exact .stuck w (hback ht)

/-- An activation: the control and the remembered value are put back. -/
lemma activation {entry entry' : Control} (hs : K.Starts L cs s s')
    (hp : K.Goes M p q Q (entry :: cs) ⟨entry, { s.store with result := .undefined }⟩
      ⟨entry', { s'.store with result := .undefined }⟩) :
    K.Goes M (.activation entry p) (.activation entry' q)
      (fun r r' => Q r.1 r'.1 ∧ W.Values r.2 r'.2) cs s s' := by
  obtain ⟨hmoments, hends⟩ := hp
  have hrun : (Action.activation entry p).run M.serve M.fuel s = _ := run_activation entry p s
  have hrun' : (Action.activation entry' q).run M.serve' M.fuel s' = _ :=
    run_activation entry' q s'
  have hback : ∀ {t t' : State}, K.Together t t' → K.Together
      ⟨s.control, { t.store with result := s.store.result }⟩
      ⟨s'.control, { t'.store with result := s'.store.result }⟩ := fun {t t'} ht =>
    ⟨hs.together.control, ht.heaps, hs.together.result, ht.seed, ht.files,
      K.kept_congr ht.kept rfl rfl (fun _ _ => rfl) (fun _ _ => rfl) (fun _ _ => .rfl)
        fun _ _ => .rfl⟩
  refine cons hs rfl (by rintro f ⟨⟩) (by rintro r ⟨⟩) (fun h => ?_) hmoments
  rw [hrun] at h ⊢
  rw [hrun']
  generalize p.run M.serve M.fuel ⟨entry, { s.store with result := .undefined }⟩ = o at *
  generalize q.run M.serve' M.fuel ⟨entry', { s'.store with result := .undefined }⟩ = o' at *
  have hdue : K.Due o.state.store := by
    cases o <;> exact h.of_precedes (.of_eq rfl rfl)
  cases hends hdue with
  | done hQ ht => exact .done ⟨hQ, ht.result⟩ (hback ht)
  | failed hf ht => exact .failed hf (hback ht)
  | stuck w ht => exact .stuck w (hback ht)

end Goes

namespace Runs

variable {p : Action α} {q : Action β} {Q : α → β → Prop}

lemma bind {p : Action γ} {q : Action δ} {k : γ → Action α} {l : δ → Action β} {R : γ → δ → Prop}
    (hp : K.Runs M L p q R) (hk : ∀ x y, R x y → K.Runs M L (k x) (l y) Q) :
    K.Runs M L (p >>= k) (q >>= l) Q :=
  fun hs hcharges => .bind hs hcharges (hp hs hcharges.first) fun x y _ _ _ _ hR => hk x y hR

/-- The keeper takes charge of all rounds of a loop from a state on. -/
def Rounds {σ : Type} (K : Keeper W) (M : Machines) (cs : List Control) (step : σ → Action (σ ⊕ α))
    (n : Nat) (x : σ) (u : State) : Prop :=
  ∀ m ∈ iterateMoments (fun x u => (step x).run M.serve M.fuel u)
    (fun x u => (step x).moments M.serve M.chronicle M.fuel cs u) n x u, K.Allowed m

/-- Rounds that start too late. -/
lemma rounds_of_not_due {σ : Type} {step : σ → Action (σ ⊕ α)} (n : Nat) {x : σ} {u : State}
    (hrounds : Rounds K M cs step n x u) (hdue : ¬K.Due u.store) :
    (∀ m ∈ iterateMoments (fun x u => (step x).run M.serve M.fuel u)
      (fun x u => (step x).moments M.serve M.chronicle M.fuel cs u) n x u, K.Seen m) ∧
    ¬K.Due (iterate (fun x u => (step x).run M.serve M.fuel u) n x u).state.store := by
  induction n generalizing x u with
  | zero => exact ⟨List.forall_mem_nil _, hdue⟩
  | succ n ih =>
    rw [Rounds, iterateMoments, List.forall_mem_append] at hrounds
    obtain ⟨hround, hrest⟩ := hrounds
    have hgrows : Grows M.serve M.chronicle M.fuel (step x) cs u := Charges.grows hround
    have hgoes : K.Goes M (step x) (step x) (fun _ _ => True) cs u u := goes_of_not_due hgrows hdue
    have hlate : ¬K.Due ((step x).run M.serve M.fuel u).state.store :=
      fun h => hdue (h.of_precedes hgrows.start)
    unfold iterate iterateMoments
    generalize (step x).run M.serve M.fuel u = o at *
    obtain ⟨y | a, t⟩ | ⟨f, t⟩ | ⟨w, t⟩ := o
    · obtain ⟨hmoments, hend⟩ := ih hrest hlate
      exact ⟨List.forall_mem_append.2 ⟨hgoes.moments, hmoments⟩, hend⟩
    all_goals
      dsimp only
      rw [List.append_nil]
      exact ⟨hgoes.moments, hlate⟩

/-- The rounds of two loops, as long as the fuel lasts. -/
lemma loop {σ τ : Type} {init : σ} {init' : τ} {step : σ → Action (σ ⊕ α)}
    {step' : τ → Action (τ ⊕ β)} {I : σ → τ → Prop} (hinit : I init init')
    (hstep : ∀ x y, I x y → K.Runs M L (step x) (step' y) (Sum.LiftRel I Q)) :
    K.Runs M L (.loop init step) (.loop init' step') Q := by
  intro cs s s' hs hcharges
  suffices h : ∀ n x y u u', I x y → K.Starts L cs u u' → Rounds K M cs step n x u →
      let o := iterate (fun x u => (step x).run M.serve M.fuel u) n x u
      (∀ m ∈ iterateMoments (fun x u => (step x).run M.serve M.fuel u)
        (fun x u => (step x).moments M.serve M.chronicle M.fuel cs u) n x u, K.Seen m) ∧
      (K.Due o.state.store →
        K.Ends Q o (iterate (fun y u => (step' y).run M.serve' M.fuel u) n y u')) by
    obtain ⟨hmoments, hends⟩ := h M.fuel init init' s s' hinit hs
      fun m hm => hcharges m (List.mem_cons_of_mem _ hm)
    exact .cons hs rfl (by rintro f ⟨⟩) (by rintro r ⟨⟩) hends hmoments
  intro n
  -- the rounds are counted by the fuel, which no step sees
  induction n with
  | zero => exact fun x y u u' _ hu _ => ⟨List.forall_mem_nil _, fun _ => .stuck .fuel hu.together⟩
  | succ n ih =>
    intro x y u u' hxy hu hrounds
    rw [Rounds, iterateMoments, List.forall_mem_append] at hrounds
    obtain ⟨hround, hrest⟩ := hrounds
    obtain ⟨hmoments, hends⟩ := hstep x y hxy hu hround
    unfold iterate iterateMoments
    cases ho : (step x).run M.serve M.fuel u with
    | done r t =>
      rw [ho] at hends
      simp only [ho] at hrest
      by_cases hdue : K.Due t.store
      · have hend := hends hdue
        generalize (step' y).run M.serve' M.fuel u' = o' at *
        cases hend with
        | done hr ht =>
          cases hr with
          | inl hI =>
            obtain ⟨hmoments', hends'⟩ := ih _ _ t _ hI (hu.done hround ho hdue ht) hrest
            exact ⟨List.forall_mem_append.2 ⟨hmoments, hmoments'⟩, hends'⟩
          | inr hQ =>
            dsimp only
            rw [List.append_nil]
            exact ⟨hmoments, fun _ => .done hQ ht⟩
      · cases r with
        | inl z =>
          obtain ⟨hmoments', hend⟩ := rounds_of_not_due n hrest hdue
          exact ⟨List.forall_mem_append.2 ⟨hmoments, hmoments'⟩, fun h => absurd h hend⟩
        | inr a =>
          dsimp only
          rw [List.append_nil]
          exact ⟨hmoments, fun h => absurd h hdue⟩
    | failed f t =>
      rw [ho] at hends
      dsimp only
      rw [List.append_nil]
      refine ⟨hmoments, fun hdue => ?_⟩
      generalize (step' y).run M.serve' M.fuel u' = o' at *
      cases hends hdue with
      | failed hf ht => exact .failed hf ht
    | stuck w t =>
      rw [ho] at hends
      dsimp only
      rw [List.append_nil]
      refine ⟨hmoments, fun hdue => ?_⟩
      generalize (step' y).run M.serve' M.fuel u' = o' at *
      cases hends hdue with
      | stuck _ ht => exact .stuck w ht

end Runs
end Keeper
end Clearance
