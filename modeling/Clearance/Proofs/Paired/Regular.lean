/-
# Regular states

A state is regular when everything in it is what the runs from an origin may hold: the references
are to objects that are there and behave as they show, the code is such as may be run, and the
labels are among those that are met. Runs go from regular states to regular states, and so are all
the states in between: at each moment of a run one looks at the run up to there.
-/
import Clearance.Proofs.Paired.Aligned
import Clearance.Proofs.Trail

namespace Clearance

open Clearance.Action Script

namespace Origin

/-- Runs that are followed up to a store. -/
def upTo (O : Origin) (u : Store) (h : O.base.Precedes u) : Setting :=
  { O with last := u, precedes := h }

variable {O : Origin} {t u : Store} {ht : O.base.Precedes t} {hu : O.base.Precedes u}

/-! ## What is there stays -/

section

variable (h : t.Precedes u)
include h

lemma store_of_store {id : Nat} (hstore : (O.upTo u hu).store id) : (O.upTo t ht).store id := by
  refine (Nat.lt_or_ge id t.heap.size).elim (fun hlt => ?_) .inl
  refine hstore.elim (fun hle => .inl (Nat.le_trans h.heap.size hle)) fun hcls => .inr ?_
  exact (h.heap.shell id hlt).cls.symm.trans hcls

lemma not_store_widen {id : Nat} (hid : ¬(O.upTo t ht).store id) : ¬(O.upTo u hu).store id :=
  fun hstore => hid (store_of_store h hstore)

lemma fits_widen {o : Ref} (ho : (O.upTo t ht).world.fits o) : (O.upTo u hu).world.fits o := by
  obtain ⟨hid, hsuits⟩ := ho
  have hlt : o.id < t.heap.size := Nat.lt_of_not_le fun hle => hid (.inl hle)
  refine ⟨not_store_widen h hid, ?_⟩
  show o.face.Suits (u.heap.get o.id).behaviour
  rw [(h.heap.shell o.id hlt).behaviour]
  exact hsuits

lemma frame_widen {n : Nat} (hn : (O.upTo t ht).world.frame n) : (O.upTo u hu).world.frame n :=
  Nat.lt_of_lt_of_le hn h.frames.size

lemma sound_widen {r : Raw} (hr : (O.upTo t ht).world.Sound r) : (O.upTo u hu).world.Sound r :=
  fun o ho => fits_widen h (hr o ho)

omit h in
lemma labels_widen {k k' : Label} (hk : (O.upTo t ht).world.Labels k k') :
    (O.upTo u hu).world.Labels k k' := ⟨hk.left, hk.right, hk.same⟩

lemma values_widen {v v' : Value} (hv : (O.upTo t ht).world.Values v v') :
    (O.upTo u hu).world.Values v v' :=
  ⟨⟨hv.raw.same, sound_widen h hv.raw.sound, hv.raw.present⟩, labels_widen hv.label, hv.settled⟩

lemma requests_widen {r r' : Request} (hr : (O.upTo t ht).world.Requests r r') :
    (O.upTo u hu).world.Requests r r' := by
  cases hr with
  | call hfn hthis hargs =>
    exact .call ⟨fits_widen h hfn.fits, hfn.callable⟩ (values_widen h hthis)
      (hargs.imp fun _ _ => values_widen h)
  | construct hfn hargs =>
    exact .construct ⟨fits_widen h hfn.fits, hfn.constructor⟩ (hargs.imp fun _ _ => values_widen h)
  | hasInstance hfn hv =>
    exact .hasInstance ⟨fits_widen h hfn.fits, hfn.constructor⟩ (values_widen h hv)

lemma slot_widen {p p' : Property} (hp : (O.upTo t ht).world.Slot p p') :
    (O.upTo u hu).world.Slot p p' := by
  obtain ⟨v, v', readOnly, permanent, hv, rfl, rfl⟩ := hp
  exact ⟨v, v', readOnly, permanent, values_widen h hv, rfl, rfl⟩

lemma properties_widen {cls name : String} {p p' : Property}
    (hp : (O.upTo t ht).world.Properties cls name p p') :
    (O.upTo u hu).world.Properties cls name p p' := by
  obtain ⟨hgetter, hgetter', hsetter, hsetter', hhidden, hreadOnly, hpermanent, hvalue⟩ := hp
  refine ⟨hgetter, sound_widen h hgetter', hsetter, sound_widen h hsetter', hhidden, hreadOnly,
    hpermanent, hvalue.imp_left fun hcontents => ?_⟩
  refine hcontents.imp (values_widen h) fun ⟨hcls, hname, hwordings⟩ => ⟨hcls, hname, ?_⟩
  exact ⟨hwordings.texts, labels_widen hwordings.label, hwordings.settled⟩

lemma behaviours_widen {b b' : Behaviour} (hb : (O.upTo t ht).world.Behaviours b b') :
    (O.upTo u hu).world.Behaviours b b' := by
  cases hb with
  | none => exact .none
  | closure hfn hscope => exact .closure ⟨hfn.code, hfn.allowed⟩ (frame_widen h hscope)
  | native => exact .native ..
  | host => exact .host ..

lemma objects_widen {o o' : Object} (ho : (O.upTo t ht).world.Objects o o') :
    (O.upTo u hu).world.Objects o o' where
  cls := ho.cls
  ordinary := ho.ordinary
  proto := ho.proto
  proto_object q hq := not_store_widen h (ho.proto_object q hq)
  partition := labels_widen ho.partition
  primitive := ho.primitive
  wrapped := ho.wrapped
  pattern := ho.pattern
  behaviour := behaviours_widen h ho.behaviour
  slots := ho.slots.imp fun _ _ ⟨hname, hp⟩ => ⟨hname, properties_widen h hp⟩

lemma controls_widen {c c' : Control} (hc : (O.upTo t ht).world.Controls c c') :
    (O.upTo u hu).world.Controls c c' :=
  ⟨hc.realm, frame_widen h hc.scope_frame, hc.rest, labels_widen hc.pc, values_widen h hc.this⟩

/-- Objects that are not there yet correspond as well. -/
lemma heaps_widen {g g' : Heap} (hsize : g.size ≤ t.heap.size)
    (hheaps : (O.upTo t ht).world.Heaps g g') : (O.upTo u hu).world.Heaps g g' := by
  refine ⟨hheaps.size, fun id hid => ?_⟩
  by_cases hstore : (O.upTo t ht).store id
  · have hle : g.size ≤ id := by
      refine Nat.le_of_not_lt fun hlt => hid (.inr ?_)
      obtain hle | hcls := hstore
      · exact absurd hle (Nat.not_le_of_lt (Nat.lt_of_lt_of_le hlt hsize))
      · exact (h.heap.shell id (Nat.lt_of_lt_of_le hlt hsize)).cls.trans hcls
    rw [Heap.get_of_size_le hle, Heap.get_of_size_le (by rw [hheaps.size]; exact hle)]
    exact .blank (by decide) (by rintro _ ⟨⟩) .none
  · exact objects_widen h (hheaps.object id hstore)

lemma kept_widen {s s' : Store} (hs : s.Precedes t) (hkept : (O.upTo t ht).Kept s s') :
    (O.upTo u hu).Kept s s' where
  frames := hkept.frames
  objects id hid := hkept.objects id (store_of_store h hid)
  size id hid := hkept.size id (store_of_store h hid)
  bare id hid := hkept.bare id (store_of_store h hid)
  shell id hid hlt := by
    have hlast := Nat.lt_of_lt_of_le hlt hs.heap.size
    exact ⟨Nat.lt_of_lt_of_le hlast h.heap.size,
      (hs.heap.shell id hlt).trans (h.heap.shell id hlast)⟩
  slots id hid slot hslot := slot_widen h (hkept.slots id (store_of_store h hid) slot hslot)
  held id hid := hkept.held id (store_of_store h hid)
  below id hid := hkept.below id (store_of_store h hid)
  links n hn := by
    have hlast := Nat.lt_of_lt_of_le hn hs.frames.size
    exact ⟨Nat.lt_of_lt_of_le hlast h.frames.size,
      (hs.frames.links n hn).trans (h.frames.links n hlast)⟩
  refs n hn side hid := by
    by_cases hstore : (O.upTo t ht).store ((s.frames.get n).store side).id
    · have hlt := Nat.lt_of_lt_of_le (hkept.bounded n hn side hstore) hs.heap.size
      refine absurd (.inr ?_) hid
      obtain hle | hcls := hstore
      · exact absurd hlt (Nat.not_lt_of_le hle)
      · exact (h.heap.shell _ hlt).cls.trans hcls
    · exact fits_widen h (hkept.refs n hn side hstore)
  bounded n hn side hid := hkept.bounded n hn side (store_of_store h hid)
  low n hn hid := hkept.low n hn (store_of_store h hid)
  apart := hkept.apart.mono fun _ => store_of_store h

lemma together_widen {s s' : State} (hs : s.store.Precedes t)
    (htogether : (O.upTo t ht).keeper.Together s s') : (O.upTo u hu).keeper.Together s s' :=
  ⟨controls_widen h htogether.control, heaps_widen h hs.heap.size htogether.heaps,
    values_widen h htogether.result, htogether.seed, htogether.files,
    kept_widen h hs htogether.kept⟩

end

/-! ## Regular states -/

/-- Whatever is in the state, and in the activations in progress, is as the runs from the origin may
hold it. -/
def Regular (O : Origin) (cs : List Control) (s : State) : Prop :=
  ∃ h : O.base.Precedes s.store, (O.upTo s.store h).keeper.Starts .any cs s s

/-- A run beside itself is at one place. -/
lemma together_self {A : Setting} {s s' : State} (h : A.keeper.Together s s') :
    A.keeper.Together s s := by
  have hcontrol := h.control.eq trivial
  have hheap := Setting.Kept.heap_eq h.kept h.heaps
  have hresult := h.result.eq trivial
  obtain ⟨hc, hh, hr, -, -, hk⟩ := h
  rw [hcontrol] at hc
  rw [hheap] at hh
  rw [hresult] at hr
  have hframes := Setting.Kept.frames hk
  refine ⟨hc, hh, hr, rfl, rfl, Setting.Kept.congr hk rfl hframes.symm (fun _ _ => rfl)
    (fun id hid => (Setting.Kept.objects hk id hid).symm) (fun _ _ => .rfl)
    fun id hid => (Setting.Kept.size hk id hid).symm⟩

lemma starts_self {A : Setting} {cs : List Control} {s s' : State}
    (h : A.keeper.Starts .any cs s s') : A.keeper.Starts .any cs s s :=
  h.withRight (together_self h.together)

/-- What a state holds may be held later on. -/
lemma Regular.starts {cs : List Control} {s : State} (hs : O.Regular cs s) (hu : O.base.Precedes u)
    (h : s.store.Precedes u) : (O.upTo u hu).keeper.Starts .any cs s s := by
  obtain ⟨hbase, hstarts⟩ := hs
  refine ⟨h, together_widen h (.refl _) hstarts.together, fun c hc => ?_, fun _ => False.elim,
    by rintro _ ⟨⟩⟩
  obtain ⟨c', hcontrol⟩ := hstarts.contexts c hc
  exact ⟨c', controls_widen h hcontrol⟩

/-- The text consists of what code may be made of. -/
def Admits (O : Origin) (source : String) : Prop :=
  ∀ file program, Script.parse defaultIntrinsic file source 1 = .ok program →
    ∀ node ∈ program.nodes true, O.allowed node

/-- A host whose functions do nothing but what scripts could do. -/
structure Welcomes (O : Origin) (hosts : Hosts) : Prop where
  composed : hosts.Composed .none
  hosts : ∀ u hu, (O.upTo u hu).world.Hosts hosts hosts

/-! ## Moments -/

/-- What is known of a moment of a run from a regular state. -/
structure Sees (O : Origin) (m : Moment) : Prop where
  start : O.Regular m.contexts m.state
  final : O.Regular m.contexts m.outcome.state
  during : m.state.store.Precedes m.outcome.state.store
  next : m.state.store.Precedes m.next
  failure : ∀ u hu, m.outcome.state.store = u → ∀ f t, m.outcome = .failed f t →
    ∃ f', (O.upTo u hu).world.Failures f f'
  request : ∀ u hu, m.state.store = u → ∀ r ∈ m.action.asks?,
    ∃ r', (O.upTo u hu).world.Requests r r'
  step : ∀ u hu, m.state.store = u →
    (O.upTo u hu).world.Step m.state.control m.action u m.next
  /-- What a step would change is there. -/
  touch : ∀ f : Store → m.α × Store, m.action = .update f → ∀ id, m.state.store.Touches f id →
    id < m.state.store.heap.size

section

variable {hosts : Hosts} {rounds levels : Nat} {α : Type} {p : Action α} {cs : List Control}
  {s : State}

/-- What a moment does by itself is a single step. -/
lemma step_of_seen {W : World} {K : Keeper W} {m : Moment} (h : K.Seen m)
    (hdue : K.Due m.state.store) :
    W.Step m.state.control m.action m.state.store m.next := by
  have hmoves := h.moves hdue
  unfold Moment.next
  obtain ⟨p, s, cs, o⟩ := m
  cases p with
  | update f => exact (hmoves f rfl).step
  | give | andThen | current | fail | attempt | region | activation | invoke | loop | await =>
    exact .of_heap rfl rfl

/-- The objects and the frames stay in what a moment does by itself. -/
lemma precedes_next {m : Moment} {serve : Service} {chronicle : Chronicle}
    (hserve : serve.Grows chronicle) (h : m.Steady) : m.state.store.Precedes m.next := by
  have hgrows := (h serve chronicle 0 hserve).start
  unfold Moment.next
  obtain ⟨p, s, cs, o⟩ := m
  cases p with
  | update f => exact hgrows
  | give | andThen | current | fail | attempt | region | activation | invoke | loop | await =>
    exact .refl _

/-- **Runs that go beside themselves pass through regular states.** At each moment one looks at
the run up to there. -/
theorem sees_of_goes (hhosts : O.Welcomes hosts) (hs : O.Regular cs s)
    (hsteady : ∀ m ∈ p.momentsOn hosts rounds levels cs s, m.Steady)
    (hgoes : ∀ u hu, s.store.Precedes u → ∀ m ∈ p.momentsOn hosts rounds levels cs s,
      (O.upTo u hu).keeper.Seen m) :
    ∀ m ∈ p.momentsOn hosts rounds levels cs s, O.Sees m := by
  intro m hm
  have hserve := machine_grows hhosts.composed rounds levels
  obtain ⟨hbefore, hduring, -⟩ := (hsteady _ (mem_moments_self p cs s) _ _ _ hserve).moments m hm
  have hafter := hbefore.trans hduring
  have hbase := hs.fst.trans hbefore
  have hbase' := hs.fst.trans hafter
  have seen := hgoes _ hbase hbefore m hm
  have seen' := hgoes _ hbase' hafter m hm
  obtain ⟨s', hs'⟩ := seen.start (.refl _)
  obtain ⟨t', ht'⟩ := seen'.final (.refl _)
  have hregular : O.Regular m.contexts m.state := ⟨hbase, starts_self hs'⟩
  refine ⟨hregular, ⟨hbase', .refl _, together_self ht', (hregular.starts hbase' hduring).contexts,
    fun _ => False.elim, by rintro _ ⟨⟩⟩, hduring, precedes_next hserve (hsteady m hm), ?_, ?_, ?_,
    fun f hf => (seen.moves (.refl _) f hf).touch⟩
  · rintro _ hu rfl f t ho
    exact seen'.failure (.refl _) f t ho
  · rintro _ hu rfl r hr
    exact seen.request (.refl _) r hr
  · rintro _ hu rfl
    exact step_of_seen seen (.refl _)

/-- An action that is run from a regular state: it is put together like those of scripts, and the
texts that it reads are of what code may be made of. -/
structure Episode (O : Origin) (hosts : Hosts) (rounds levels : Nat) {α : Type} (p : Action α)
    (cs : List Control) (s : State) : Prop where
  start : O.Regular cs s
  paired : ∀ u hu, s.store.Precedes u → ∃ Q, Paired (O.upTo u hu).world .any p p Q
  steady : ∀ m ∈ p.momentsOn hosts rounds levels cs s, m.Steady
  admits : ∀ m ∈ p.momentsOn hosts rounds levels cs s, ∀ source,
    Setting.Reads m.action source → O.Admits source
  present : ¬O.lax → ∀ m ∈ p.momentsOn hosts rounds levels cs s, m.AsksPresent

namespace Episode

/-- The run goes beside itself, as far as one follows it. -/
lemma goes (h : O.Episode hosts rounds levels p cs s) (hhosts : O.Welcomes hosts)
    (hu : O.base.Precedes u) (hs : s.store.Precedes u) {Q : α → α → Prop}
    (hp : Paired (O.upTo u hu).world .any p p Q) :
    (O.upTo u hu).keeper.Goes (Keeper.machines hhosts.composed hosts
      (O.upTo u hu).world.reader rounds
      levels) p p Q cs s s :=
  (O.upTo u hu).custody.knows.runs_machines hhosts.composed (hhosts.hosts u hu) rounds levels hp
    (h.start.starts hu hs) fun m hm =>
      ⟨h.steady m hm, h.admits m hm, fun hlax => h.present hlax m hm⟩

/-- What is known of the moments of an episode. -/
theorem sees (h : O.Episode hosts rounds levels p cs s) (hhosts : O.Welcomes hosts) :
    ∀ m ∈ p.momentsOn hosts rounds levels cs s, O.Sees m := by
  refine sees_of_goes hhosts h.start h.steady fun u hu hs m hm => ?_
  obtain ⟨Q, hp⟩ := h.paired u hu hs
  exact (h.goes hhosts hu hs hp).moments m hm

/-- What an episode ends with, seen from its end. -/
lemma ends (h : O.Episode hosts rounds levels p cs s) (hhosts : O.Welcomes hosts)
    {hu : O.base.Precedes u} {Q : α → α → Prop} {a : α} {t : State}
    (hrun : p.run (machine hosts rounds levels) rounds s = .done a t) (ht : t.store = u)
    (hp : Paired (O.upTo u hu).world .any p p Q) : ∃ b, Q a b := by
  subst ht
  obtain ⟨hgrows, -⟩ := h.steady _ (mem_moments_self p cs s) _ _ rounds
    (machine_grows hhosts.composed rounds levels)
  rw [hrun] at hgrows
  have hends := (h.goes hhosts hu hgrows hp).ends
  dsimp only [Keeper.machines] at hends
  rw [hrun] at hends
  exact (hends (.refl _)).result

end Episode

end

end Origin
end Clearance
