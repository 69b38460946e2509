/-
# Prototype chains and scope chains

Whatever a session does, the prototype of an object was there before the object, and the frame
around a frame before the frame. So both chains come to an end, and the walks along them, which stop
at a link that does not lead down, never stop for that reason: they are the plain recursions along
prototypes and frames.
-/
import Clearance.Proofs.Paired.Course

namespace Clearance

/-! ## Walks -/

namespace Heap

variable {h : Heap}

/-- Prototypes are older than the objects that have them. -/
def Descends (h : Heap) : Prop := ∀ id q, (h.get id).proto = some q → q < id

variable (hd : h.Descends)
include hd

/-- No chain of prototypes goes on for ever. -/
lemma wellFounded_proto : WellFounded fun q id => (h.get id).proto = some q :=
  Subrelation.wf (hd _ _) Nat.lt_wfRel.wf

/-- Fuel for the numbers below the start is enough. -/
lemma chainWithin_eq {fuel id : Nat} (hfuel : id < fuel) : h.chainWithin fuel id = h.chain id := by
  -- both walks take the same step, to a smaller number
  induction id using Nat.strongRecOn generalizing fuel with
  | ind id ih =>
    obtain ⟨fuel, rfl⟩ := Nat.exists_eq_add_one_of_ne_zero (Nat.ne_of_gt (Nat.zero_lt_of_lt hfuel))
    unfold chain chainWithin
    cases hq : (h.get id).proto with
    | none => rfl
    | some q =>
      have hlt := hd id q hq
      simp only [hlt, if_true]
      rw [ih q hlt (by omega), ih q hlt hlt]

/-- The chain of an object is that of its prototype, preceded by the object. -/
lemma chain_eq (id : Nat) : h.chain id = id :: match (h.get id).proto with
    | some q => h.chain q
    | none => [] := by
  conv_lhs => unfold chain chainWithin
  cases hq : (h.get id).proto with
  | none => rfl
  | some q =>
    have hlt := hd id q hq
    simp only [hlt, if_true]
    rw [chainWithin_eq hd hlt]

lemma findWithin_eq (name : String) {fuel id : Nat} (hfuel : id < fuel) :
    h.findWithin name fuel id = h.find? id name := by
  induction id using Nat.strongRecOn generalizing fuel with
  | ind id ih =>
    obtain ⟨fuel, rfl⟩ := Nat.exists_eq_add_one_of_ne_zero (Nat.ne_of_gt (Nat.zero_lt_of_lt hfuel))
    unfold find? findWithin
    dsimp only
    cases (h.get id).own? name with
    | some p => rfl
    | none =>
      cases hq : (h.get id).proto with
      | none => rfl
      | some q =>
        have hlt := hd id q hq
        simp only [hlt, if_true]
        rw [ih q hlt (by omega), ih q hlt hlt]

/-- A property that an object does not own is found from its prototype on. -/
lemma find?_eq (id : Nat) (name : String) : h.find? id name =
    match (h.get id).own? name with
    | some p => some (id, p)
    | none =>
      match (h.get id).proto with
      | some q => h.find? q name
      | none => none := by
  conv_lhs => unfold find? findWithin
  dsimp only
  cases (h.get id).own? name with
  | some p => rfl
  | none =>
    cases hq : (h.get id).proto with
    | none => rfl
    | some q =>
      have hlt := hd id q hq
      simp only [hlt, if_true]
      rw [findWithin_eq hd name hlt]

end Heap

namespace Frames

variable {fs : Frames}

/-- Enclosing frames are older than the frames in them. -/
def Descends (fs : Frames) : Prop := ∀ n p, (fs.get n).parent = some p → p < n

lemma Descends.set (hd : fs.Descends) {n : Nat} {f : Frame} (hf : (fs.get n).SameLinks f) :
    Frames.Descends (fs.setIfInBounds n f) := by
  intro m p hp
  rw [get_set] at hp
  split_ifs at hp with hm
  · obtain ⟨rfl, -⟩ := hm
    rw [hf.parent] at hp
    exact hd _ _ hp
  · exact hd _ _ hp

lemma lookupWithin_eq (h : Heap) (name : String) {fuel n : Nat} (hfuel : n < fuel)
    (hd : fs.Descends) : fs.lookupWithin h name fuel n = fs.lookup h n name := by
  induction n using Nat.strongRecOn generalizing fuel fs with
  | ind n ih =>
    obtain ⟨fuel, rfl⟩ := Nat.exists_eq_add_one_of_ne_zero (Nat.ne_of_gt (Nat.zero_lt_of_lt hfuel))
    have hlinks := (fs.get n).links_own h name
    have hset := hd.set hlinks
    unfold lookup
    rw [lookupWithin_succ, lookupWithin_succ]
    generalize (fs.get n).own h name = found at *
    obtain ⟨side?, f⟩ := found
    cases side? with
    | some side => rfl
    | none =>
      dsimp only at hlinks hset ⊢
      cases hp : f.parent with
      | none => rfl
      | some p =>
        have hlt : p < n := hd n p (by rw [← hlinks.parent, hp])
        simp only [hlt, if_true]
        rw [ih p hlt (by omega) hset, ih p hlt hlt hset]

/-- A name that a frame does not hold is looked up from the enclosing frame on. -/
lemma lookup_eq (hd : fs.Descends) (h : Heap) (n : Nat) (name : String) : fs.lookup h n name =
    match (fs.get n).own h name with
    | (some side, f) => (some (n, side), fs.setIfInBounds n f)
    | (none, f) =>
      match f.parent with
      | some p => Frames.lookup (fs.setIfInBounds n f) h p name
      | none => (none, fs.setIfInBounds n f) := by
  have hlinks := (fs.get n).links_own h name
  have hset := hd.set hlinks
  conv_lhs => unfold lookup
  rw [lookupWithin_succ]
  generalize (fs.get n).own h name = found at *
  obtain ⟨side?, f⟩ := found
  cases side? with
  | some side => rfl
  | none =>
    dsimp only at hlinks hset ⊢
    cases hp : f.parent with
    | none => rfl
    | some p =>
      have hlt : p < n := hd n p (by rw [← hlinks.parent, hp])
      simp only [hlt, if_true]
      exact lookupWithin_eq h name hlt hset

end Frames

/-! ## Chains of a session -/

/-- Both kinds of chains lead from what is newer to what is older. -/
structure Store.Descends (s : Store) : Prop where
  heap : s.heap.Descends
  frames : s.frames.Descends

lemma Store.structural_descends : Trail.Structural Store.Descends := by
  rintro s t ⟨hheap, hframes⟩ ⟨hs, hs'⟩
  exact ⟨by rw [hheap]; exact hs, by rw [hframes]; exact hs'⟩

/-- What precedes descending chains descends. -/
lemma Store.Descends.of_precedes {s t : Store} (h : t.Descends) (hs : s.Precedes t) :
    s.Descends := by
  refine ⟨fun id q hq => ?_, fun n p hp => ?_⟩
  · by_cases hlt : id < s.heap.size
    · rw [← (hs.heap.shell id hlt).proto] at hq
      exact h.heap id q hq
    · exact (World.Step.proto_of_size (Nat.le_of_not_lt hlt) hq).elim
  · by_cases hlt : n < s.frames.size
    · rw [← (hs.frames.links n hlt).parent] at hp
      exact h.frames n p hp
    · exact (World.Step.parent_of_size (Nat.le_of_not_lt hlt) hp).elim

/-- A single step keeps chains descending: the prototype of a new object is not a new object. -/
lemma Origin.Sees.descends {O : Origin} {m : Moment} (h : O.Sees m) (hs : m.state.store.Descends) :
    m.next.Descends := by
  have hstep := h.step _ h.start.fst rfl
  refine ⟨fun id q hq => ?_, fun n p hp => ?_⟩
  · by_cases hlt : id < m.state.store.heap.size
    · rw [(h.next.heap.shell id hlt).proto] at hq
      exact hs.heap id q hq
    · have hold := hstep.proto (Nat.le_of_not_lt hlt) hq
      have hq' : q < m.state.store.heap.size := Nat.lt_of_not_le fun hle => hold (.inl hle)
      omega
  · by_cases hlt : n < m.state.store.frames.size
    · rw [(h.next.frames.links n hlt).parent] at hp
      exact hs.frames n p hp
    · have hold : p < m.state.store.frames.size := hstep.parent (Nat.le_of_not_lt hlt) hp
      omega

lemma Library.Untouched.descends {s : State} (h : Library.Untouched s) : s.store.Descends := by
  refine ⟨fun id q hq => ?_, fun n p hp => ?_⟩
  · by_cases hlt : id < s.store.heap.size
    · by_cases hne : id = 8
      · rw [hne, h.stock.store] at hq
        cases hq
      · exact ((h.stock.object id hlt hne).proto q hq).1
    · exact (World.Step.proto_of_size (Nat.le_of_not_lt hlt) hq).elim
  · by_cases hlt : n < s.store.frames.size
    · rw [h.frames] at hlt hp
      obtain rfl : n = 0 := Nat.lt_one_iff.1 hlt
      cases hp
    · exact (World.Step.parent_of_size (Nat.le_of_not_lt hlt) hp).elim

/-- Walks along prototypes and frames go on to the end of the chain, and there is an end. -/
structure Store.Founded (s : Store) : Prop where
  proto : ∀ id q, (s.heap.get id).proto = some q → q < id
  acyclic : WellFounded fun q id => (s.heap.get id).proto = some q
  chain : ∀ id, s.heap.chain id = id :: match (s.heap.get id).proto with
    | some q => s.heap.chain q
    | none => []
  find? : ∀ id name, s.heap.find? id name = match (s.heap.get id).own? name with
    | some p => some (id, p)
    | none => match (s.heap.get id).proto with
      | some q => s.heap.find? q name
      | none => none
  parent : ∀ n p, (s.frames.get n).parent = some p → p < n
  lookup : ∀ n name, s.frames.lookup s.heap n name = match (s.frames.get n).own s.heap name with
    | (some side, f) => (some (n, side), s.frames.setIfInBounds n f)
    | (none, f) => match f.parent with
      | some p => Frames.lookup (s.frames.setIfInBounds n f) s.heap p name
      | none => (none, s.frames.setIfInBounds n f)

lemma Store.Descends.founded {s : Store} (h : s.Descends) : s.Founded :=
  ⟨h.heap, Heap.wellFounded_proto h.heap, Heap.chain_eq h.heap, Heap.find?_eq h.heap, h.frames,
    fun n name => Frames.lookup_eq h.frames s.heap n name⟩

/-- No object is dropped, and none gets another prototype. -/
structure Store.KeepsProtos (s t : Store) : Prop where
  size : s.heap.size ≤ t.heap.size
  proto : ∀ id < s.heap.size, (t.heap.get id).proto = (s.heap.get id).proto

lemma Store.Precedes.keepsProtos {s t : Store} (h : s.Precedes t) : s.KeepsProtos t :=
  ⟨h.heap.size, fun id hid => (h.heap.shell id hid).proto⟩

section

variable {hosts : Hosts} (hhosts : hosts.Modest) {s₀ : State} (h₀ : Library.Untouched s₀)
  {ms : List Moment} {s : State} (h : Course hosts s₀ (Grade.full s₀.control.realm.lattice) ms s)
include hhosts h₀ h

lemma Course.descends : s.store.Descends := by
  have hlived := Course.lived_full hhosts h₀ h
  exact (hlived.trail.preserves Store.structural_descends
    (fun m hm => (hlived.sees m hm).descends) h₀.descends).1

lemma Course.founded : s.store.Founded ∧ ∀ m ∈ ms, m.state.store.Founded ∧
    m.outcome.state.store.Founded ∧ m.state.store.KeepsProtos m.outcome.state.store ∧
    m.outcome.state.store.KeepsProtos s.store := by
  have hlived := Course.lived_full hhosts h₀ h
  have hdescends := Course.descends hhosts h₀ h
  refine ⟨hdescends.founded, fun m hm => ?_⟩
  have hduring := (hlived.sees m hm).during
  have hbefore := hlived.before m hm
  exact ⟨(hdescends.of_precedes (hduring.trans hbefore)).founded,
    (hdescends.of_precedes hbefore).founded, hduring.keepsProtos, hbefore.keepsProtos⟩

end

/-- **Prototype chains are well founded.** Whatever a host does with a fresh session and whatever
scripts do there, at every moment the prototype of an object is older than the object, and the frame
around a frame is older than the frame; the walks along prototypes and frames are never cut off. No
object ever gets another prototype. -/
theorem chains_well_founded {hosts : Hosts} (hhosts : hosts.Modest) {o : Library.Options}
    {ms : List Moment} {s : State}
    (h : Course hosts (Session.fresh o) (Grade.full (Session.fresh o).control.realm.lattice) ms s) :
    s.store.Founded ∧ ∀ m ∈ ms, m.state.store.Founded ∧ m.outcome.state.store.Founded ∧
      m.state.store.KeepsProtos m.outcome.state.store ∧
      m.outcome.state.store.KeepsProtos s.store :=
  Course.founded hhosts (Session.untouched_fresh o) h

/-- An instance inherits from an object that its script has made. -/
def inheritingScript : Action Value :=
  evaluate "function F() \x7b\x7d F.prototype = \x7ba: 1\x7d; var o = new F(); o.a" "" 1

/-- The session after the script. -/
def inheritingSession : State :=
  (inheritingScript.run (machine .none 50 50) 50 (Session.fresh .standard)).state

/-- Some object has a prototype that was not there in the fresh session. -/
def State.inherits (s : State) : Bool :=
  (List.range s.store.heap.size).any fun id => match (s.store.heap.get id).proto with
    | some q => (Session.fresh .standard).store.heap.size ≤ q
    | none => false

set_option maxRecDepth 100000 in
/-- The script makes a chain of its own, and all chains are well founded afterwards. -/
theorem chains_well_founded_with_instance :
    inheritingSession.inherits = true ∧ inheritingSession.store.Founded := by
  -- the instance
  have hinherits : 111 < inheritingSession.store.heap.size ∧
      (match (inheritingSession.store.heap.get 111).proto with
        | some q => decide ((Session.fresh .standard).store.heap.size ≤ q)
        | none => false) = true := by
    rw [inheritingSession, inheritingScript, evaluate_ofList]
    decide +kernel
  refine ⟨List.any_eq_true.2 ⟨111, List.mem_range.2 hinherits.1, hinherits.2⟩, ?_⟩
  have hcourse : Course .none (Session.fresh .standard) (Grade.full _) _ inheritingSession :=
    .deed 50 50 .start (.evaluate _ _ _ fun _ _ node _ => Grade.allows_full node)
  exact (chains_well_founded Hosts.modest_none hcourse).1

end Clearance
