/-
# What names stand for

A frame keeps an index of its bindings, and answers from the index rather than from its stores. This
file says when the two agree. What a frame finds is always there (`Frame.holds_of_owner`), and a
walk along the scope chain comes to the first frame that finds something (`Frames.found_eq`). But a
name may be in a store and not be found: when the index points to the other store, or when an entry
was dropped and the name has come back since (`stored_name_not_found`). If a name is never declared
in one store while the other has it, and assignments never bring it back, then the frame finds it
exactly where it is, and looking up names makes no difference (`names_found_where_stored`).
-/
import Clearance.Access
import Clearance.Proofs.Contract

namespace Clearance

open Clearance.Action

/-! ## Finding names -/

namespace Frame

variable {f g : Frame} {h h' : Heap} {name : String} {side : Side}

/-- The store on a side has the name. -/
def holds (f : Frame) (h : Heap) (side : Side) (name : String) : Bool :=
  (h.get (f.store side).id).hasOwn name

/-- The side that the index gives for a name, unless the entry is stale. -/
def entry (f : Frame) (h : Heap) (name : String) : Option Side :=
  (f.index.lookup name).filter (f.holds h · name)

/-- The side that is found for a name in the frame. -/
def owner (f : Frame) (h : Heap) (name : String) : Option Side := (f.own h name).1

lemma entry_eq_some : f.entry h name = some side ↔
    f.index.lookup name = some side ∧ f.holds h side name = true :=
  Option.filter_eq_some_iff

/-- The side whose properties answer for the index of a dynamic frame. -/
def visible (f : Frame) (h : Heap) (name : String) : Option Side :=
  if f.dynamic then
    if h.has f.high.id name then some .high else if h.has f.low.id name then some .low else none
  else none

lemma own_eq (f : Frame) (h : Heap) (name : String) : f.own h name =
    match f.entry h name with
    | some side => (some side, f)
    | none => (f.visible h name, f.unbind name) := by
  have hvisible : ∀ g : Frame, (if f.dynamic then
      if h.has f.high.id name then (some .high, g)
      else if h.has f.low.id name then (some .low, g) else (none, g)
      else (none, g)) = (f.visible h name, g) := by
    intro g
    unfold visible
    split_ifs <;> rfl
  unfold own entry holds
  cases f.index.lookup name with
  | none => exact hvisible _
  | some side =>
    by_cases hlive : (h.get (f.store side).id).hasOwn name = true
    · simp only [Option.filter_some, hlive, if_true]
    · simp only [Option.filter_some, hlive, if_false, Bool.false_eq_true]
      exact hvisible _

lemma owner_eq (f : Frame) (h : Heap) (name : String) :
    f.owner h name = (f.entry h name).or (f.visible h name) := by
  rw [owner, own_eq]
  cases f.entry h name <;> rfl

lemma owner_of_static (hstatic : f.dynamic = false) : f.owner h name = f.entry h name := by
  rw [owner_eq, visible, hstatic, if_neg Bool.false_ne_true, Option.or_none]

/-- What is found is there. -/
lemma holds_of_owner (hstatic : f.dynamic = false) (howner : f.owner h name = some side) :
    f.holds h side name = true := by
  rw [owner_of_static hstatic] at howner
  exact (entry_eq_some.1 howner).2

lemma lookup_unbind (f : Frame) (name n : String) :
    (f.unbind name).index.lookup n = if n = name then none else f.index.lookup n := by
  unfold unbind
  dsimp only
  induction f.index with
  | nil => simp
  | cons e es ih =>
    obtain ⟨m, side⟩ := e
    by_cases hm : m = name
    · subst hm
      by_cases hn : n = m
      · simpa [hn] using ih
      · simpa [List.lookup_cons, hn, beq_eq_false_iff_ne.2 hn] using ih
    · by_cases hn : n = m
      · simp [hm, hn]
      · simpa [List.lookup_cons, hm, beq_eq_false_iff_ne.2 hn] using ih

lemma lookup_bind (f : Frame) (name n : String) (side : Side) :
    (f.bind name side).index.lookup n = if n = name then some side else f.index.lookup n := by
  unfold bind
  dsimp only
  rw [List.lookup_cons]
  by_cases hn : n = name
  · simp [hn]
  · rw [beq_eq_false_iff_ne.2 hn, lookup_unbind, if_neg hn, if_neg hn]

/-! ## Dropping stale entries -/

/-- The frame without some of the stale entries of its index. -/
structure Pruned (h : Heap) (f g : Frame) : Prop where
  links : f.SameLinks g
  entry : ∀ name, g.entry h name = f.entry h name

namespace Pruned

lemma refl (h : Heap) (f : Frame) : f.Pruned h f := ⟨.refl f, fun _ => rfl⟩

lemma trans {k : Frame} (hf : f.Pruned h g) (hg : g.Pruned h k) : f.Pruned h k :=
  ⟨hf.links.trans hg.links, fun name => (hg.entry name).trans (hf.entry name)⟩

/-- Finding a name drops its entry only if the entry is stale. -/
lemma own (f : Frame) (h : Heap) (name : String) : f.Pruned h (f.own h name).2 := by
  refine ⟨f.links_own h name, fun n => ?_⟩
  rw [own_eq]
  cases hentry : f.entry h name with
  | some side => rfl
  | none =>
    by_cases hn : n = name
    · rw [hn, hentry, Frame.entry, lookup_unbind, if_pos rfl]
      rfl
    · rw [Frame.entry, lookup_unbind, if_neg hn]
      rfl

lemma visible_eq (hp : f.Pruned h g) (name : String) : g.visible h name = f.visible h name := by
  unfold visible
  rw [hp.links.dynamic, hp.links.high, hp.links.low]

/-- Stale entries do not matter to what is found. -/
lemma owner_eq (hp : f.Pruned h g) (name : String) : g.owner h name = f.owner h name := by
  rw [Frame.owner_eq, hp.entry, hp.visible_eq, ← Frame.owner_eq]

end Pruned
end Frame

namespace Frames

variable {fs gs : Frames} {h : Heap}

/-- Every frame has lost stale entries at most. -/
def Pruned (h : Heap) (fs gs : Frames) : Prop := ∀ m, (fs.get m).Pruned h (gs.get m)

namespace Pruned

lemma refl (h : Heap) (fs : Frames) : fs.Pruned h fs := fun m => Frame.Pruned.refl h (fs.get m)

lemma trans {ks : Frames} (hf : fs.Pruned h gs) (hg : gs.Pruned h ks) : fs.Pruned h ks :=
  fun m => (hf m).trans (hg m)

lemma own (fs : Frames) (h : Heap) (n : Nat) (name : String) :
    fs.Pruned h (fs.setIfInBounds n ((fs.get n).own h name).2) := by
  intro m
  rw [get_set]
  split_ifs with hm
  · rw [hm.1]
    exact .own ..
  · exact .refl ..

lemma lookupWithin (h : Heap) (name : String) (fuel n : Nat) (fs : Frames) :
    fs.Pruned h (fs.lookupWithin h name fuel n).2 := by
  induction fuel generalizing n fs with
  | zero => exact .refl h fs
  | succ fuel ih =>
    have hset := own fs h n name
    rw [lookupWithin_succ]
    generalize (fs.get n).own h name = found at hset ⊢
    obtain ⟨side?, f⟩ := found
    cases side? with
    | some side => exact hset
    | none =>
      dsimp only at hset ⊢
      cases f.parent with
      | none => exact hset
      | some p =>
        dsimp only
        split_ifs
        · exact hset.trans (ih p _)
        · exact hset

end Pruned

/-- The frames from `n` along the enclosing frames. Every one has a smaller number; a link that does
not lead down ends the walk. -/
def chainWithin (fs : Frames) : Nat → Nat → List Nat
  | 0, _ => []
  | fuel + 1, n => n :: match (fs.get n).parent with
    | some p => if p < n then chainWithin fs fuel p else []
    | none => []

/-- The scope chain of a frame: the frame and those around it, nearest first. -/
def chain (fs : Frames) (n : Nat) : List Nat := fs.chainWithin (n + 1) n

/-- Where a name is found from a frame on. -/
def found (fs : Frames) (h : Heap) (n : Nat) (name : String) : Option (Nat × Side) :=
  (fs.lookup h n name).1

lemma chainWithin_congr (hlinks : ∀ m, (fs.get m).SameLinks (gs.get m)) (fuel n : Nat) :
    gs.chainWithin fuel n = fs.chainWithin fuel n := by
  induction fuel generalizing n with
  | zero => rfl
  | succ fuel ih => simp only [chainWithin, (hlinks n).parent, ih]

lemma le_of_mem_chainWithin {fuel n m : Nat} (hm : m ∈ fs.chainWithin fuel n) : m ≤ n := by
  induction fuel generalizing n with
  | zero => cases hm
  | succ fuel ih =>
    rcases List.mem_cons.1 hm with rfl | hm
    · exact Nat.le_refl _
    · split at hm
      · split_ifs at hm with hp
        · exact Nat.le_trans (ih hm) (Nat.le_of_lt hp)
        · cases hm
      · cases hm

/-- The frames around a frame are older. -/
lemma exists_chain_eq (fs : Frames) (n : Nat) :
    ∃ outer, fs.chain n = n :: outer ∧ ∀ m ∈ outer, m < n := by
  refine ⟨_, rfl, fun m hm => ?_⟩
  split at hm
  · split_ifs at hm with hp
    · exact Nat.lt_of_le_of_lt (le_of_mem_chainWithin hm) hp
    · cases hm
  · cases hm

lemma found_within (h : Heap) (name : String) (fuel n : Nat) (fs gs : Frames)
    (hp : fs.Pruned h gs) : (gs.lookupWithin h name fuel n).1 =
      (fs.chainWithin fuel n).findSome? fun m => ((fs.get m).owner h name).map (m, ·) := by
  induction fuel generalizing n gs with
  | zero => rfl
  | succ fuel ih =>
    have howner := (hp n).owner_eq name
    have hset := hp.trans (Pruned.own gs h n name)
    have hparent : ((gs.get n).own h name).2.parent = (fs.get n).parent :=
      ((hp n).links.trans ((gs.get n).links_own h name)).parent
    rw [Frame.owner] at howner
    rw [lookupWithin_succ, chainWithin, List.findSome?_cons, ← howner]
    generalize (gs.get n).own h name = found at *
    obtain ⟨side?, f⟩ := found
    cases side? with
    | some side => rfl
    | none =>
      dsimp only at hset hparent ⊢
      rw [hparent]
      cases (fs.get n).parent with
      | none => rfl
      | some p =>
        dsimp only [Option.map_none]
        split_ifs
        · exact ih p _ hset
        · rfl

/-- A name stands for what the first frame of the scope chain that finds it finds. -/
lemma found_eq (fs : Frames) (h : Heap) (n : Nat) (name : String) : fs.found h n name =
    (fs.chain n).findSome? fun m => ((fs.get m).owner h name).map (m, ·) :=
  found_within h name (n + 1) n fs fs (.refl h fs)

end Frames

/-! ## Uses of a frame -/

namespace Object

variable {o : Object} {name n : String}

/-- The object after an assignment to an own property, or to a new one. -/
def assigned (o : Object) (name : String) (v : Value) : Object :=
  match Slots.find? name o.slots with
  | some p => if p.readOnly then o else o.define name { p with value := v }
  | none => Heap.extend o name v

lemma hasOwn_congr {o' : Object} (hprimitive : o'.primitive = o.primitive)
    (hslots : Slots.find? name o'.slots = Slots.find? name o.slots) :
    o'.hasOwn name = o.hasOwn name := by
  rw [hasOwn, own?_congr hprimitive hslots, hasOwn]

lemma hasOwn_of_find? {p : Property} (h : Slots.find? name o.slots = some p) :
    o.hasOwn name = true := by
  rw [hasOwn, own?_of_find? h]
  rfl

lemma hasOwn_define_ne (h : n ≠ name) (p : Property) :
    (o.define name p).hasOwn n = o.hasOwn n :=
  hasOwn_congr (sameShell_define ..).primitive (find?_define_ne h p)

/-- An assignment adds no other name. -/
lemma hasOwn_assigned_ne (h : n ≠ name) (v : Value) :
    (o.assigned name v).hasOwn n = o.hasOwn n := by
  unfold assigned
  split
  · split_ifs
    · rfl
    · exact hasOwn_define_ne h _
  · have hreceives : o.Receives (Heap.extend o name v) name v := receives_extend v
    obtain hsame | ⟨rfl, -, _, q, -, -, hbefore, hafter⟩ := hreceives.others n h
    · exact hasOwn_congr hreceives.shell.primitive hsame
    · rw [hasOwn_of_find? hbefore, hasOwn_of_find? hafter]

/-- Deleting adds no name. -/
lemma hasOwn_of_delete (h : (o.delete name).2.hasOwn n = true) : o.hasOwn n = true := by
  cases hfind : Slots.find? n (o.delete name).2.slots with
  | some p => exact hasOwn_of_find? (find?_of_delete hfind)
  | none =>
    cases hbefore : Slots.find? n o.slots with
    | some p => exact hasOwn_of_find? hbefore
    | none => rwa [hasOwn_congr (sameShell_delete o name).primitive (hfind.trans hbefore.symm)] at h

lemma sameShell_assigned (o : Object) (name : String) (v : Value) :
    o.SameShell (o.assigned name v) := by
  unfold assigned
  split
  · split_ifs
    · exact .refl o
    · exact sameShell_define ..
  · exact (receives_extend v).shell

end Object

/-- The frames and the objects. -/
structure Scopes where
  frames : Frames
  heap : Heap

/-- A use of a frame. -/
inductive FrameUse where
  /-- A declaration at a program counter. -/
  | define (name : String) (p : Property) (pc : Label)
  /-- A name is looked up in the frame. -/
  | own (name : String)
  /-- A name is looked up along the scope chain of some frame. -/
  | lookup (start : Nat) (name : String)
  /-- An assignment to a name in one of the stores. -/
  | write (name : String) (side : Side) (v : Value)
  /-- A name is deleted from one of the stores. -/
  | delete (name : String) (side : Side)

namespace FrameUse

/-- The use only looks something up. -/
def isLookup : FrameUse → Bool
  | .own _ | .lookup _ _ => true
  | _ => false

/-- The objects after a use of a frame. -/
def change (f : Frame) (h : Heap) : FrameUse → Heap
  | .define name p pc => (f.define h name p pc).2.2
  | .write name side v => h.update (f.store side).id (·.assigned name v)
  | .delete name side => h.update (f.store side).id fun o => (o.delete name).2
  | .own _ | .lookup _ _ => h

/-- The frames and the objects after a use of frame `n`. -/
def step (n : Nat) (s : Scopes) (u : FrameUse) : Scopes where
  frames := match u with
    | .define name p pc =>
      s.frames.setIfInBounds n ((s.frames.get n).define s.heap name p pc).2.1
    | .own name => s.frames.setIfInBounds n ((s.frames.get n).own s.heap name).2
    | .lookup m name => (s.frames.lookup s.heap m name).2
    | .write .. | .delete .. => s.frames
  heap := u.change (s.frames.get n) s.heap

/-- A declaration of the name finds it in no store but its own, and an assignment to the name finds
it in the store. -/
def Keeps (f : Frame) (name : String) (h : Heap) : FrameUse → Prop
  | .define m _ pc => m = name → ∀ side, side ≠ Frame.sideAt pc → f.holds h side name = false
  | .write m side _ => m = name → f.holds h side name = true
  | _ => True

/-- All uses keep the name in one place. -/
def Steady (f : Frame) (name : String) : List FrameUse → Heap → Prop
  | [], _ => True
  | u :: us, h => u.Keeps f name h ∧ Steady f name us (u.change f h)

end FrameUse

/-- The frames and the objects after uses of frame `n`. -/
def Scopes.after (s : Scopes) (n : Nat) (us : List FrameUse) : Scopes :=
  us.foldl (FrameUse.step n) s

/-- The side found for a name in frame `n`. -/
def Scopes.owner (s : Scopes) (n : Nat) (name : String) : Option Side :=
  (s.frames.get n).owner s.heap name

/-- The frame and the side found for a name from frame `n` on. -/
def Scopes.found (s : Scopes) (n : Nat) (name : String) : Option (Nat × Side) :=
  s.frames.found s.heap n name

/-- A store of frame `n` has the name. -/
def Scopes.holds (s : Scopes) (n : Nat) (side : Side) (name : String) : Bool :=
  (s.frames.get n).holds s.heap side name

/-- The frames around frame `n` have other stores. -/
def Scopes.Apart (s : Scopes) (n : Nat) : Prop := ∀ m < n, ∀ side other,
  ((s.frames.get n).store side).id ∉ s.heap.chain ((s.frames.get m).store other).id

/-- The frame answers from its index only, which is empty, and has two stores of its own, which are
empty too. The frames around it have other stores. -/
structure Scopes.Fresh (s : Scopes) (n : Nat) : Prop where
  static : (s.frames.get n).dynamic = false
  index : (s.frames.get n).index = []
  vacant : ∀ side name, s.holds n side name = false
  apart : (s.frames.get n).low.id ≠ (s.frames.get n).high.id
  outer : s.Apart n

/-! ## What a use changes -/

namespace FrameUse

variable {f g : Frame} {h : Heap} {name : String} {u : FrameUse}

/-- Only the stores of the frame change. -/
lemma get_change (u : FrameUse) (f : Frame) (h : Heap) {j : Nat}
    (hj : ∀ side, j ≠ (f.store side).id) : (u.change f h).get j = h.get j := by
  cases u with
  | define | write | delete => exact Heap.get_update_ne (hj _) _
  | own | lookup => rfl

lemma proto_change (u : FrameUse) (f : Frame) (h : Heap) (j : Nat) :
    ((u.change f h).get j).proto = (h.get j).proto := by
  have hupdate : ∀ id (g : Object → Object), (h.get id).SameShell (g (h.get id)) →
      ((h.update id g).get j).proto = (h.get j).proto := by
    intro id g hg
    rw [Heap.get_update]
    split_ifs with hid
    · rw [hid.1]
      exact hg.proto
    · rfl
  cases u with
  | define => exact hupdate _ _ (Object.sameShell_define ..)
  | write => exact hupdate _ _ (Object.sameShell_assigned ..)
  | delete => exact hupdate _ _ (Object.sameShell_delete ..)
  | own | lookup => rfl

lemma change_congr (hlinks : f.SameLinks g) (u : FrameUse) (h : Heap) :
    u.change g h = u.change f h := by
  cases u <;> simp only [change, Frame.define, hlinks.store]

lemma holds_congr (hlinks : f.SameLinks g) (side : Side) :
    g.holds h side name = f.holds h side name := by
  rw [Frame.holds, hlinks.store, Frame.holds]

lemma keeps_congr (hlinks : f.SameLinks g) : u.Keeps g name h ↔ u.Keeps f name h := by
  cases u <;> simp only [Keeps, holds_congr hlinks]

lemma steady_congr (hlinks : f.SameLinks g) (us : List FrameUse) (h : Heap) :
    Steady g name us h ↔ Steady f name us h := by
  induction us generalizing h with
  | nil => exact Iff.rfl
  | cons u us ih => rw [Steady, Steady, keeps_congr hlinks, change_congr hlinks, ih]

/-- A change that does not add the name to a store does not add it anywhere. -/
lemma holds_of_update {id : Nat} {g : Object → Object} {side : Side}
    (hg : (g (h.get id)).hasOwn name = true → (h.get id).hasOwn name = true)
    (hholds : f.holds (h.update id g) side name = true) : f.holds h side name = true := by
  unfold Frame.holds at hholds ⊢
  rw [Heap.get_update] at hholds
  split_ifs at hholds with hid
  · rw [hid.1]
    exact hg hholds
  · exact hholds

/-- A store has the name only if it had it before, or the name has been declared there. -/
lemma holds_of_change (hapart : f.low.id ≠ f.high.id) {side : Side}
    (hkeeps : u.Keeps f name h) (hholds : f.holds (u.change f h) side name = true) :
    f.holds h side name = true ∨ ∃ p pc, u = .define name p pc ∧ side = Frame.sideAt pc := by
  cases u with
  | own | lookup => exact .inl hholds
  | delete => exact .inl (holds_of_update Object.hasOwn_of_delete hholds)
  | write m other v =>
    refine .inl (holds_of_update (fun hafter => ?_) hholds)
    by_cases hm : m = name
    · exact hkeeps hm
    · rwa [Object.hasOwn_assigned_ne (Ne.symm hm)] at hafter
  | define m p pc =>
    by_cases hm : m = name
    · subst hm
      by_cases hside : side = Frame.sideAt pc
      · exact .inr ⟨p, pc, rfl, hside⟩
      · have hid : (f.store side).id ≠ (f.store (Frame.sideAt pc)).id := by
          cases side <;> cases hpc : Frame.sideAt pc
          all_goals first
            | exact absurd hpc.symm hside
            | exact hapart
            | exact hapart.symm
        refine .inl ?_
        unfold Frame.holds change Frame.define at hholds
        rwa [Heap.get_update_ne hid] at hholds
    · refine .inl (holds_of_update (fun hafter => ?_) hholds)
      rwa [Object.hasOwn_define_ne (Ne.symm hm)] at hafter

/-! ## One use -/

variable {s : Scopes} {n : Nat}

/-- Looking up names drops stale entries, and nothing else. -/
lemma pruned_step (hu : u.isLookup = true) : s.frames.Pruned s.heap (u.step n s).frames := by
  cases u with
  | own x => exact .own s.frames s.heap n x
  | lookup m x => exact .lookupWithin s.heap x (m + 1) m s.frames
  | define | write | delete => cases hu

lemma links_step (n : Nat) (s : Scopes) (u : FrameUse) (m : Nat) :
    (s.frames.get m).SameLinks ((u.step n s).frames.get m) := by
  cases u with
  | define x p pc =>
    dsimp only [step]
    rw [Frames.get_set]
    split_ifs with hm
    · rw [hm.1]
      exact Frame.links_bind ..
    · exact .refl _
  | own x => exact (pruned_step (u := .own x) rfl m).links
  | lookup k x => exact (pruned_step (u := .lookup k x) rfl m).links
  | write | delete => exact .refl _

/-- The stores that have the name are those that the frame finds it in. -/
def Indexed (f : Frame) (h : Heap) (name : String) : Prop :=
  ∀ side, f.holds h side name = true → f.entry h name = some side

/-- One use keeps the index right. -/
lemma indexed_step (hn : n < s.frames.size)
    (hapart : (s.frames.get n).low.id ≠ (s.frames.get n).high.id)
    (hkeeps : u.Keeps (s.frames.get n) name s.heap) (hi : Indexed (s.frames.get n) s.heap name) :
    Indexed ((u.step n s).frames.get n) (u.step n s).heap name := by
  have hlinks := links_step n s u n
  intro side hafter
  rw [Frame.entry_eq_some]
  refine ⟨?_, hafter⟩
  rw [holds_congr hlinks] at hafter
  obtain hbefore | ⟨p, pc, rfl, rfl⟩ := holds_of_change hapart hkeeps hafter
  · have hentry := (Frame.entry_eq_some.1 (hi side hbefore)).1
    cases u with
    | write | delete => exact hentry
    | own x =>
      have hpruned := pruned_step (n := n) (s := s) (u := .own x) rfl n
      exact (Frame.entry_eq_some.1 ((hpruned.entry name).trans (hi side hbefore))).1
    | lookup k x =>
      have hpruned := pruned_step (n := n) (s := s) (u := .lookup k x) rfl n
      exact (Frame.entry_eq_some.1 ((hpruned.entry name).trans (hi side hbefore))).1
    | define x p pc =>
      dsimp only [step]
      rw [Frames.get_set, if_pos ⟨rfl, hn⟩]
      refine (Frame.lookup_bind ..).trans ?_
      split_ifs with hx
      · -- the name is declared again, in the store that has it
        by_contra hside
        have hne : side ≠ Frame.sideAt pc := fun heq => hside (congrArg some heq.symm)
        rw [hkeeps hx.symm side hne] at hbefore
        cases hbefore
      · exact hentry
  · dsimp only [step]
    rw [Frames.get_set, if_pos ⟨rfl, hn⟩]
    exact (Frame.lookup_bind ..).trans (if_pos rfl)

end FrameUse

/-! ## Other frames -/

namespace Heap

variable {h h' : Heap}

lemma chainWithin_congr (hproto : ∀ j, (h'.get j).proto = (h.get j).proto) (fuel id : Nat) :
    h'.chainWithin fuel id = h.chainWithin fuel id := by
  induction fuel generalizing id with
  | zero => rfl
  | succ fuel ih => simp only [chainWithin, hproto, ih]

/-- A lookup along the prototypes sees the objects of the chain. -/
lemma findWithin_of_chain {name : String} {fuel id : Nat}
    (hsame : ∀ j ∈ h.chainWithin fuel id, h'.get j = h.get j) :
    h'.findWithin name fuel id = h.findWithin name fuel id := by
  induction fuel generalizing id with
  | zero => rfl
  | succ fuel ih =>
    have hid : id ∈ h.chainWithin (fuel + 1) id := by
      unfold chainWithin
      split
      · split_ifs <;> exact List.mem_cons_self
      · exact List.mem_cons_self
    unfold findWithin
    rw [hsame id hid]
    dsimp only
    cases (h.get id).own? name with
    | some p => rfl
    | none =>
      unfold chainWithin at hsame
      cases hq : (h.get id).proto with
      | none => rfl
      | some q =>
        simp only [hq] at hsame ⊢
        split_ifs at hsame ⊢
        · exact ih fun j hj => hsame j (List.mem_cons_of_mem _ hj)
        · rfl

lemma self_mem_chain (h : Heap) (id : Nat) : id ∈ h.chain id := by
  unfold chain chainWithin
  split
  · split_ifs <;> exact List.mem_cons_self
  · exact List.mem_cons_self

end Heap

/-- What a frame finds depends on its stores and their prototypes. -/
lemma Frame.owner_congr {f : Frame} {h h' : Heap} (name : String)
    (hsame : ∀ side, ∀ j ∈ h.chain (f.store side).id, h'.get j = h.get j) :
    f.owner h' name = f.owner h name := by
  have hholds : ∀ side, f.holds h' side name = f.holds h side name := fun side => by
    rw [holds, hsame side _ (h.self_mem_chain _), holds]
  have hhas : ∀ side, h'.has (f.store side).id name = h.has (f.store side).id name := fun side => by
    rw [Heap.has, Heap.find?, Heap.findWithin_of_chain (hsame side), Heap.has, Heap.find?]
  have hhigh : h'.has f.high.id name = h.has f.high.id name := hhas .high
  have hlow : h'.has f.low.id name = h.has f.low.id name := hhas .low
  simp only [owner_eq, entry, visible, hholds, hhigh, hlow]

namespace FrameUse

variable {s : Scopes} {n : Nat} {u : FrameUse}

lemma apart_step (ha : s.Apart n) : (u.step n s).Apart n := by
  intro m hm side other
  have hchain : ∀ id, (u.step n s).heap.chain id = s.heap.chain id := fun id =>
    Heap.chainWithin_congr (u.proto_change (s.frames.get n) s.heap) _ _
  rw [(links_step n s u n).store, (links_step n s u m).store, hchain]
  exact ha m hm side other

/-- A use of a frame does not change what the frames around it find. -/
lemma owner_step (ha : s.Apart n) {m : Nat} (hm : m < n) (name : String) :
    (u.step n s).owner m name = s.owner m name := by
  by_cases hu : u.isLookup = true
  · have hpruned := pruned_step (n := n) (s := s) hu m
    have hheap : (u.step n s).heap = s.heap := by
      cases u <;> first | rfl | cases hu
    rw [Scopes.owner, hheap]
    exact hpruned.owner_eq name
  · have hframe : (u.step n s).frames.get m = s.frames.get m := by
      cases u with
      | define x p pc =>
        dsimp only [step]
        rw [Frames.get_set, if_neg fun h => Nat.ne_of_lt hm h.1]
      | write | delete => rfl
      | own | lookup => exact absurd rfl hu
    rw [Scopes.owner, hframe]
    refine Frame.owner_congr name fun other j hj => get_change u _ _ fun side hside => ?_
    rw [hside] at hj
    exact ha m hm side other hj

end FrameUse

/-! ## Many uses -/

namespace Scopes

variable {s : Scopes} {n : Nat} {us us' : List FrameUse}

lemma links_after (s : Scopes) (n : Nat) (us : List FrameUse) (m : Nat) :
    (s.frames.get m).SameLinks ((s.after n us).frames.get m) := by
  induction us generalizing s with
  | nil => exact .refl _
  | cons u us ih => exact (FrameUse.links_step n s u m).trans (ih (u.step n s))

lemma size_after (s : Scopes) (n : Nat) (us : List FrameUse) :
    (s.after n us).frames.size = s.frames.size := by
  induction us generalizing s with
  | nil => rfl
  | cons u us ih =>
    refine (ih (u.step n s)).trans ?_
    cases u with
    | define | own => exact Array.size_setIfInBounds
    | lookup => exact Frames.size_lookupWithin ..
    | write | delete => rfl

/-- The objects do not depend on what is looked up. -/
lemma heap_after (s : Scopes) (n : Nat) (us : List FrameUse) : (s.after n us).heap =
    (us.filter (!·.isLookup)).foldl (FrameUse.change (s.frames.get n)) s.heap := by
  induction us generalizing s with
  | nil => rfl
  | cons u us ih =>
    have hchange : FrameUse.change ((u.step n s).frames.get n) = FrameUse.change (s.frames.get n) :=
      funext fun h => funext fun v => FrameUse.change_congr (FrameUse.links_step n s u n) v h
    refine (ih (u.step n s)).trans ?_
    rw [hchange]
    cases u <;> rfl

/-- Nor does it matter to whether a name stays in one place. -/
lemma steady_filter {f : Frame} {name : String} (us : List FrameUse) (h : Heap) :
    FrameUse.Steady f name us h ↔ FrameUse.Steady f name (us.filter (!·.isLookup)) h := by
  induction us generalizing h with
  | nil => exact Iff.rfl
  | cons u us ih =>
    cases u with
    | define | write | delete => exact and_congr_right' (ih _)
    | own | lookup => exact (and_iff_right trivial).trans (ih _)

lemma indexed_after {name : String} (hn : n < s.frames.size)
    (hapart : (s.frames.get n).low.id ≠ (s.frames.get n).high.id)
    (hsteady : FrameUse.Steady (s.frames.get n) name us s.heap)
    (hi : FrameUse.Indexed (s.frames.get n) s.heap name) :
    FrameUse.Indexed ((s.after n us).frames.get n) (s.after n us).heap name := by
  induction us generalizing s with
  | nil => exact hi
  | cons u us ih =>
    have hlinks := FrameUse.links_step n s u n
    refine ih (s := u.step n s) ?_ ?_ ?_ (FrameUse.indexed_step hn hapart hsteady.1 hi)
    · exact (size_after s n [u]).symm ▸ hn
    · rwa [hlinks.low, hlinks.high]
    · exact (FrameUse.steady_congr hlinks us _).2 hsteady.2

/-- The frames around a frame find what they have found before. -/
lemma owner_after (ha : s.Apart n) {m : Nat} (hm : m < n) (us : List FrameUse) (name : String) :
    (s.after n us).owner m name = s.owner m name := by
  induction us generalizing s with
  | nil => rfl
  | cons u us ih => exact (ih (FrameUse.apart_step ha)).trans (FrameUse.owner_step ha hm name)

lemma findSome?_congr {A B : Type} {f g : A → Option B} {xs : List A} (h : ∀ x ∈ xs, f x = g x) :
    xs.findSome? f = xs.findSome? g := by
  induction xs with
  | nil => rfl
  | cons x xs ih =>
    rw [List.findSome?_cons, List.findSome?_cons, h x List.mem_cons_self,
      ih fun y hy => h y (List.mem_cons_of_mem x hy)]

/-- What is found from a frame on is found in the frame, or was found around it before. -/
lemma found_after (ha : s.Apart n) (name : String) : ∃ outer, ∀ us, (s.after n us).found n name =
    (((s.after n us).owner n name).map (n, ·)).or outer := by
  obtain ⟨outer, hchain, hlt⟩ := s.frames.exists_chain_eq n
  refine ⟨outer.findSome? fun m => (s.owner m name).map (m, ·), fun us => ?_⟩
  have hsame : (s.after n us).frames.chain n = n :: outer :=
    (Frames.chainWithin_congr (s.links_after n us) _ _).trans hchain
  have houter : (outer.findSome? fun m => ((s.after n us).owner m name).map (m, ·)) =
      outer.findSome? fun m => (s.owner m name).map (m, ·) :=
    findSome?_congr fun m hm => by rw [owner_after ha (hlt m hm)]
  rw [found, Frames.found_eq, hsame, List.findSome?_cons, ← owner, ← houter]
  cases (s.after n us).owner n name <;> rfl

lemma Fresh.lt_size (h : s.Fresh n) : n < s.frames.size := by
  by_contra hn
  refine h.apart ?_
  rw [Frames.get_of_size_le (Nat.le_of_not_lt hn)]
  rfl

/-- A frame finds a name in the store that has it, if the name stays in one place. -/
lemma owner_after_iff (h : s.Fresh n) {name : String}
    (hsteady : FrameUse.Steady (s.frames.get n) name us s.heap) (side : Side) :
    (s.after n us).owner n name = some side ↔ (s.after n us).holds n side name = true := by
  have hstatic : ((s.after n us).frames.get n).dynamic = false :=
    (s.links_after n us n).dynamic.trans h.static
  have hempty : FrameUse.Indexed (s.frames.get n) s.heap name := fun other hholds => by
    rw [← Scopes.holds, h.vacant] at hholds
    cases hholds
  have hindexed := indexed_after h.lt_size h.apart hsteady hempty
  refine ⟨Frame.holds_of_owner hstatic, fun hholds => ?_⟩
  rw [owner, Frame.owner_of_static hstatic]
  exact hindexed side hholds

end Scopes

/-! ## The result -/

/-- **Names are found where they are stored**, for any uses of a fresh frame. A name that the frame
finds is in the store that it finds. A name that is looked up from any frame on is what the first
frame of the scope chain finds that finds something. If the name has been kept in one place, the
frame finds it exactly in the store that has it, and what is found in the frame, and from the frame
on, does not depend on what has been looked up before. -/
theorem names_found_where_stored {s : Scopes} {n : Nat} (hfresh : s.Fresh n)
    (us : List FrameUse) (name : String) :
    (∀ side, (s.after n us).owner n name = some side → (s.after n us).holds n side name = true) ∧
      (∀ m, (s.after n us).found m name = ((s.after n us).frames.chain m).findSome? fun k =>
        ((s.after n us).owner k name).map (k, ·)) ∧
      (FrameUse.Steady (s.frames.get n) name us s.heap →
        (∀ side, (s.after n us).owner n name = some side ↔
          (s.after n us).holds n side name = true) ∧
        ∀ us', us'.filter (!·.isLookup) = us.filter (!·.isLookup) →
          (s.after n us').owner n name = (s.after n us).owner n name ∧
            (s.after n us').found n name = (s.after n us).found n name) := by
  refine ⟨fun side => ?_, fun m => Frames.found_eq .., fun hsteady => ?_⟩
  · exact Frame.holds_of_owner ((s.links_after n us n).dynamic.trans hfresh.static)
  · have hiff := Scopes.owner_after_iff hfresh hsteady
    refine ⟨hiff, fun us' hus' => ?_⟩
    have hsteady' : FrameUse.Steady (s.frames.get n) name us' s.heap := by
      rw [Scopes.steady_filter, hus']
      exact (Scopes.steady_filter ..).1 hsteady
    have hheap : (s.after n us').heap = (s.after n us).heap := by
      rw [Scopes.heap_after, hus', Scopes.heap_after]
    -- both frames find the name in the same stores, which are the stores that have it
    have hholds : ∀ side, (s.after n us').holds n side name = (s.after n us).holds n side name := by
      intro side
      have hlinks := (s.links_after n us n).symm.trans (s.links_after n us' n)
      rw [Scopes.holds, hheap]
      exact FrameUse.holds_congr hlinks side
    have howner : (s.after n us').owner n name = (s.after n us).owner n name := by
      refine Option.ext fun side => ?_
      exact (Scopes.owner_after_iff hfresh hsteady' side).trans
        ((by rw [hholds] : _ ↔ _).trans (hiff side).symm)
    obtain ⟨outer, hfound⟩ := Scopes.found_after hfresh.outer name
    exact ⟨howner, by rw [hfound us', hfound us, howner]⟩

/-- A frame in another one. All stores are empty. -/
def nestedFrames : Scopes where
  frames := #[⟨⟨0, .plain⟩, ⟨1, .plain⟩, [], none, true⟩,
    ⟨⟨2, .plain⟩, ⟨3, .plain⟩, [], some 0, false⟩]
  heap := #[.blank "Object" none ⟨1, "L"⟩, .blank "Object" none ⟨2, "H"⟩,
    .blank "Activation" none ⟨1, "L"⟩, .blank "Activation" none ⟨2, "H"⟩]

lemma fresh_nestedFrames : nestedFrames.Fresh 1 := by
  refine ⟨rfl, rfl, fun side _ => by cases side <;> rfl, by decide, fun m hm side other => ?_⟩
  obtain rfl : m = 0 := Nat.lt_one_iff.1 hm
  cases side <;> cases other <;> decide

/-- A name is declared, assigned to, looked up, deleted and declared in the other store. -/
def steadyUses : List FrameUse :=
  [.define "x" (.data .undefined) .none, .write "x" .low (Raw.ofNat 1), .lookup 1 "x", .own "x",
    .delete "x" .low, .own "x", .define "x" (.data .undefined) ⟨2, "H"⟩]

/-- The name is found in the high store, whatever has been looked up before. -/
theorem steady_name_found :
    (nestedFrames.after 1 steadyUses).owner 1 "x" = some .high ∧
      (nestedFrames.after 1 (steadyUses.filter (!·.isLookup))).owner 1 "x" =
        (nestedFrames.after 1 steadyUses).owner 1 "x" := by
  have hsteady : FrameUse.Steady (nestedFrames.frames.get 1) "x" steadyUses nestedFrames.heap := by
    refine ⟨fun _ side hside => ?_, fun _ => rfl, trivial, trivial, trivial, trivial,
      fun _ side hside => ?_, trivial⟩
    · cases side <;> rfl
    · cases side
      · rfl
      · exact absurd rfl hside
  obtain ⟨-, -, h⟩ := names_found_where_stored fresh_nestedFrames steadyUses "x"
  obtain ⟨hiff, hlookups⟩ := h hsteady
  exact ⟨(hiff .high).2 rfl, (hlookups _ (by simp)).1⟩

/-- A name is declared in the low store and then in the high one, where it is found. -/
def redeclaringUses : List FrameUse :=
  [.define "x" (.data .undefined) .none, .define "x" (.data .undefined) ⟨2, "H"⟩, .own "x"]

/-- A name is declared, found, deleted and assigned to again. Before the assignment it may be looked
up. -/
def recreatingUses (lookups : List FrameUse) : List FrameUse :=
  [.define "x" (.data .undefined) .none, .own "x", .delete "x" .low] ++ lookups ++
    [.write "x" .low .undefined]

/-- A frame need not find a name that one of its stores has. When a name that is declared in both
stores is deleted from the one where it has been found, the other one is not looked at. When a name
comes back that has been deleted, it is found if and only if it has not been looked up in
between. -/
theorem stored_name_not_found :
    nestedFrames.Fresh 1 ∧
      ((nestedFrames.after 1 redeclaringUses).owner 1 "x" = some .high ∧
        (nestedFrames.after 1 (redeclaringUses ++ [.delete "x" .high])).owner 1 "x" = none ∧
        (nestedFrames.after 1 (redeclaringUses ++ [.delete "x" .high])).holds 1 .low "x" = true) ∧
      (nestedFrames.after 1 ((recreatingUses []).take 1)).owner 1 "x" = some .low ∧
        (nestedFrames.after 1 (recreatingUses [])).owner 1 "x" = some .low ∧
        (nestedFrames.after 1 (recreatingUses [.own "x"])).owner 1 "x" = none ∧
        (nestedFrames.after 1 (recreatingUses [.own "x"])).holds 1 .low "x" = true :=
  ⟨fresh_nestedFrames, ⟨rfl, rfl, rfl⟩, rfl, rfl, rfl, rfl⟩

end Clearance
