/-
# Frames stay

Frames are opened, and they bind names and drop stale entries; their stores and the enclosing frame
never change. So the frames at one point of a run are followed by all frames that come after them.
-/
import Clearance.Frame
import Mathlib.Tactic.Common

namespace Clearance

/-- Frames that differ in what they bind at most. -/
structure Frame.SameLinks (f f' : Frame) : Prop where
  low : f'.low = f.low
  high : f'.high = f.high
  parent : f'.parent = f.parent
  dynamic : f'.dynamic = f.dynamic

namespace Frame.SameLinks

variable {f f' f'' : Frame}

lemma refl (f : Frame) : f.SameLinks f := ⟨rfl, rfl, rfl, rfl⟩

lemma symm (h : f.SameLinks f') : f'.SameLinks f :=
  ⟨h.low.symm, h.high.symm, h.parent.symm, h.dynamic.symm⟩

lemma trans (h : f.SameLinks f') (h' : f'.SameLinks f'') : f.SameLinks f'' :=
  ⟨h'.low.trans h.low, h'.high.trans h.high, h'.parent.trans h.parent, h'.dynamic.trans h.dynamic⟩

lemma store (h : f.SameLinks f') (side : Side) : f'.store side = f.store side := by
  cases side
  · exact h.low
  · exact h.high

end Frame.SameLinks

namespace Frame

lemma links_bind (f : Frame) (name : String) (side : Side) : f.SameLinks (f.bind name side) :=
  ⟨rfl, rfl, rfl, rfl⟩

lemma links_own (f : Frame) (h : Heap) (name : String) : f.SameLinks (f.own h name).2 := by
  unfold own
  dsimp only
  split_ifs <;> exact ⟨rfl, rfl, rfl, rfl⟩

end Frame

namespace Frames

variable {fs fs' fs'' : Frames} {n m : Nat} {f : Frame}

lemma get_of_size_le (hn : fs.size ≤ n) : fs.get n = default := by
  unfold Frames.get Array.getD
  rw [dif_neg (by omega)]

lemma get_set (m : Nat) :
    Frames.get (fs.setIfInBounds n f) m = if m = n ∧ n < fs.size then f else fs.get m := by
  unfold Frames.get Array.getD
  by_cases hm : m < fs.size
  · simp only [Array.size_setIfInBounds, hm, dif_pos]
    by_cases hn : m = n
    · subst hn
      simp [hm]
    · have hne : n ≠ m := Ne.symm hn
      simp [hn, Array.getElem_setIfInBounds hm, hne]
  · have hn : ¬(m = n ∧ n < fs.size) := by
      rintro ⟨rfl, hlt⟩
      exact hm hlt
    simp [hm, hn]

lemma get_push_lt (hm : m < fs.size) : Frames.get (fs.push f) m = fs.get m := by
  unfold Frames.get Array.getD
  simp [hm, Nat.lt_succ_of_lt hm, Array.getElem_push_lt hm]

lemma get_push_size : Frames.get (fs.push f) fs.size = f := by
  simp [Frames.get, Array.getD]

/-- A change of one frame. -/
lemma modify_eq_set {g : Frame → Frame} : fs.modify n g = fs.setIfInBounds n (g (fs.get n)) := by
  apply Array.ext
  · simp
  · intro i hi hi'
    rw [Array.getElem_modify, Array.getElem_setIfInBounds (by simpa using hi)]
    split_ifs with hn
    · subst hn
      have hlt : n < fs.size := by simpa using hi
      simp [Frames.get, Array.getD, hlt]
    · rfl

/-! ## Lookups -/

lemma own_index {h : Heap} {name : String}
    (hlength : (f.own h name).2.index.length = f.index.length) : (f.own h name).2 = f := by
  have hunbind : (f.unbind name).index.length = f.index.length → f.unbind name = f := by
    intro heq
    have hfilter := List.filter_eq_self.2 (List.length_filter_eq_length_iff.1 heq)
    unfold Frame.unbind
    rw [hfilter]
  unfold Frame.own at hlength ⊢
  dsimp only at hlength ⊢
  split_ifs at hlength ⊢
  · rfl
  all_goals exact hunbind hlength

/-- A lookup puts the frame back without a stale entry. -/
lemma lookupWithin_succ (h : Heap) (name : String) (fuel n : Nat) (fs : Frames) :
    fs.lookupWithin h name (fuel + 1) n =
      match (fs.get n).own h name with
      | (some side, f) => (some (n, side), fs.setIfInBounds n f)
      | (none, f) =>
        match f.parent with
        | some p => if p < n then Frames.lookupWithin h name fuel p (fs.setIfInBounds n f)
          else (none, fs.setIfInBounds n f)
        | none => (none, fs.setIfInBounds n f) := by
  have hset : (if ((fs.get n).own h name).2.index.length = (fs.get n).index.length then fs
      else fs.setIfInBounds n ((fs.get n).own h name).2) =
      fs.setIfInBounds n ((fs.get n).own h name).2 := by
    split_ifs with hlength
    · rw [own_index hlength]
      apply Array.ext
      · simp
      · intro i hi hi'
        by_cases hn : n = i
        · subst hn
          simp [Frames.get, Array.getD, hi]
        · rw [Array.getElem_setIfInBounds hi, if_neg hn]
    · rfl
  conv_lhs => unfold Frames.lookupWithin
  dsimp only
  rw [hset]
  cases (fs.get n).own h name with
  | mk found f => cases found <;> rfl

/-- A lookup opens no frame. -/
lemma size_lookupWithin (h : Heap) (name : String) (fuel n : Nat) (fs : Frames) :
    (fs.lookupWithin h name fuel n).2.size = fs.size := by
  induction fuel generalizing n fs with
  | zero => rfl
  | succ fuel ih =>
    rw [lookupWithin_succ]
    generalize (fs.get n).own h name = found
    obtain ⟨side?, f⟩ := found
    have hset : ∀ m, (Frames.lookupWithin h name fuel m (fs.setIfInBounds n f)).2.size = fs.size :=
      fun m => by rw [ih, Array.size_setIfInBounds]
    cases side? with
    | some side => exact Array.size_setIfInBounds
    | none =>
      dsimp only
      cases f.parent with
      | none => exact Array.size_setIfInBounds
      | some p =>
        dsimp only
        split_ifs
        · exact hset p
        · exact Array.size_setIfInBounds

/-- Frames that come after others. -/
structure Follow (fs fs' : Frames) : Prop where
  size : fs.size ≤ fs'.size
  links : ∀ n < fs.size, (fs.get n).SameLinks (fs'.get n)

namespace Follow

lemma refl (fs : Frames) : fs.Follow fs := ⟨Nat.le_refl _, fun _ _ => .refl _⟩

lemma trans (h : fs.Follow fs') (h' : fs'.Follow fs'') : fs.Follow fs'' :=
  ⟨Nat.le_trans h.size h'.size, fun n hn =>
    (h.links n hn).trans (h'.links n (Nat.lt_of_lt_of_le hn h.size))⟩

/-- A frame is replaced by one that binds other names at most. -/
lemma set (hf : (fs.get n).SameLinks f) : fs.Follow (fs.setIfInBounds n f) := by
  refine ⟨by simp, fun m _ => ?_⟩
  rw [get_set]
  split_ifs with hm
  · obtain ⟨rfl, -⟩ := hm
    exact hf
  · exact .refl _

lemma push : fs.Follow (fs.push f) := by
  refine ⟨by simp, fun m hm => ?_⟩
  rw [get_push_lt hm]
  exact .refl _

lemma modify {g : Frame → Frame} (hg : ∀ f : Frame, f.SameLinks (g f)) :
    fs.Follow (fs.modify n g) := by
  rw [modify_eq_set]
  exact .set (hg _)

/-- A lookup drops stale entries at most. -/
lemma lookupWithin (h : Heap) (name : String) (fuel n : Nat) :
    fs.Follow (fs.lookupWithin h name fuel n).2 := by
  induction fuel generalizing n fs with
  | zero => exact .refl _
  | succ fuel ih =>
    have hset : fs.Follow (fs.setIfInBounds n ((fs.get n).own h name).2) :=
      .set ((fs.get n).links_own h name)
    rw [lookupWithin_succ]
    generalize (fs.get n).own h name = found at *
    obtain ⟨side?, f⟩ := found
    dsimp only at hset ⊢
    split
    · rename_i heq
      cases heq
      exact hset
    · rename_i heq
      cases heq
      split
      · split_ifs
        · exact hset.trans (ih _)
        · exact hset
      · exact hset

end Follow
end Frames
end Clearance
