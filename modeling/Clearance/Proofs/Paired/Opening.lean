/-
# Where sessions start

A session in which nothing has happened is regular, whichever labels are to be met in it: its
objects hold primitive values and refer to one another, and its one store for bindings is empty.
-/
import Clearance.Proofs.Paired.Regular
import Clearance.Proofs.Stock

namespace Clearance

open Clearance.Action Script

/-! ## Grades -/

namespace Lattice

variable (l : Lattice)

/-- Every label of a lattice is below its top. -/
lemma leq_top_of_lookup {name : String} {k : Label} (h : l.lookup? name = some k) :
    k.leq l.top = true := by
  obtain ⟨i, hi, hrank⟩ := mem_labels_iff.1 (List.mem_of_find?_eq_some h)
  have hlt : i < l.names.length := (List.getElem?_eq_some_iff.1 hi).1
  have htop : l.top.rank = l.names.length := rfl
  rw [Label.leq_iff]
  unfold Label.height
  split_ifs <;> omega

end Lattice

/-- All labels up to the top. -/
def Grade.full (l : Lattice) : Grade l where
  mem k := k.leq l.top = true
  none := Label.none_leq _
  bottom := by
    rw [Label.leq_iff, l.height_bottom]
    exact Label.one_le_height _
  join h h' := by
    rw [Label.leq_iff, Label.height_join]
    exact Nat.max_le.2 ⟨Label.leq_iff.1 h, Label.leq_iff.1 h'⟩
  below h := h

/-- No label at all, or the least one. -/
def Lattice.Low (l : Lattice) (k : Label) : Prop := k = .none ∨ k = l.bottom

/-- No label, and the least one. -/
def Grade.lowest (l : Lattice) : Grade l where
  mem := l.Low
  none := .inl rfl
  bottom := .inr rfl
  join := by
    rintro _ _ (rfl | rfl) (rfl | rfl)
    · exact .inl rfl
    · exact .inr rfl
    · exact .inr rfl
    · exact .inr (if_pos (Nat.le_refl _))
  below := by
    rintro _ (rfl | rfl)
    · exact Label.none_leq _
    · rw [Label.leq_iff, l.height_bottom]
      exact Label.one_le_height _

lemma Grade.calm_lowest (l : Lattice) : (Grade.lowest l).Calm := by
  rintro _ (rfl | rfl)
  · rfl
  · exact l.height_bottom

section

variable {l : Lattice}

lemma Grade.names_full (name : String) : (Grade.full l).Names name :=
  fun _ h => l.leq_top_of_lookup h

lemma Grade.allows_full (node : Node Span) : (Grade.full l).Allows node :=
  fun _ name _ _ => names_full name

end

/-- Grades of labels, one for each lattice. In each either no label is above the bottom, or all
labels up to the top may occur. -/
structure Grading where
  grade : ∀ l, Grade l
  /-- Internal errors may occur. -/
  lax : Prop
  calm_or_full : ∀ l, (grade l).Calm ∨ ∀ k : Label, k.leq l.top = true → (grade l).mem k

/-- All labels may occur. -/
def Grading.full : Grading := ⟨Grade.full, True, fun _ => .inr fun _ h => h⟩

/-- All labels may occur, but no internal errors. -/
def Grading.strict : Grading := { Grading.full with lax := False }

/-- No label is above the bottom. -/
def Grading.lowest : Grading := ⟨Grade.lowest, True, fun l => .inl (Grade.calm_lowest l)⟩

/-! ## Sessions in which nothing has happened -/

namespace Library.Untouched

open Library

variable {s : State}

lemma not_activation (h : Untouched s) {id : Nat} (hid : Old id s.store.heap) :
    (s.store.heap.get id).cls ≠ "Activation" := (h.stock.object id hid.1 hid.2).ordinary.1

/-- Where the runs of the session start. -/
def origin (h : Untouched s) (g : Grading) : Origin where
  realm := s.control.realm
  grade := g.grade _
  lax := g.lax
  base := s.store
  landmarks id hid := ⟨(h.landmarks id hid).1, h.not_activation (h.landmarks id hid)⟩
  globalFrame := by rw [h.globalFrame, h.frames]; exact Nat.one_pos
  full := g.calm_or_full _

variable (h : Untouched s) {g : Grading}

/-- The run of a session that goes no further than its start. -/
def opening (g : Grading) : Setting := (h.origin g).upTo s.store (.refl _)

lemma store_iff {id : Nat} : (h.opening g).store id ↔ s.store.heap.size ≤ id ∨ id = 8 := by
  refine or_congr_right' fun hlt => ⟨fun hcls => ?_, ?_⟩
  · by_contra hne
    exact h.not_activation ⟨Nat.lt_of_not_le hlt, hne⟩ hcls
  · rintro rfl
    show (s.store.heap.get 8).cls = "Activation"
    rw [h.stock.store]
    rfl

lemma not_store {id : Nat} (hid : Old id s.store.heap) : ¬(h.opening g).store id := by
  rw [h.store_iff]
  rintro (hle | rfl)
  · exact absurd hid.1 (Nat.not_lt_of_le hle)
  · exact hid.2 rfl

/-! ### What a session starts with -/

variable (s) in
/-- Scripts may hold what the session starts with, the store for classified globals apart. -/
structure Begins (W : World) : Prop where
  realm : W.realm = s.control.realm
  object : ∀ id, Old id s.store.heap → ¬W.store id
  store : W.store 8
  fits : ∀ r, s.store.heap.Offers r → W.fits r
  frame : W.frame 0

section

variable {W : World}

lemma Begins.properties (hW : Begins s W) {cls name : String} {p : Property}
    (hp : p.Stock s.store.heap) :
    W.Properties cls name p p := by
  obtain ⟨r, hidden, readOnly, permanent, rfl, hr⟩ := hp
  have hvalue : W.Values (.plain r) (.plain r) := by
    rcases hr with hprimitive | ⟨q, rfl, hq⟩
    · exact .primitive hprimitive
    · exact .object ⟨rfl, hW.fits q hq⟩
  exact .of_values hvalue ..

include h

lemma objects (hW : Begins s W) {id : Nat} (hid : Old id s.store.heap) :
    W.Objects (s.store.heap.get id) (s.store.heap.get id) := by
  have hstock := h.stock.object id hid.1 hid.2
  have hpartition : W.Labels (s.store.heap.get id).partition (s.store.heap.get id).partition := by
    rcases hstock.partition with hk | hk <;> rw [hk]
    · exact .none
    · rw [← hW.realm]
      exact .bottom
  refine ⟨rfl, hstock.ordinary.1, rfl, fun q hq => ?_, hpartition, rfl, ?_, rfl, ?_, ?_⟩
  · obtain ⟨hlt, hne⟩ := hstock.proto q hq
    exact hW.object q ⟨Nat.lt_trans hlt hid.1, hne⟩
  · rw [hstock.primitive]
    rintro v ⟨⟩
  · rcases hstock.behaviour with hb | ⟨name, arity, fn, ctor, hb⟩ <;> rw [hb]
    · exact .none
    · exact .native ..
  · exact List.forall₂_same.2 fun slot hslot => ⟨rfl, hW.properties (hstock.slots slot hslot)⟩

lemma heaps (hW : Begins s W) : W.Heaps s.store.heap s.store.heap := by
  refine ⟨rfl, fun id hid => ?_⟩
  by_cases hlt : id < s.store.heap.size
  · refine h.objects hW ⟨hlt, ?_⟩
    rintro rfl
    exact hid hW.store
  · -- what is not there yet is blank
    rw [Heap.get_of_size_le (Nat.le_of_not_lt hlt)]
    exact .blank (by decide) (by rintro _ ⟨⟩) .none

lemma controls (hW : Begins s W) : W.Controls s.control s.control := by
  have hglobal : W.fits ⟨s.control.realm.global, .plain⟩ := by
    rw [h.global]
    exact hW.fits _ ⟨Nat.lt_of_lt_of_le (by decide) h.stock.nine, by decide, trivial⟩
  refine ⟨hW.realm.symm, ?_, rfl, ?_, ?_⟩
  · rw [h.scope]
    exact hW.frame
  · rw [h.pc, ← hW.realm]
    exact .bottom
  · rw [h.this]
    exact .object ⟨rfl, hglobal⟩

lemma result_values : W.Values s.store.result s.store.result := by
  rw [h.result]
  exact .undefined

end

lemma fits {r : Ref} (hr : s.store.heap.Offers r) : (h.opening g).world.fits r :=
  ⟨h.not_store ⟨hr.lt, hr.ordinary⟩, hr.suits⟩

lemma begins : Begins s (h.opening g).world where
  realm := rfl
  object _ hid := h.not_store hid
  store := h.store_iff.2 (.inr rfl)
  fits _ hr := h.fits hr
  frame := by
    show 0 < s.store.frames.size
    rw [h.frames]
    exact Nat.one_pos

include h in
/-- The one frame has the global object and the store for classified globals. -/
lemma frame_store {n : Nat} (hn : n < s.store.frames.size) (side : Side) :
    (s.store.frames.get n).store side = match side with
      | .low => ⟨7, .plain⟩
      | .high => ⟨8, .plain⟩ := by
  rw [h.frames] at hn ⊢
  obtain rfl : n = 0 := Nat.lt_one_iff.1 hn
  cases side <;> rfl

lemma kept : (h.opening g).Kept s.store s.store := by
  have hnine := h.stock.nine
  -- a store is the one for classified globals, or it is not there yet
  have hvacant : ∀ {P : Object → Prop},
      P (.blank "Activation" none s.control.realm.lattice.top) → P default →
      ∀ id, (h.opening g).store id → P (s.store.heap.get id) := by
    intro P hstore hnone id hid
    rcases h.store_iff.1 hid with hle | rfl
    · rw [Heap.get_of_size_le hle]
      exact hnone
    · rw [h.stock.store]
      exact hstore
  have hglobal : ¬(h.opening g).store 7 := h.not_store ⟨by omega, by decide⟩
  refine ⟨rfl, fun _ _ => rfl, fun _ _ => .rfl, ?_, fun id _ hlt => ⟨hlt, .refl _⟩, ?_, ?_, ?_,
    fun n hn => ⟨hn, .refl _⟩, fun n hn side => ?_, fun n hn side => ?_, fun n hn => ?_,
    fun n hn m hm side side' _ heq => ?_⟩
  · exact hvacant (P := Object.Bare) ⟨by simp [Object.blank], rfl, rfl, rfl⟩
      ⟨by decide, rfl, rfl, rfl⟩
  · exact hvacant (P := fun obj => ∀ slot ∈ obj.slots, (h.opening g).world.Slot slot.2 slot.2)
      (List.forall_mem_nil _) (List.forall_mem_nil _)
  · exact hvacant (P := fun obj => obj.slots ≠ [] → (h.origin g).grade.mem obj.partition)
      (fun h => absurd rfl h) fun h => absurd rfl h
  · exact hvacant (P := fun obj => obj.partition.leq (h.origin g).realm.lattice.top = true)
      (Label.leq_refl _) (Label.none_leq _)
  · rw [h.frame_store hn]
    cases side with
    | low => exact fun hid => ⟨hid, trivial⟩
    | high => exact fun hid => absurd (h.store_iff.2 (.inr rfl)) hid
  · rw [h.frame_store hn]
    cases side with
    | low => exact fun hid => absurd hid hglobal
    | high => exact fun _ => Nat.lt_of_lt_of_le (by decide) hnine
  · have hlow : (s.store.frames.get n).low = ⟨7, .plain⟩ := h.frame_store hn .low
    rw [hlow]
    exact fun hid => absurd hid hglobal
  · rw [h.frame_store hn, h.frame_store hm] at heq
    rw [h.frames] at hn hm
    refine ⟨(Nat.lt_one_iff.1 hm).trans (Nat.lt_one_iff.1 hn).symm, ?_⟩
    cases side <;> cases side' <;> first | rfl | cases heq

/-- **A session in which nothing has happened is regular.** -/
theorem regular (g : Grading) : (h.origin g).Regular [] s := by
  have hbegins : Begins s (h.opening g).world := h.begins
  exact ⟨.refl _, .refl _, ⟨h.controls hbegins, h.heaps hbegins, h.result_values, rfl, rfl, h.kept⟩,
    List.forall_mem_nil _, fun _ => False.elim, by rintro _ ⟨⟩⟩

end Library.Untouched
end Clearance
