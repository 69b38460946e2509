/-
# Confinement

Code that runs at a program counter `p` does not disturb what is classified below `p`: own
properties below stay as they are, and none appears on an object whose partition is below. This
holds of every expression and statement, with all that they call, except for the writes that
`Lapse` lists, which are checked against another location than the one they change, or not at all.

The proof is an induction over `Scripted`. The objects that may be written are the new ones and
those whose partition is not below `p`; a passed guard admits an object to these, and the checked
operations are treated one by one.
-/
import Clearance.Proofs.Assign
import Clearance.Proofs.Heap
import Clearance.Proofs.Scripted.Serve
import Clearance.Proofs.Started

namespace Clearance

open Clearance.Action

/-- What may become of an own property of an object below `p`: below `p` it stays, and no new
one appears; otherwise it is gone or again not below `p`. -/
def Kept (p : Label) (old new : Option Property) : Prop :=
  match old with
  | none => new = none
  | some q =>
    if q.value.label.less p then new = some q
    else ∀ q', new = some q' → p.leq q'.value.label = true

/-- An object that differs from an earlier one as code at `p` may make it differ. -/
structure Object.Held (p : Label) (o o' : Object) : Prop where
  shell : o.SameShell o'
  kept : o.partition.less p = true →
    ∀ name, Kept p (Slots.find? name o.slots) (Slots.find? name o'.slots)

/-- A heap whose first `b` objects are held. -/
structure Heap.Held (p : Label) (b : Nat) (h h' : Heap) : Prop where
  size : h.size ≤ h'.size
  objects : ∀ id < b, (h.get id).Held p (h'.get id)

/-- One of the first `b` objects, below `p`. -/
structure Heap.Below (h : Heap) (p : Label) (b : Nat) (id : Nat) : Prop where
  old : id < b
  low : (h.get id).partition.less p = true

/-- The writes that are not confined. -/
inductive Lapse (p : Label) (b : Nat) : Visit → Prop
  /-- A declaration lands in a store below `p`, where it adds a property or replaces one that is
  below `p`. -/
  | declared {name : String} {q : Property} {s : State} {cs : List Attempt} {o : Ref} :
      o = (s.store.frames.get s.control.scope).store (Frame.sideAt s.control.pc) →
      s.store.heap.Below p b o.id →
      (∀ q', Slots.find? name (s.store.heap.get o.id).slots = some q' →
        q'.value.label.less p = true) →
      Lapse p b ⟨define name q, s, cs⟩
  /-- An assignment is checked against an inherited property that is not below `p`, but adds an
  own one. -/
  | shadowed {line : Nat} {o : Ref} {name : String} {chosen : Label} {r : Rated} {declare : Bool}
      {s : State} {cs : List Attempt} {owner : Nat} {q : Property} :
      s.store.heap.Below p b o.id → (s.store.heap.get o.id).own? name = none →
      s.store.heap.find? o.id name = some (owner, q) → q.isAccessor = false →
      q.readOnly = false → p.leq q.value.label = true →
      Lapse p b ⟨assign line ⟨some o, name⟩ chosen r declare, s, cs⟩
  /-- An assignment to the length of an array is checked against the length, which is not below
  `p`, but removes an element that is. -/
  | truncated {line : Nat} {o : Ref} {chosen : Label} {r : Rated} {declare : Bool} {s : State}
      {cs : List Attempt} {length element : Property} {name : String} {i : Nat} :
      s.store.heap.Below p b o.id → (s.store.heap.get o.id).cls = "Array" →
      Slots.find? "length" (s.store.heap.get o.id).slots = some length →
      p.leq length.value.label = true → arrayIndex? name = some i →
      (Decimal.toWord (s.store.heap.number r.raw)).toNat ≤ i →
      Slots.find? name (s.store.heap.get o.id).slots = some element →
      element.permanent = false → element.value.label.less p = true →
      Lapse p b ⟨assign line ⟨some o, "length"⟩ chosen r declare, s, cs⟩

/-! ## Held properties, objects and heaps -/

namespace Kept

variable {p : Label} {q : Property} {new : Option Property}

lemma of_less (hq : q.value.label.less p = true) : Kept p (some q) new ↔ new = some q := by
  simp [Kept, hq]

lemma of_leq (hq : p.leq q.value.label = true) :
    Kept p (some q) new ↔ ∀ q', new = some q' → p.leq q'.value.label = true := by
  simp [Kept, Label.not_less_of_leq hq]

lemma refl (q : Option Property) : Kept p q q := by
  cases q with
  | none => rfl
  | some q =>
    by_cases h : q.value.label.less p = true
    · exact (of_less h).2 rfl
    · have hq := Label.leq_of_not_less h
      exact (of_leq hq).2 (by rintro q' ⟨⟩; exact hq)

lemma trans {a b c : Option Property} (hab : Kept p a b) (hbc : Kept p b c) : Kept p a c := by
  cases a with
  | none =>
    obtain rfl : b = none := hab
    exact hbc
  | some q =>
    by_cases h : q.value.label.less p = true
    · obtain rfl := (of_less h).1 hab
      exact hbc
    · have hq := Label.leq_of_not_less h
      have hb := (of_leq hq).1 hab
      refine (of_leq hq).2 ?_
      cases b with
      | none =>
        obtain rfl : c = none := hbc
        rintro q' ⟨⟩
      | some q' => exact (of_leq (hb q' rfl)).1 hbc

end Kept

namespace Object.Held

variable {p : Label} {o o' o'' : Object}

lemma refl (o : Object) : o.Held p o := ⟨.refl o, fun _ _ => .refl _⟩

lemma trans (h : o.Held p o') (h' : o'.Held p o'') : o.Held p o'' := by
  refine ⟨h.shell.trans h'.shell, fun hlow name => (h.kept hlow name).trans (h'.kept ?_ name)⟩
  rw [h.shell.partition]
  exact hlow

/-- Replacing a property that is not below by one that is not below. -/
lemma define {name : String} {q q' : Property} (hq : Slots.find? name o.slots = some q)
    (hleq : p.leq q.value.label = true) (hleq' : p.leq q'.value.label = true) :
    o.Held p (o.define name q') := by
  refine ⟨sameShell_define .., fun _ n => ?_⟩
  rw [find?_define]
  split_ifs with hn
  · subst hn
    rw [hq]
    exact (Kept.of_leq hleq).2 (by rintro _ ⟨⟩; exact hleq')
  · exact .refl _

/-- Removing a property that is not below, if it is there. -/
lemma delete {name : String}
    (h : ∀ q, Slots.find? name o.slots = some q → q.permanent = false →
      p.leq q.value.label = true) : o.Held p (o.delete name).2 := by
  refine ⟨sameShell_delete .., fun _ n => ?_⟩
  unfold Object.delete
  split
  · exact .refl _
  · rename_i q hq
    split_ifs with hperm
    · exact .refl _
    · show Kept p _ (Slots.find? n (Slots.erase name o.slots))
      rw [Slots.find?_erase]
      split_ifs with hn
      · subst hn
        rw [hq]
        exact (Kept.of_leq (h q hq (by simpa using hperm))).2 (by rintro _ ⟨⟩)
      · exact .refl _

end Object.Held

namespace Heap

variable {p : Label} {b : Nat} {h h' h'' : Heap}

namespace Held

lemma refl (h : Heap) : h.Held p b h := ⟨Nat.le_refl _, fun _ _ => .refl _⟩

lemma of_eq (heq : h' = h) : h.Held p b h' := by
  subst heq
  exact refl h'

lemma trans (hh : h.Held p b h') (hh' : h'.Held p b h'') : h.Held p b h'' :=
  ⟨Nat.le_trans hh.size hh'.size, fun id hid => (hh.objects id hid).trans (hh'.objects id hid)⟩

/-- Changing one object as it may be changed. -/
lemma update {id : Nat} {f : Object → Object} (hf : id < b → (h.get id).Held p (f (h.get id))) :
    h.Held p b (h.update id f) := by
  refine ⟨by simp, fun j hj => ?_⟩
  rw [get_update]
  split_ifs with hid
  · obtain ⟨rfl, -⟩ := hid
    exact hf hj
  · exact .refl _

lemma push (hb : b ≤ h.size) (o : Object) : h.Held p b (h.push o) := by
  refine ⟨by simp, fun id hid => ?_⟩
  rw [get_push_lt (Nat.lt_of_lt_of_le hid hb)]
  exact .refl _

end Held
end Heap

/-! ## Objects that may be written -/

/-- The first `b` objects have the given partitions. -/
structure Heap.Frozen (b : Nat) (part : Nat → Label) (h : Heap) : Prop where
  size : b ≤ h.size
  partition : ∀ id < b, (h.get id).partition = part id

/-- A new object, or one that is not below `p`. -/
def Writable (p : Label) (b : Nat) (part : Nat → Label) (id : Nat) : Prop :=
  b ≤ id ∨ p.leq (part id) = true

section

variable {p : Label} {b : Nat} {part : Nat → Label} {h h' : Heap}

lemma Heap.Frozen.of_held (hf : h.Frozen b part) (hh : h.Held p b h') : h'.Frozen b part :=
  ⟨Nat.le_trans hf.size hh.size,
    fun id hid => (hh.objects id hid).shell.partition.trans (hf.partition id hid)⟩

lemma Writable.held {id : Nat} {o : Object} (hw : Writable p b part id) (hf : h.Frozen b part)
    (ho : (h.get id).SameShell o) (hid : id < b) : (h.get id).Held p o := by
  refine ⟨ho, fun hlow => absurd hlow ?_⟩
  rw [hf.partition id hid]
  rcases hw with hw | hw
  · omega
  · exact Label.not_less_of_leq hw

/-- An object that may not be written is below. -/
lemma below_of_not_writable {id : Nat} (hf : h.Frozen b part) (hw : ¬Writable p b part id) :
    h.Below p b id := by
  have hid : id < b := by
    by_contra hge
    exact hw (.inl (Nat.le_of_not_lt hge))
  refine ⟨hid, ?_⟩
  rw [hf.partition id hid]
  by_contra hless
  exact hw (.inr (Label.leq_of_not_less hless))

lemma writable_of_leq {id : Nat} (hf : h.Frozen b part)
    (hp : p.leq (h.get id).partition = true) : Writable p b part id := by
  by_contra hw
  exact Label.not_less_of_leq hp (below_of_not_writable hf hw).low

end

/-! ## Confined runs -/

/-- Whatever is served keeps the control and is confined. -/
structure Confining (p : Label) (b : Nat) (part : Nat → Label) (serve : Service)
    (watch : Watch) : Prop where
  keeps : serve.KeepsControl
  held : ∀ r cs s, p.leq s.control.pc = true → s.store.heap.Frozen b part →
    (∀ w ∈ watch r cs s, ¬Lapse p b w) →
    s.store.heap.Held p b (serve r s).state.store.heap

/-- Runs of the action at `p` and above are confined, as long as nothing lapses; and the result
is as announced. -/
def Confines (p : Label) (b : Nat) (part : Nat → Label) (serve : Service) (watch : Watch)
    (fuel : Nat) {α : Type} (a : Action α) (Q : α → Prop) : Prop :=
  ∀ next cs s, p.leq s.control.pc = true → s.store.heap.Frozen b part →
    (∀ w ∈ a.visits serve watch fuel next cs s, ¬Lapse p b w) →
    s.store.heap.Held p b (a.run serve fuel s).state.store.heap ∧
      ∀ x t, a.run serve fuel s = .done x t → Q x

namespace Confines

variable {p : Label} {b : Nat} {part : Nat → Label} {serve : Service} {watch : Watch} {fuel : Nat}
  {α β : Type}

/-- An action that always ends normally in the same heap. -/
lemma of_same {a : Action α} {Q : α → Prop}
    (h : ∀ s, ∃ x t, a.run serve fuel s = .done x t ∧ t.store.heap = s.store.heap ∧ Q x) :
    Confines p b part serve watch fuel a Q := by
  intro next cs s _ _ _
  obtain ⟨x, t, hrun, hheap, hQ⟩ := h s
  rw [hrun]
  exact ⟨.of_eq hheap, by rintro _ _ ⟨⟩; exact hQ⟩

lemma bind {a : Action β} {k : β → Action α} {R : β → Prop} {Q : α → Prop}
    (hserve : Confining p b part serve watch) (ha : Confines p b part serve watch fuel a R)
    (hk : ∀ x, R x → Confines p b part serve watch fuel (k x) Q) :
    Confines p b part serve watch fuel (a >>= k) Q := by
  intro next cs s hpc hf hquiet
  obtain ⟨hheld, hR⟩ := ha ⟨k⟩ cs s hpc hf fun w hw => hquiet w (mem_visits_first hw)
  rw [run_bind]
  cases ho : a.run serve fuel s with
  | done x u =>
    rw [ho] at hheld
    obtain ⟨hheld', hQ⟩ := hk x (hR x u ho) .nothing cs u (run_done_control hserve.keeps ho ▸ hpc)
      (hf.of_held hheld) fun w hw => hquiet w (mem_visits_rest ho hw)
    exact ⟨hheld.trans hheld', hQ⟩
  | failed f u =>
    rw [ho] at hheld
    exact ⟨hheld, by rintro _ _ ⟨⟩⟩
  | stuck w u =>
    rw [ho] at hheld
    exact ⟨hheld, by rintro _ _ ⟨⟩⟩

/-- An attempt is as confined as what it attempts. -/
lemma attempt {a : Action β} {k : Except Failure β → Action α} {R : β → Prop} {Q : α → Prop}
    (hserve : Confining p b part serve watch) (ha : Confines p b part serve watch fuel a R)
    (hok : ∀ x, R x → Confines p b part serve watch fuel (k (.ok x)) Q)
    (herr : ∀ f, Confines p b part serve watch fuel (k (.error f)) Q) :
    Confines p b part serve watch fuel (.andThen (.attempt a) k) Q := by
  refine bind (R := fun r => ∀ x, r = .ok x → R x) hserve ?_ ?_
  · intro next cs s hpc hf hquiet
    obtain ⟨hheld, hR⟩ := ha .nothing (⟨a, next.action⟩ :: cs) s hpc hf
      fun w hw => hquiet w (List.mem_cons_of_mem _ hw)
    rw [run_attempt]
    cases ho : a.run serve fuel s with
    | done x u =>
      rw [ho] at hheld
      exact ⟨hheld, by rintro _ _ ⟨⟩ _ ⟨⟩; exact hR x u ho⟩
    | failed f u =>
      rw [ho] at hheld
      exact ⟨hheld, by rintro _ _ ⟨⟩ _ ⟨⟩⟩
    | stuck w u =>
      rw [ho] at hheld
      exact ⟨hheld, by rintro _ _ ⟨⟩⟩
  · intro r hr
    cases r with
    | ok x => exact hok x (hr x rfl)
    | error f => exact herr f

lemma iterate {σ : Type} {step : σ → Action (σ ⊕ α)} {I : σ → Prop} {Q : α → Prop}
    (hserve : Confining p b part serve watch)
    (hstep : ∀ x, I x → Confines p b part serve watch fuel (step x) (Sum.elim I Q)) {x : σ}
    (hx : I x) : Confines p b part serve watch fuel (.loop x step) Q := by
  intro next cs s hpc hf hquiet
  -- the rounds are counted by the fuel, which no step sees
  suffices h : ∀ n x s, I x → p.leq s.control.pc = true → s.store.heap.Frozen b part →
      (∀ w ∈ iterateVisits (fun x s => (step x).run serve fuel s)
        (fun x s => (step x).visits serve watch fuel .nothing cs s) n x s, ¬Lapse p b w) →
      s.store.heap.Held p b (Clearance.iterate (fun x s => (step x).run serve fuel s) n x
        s).state.store.heap ∧
      ∀ y t, Clearance.iterate (fun x s => (step x).run serve fuel s) n x s = .done y t → Q y from
    h fuel x s hx hpc hf fun w hw => hquiet w (List.mem_cons_of_mem _ hw)
  intro n
  induction n with
  | zero => exact fun x s _ _ _ _ => ⟨.refl _, by rintro _ _ ⟨⟩⟩
  | succ n ih =>
    intro x s hx hpc hf hquiet
    obtain ⟨hheld, hr⟩ := hstep x hx .nothing cs s hpc hf
      fun w hw => hquiet w (List.mem_append_left _ hw)
    unfold Clearance.iterate
    unfold iterateVisits at hquiet
    cases ho : (step x).run serve fuel s with
    | done r u =>
      rw [ho] at hheld
      simp only [ho] at hquiet
      have hIQ := hr r u ho
      cases r with
      | inl y =>
        obtain ⟨hheld', hQ⟩ := ih y u hIQ (run_done_control hserve.keeps ho ▸ hpc)
          (hf.of_held hheld) fun w hw => hquiet w (List.mem_append_right _ hw)
        exact ⟨hheld.trans hheld', hQ⟩
      | inr y => exact ⟨hheld, by rintro _ _ ⟨⟩; exact hIQ⟩
    | failed f u =>
      rw [ho] at hheld
      exact ⟨hheld, by rintro _ _ ⟨⟩⟩
    | stuck w u =>
      rw [ho] at hheld
      exact ⟨hheld, by rintro _ _ ⟨⟩⟩

end Confines

/-! ## Writing a property -/

section

variable {p : Label} {b : Nat} {part : Nat → Label} {serve : Service} {watch : Watch} {fuel : Nat}

/-- Truncating an array removes elements from the new length on only. -/
lemma held_dropFrom {o : Object} {n : Nat}
    (h : ∀ name i q, arrayIndex? name = some i → n ≤ i → Slots.find? name o.slots = some q →
      q.permanent = false → p.leq q.value.label = true) : o.Held p (Heap.dropFrom o n) := by
  unfold Heap.dropFrom
  generalize o.keys = names
  induction names generalizing o with
  | nil => exact .refl o
  | cons name names ih =>
    rw [List.foldl_cons]
    cases hi : arrayIndex? name with
    | none => exact ih h
    | some i =>
      dsimp only
      split_ifs with hn
      · have hdelete : o.Held p (o.delete name).2 := .delete fun q hq => h name i q hi hn hq
        exact hdelete.trans (ih fun m j q hj hm hq => h m j q hj hm (Object.find?_of_delete hq))
      · exact ih h

/-- A write that changes nothing below `p`, though the object is below: the property is
read-only, or an own one that is not below, and if it is the length of an array, then no element
below `p` is cut off. -/
def Replaces (p : Label) (h : Heap) (o : Ref) (name : String) (v : Value) : Prop :=
  ∃ owner q, h.find? o.id name = some (owner, q) ∧ q.isAccessor = false ∧
    p.leq q.value.label = true ∧
    (q.readOnly = false → (h.get o.id).own? name = some q ∧ p.leq v.label = true ∧
      ((h.get o.id).cls = "Array" → name = "length" →
        ∀ n i q', arrayIndex? n = some i → (Decimal.toWord (h.number v.raw)).toNat ≤ i →
          Slots.find? n (h.get o.id).slots = some q' → q'.permanent = false →
          p.leq q'.value.label = true))

lemma held_resize {o : Object} {n : Nat} {k : Label} {q : Property}
    (hq : Slots.find? "length" o.slots = some q) (hleq : p.leq q.value.label = true)
    (hk : p.leq k = true)
    (h : ∀ name i q, arrayIndex? name = some i → n ≤ i → Slots.find? name o.slots = some q →
      q.permanent = false → p.leq q.value.label = true) : o.Held p (Heap.resize o n k) := by
  refine (held_dropFrom h).trans ?_
  unfold Heap.resize Heap.recordLength
  split
  · rename_i q' hlength
    obtain rfl : q = q' := by
      have := Object.find?_of_dropFrom hlength
      rw [hq] at this
      exact Option.some.inj this
    refine .define hlength hleq ?_
    rw [Label.leq_iff, Value.height_labeled]
    exact Label.leq_iff.1 hk
  · exact .refl _

/-- The confined write of a property. -/
lemma held_putProperty (hserve : Confining p b part serve watch) {o : Ref} {name : String}
    {v : Value} {next : Next Unit} {cs : List Attempt} {s : State}
    (hpc : p.leq s.control.pc = true) (hf : s.store.heap.Frozen b part)
    (hquiet : ∀ w ∈ (putProperty o name v).visits serve watch fuel next cs s, ¬Lapse p b w)
    (hw : Writable p b part o.id ∨ Replaces p s.store.heap o name v) :
    s.store.heap.Held p b ((putProperty o name v).run serve fuel s).state.store.heap := by
  -- an object that may be written may be changed in any way that keeps its shell
  have hfree : ∀ f : Object → Object, Writable p b part o.id →
      (∀ obj : Object, obj.SameShell (f obj)) →
      s.store.heap.Held p b (s.store.heap.update o.id f) :=
    fun f hw hshell => .update (hw.held hf (hshell _))
  have hown : Writable p b part o.id →
      s.store.heap.Held p b ((putOwn o name v).run serve fuel s).state.store.heap := fun hw => by
    rw [state_run_putOwn]
    exact hfree _ hw fun _ => Object.sameShell_extend ..
  unfold putProperty at hquiet ⊢
  simp only [run_bind, run_look]
  cases hfind : s.store.heap.find? o.id name with
  | none =>
    rcases hw with hw | ⟨_, _, hfound, _⟩
    · exact hown hw
    · rw [hfind] at hfound
      cases hfound
  | some found =>
    obtain ⟨owner, q⟩ := found
    have hrest : ∀ w ∈ _, ¬Lapse p b w := fun w hw => hquiet w (mem_visits_rest (run_look _ s) hw)
    rw [hfind] at hrest
    dsimp only at hrest ⊢
    by_cases hacc : q.isAccessor = true
    · simp only [if_pos hacc] at hrest ⊢
      cases hset : q.setter.callable? with
      | none => exact .refl _
      | some f =>
        simp only [hset] at hrest
        have hcall := hserve.held (.call f (Raw.object o) [v]) cs s hpc hf fun w hw =>
          hrest w (mem_visits_first (List.mem_cons_of_mem _ hw))
        simp only [run_bind, run_call]
        cases ho : serve (.call f (Raw.object o) [v]) s <;> rw [ho] at hcall <;> exact hcall
    by_cases hro : q.readOnly = true
    · simp only [if_neg hacc, if_pos hro]
      exact .refl _
    simp only [if_neg hacc, if_neg hro, run_bind, run_object]
    split
    · rename_i own howner hown
      have hreplaces : Replaces p s.store.heap o name v → own = q ∧ p.leq q.value.label = true ∧
          p.leq v.label = true ∧ ((s.store.heap.get o.id).cls = "Array" → name = "length" →
            ∀ n i q', arrayIndex? n = some i →
              (Decimal.toWord (s.store.heap.number v.raw)).toNat ≤ i →
              Slots.find? n (s.store.heap.get o.id).slots = some q' → q'.permanent = false →
              p.leq q'.value.label = true) := by
        rintro ⟨owner', q', hfound, -, hleq, hq⟩
        rw [hfind] at hfound
        cases hfound
        obtain ⟨hq, hrest⟩ := hq (by simpa using hro)
        have := Object.find?_of_own? hq (by simpa using hro)
        rw [hown] at this
        exact ⟨Option.some.inj this, hleq, hrest⟩
      split_ifs with hlength
      · simp only [setLength, run_bind, run_look]
        split_ifs
        · exact .refl _
        · rcases hw with hw | hr
          · exact hfree _ hw fun _ => Object.sameShell_resize ..
          · obtain ⟨rfl, hleq, hv, hcut⟩ := hreplaces hr
            have hlen : Slots.find? "length" (s.store.heap.get o.id).slots = some own :=
              hlength.2 ▸ hown
            simp only [run_change, Outcome.state_done]
            exact .update fun _ => held_resize hlen hleq hv (hcut hlength.1 hlength.2)
      · rcases hw with hw | hr
        · exact hfree _ hw fun _ => Object.sameShell_define ..
        · obtain ⟨rfl, hleq, hv, -⟩ := hreplaces hr
          simp only [run_change, Outcome.state_done]
          exact .update fun _ => .define hown hleq hv
    · rename_i hother
      rcases hw with hw | ⟨owner', q', hfound, -, -, hq⟩
      · exact hown hw
      · rw [hfind] at hfound
        cases hfound
        obtain ⟨hq, -⟩ := hq (by simpa using hro)
        have hown := Object.find?_of_own? hq (by simpa using hro)
        rcases Heap.find?_cases hfind with ⟨rfl, -⟩ | hnone
        · exact absurd hown (hother _ (by simp))
        · rw [hq] at hnone
          cases hnone

/-! ## The checked operations -/

/-- A location below `p` that passes the check of a context not below `p` holds a property that
is not below `p`. -/
lemma replaces_of_passes {line : Nat} {o : Ref} {name : String} {chosen : Label} {r : Rated}
    {declare : Bool} {s u : State} {cs : List Attempt} (hpc : p.leq s.control.pc = true)
    (hpass : Passes serve fuel line ⟨some o, name⟩ chosen r declare s u)
    (hbelow : s.store.heap.Below p b o.id)
    (hlapse : ¬Lapse p b ⟨assign line ⟨some o, name⟩ chosen r declare, s, cs⟩) :
    Replaces p s.store.heap o name
      ((Place.locationIn ⟨some o, name⟩ s).stored s.control.pc chosen r) := by
  have hlow := Label.less_iff.1 hbelow.low
  have hpc := Label.leq_iff.1 hpc
  have hcontext := Label.leq_iff.1 hpass.context
  have hcell := (Place.locationIn ⟨some o, name⟩ s).cell_leq_stored s.control.pc chosen r
  have hraw := (Place.locationIn ⟨some o, name⟩ s).stored_raw s.control.pc chosen r
  have hone := Label.one_le_height (s.store.heap.get o.id).partition
  generalize (Place.locationIn ⟨some o, name⟩ s).stored s.control.pc chosen r = v at hcell hraw
  unfold Place.locationIn at hcontext hcell
  dsimp only at hcontext hcell
  -- the partition is below the program counter, so it is the label of the old value that lets the
  -- write pass
  cases hfind : s.store.heap.find? o.id name with
  | none =>
    simp only [hfind, Label.height_join, Label.height_none] at hcontext
    omega
  | some found =>
    obtain ⟨owner, q⟩ := found
    simp only [hfind, Label.height_join] at hcontext hcell
    by_cases hacc : q.isAccessor = true
    · have hnone : q.peeked.label = .none := by simp [Property.peeked, hacc]; rfl
      rw [hnone, Label.height_none] at hcontext
      omega
    have hpeek : q.peeked = q.value := by simp [Property.peeked, hacc]
    rw [hpeek] at hcontext hcell
    have hq : p.leq q.value.label = true := Label.leq_iff.2 (by omega)
    refine ⟨owner, q, hfind, by simpa using hacc, hq, fun hro => ?_⟩
    rcases Heap.find?_cases hfind with ⟨-, hown⟩ | hnone
    · refine ⟨hown, Label.leq_trans hq hcell, fun hcls hname n i q' hi hn hq' hperm => ?_⟩
      subst hname
      by_contra hless
      refine hlapse (.truncated hbelow hcls (Object.find?_of_own? hown hro) hq hi ?_ hq' hperm ?_)
      · rw [← hraw]
        exact hn
      · by_contra hge
        exact hless (Label.leq_of_not_less hge)
    · exact absurd (.shadowed hbelow hnone hfind (by simpa using hacc) hro hq) hlapse

lemma confines_assign (hserve : Confining p b part serve watch) (line : Nat) (pl : Place)
    (chosen : Label) (r : Rated) (declare : Bool) :
    Confines p b part serve watch fuel (assign line pl chosen r declare) fun _ => True := by
  intro next cs s hpc hf hquiet
  refine ⟨?_, fun _ _ _ => trivial⟩
  rcases run_assign line pl chosen r declare s with ⟨⟨v, e, hrun⟩, -⟩ | ⟨u, hpass⟩
  · rw [hrun]
    exact .of_eq (by simp)
  have hwrite : ∀ w ∈ (pl.write ((pl.locationIn s).stored s.control.pc chosen r)).visits serve
      watch fuel ⟨fun _ => pure r.value⟩ cs u, ¬Lapse p b w :=
    fun w hw => hquiet w (hpass.visits watch next cs w hw)
  have hpcu : p.leq u.control.pc = true := hpass.control ▸ hpc
  have hfu : u.store.heap.Frozen b part := hpass.heap ▸ hf
  have hheld : u.store.heap.Held p b ((pl.write ((pl.locationIn s).stored s.control.pc chosen
      r)).run serve fuel u).state.store.heap := by
    obtain ⟨base, name⟩ := pl
    cases base with
    | none =>
      refine held_putProperty hserve hpcu hfu (fun w hw =>
        hwrite w (mem_visits_rest (run_realm u) hw))
        (.inl (writable_of_leq hfu ?_))
      have hcontext := Label.leq_iff.1 hpass.context
      have hpc := Label.leq_iff.1 hpc
      have hone := Label.one_le_height (s.store.heap.get s.control.realm.global).partition
      simp only [Place.locationIn, Label.height_join, Label.height_none] at hcontext
      rw [Label.leq_iff, hpass.heap, hpass.control]
      show p.height ≤ (s.store.heap.get s.control.realm.global).partition.height
      omega
    | some o =>
      refine held_putProperty hserve hpcu hfu hwrite ?_
      by_cases hw : Writable p b part o.id
      · exact .inl hw
      · refine .inr ?_
        rw [hpass.heap]
        exact replaces_of_passes hpc hpass (below_of_not_writable hf hw)
          (hquiet _ (mem_visits_self _ _ _ _))
  rw [hpass.run, run_bind]
  rw [hpass.heap] at hheld
  cases ho : (pl.write ((pl.locationIn s).stored s.control.pc chosen r)).run serve fuel u <;>
    rw [ho] at hheld <;> exact hheld

/-- An assignment to an own data property does not remove it. -/
lemma isSome_of_putProperty {o : Ref} {name : String} {v : Value} {owner : Nat} {q own : Property}
    {s : State} (hid : o.id < s.store.heap.size)
    (hfind : s.store.heap.find? o.id name = some (owner, q)) (hacc : q.isAccessor = false)
    (hown : Slots.find? name (s.store.heap.get o.id).slots = some own) :
    (Slots.find? name (((putProperty o name v).run serve fuel s).state.store.heap.get
      o.id).slots).isSome = true := by
  have hchange : ∀ f : Object → Object,
      (Slots.find? name (f (s.store.heap.get o.id)).slots).isSome = true →
      (Slots.find? name ((s.store.heap.update o.id f).get o.id).slots).isSome = true := by
    intro f hf
    rwa [Heap.get_update_self hid]
  simp only [putProperty, run_bind, run_look, hfind, hacc, Bool.false_eq_true, if_false]
  by_cases hro : q.readOnly = true
  · simp only [if_pos hro]
    exact Option.isSome_of_eq_some hown
  have howner : owner = o.id := by
    rcases Heap.find?_cases hfind with ⟨h, -⟩ | h
    · exact h
    · rw [Object.own?_of_find? hown] at h
      cases h
  simp only [if_neg hro, run_bind, run_object, hown, howner, beq_self_eq_true]
  split_ifs with hlength
  · simp only [setLength, run_bind, run_look]
    split_ifs
    · exact Option.isSome_of_eq_some hown
    · refine hchange _ ?_
      obtain ⟨-, rfl⟩ := hlength
      unfold Heap.resize Heap.recordLength
      rw [Object.find?_dropFrom _ _ (by decide), hown]
      simp
  · exact hchange _ (by simp)

/-- A constant that is frozen after an assignment to it is not below `p`. -/
lemma leq_of_write {o : Ref} {name : String} {v : Value} {s u : State} {q : Property}
    (hbelow : s.store.heap.Below p b o.id) (hid : o.id < s.store.heap.size)
    (hreplaces : Replaces p s.store.heap o name v)
    (hheld : s.store.heap.Held p b u.store.heap)
    (hrun : (putProperty o name v).run serve fuel s = .done () u)
    (hq : (u.store.heap.get o.id).own? name = some q) :
    Slots.find? name (u.store.heap.get o.id).slots = some q ∧ p.leq q.value.label = true := by
  obtain ⟨owner, q', hfind, hacc, hleq, hrest⟩ := hreplaces
  by_cases hro : q'.readOnly = true
  · obtain rfl : s = u := by
      simp only [putProperty, run_bind, run_look, hfind, hacc, hro, Bool.false_eq_true, if_false,
        if_true, run_pure] at hrun
      cases hrun
      rfl
    rw [Heap.find?_of_own? hq] at hfind
    cases hfind
    rcases Object.own?_cases hq with hslot | ⟨-, hnone⟩
    · exact ⟨hslot, hleq⟩
    · have hlow := Label.less_iff.1 hbelow.low
      have hone := Label.one_le_height (s.store.heap.get o.id).partition
      rw [hnone, Label.leq_iff, Label.height_none] at hleq
      omega
  · obtain ⟨hown, -⟩ := hrest (by simpa using hro)
    have hslot := Object.find?_of_own? hown (by simpa using hro)
    have hsome : (Slots.find? name (((putProperty o name v).run serve fuel s).state.store.heap.get
        o.id).slots).isSome = true := isSome_of_putProperty hid hfind hacc hslot
    rw [hrun, Outcome.state_done] at hsome
    obtain ⟨q'', hq''⟩ := Option.isSome_iff_exists.1 hsome
    have hkept := (hheld.objects _ hbelow.old).kept hbelow.low name
    rw [hslot] at hkept
    rw [Object.own?_of_find? hq''] at hq
    cases hq
    exact ⟨hq'', (Kept.of_leq hleq).1 hkept q hq''⟩

lemma confines_declareAt (hserve : Confining p b part serve watch) (line : Nat)
    (kind : Script.VarKind) (pl : Place) (r : Rated) :
    Confines p b part serve watch fuel (declareAt line kind pl r) fun _ => True := by
  intro next cs s hpc hf hquiet
  refine ⟨?_, fun _ _ _ => trivial⟩
  have hheld := (confines_assign hserve line pl .none r true _ cs s hpc hf
    fun w hw => hquiet w (mem_visits_first hw)).1
  have hlapse := hquiet _ (mem_visits_first (mem_visits_self _ _ _ _))
  simp only [declareAt, run_bind]
  -- the write is confined; what is left is that a constant is frozen
  cases ho : (assign line pl .none r true).run serve fuel s with
  | failed f u =>
    rw [ho] at hheld
    exact hheld
  | stuck w u =>
    rw [ho] at hheld
    exact hheld
  | done x u =>
    rw [ho] at hheld
    dsimp only
    split_ifs
    · obtain ⟨base, name⟩ := pl
      cases base with
      | none => exact hheld
      | some o =>
        simp only [freeze, run_change, Outcome.state_done]
        refine hheld.trans (.update fun hid => ?_)
        by_cases hw : Writable p b part o.id
        · refine hw.held (hf.of_held hheld) ?_ hid
          split
          · exact Object.sameShell_define ..
          · exact .refl _
        split
        -- the place is not writable, but what is frozen has just been written there
        · rename_i q hq
          have hbelow := below_of_not_writable hf hw
          rcases run_assign line ⟨some o, name⟩ .none r true s with
            ⟨⟨v, e, hrun⟩, -⟩ | ⟨u', hpass⟩
          · rw [hrun] at ho
            cases ho
          rw [hpass.run, run_bind_done] at ho
          obtain ⟨⟨⟩, u'', hwrite, hgive⟩ := ho
          cases hgive
          rw [← hpass.heap] at hbelow hheld
          have hreplaces := replaces_of_passes hpc hpass (hpass.heap ▸ hbelow) hlapse
          rw [← hpass.heap] at hreplaces
          obtain ⟨hslot, hleq⟩ := leq_of_write hbelow
            (Nat.lt_of_lt_of_le hid (hpass.heap ▸ hf.size)) hreplaces hheld hwrite hq
          exact .define hslot hleq hleq
        · exact .refl _
    · exact hheld

lemma confines_eraseAt (line : Nat) (pl : Place) (chosen : Label) :
    Confines p b part serve watch fuel (eraseAt line pl chosen) fun _ => True := by
  intro next cs s hpc hf _
  refine ⟨?_, fun _ _ _ => trivial⟩
  unfold eraseAt
  cases hb : pl.base with
  | none => exact .refl _
  | some o =>
    simp only [run_bind, run_partition, run_peek, run_pc, hb]
    split_ifs with hless
    · rw [run_violate]
      exact .of_eq (by simp)
    simp only [run_bind, run_update, run_pure, Outcome.state_done]
    by_cases hw : Writable p b part o.id
    · exact .update (hw.held hf (Object.sameShell_delete ..))
    refine .update fun _ => .delete fun q hq _ => ?_
    have hlow := Label.less_iff.1 (below_of_not_writable hf hw).low
    have hpc := Label.leq_iff.1 hpc
    rw [Heap.find?_of_own? (Object.own?_of_find? hq)] at hless
    simp only [Option.map_some, Label.less_iff, Label.height_join] at hless
    have hone := Label.one_le_height (s.store.heap.get o.id).partition
    have hpeek : q.peeked.label.height ≤ q.value.label.height := by
      unfold Property.peeked
      split_ifs
      · exact Label.one_le_height _
      · exact Nat.le_refl _
    exact Label.leq_iff.2 (by omega)

lemma confines_define (name : String) (q : Property) :
    Confines p b part serve watch fuel (define name q) fun _ => True := by
  intro next cs s hpc hf hquiet
  refine ⟨?_, fun _ _ _ => trivial⟩
  have hlapse := hquiet _ (mem_visits_self _ _ _ _)
  simp only [define, defineIn, run_bind, run_current, run_revise, Outcome.state_done]
  unfold Frame.define
  dsimp only
  generalize ho : (s.store.frames.get s.control.scope).store (Frame.sideAt s.control.pc) = o
  by_cases hw : Writable p b part o.id
  · exact .update (hw.held hf (Object.sameShell_define ..))
  have hbelow := below_of_not_writable hf hw
  refine .update fun _ => ?_
  -- the store is below the program counter, so the definition carries the program counter
  have hpart : (s.store.heap.get o.id).partition.less s.control.pc = true :=
    Label.less_iff.2 (Nat.lt_of_lt_of_le (Label.less_iff.1 hbelow.low) (Label.leq_iff.1 hpc))
  rw [if_pos hpart]
  obtain ⟨q', hq', hless⟩ : ∃ q', Slots.find? name (s.store.heap.get o.id).slots = some q' ∧
      ¬q'.value.label.less p = true := by
    by_contra hnone
    push Not at hnone
    exact hlapse (.declared ho.symm hbelow hnone)
  refine .define hq' (Label.leq_of_not_less hless) ?_
  rw [Label.leq_iff, Value.height_wrap]
  have := Label.leq_iff.1 hpc
  omega

/-- The objects of a new function are new. -/
lemma run_newFunction (serve : Service) (fuel : Nat) (fn : Script.Function Script.Span)
    (scope : Nat) (pc : Label) {s : State} (hf : s.store.heap.Frozen b part) :
    ∃ f t, (newFunction fn scope pc).run serve fuel s = .done f t ∧
      t.store.frames = s.store.frames ∧ s.store.heap.Held p b t.store.heap := by
  simp only [newFunction, run_bind, run_realm, run_allocate, run_change, run_pure]
  refine ⟨_, _, rfl, rfl, ?_⟩
  have hb := hf.size
  dsimp only
  refine ((Heap.Held.push hb _).trans (.push ?_ _)).trans (.update fun hid => ?_)
  · simp only [Array.size_push]
    omega
  · exact absurd hid (Nat.not_lt_of_le hb)

/-- The stores of a new frame are new. -/
lemma run_newFrame (serve : Service) (fuel : Nat) (parent : Nat) {s : State}
    (hf : s.store.heap.Frozen b part) :
    ∃ n t, (newFrame parent).run serve fuel s = .done n t ∧
      (∀ side, b ≤ ((t.store.frames.get n).store side).id) ∧
      s.store.heap.Held p b t.store.heap := by
  simp only [newFrame, newStore, addFrame, run_bind, run_realm, run_allocate, run_update]
  have hb := hf.size
  refine ⟨_, _, rfl, fun side => ?_, (Heap.Held.push hb _).trans (.push ?_ _)⟩
  · have hframe : ∀ f : Frame, Frames.get (s.store.frames.push f) s.store.frames.size = f := by
      intro f
      simp [Frames.get]
    rw [hframe]
    cases side
    · exact hb
    · show b ≤ (s.store.heap.push _).size
      rw [Array.size_push]
      omega
  · rw [Array.size_push]
    omega

lemma confines_functionExpression (fn : Script.Function Script.Span) :
    Confines p b part serve watch fuel (functionExpression fn) fun _ => True := by
  intro next cs s hpc hf hquiet
  refine ⟨?_, fun _ _ _ => trivial⟩
  simp only [functionExpression, run_bind, run_current]
  split_ifs
  · obtain ⟨f, t, hrun, -, hheld⟩ := run_newFunction serve fuel fn s.control.scope s.control.pc hf
    rw [hrun]
    exact hheld
  · obtain ⟨n, t, hframe, hnew, hheld⟩ := run_newFrame serve fuel s.control.scope hf
    obtain ⟨f, u, hfun, hframes, hheld'⟩ :=
      run_newFunction serve fuel fn n s.control.pc (hf.of_held hheld)
    simp only [run_bind, hframe, hfun, run_look, run_change, changeFrame, run_revise, run_pure,
      Outcome.state_done]
    refine (hheld.trans hheld').trans (.update fun hid => absurd hid (Nat.not_lt_of_le ?_))
    rw [hframes]
    exact hnew _

lemma confines_guardWrite (o : Ref) (name : String) :
    Confines p b part serve watch fuel (guardWrite o name) fun _ => Writable p b part o.id := by
  intro next cs s hpc hf _
  simp only [guardWrite, run_bind, run_pc, run_object]
  split_ifs with hless
  · rw [run_violate]
    exact ⟨.of_eq (by simp), by rintro _ _ ⟨⟩⟩
  · refine ⟨.refl _, fun _ _ _ => writable_of_leq hf ?_⟩
    exact Label.leq_trans hpc (Label.leq_of_not_less hless)

/-! ## Scripts -/

/-- Scripted actions are confined. -/
theorem confines_of_scripted (hserve : Confining p b part serve watch) {W : Nat → Prop} {α : Type}
    {a : Action α} {Q : α → Prop} (h : Scripted p W a Q)
    (hW : ∀ id, W id ↔ Writable p b part id) : Confines p b part serve watch fuel a Q := by
  induction h with
  | give hQ => exact .of_same fun s => ⟨_, s, rfl, rfl, hQ⟩
  | note hnote => exact .of_same fun s => ⟨_, _, rfl, hnote s.store, trivial⟩
  | fail => exact fun _ _ _ _ _ _ => ⟨.refl _, by rintro _ _ ⟨⟩⟩
  | current => exact fun _ _ _ hpc _ _ => ⟨.refl _, by rintro _ _ ⟨⟩; exact hpc⟩
  | allocate =>
    exact fun _ _ _ _ hf _ => ⟨.push hf.size _, by rintro _ _ ⟨⟩; exact (hW _).2 (.inl hf.size)⟩
  | touch htouch =>
    intro _ _ s _ hf _
    refine ⟨?_, fun _ _ _ => trivial⟩
    obtain ⟨id, g, hid, hshell, heap⟩ := htouch s.store
    rw [run_update, Outcome.state_done, heap]
    exact .update (((hW id).1 hid).held hf hshell)
  | mono _ hmono ih =>
    intro next cs s hpc hf hquiet
    obtain ⟨hheld, hR⟩ := ih hW next cs s hpc hf hquiet
    exact ⟨hheld, fun x t hx => hmono x (hR x t hx)⟩
  | guard _ _ =>
    intro next cs s hpc hf hquiet
    obtain ⟨hheld, hR⟩ := confines_guardWrite _ _ next cs s hpc hf hquiet
    exact ⟨hheld, fun x t hx => (hW _).2 (hR x t hx)⟩
  -- a checked operation may write elsewhere, and it is looked at as a whole
  | checked hc _ _ =>
    cases hc with
    | assign line pl chosen r declare => exact confines_assign hserve line pl chosen r declare
    | declareAt line kind pl r => exact confines_declareAt hserve line kind pl r
    | eraseAt line pl chosen => exact confines_eraseAt line pl chosen
    | define name q => exact confines_define name q
    | functionExpression fn => exact confines_functionExpression fn
  | andThen _ _ ihp ihk => exact .bind hserve (ihp hW) fun x hx => ihk x hx hW
  | pass _ _ _ _ ihp ihok iherr | silence _ _ _ _ ihp ihok iherr =>
    exact .attempt hserve (ihp hW) (fun x hx => ihok x hx hW) fun f => iherr f hW
  | region hpc _ ih =>
    intro _ cs s _ hf hquiet
    obtain ⟨hheld, hQ⟩ := ih hW .nothing cs ⟨{ s.control with pc := _, scope := _ }, s.store⟩ hpc hf
      fun w hw => hquiet w (List.mem_cons_of_mem _ hw)
    rw [run_region]
    refine ⟨by rwa [Outcome.state_mapState], fun x t hx => ?_⟩
    obtain ⟨u, hu, -⟩ := Outcome.mapState_eq_done.1 hx
    exact hQ x u hu
  | @activation W α entry a Q hpc _ ih =>
    intro _ cs s _ hf hquiet
    obtain ⟨hheld, hQ⟩ := ih hW .nothing cs ⟨entry, { s.store with result := .undefined }⟩ hpc hf
      fun w hw => hquiet w (List.mem_cons_of_mem _ hw)
    rw [run_activation]
    cases ho : a.run serve fuel ⟨entry, { s.store with result := .undefined }⟩ with
    | done x u =>
      rw [ho] at hheld
      exact ⟨hheld, by rintro _ _ ⟨⟩; exact hQ x u ho⟩
    | failed f u =>
      rw [ho] at hheld
      exact ⟨hheld, by rintro _ _ ⟨⟩⟩
    | stuck w u =>
      rw [ho] at hheld
      exact ⟨hheld, by rintro _ _ ⟨⟩⟩
  | invoke =>
    exact fun _ cs s hpc hf hquiet => ⟨hserve.held _ cs s hpc hf fun w hw =>
      hquiet w (List.mem_cons_of_mem _ hw), fun _ _ _ => trivial⟩
  | loop hinit _ ih => exact .iterate hserve (fun x hx => ih x hx hW) hinit
  | @await W _ f =>
    intro _ _ s _ _ _
    exact ⟨.of_eq (by rw [state_run_await]), fun _ _ _ => trivial⟩

/-- The machine is confined on every level. -/
lemma confining_machine {hosts : Hosts} (hhosts : hosts.Scripted) (rounds levels : Nat) :
    Confining p b part (machine hosts rounds levels) (machineWatch hosts rounds levels) := by
  refine ⟨machine_keepsControl hosts rounds levels, ?_⟩
  induction levels with
  | zero => exact fun _ _ _ _ _ _ => .refl _
  | succ n ih =>
    intro r cs s hpc hf hquiet
    have hserve : Confining p b part (machine hosts rounds n) (machineWatch hosts rounds n) :=
      ⟨machine_keepsControl hosts rounds n, ih⟩
    have hperform : Confines p b part (machine hosts rounds n) (machineWatch hosts rounds n) rounds
        (perform hosts r) fun _ => True :=
      confines_of_scripted hserve (scripted_perform hhosts r) fun _ => .rfl
    have hheld := (hperform .nothing cs s hpc hf hquiet).1
    unfold machine
    split_ifs <;> exact hheld

end

/-- The actions of expressions and of statements. -/
inductive Evaluation : {α : Type} → Action α → Prop
  | expr (e : Script.Expr Script.Span) : Evaluation e.action
  | stmt (s : Script.Stmt Script.Span) : Evaluation s.action

lemma Evaluation.routine {floor : Label} {W : Nat → Prop} {α : Type} {a : Action α}
    (h : Evaluation a) : Scripted floor W a fun _ => True := by
  suffices hneat : Neat ⟨floor, none, true⟩ W (fun _ => True) a from
    hneat.routine.scripted rfl
  cases h with
  | expr e => exact neat_expr e
  | stmt s => exact neat_stmt rfl s

/-- Confinement. Whatever expression or statement is evaluated at a program counter, in any state,
and however this ends: if none of the writes listed in `Lapse` happens in the meantime, then every
own property of an object whose effective label is below the program counter is still there with
its value, label and attributes, and no property has appeared on an object whose partition is
below the program counter. -/
theorem evaluation_confined {hosts : Hosts} (hhosts : hosts.Scripted) {α : Type} {a : Action α}
    (ha : Evaluation a) (rounds levels : Nat) (s : State)
    (hquiet : ∀ w ∈ a.visitsOn hosts rounds levels s,
      ¬Lapse s.control.pc s.store.heap.size w)
    (id : Nat) (hid : id < s.store.heap.size) (name : String) :
    let old := s.store.heap.get id
    let new := (a.run (machine hosts rounds levels) rounds s).state.store.heap.get id
    (∀ q, old.own? name = some q →
      (old.partition.join q.value.label).less s.control.pc = true → new.own? name = some q) ∧
    (old.partition.less s.control.pc = true → old.own? name = none → new.own? name = none) := by
  intro old new
  have hconfines : Confines s.control.pc s.store.heap.size
      (fun id => (s.store.heap.get id).partition)
      (machine hosts rounds levels) (machineWatch hosts rounds levels) rounds a fun _ => True :=
    confines_of_scripted (confining_machine hhosts rounds levels) ha.routine fun _ => .rfl
  have hheld := (hconfines .nothing [] s (Label.leq_refl _)
    ⟨Nat.le_refl _, fun _ _ => rfl⟩ hquiet).1
  have hobject : old.Held s.control.pc new := hheld.objects id hid
  have hsame : Slots.find? name new.slots = Slots.find? name old.slots →
      new.own? name = old.own? name := Object.own?_congr hobject.shell.primitive
  -- in a partition below the program counter slots are kept, but for those with a label that is not
  refine ⟨fun q hq hless => ?_, fun hlow hnone => ?_⟩
  · have hlow : old.partition.less s.control.pc = true := by
      rw [Label.less_iff, Label.height_join] at *
      omega
    have hkept := hobject.kept hlow name
    rw [← hq]
    refine hsame ?_
    cases hslot : Slots.find? name old.slots with
    | none =>
      rw [hslot] at hkept
      exact hkept
    | some q' =>
      rw [Object.own?_of_find? hslot] at hq
      cases hq
      rw [hslot] at hkept
      refine (Kept.of_less ?_).1 hkept
      rw [Label.less_iff, Label.height_join] at *
      omega
  · have hkept := hobject.kept hlow name
    have hslot := Object.slot_of_own?_eq_none hnone
    rw [hslot] at hkept
    rw [← hnone]
    exact hsame (Eq.trans hkept hslot.symm)

/-! ## Two statements -/

/-- The first statement of a script. -/
def firstStatement (source : String) : Script.Stmt Script.Span :=
  match Script.parse Script.defaultIntrinsic "" source 1 with
  | .ok program => program.body.headD (.block (.mk default []))
  | .error _ => .block (.mk default [])

/-- In a state nothing is classified but properties of one object, which is neither a prototype
nor an array, and declarations do not go to a store below `p`. -/
def State.steady (s : State) (p : Label) (g : Nat) : Bool :=
  p.leq (s.store.heap.get ((s.store.frames.get s.control.scope).store
    (Frame.sideAt s.control.pc)).id).partition &&
  s.store.heap.toList.zipIdx.all fun (o, id) =>
    o.proto != some g &&
      if id = g then o.cls != "Array" else o.slots.all fun slot => slot.2.value.label.less p

/-- What a steady state says of each object. -/
lemma State.object_of_steady {s : State} {p : Label} {g : Nat} (h : s.steady p g = true)
    (id : Nat) :
    (s.store.heap.get id).proto ≠ some g ∧ (id = g → (s.store.heap.get id).cls ≠ "Array") ∧
      (id ≠ g → ∀ name q, Slots.find? name (s.store.heap.get id).slots = some q →
        q.value.label.less p = true) := by
  by_cases hid : id < s.store.heap.size
  · have hall := List.all_eq_true.1 (Bool.and_eq_true_iff.1 h).2
    have hmem : (s.store.heap.get id, id) ∈ s.store.heap.toList.zipIdx := by
      rw [List.mem_zipIdx_iff_getElem?]
      simp [Heap.get, Array.getD, hid]
    have hobject := hall _ hmem
    simp only [Bool.and_eq_true, bne_iff_ne] at hobject
    obtain ⟨hproto, hrest⟩ := hobject
    refine ⟨hproto, fun hg => ?_, fun hg name q hq => ?_⟩
    · rw [if_pos hg] at hrest
      simpa using hrest
    · rw [if_neg hg] at hrest
      exact List.all_eq_true.1 hrest _ (Slots.mem_of_find? hq)
  · rw [Heap.get_of_size_le (Nat.le_of_not_lt hid)]
    exact ⟨by rintro ⟨⟩, fun _ => by decide, fun _ name q hq => by cases hq⟩

/-- No write lapses in a steady state. -/
lemma State.not_lapse_of_steady {w : Visit} {p : Label} {g b : Nat}
    (h : w.state.steady p g = true) : ¬Lapse p b w := by
  intro hlapse
  cases hlapse with
  | declared ho hbelow _ =>
    subst ho
    exact Label.not_less_of_leq (Bool.and_eq_true_iff.1 h).1 hbelow.low
  | shadowed hbelow hnone hfind _ hro hleq =>
    obtain ⟨hown, hid | ⟨j, hj⟩⟩ := Heap.find?_owner hfind
    · rw [hid, hnone] at hown
      cases hown
    · obtain ⟨hproto, -, -⟩ := object_of_steady h j
      obtain ⟨-, -, hless⟩ := object_of_steady h _
      refine Label.not_less_of_leq hleq (hless ?_ _ _ (Object.find?_of_own? hown hro))
      rintro rfl
      exact hproto hj
  | @truncated _ o _ _ _ _ _ _ _ _ _ hbelow hcls hlength hleq _ _ _ _ _ =>
    obtain ⟨-, hg, hless⟩ := object_of_steady h o.id
    by_cases hid : o.id = g
    · exact hg hid hcls
    · exact Label.not_less_of_leq hleq (hless hid _ _ hlength)

/-- A region of a session that only the secret reaches. -/
def secretRegion : State :=
  ⟨{ secretSession.control with pc := ⟨2, "H"⟩ }, secretSession.store⟩

/-- An assignment to the secret. -/
def secretAssignment : Script.Stmt Script.Span := firstStatement "secret = false;"

set_option maxRecDepth 100000 in
/-- The assignment to the secret leaves the public global alone. -/
theorem evaluation_confined_in_region :
    ∃ q, (secretRegion.store.heap.get secretRegion.control.realm.global).own? "public" = some q ∧
      ((secretAssignment.action.run (machine .none 50 50) 50 secretRegion).state.store.heap.get
        secretRegion.control.realm.global).own? "public" = some q := by
  obtain ⟨hsteady, hlow, hid⟩ :
      (secretAssignment.action.visitsOn .none 50 50 secretRegion).all (fun w =>
        w.state.steady secretRegion.control.pc secretRegion.control.realm.global) = true ∧
      ((secretRegion.store.heap.get secretRegion.control.realm.global).own? "public").any (fun q =>
        ((secretRegion.store.heap.get secretRegion.control.realm.global).partition.join
          q.value.label).less secretRegion.control.pc) = true ∧
      secretRegion.control.realm.global < secretRegion.store.heap.size := by
    decide +kernel
  have hquiet : ∀ w ∈ secretAssignment.action.visitsOn .none 50 50 secretRegion,
      ¬Lapse secretRegion.control.pc secretRegion.store.heap.size w :=
    fun w hw => State.not_lapse_of_steady (List.all_eq_true.1 hsteady w hw)
  obtain ⟨q, hq, hless⟩ := (Option.any_eq_true ..).1 hlow
  have hkeeps := evaluation_confined scripted_none (.stmt secretAssignment) 50 50 secretRegion
    hquiet secretRegion.control.realm.global hid "public"
  exact ⟨q, hq, hkeeps.1 q hq hless⟩

/-- A script that declares a function in an object that holds a property of its name. -/
def declaringScript : Action Value :=
  evaluate "var o = \x7ba: true\x7d; if (secret) with (o) \x7b function a() \x7b\x7d \x7d" "" 1

/-- Running an action replaces a primitive value that an object holds below the program counter
by an object. -/
def State.replacesBelow (s : State) (a : Action Completion) (id : Nat) (name : String) : Bool :=
  ((s.store.heap.get id).own? name).any fun q =>
    id < s.store.heap.size &&
      ((s.store.heap.get id).partition.join q.value.label).less s.control.pc &&
      q.value.raw.isPrimitive && match a.run (machine .none 50 50) 50 s with
        | .done _ t => ((t.store.heap.get id).own? name).any fun q' => !q'.value.raw.isPrimitive
        | _ => false

lemma State.exists_of_replacesBelow {s : State} {a : Action Completion} {id : Nat} {name : String}
    (h : s.replacesBelow a id name = true) :
    ∃ q c t, a.run (machine .none 50 50) 50 s = .done c t ∧ id < s.store.heap.size ∧
      (s.store.heap.get id).own? name = some q ∧
      ((s.store.heap.get id).partition.join q.value.label).less s.control.pc = true ∧
      (t.store.heap.get id).own? name ≠ some q := by
  obtain ⟨q, hq, h⟩ := (Option.any_eq_true ..).1 h
  simp only [Bool.and_eq_true, decide_eq_true_eq] at h
  obtain ⟨⟨⟨hid, hless⟩, hprimitive⟩, hnew⟩ := h
  split at hnew
  · rename_i c t hrun
    refine ⟨q, c, t, hrun, hid, hq, hless, fun hsame => ?_⟩
    simp [hsame, hprimitive] at hnew
  · cases hnew

set_option maxRecDepth 100000 in
/-- In a region that only the secret reaches, the declaration replaces the property of an object
that is not classified. -/
theorem declaration_replaces_property_below :
    ∃ w ∈ declaringScript.visitsOn .none 50 50 secretSession,
      ∃ (st : Script.Stmt Script.Span) (id : Nat) (name : String) (q : Property) (c : Completion)
        (t : State),
        st.action.run (machine .none 50 50) 50 w.state = .done c t ∧
        id < w.state.store.heap.size ∧ (w.state.store.heap.get id).own? name = some q ∧
        ((w.state.store.heap.get id).partition.join q.value.label).less w.state.control.pc = true ∧
        (t.store.heap.get id).own? name ≠ some q := by
  let st := firstStatement "with (o) \x7b function a() \x7b\x7d \x7d"
  let o := secretSession.store.heap.size
  have found : (declaringScript.visitsOn .none 50 50 secretSession).any
      (fun w => w.state.replacesBelow st.action o "a") = true := by
    rw [declaringScript, evaluate_ofList]
    decide +kernel
  obtain ⟨w, hw, hreplaces⟩ := List.any_eq_true.1 found
  obtain ⟨q, c, t, h⟩ := State.exists_of_replacesBelow hreplaces
  exact ⟨w, hw, st, o, "a", q, c, t, h⟩

end Clearance
