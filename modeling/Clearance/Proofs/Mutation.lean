/-
# Built-in methods that change their receiver

Seven methods of arrays change the object they are called on. Each of them first compares the
program counter with the partition of the receiver, and is refused if the program counter is
above it. That is the whole check: the label of the receiver itself only counts as far as the
program counter includes it, as it does in a method call, but not in a call through `call` or
`apply`; and the labels of the arguments that choose positions are not looked at. A sort is the
exception: the elements that it puts back carry the label of its comparator, as soon as the
comparator has been called.

The last point needs a look into the sort. Its comparisons are followed side by side with those of
a sort by any other comparator, through `Sort.Correspondence`: either a comparison has left its
label, or the two sorts have not differed yet.
-/
import Clearance.Proofs.Confinement
import Clearance.Proofs.Location
import Clearance.Proofs.Sorting
import Clearance.Proofs.Noninterference

namespace Clearance

open Clearance.Action Library

/-- The name under which a method reports a forbidden change of its receiver, if it changes it. -/
def changing? : ArrayFn → Option String
  | .push => some "push"
  | .pop => some "pop"
  | .shift => some "shift"
  | .unshift => some "unshift"
  | .splice => some "splice"
  | .reverse => some "reverse"
  | .sort => some "sort"
  | _ => none

/-- The label of the arguments that choose positions or the order. -/
def choiceLabel (m : ArrayFn) (args : List Value) : Label :=
  match m with
  | .splice => (argAt args 0).label.join (argAt args 1).label
  | .sort => (argAt args 0).label
  | _ => .none

/-- The built-in method of arrays that an object is. -/
def Object.arrayMethod? (obj : Object) : Option ArrayFn :=
  match obj.behaviour with
  | .native _ _ (some (.builtin (.arrayMethod m))) _ => some m
  | _ => none

/-- Neither the elements of an object nor its length are accessors, own or inherited. -/
def Heap.ElementsPlain (h : Heap) (id : Nat) : Prop :=
  ∀ name, (name = "length" ∨ ∃ i, name = indexName i) →
    ∀ found, h.find? id name = some found → found.2.isAccessor = false

/-- Every element of an object is as it was or carries a label. -/
def Heap.Relabels (h h' : Heap) (id : Nat) (k : Label) : Prop :=
  ∀ i q, Slots.find? (indexName i) (h'.get id).slots = some q →
    Slots.find? (indexName i) (h.get id).slots = some q ∨ k.leq q.value.label = true

variable {serve : Service} {fuel : Nat}

/-! ## The guard -/

/-- A method that changes its receiver asks for it first. -/
lemma arrayMethod_eq {m : ArrayFn} {name : String} (hm : changing? m = some name) (this : Value)
    (args : List Value) :
    ∃ rest, arrayMethod m this args = mutableArray this name >>= rest := by
  cases m <;> cases hm <;> exact ⟨_, rfl⟩

lemma run_thisObject {this : Value} {o : Ref} (ho : this.raw = .object o) (name : String)
    (s : State) : (thisObject this name).run serve fuel s = .done o s := by
  unfold thisObject
  rw [ho]
  rfl

/-- A program counter above the partition of the receiver is refused. -/
lemma run_mutableArray_refused (serve : Service) (fuel : Nat) {this : Value} {o : Ref}
    (ho : this.raw = .object o) (name : String) {s : State}
    (hless : (s.store.heap.get o.id).partition.less s.control.pc = true) :
    ∃ t, (mutableArray this name).run serve fuel s = .failed (.violation
        ⟨name, s.control.pc, (s.store.heap.get o.id).partition, s.control.file, 0⟩) t ∧
      t.store.heap = s.store.heap := by
  refine ⟨s.recorded (.violated name s.control.pc (s.store.heap.get o.id).partition 0), ?_,
    State.recorded_heap ..⟩
  simp only [mutableArray, run_bind, run_thisObject ho, guardWrite, run_pc, run_object,
    if_pos hless, run_violate]

/-- The object that is asked for is the receiver. -/
lemma mutableArray_done {this : Value} {o : Ref} (ho : this.raw = .object o) {name : String}
    {s t : State} {r : Ref × Nat} (h : (mutableArray this name).run serve fuel s = .done r t) :
    r.1 = o := by
  obtain ⟨o', u, hthis, h⟩ := run_bind_done.1 h
  rw [run_thisObject ho] at hthis
  cases hthis
  obtain ⟨_, _, -, h⟩ := run_bind_done.1 h
  obtain ⟨_, _, -, h⟩ := run_bind_done.1 h
  cases h
  rfl

/-- The partitions of objects never change. -/
lemma machine_keepsPartition {hosts : Hosts} (hhosts : hosts.Scripted) (rounds levels : Nat)
    (r : Request) (s : State) {id : Nat} (hid : id < s.store.heap.size) :
    ((machine hosts rounds levels r s).state.store.heap.get id).partition =
      (s.store.heap.get id).partition := by
  -- nothing is below the absence of a label, so no write lapses
  have hnothing : ∀ k : Label, ¬k.less .none = true :=
    fun k => Label.not_less_of_leq (Label.none_leq k)
  have hconfining : Confining .none s.store.heap.size (fun id => (s.store.heap.get id).partition)
      (machine hosts rounds levels) (machineWatch hosts rounds levels) :=
    confining_machine hhosts rounds levels
  have hheld := hconfining.held r [] s (Label.none_leq _) ⟨Nat.le_refl _, fun _ _ => rfl⟩
    fun w _ hlapse => by
      cases hlapse with
      | declared _ hbelow _ => exact hnothing _ hbelow.low
      | shadowed hbelow => exact hnothing _ hbelow.low
      | truncated hbelow => exact hnothing _ hbelow.low
  exact (hheld.objects id hid).shell.partition

/-! ## What a comparator leaves -/

/-- What has been compared carries a label, or has failed. -/
def Marked (k : Label) (c : Compared) : Prop :=
  k.leq c.label = true ∨ c.failure.isSome = true

/-- Two comparisons, of which the first leaves a mark or both have been the same. -/
def marking (serve : Service) (fuel : Nat) (k : Label) :
    Sort.Correspondence Comparing Comparing where
  rel R p q := ∀ c s a c' t, (p.run c).run serve fuel s = .done (a, c') t →
    (Marked k c → Marked k c') ∧
      ∃ b, R a b ∧ (Marked k c' ∨ (q.run c).run serve fuel s = .done (b, c') t)
  pure := by
    rintro α β R a b h c s _ _ _ ⟨⟩
    exact ⟨id, b, h, .inr rfl⟩
  bind := by
    intro α β γ δ R S p q f g hp hf c s a c' t h
    obtain ⟨⟨x, d⟩, u, hx, ha⟩ := run_bind_done.1 h
    obtain ⟨hkept, y, hxy, hsame⟩ := hp c s x d u hx
    obtain ⟨hkept', b, hab, hsame'⟩ := hf x y hxy d u a c' t ha
    refine ⟨fun hc => hkept' (hkept hc), b, hab, ?_⟩
    rcases hsame with hmarked | hsame
    · exact .inl (hkept' hmarked)
    rcases hsame' with hmarked | hsame'
    · exact .inl hmarked
    · exact .inr (run_bind_done.2 ⟨(y, d), u, hsame, hsame'⟩)

/-- What is noted for a comparison: its result, or its failure. -/
lemma noted_done {α : Type} {p : Action α} {otherwise a : α} {c c' : Compared} {s t : State}
    (h : ((noted p otherwise).run c).run serve fuel s = .done (a, c') t) :
    (c' = c ∧ p.run serve fuel s = .done a t) ∨
      (a = otherwise ∧ c'.label = c.label ∧ c'.failure.isSome = true) := by
  obtain ⟨⟨r, d⟩, u, hr, h⟩ := run_bind_done.1 h
  obtain ⟨x, v, hx, hr⟩ := run_bind_done.1 hr
  cases hr
  rcases run_attempt_done.1 hx with ⟨b, rfl, hb⟩ | ⟨f, rfl, -⟩
  · cases h
    exact .inl ⟨rfl, hb⟩
  · cases h
    refine .inr ⟨rfl, rfl, ?_⟩
    show (c.failure.or (some f)).isSome = true
    cases c.failure <;> rfl

/-- What is noted does not remove a mark. -/
lemma Marked.noted {α : Type} {p : Action α} {otherwise a : α} {k : Label} {c c' : Compared}
    {s t : State} (hc : Marked k c)
    (h : ((noted p otherwise).run c).run serve fuel s = .done (a, c') t) : Marked k c' := by
  rcases noted_done h with ⟨rfl, -⟩ | ⟨-, -, hfailed⟩
  · exact hc
  · exact .inr hfailed

/-- The result of a function that is called at a label carries the label. -/
lemma leq_label_of_invokeAt {k : Label} {f : Ref} {this : Value} {args : List Value} {s t : State}
    {r : Value} (h : (invokeAt k f this args).run serve fuel s = .done r t) :
    k.leq r.label = true := by
  obtain ⟨v, u, -, h⟩ := run_bind_done.1 h
  cases h
  rw [Label.leq_iff, Value.height_wrap]
  omega

/-- Two elements are compared without the comparator, or the comparison leaves its label. -/
lemma marking_precedes (f : Ref) (k : Label) (other : Option (Ref × Label)) (a b : Value) :
    (marking serve fuel k).rel Eq (precedes (some (f, k)) a b) (precedes other a b) := by
  intro c s x c' t h
  unfold precedes at h ⊢
  by_cases ha : a.raw.isUndefined = true
  · rw [if_pos ha] at h ⊢
    exact (marking serve fuel k).pure rfl c s x c' t h
  by_cases hb : b.raw.isUndefined = true
  · rw [if_neg ha, if_pos hb] at h ⊢
    exact (marking serve fuel k).pure rfl c s x c' t h
  -- the comparator is called: what follows does not matter
  rw [if_neg ha, if_neg hb] at h
  suffices hmarked : Marked k c' from ⟨fun _ => hmarked, x, rfl, .inl hmarked⟩
  obtain ⟨⟨r, d⟩, u, hr, h⟩ := run_bind_done.1 h
  rcases noted_done hr with ⟨rfl, hcall⟩ | ⟨rfl, -, hfailed⟩
  · obtain ⟨v, w, hv, hcall⟩ := run_bind_done.1 hcall
    cases hcall
    obtain ⟨⟨_, e⟩, w', he, h⟩ := run_bind_done.1 h
    cases he
    obtain ⟨⟨y, e⟩, w', hy, h⟩ := run_bind_done.1 h
    cases h
    refine Marked.noted (.inl ?_) hy
    have hk := leq_label_of_invokeAt hv
    rw [Label.leq_iff] at hk ⊢
    rw [Label.height_join]
    omega
  · cases h
    exact .inr hfailed

/-- A sort by a comparator ends with its label, with a failure, or as with any other one. -/
lemma sort_marked {f : Ref} {k : Label} {elements sorted : List Value} {c c' : Compared}
    {s t : State}
    (h : ((Sort.sort (precedes (some (f, k))) elements).run c).run serve fuel s =
      .done (sorted, c') t) :
    Marked k c' ∨ ∀ other, ((Sort.sort (precedes other) elements).run c).run serve fuel s =
      .done (sorted, c') t := by
  by_cases hmarked : Marked k c'
  · exact .inl hmarked
  refine .inr fun other => ?_
  have hsort : (marking serve fuel k).rel (List.Forall₂ Eq)
      (Sort.sort (precedes (some (f, k))) elements) (Sort.sort (precedes other) elements) :=
    (marking serve fuel k).sort (by
      rintro a _ rfl b _ rfl
      exact marking_precedes f k other a b) (List.forall₂_refl elements)
  obtain ⟨-, sorted', hsame, hmarked' | hother⟩ := hsort c s sorted c' t h
  · exact absurd hmarked' hmarked
  · rw [List.forall₂_eq_eq_eq] at hsame
    subst hsame
    exact hother

/-! ## Putting elements back -/

/-- An object whose elements are as they were, or data that carries a label. -/
structure Object.Puts (k : Label) (o o' : Object) : Prop where
  shell : o.SameShell o'
  slot : ∀ name, Slots.find? name o'.slots = Slots.find? name o.slots ∨
    ∃ q, Slots.find? name o'.slots = some q ∧ q.isAccessor = false ∧
      (name ≠ "length" → k.leq q.value.label = true)

namespace Object.Puts

variable {k : Label} {o o' o'' : Object}

lemma refl (o : Object) : o.Puts k o := ⟨.refl o, fun _ => .inl rfl⟩

lemma trans (h : o.Puts k o') (h' : o'.Puts k o'') : o.Puts k o'' := by
  refine ⟨h.shell.trans h'.shell, fun name => ?_⟩
  rcases h'.slot name with heq | hput
  · rw [heq]
    exact h.slot name
  · exact .inr hput

lemma define {name : String} {q : Property} (hacc : q.isAccessor = false)
    (hq : name ≠ "length" → k.leq q.value.label = true) : o.Puts k (o.define name q) := by
  refine ⟨sameShell_define .., fun n => ?_⟩
  rw [find?_define]
  split_ifs with hn
  · subst hn
    exact .inr ⟨q, rfl, hacc, hq⟩
  · exact .inl rfl

/-- Recording a length that is no accessor. -/
lemma recordLength (v : Value)
    (h : ∀ q, Slots.find? "length" o.slots = some q → q.isAccessor = false) :
    o.Puts k (Heap.recordLength o v) := by
  unfold Heap.recordLength
  split
  · rename_i q hq
    exact .define (h q hq) fun hne => absurd rfl hne
  · exact .refl o

lemma extend {name : String} {v : Value}
    (hv : name ≠ "length" → k.leq v.label = true)
    (h : ∀ q, Slots.find? "length" o.slots = some q → q.isAccessor = false) :
    o.Puts k (Heap.extend o name v) := by
  have hdefine : o.Puts k (o.define name (.data v)) := .define rfl hv
  have hlength : ∀ q, Slots.find? "length" (o.define name (.data v)).slots = some q →
      q.isAccessor = false := by
    intro q hq
    rw [find?_define] at hq
    split_ifs at hq
    · cases hq
      rfl
    · exact h q hq
  unfold Heap.extend
  dsimp only
  split_ifs
  · split
    · split_ifs
      · exact hdefine.trans (.recordLength _ hlength)
      · exact hdefine
    · exact hdefine
  · exact hdefine

end Object.Puts

/-- Heaps that differ in the elements of one object. -/
structure Heap.Puts (k : Label) (id : Nat) (h h' : Heap) : Prop where
  object : (h.get id).Puts k (h'.get id)
  others : ∀ j, j ≠ id → h'.get j = h.get j

namespace Heap.Puts

variable {k : Label} {id : Nat} {h h' h'' : Heap}

lemma refl (h : Heap) : h.Puts k id h := ⟨.refl _, fun _ _ => rfl⟩

lemma trans (hh : h.Puts k id h') (hh' : h'.Puts k id h'') : h.Puts k id h'' :=
  ⟨hh.object.trans hh'.object, fun j hj => (hh'.others j hj).trans (hh.others j hj)⟩

lemma update {f : Object → Object} (hf : (h.get id).Puts k (f (h.get id))) :
    h.Puts k id (h.update id f) := by
  refine ⟨?_, fun j hj => get_update_ne hj f⟩
  rw [get_update]
  split_ifs
  · exact hf
  · exact .refl _

/-- Elements that are put are no accessors. -/
lemma plain (hh : h.Puts k id h') (hplain : h.ElementsPlain id) : h'.ElementsPlain id := by
  intro name hname found hfound
  rcases hh.object.slot name with heq | ⟨q, hq, hacc, -⟩
  · refine hplain name hname found ?_
    rwa [find?_congr (Object.own?_congr hh.object.shell.primitive heq) hh.object.shell.proto
      fun j hj => hh.others j (by omega)] at hfound
  · rw [find?_of_own? (Object.own?_of_find? hq)] at hfound
    cases hfound
    exact hacc

end Heap.Puts

/-- An own length that is found is no accessor. -/
lemma Heap.ElementsPlain.length {h : Heap} {id : Nat} (hplain : h.ElementsPlain id) {q : Property}
    (hq : Slots.find? "length" (h.get id).slots = some q) : q.isAccessor = false :=
  hplain "length" (.inl rfl) _ (Heap.find?_of_own? (Object.own?_of_find? hq))

/-- Storing a value that carries a label in an element. -/
lemma puts_putProperty {o : Ref} {i : Nat} {v : Value} {k : Label} {s t : State}
    (hv : k.leq v.label = true) (hplain : s.store.heap.ElementsPlain o.id)
    (h : (putProperty o (indexName i) v).run serve fuel s = .done () t) :
    s.store.heap.Puts k o.id t.store.heap := by
  have hextend : s.store.heap.Puts k o.id
      (s.store.heap.update o.id (Heap.extend · (indexName i) v)) :=
    .update (.extend (fun _ => hv) fun q hq => hplain.length hq)
  unfold putProperty at h
  rw [run_bind, run_look] at h
  dsimp only at h
  split at h
  · rw [eq_extended_of_putOwn h]
    exact hextend
  rename_i owner q hfind
  have hacc : q.isAccessor = false := hplain _ (.inr ⟨i, rfl⟩) _ hfind
  simp only [hacc, Bool.false_eq_true, if_false] at h
  split_ifs at h
  · cases h
    exact .refl _
  rw [run_bind, run_object] at h
  dsimp only at h
  split at h
  · rename_i own howner hown
    have hdata : own.isAccessor = false :=
      hplain _ (.inr ⟨i, rfl⟩) _ (Heap.find?_of_own? (Object.own?_of_find? hown))
    rw [if_neg fun hlength => indexName_ne_length i hlength.2] at h
    cases h
    exact .update (f := (·.define (indexName i) { own with value := v }))
      (.define hdata fun _ => hv)
  · rw [eq_extended_of_putOwn h]
    exact hextend

lemma puts_putFrom {o : Ref} {k : Label} {vs : List Value} (hvs : ∀ v ∈ vs, k.leq v.label = true)
    {i : Nat} {s t : State} (hplain : s.store.heap.ElementsPlain o.id)
    (h : (putFrom o i vs).run serve fuel s = .done () t) :
    s.store.heap.Puts k o.id t.store.heap := by
  induction vs generalizing i s with
  | nil =>
    cases h
    exact .refl _
  | cons v vs ih =>
    rw [List.forall_mem_cons] at hvs
    obtain ⟨⟨⟩, u, hput, h⟩ := run_bind_done.1 h
    have hfirst := puts_putProperty hvs.1 hplain hput
    exact hfirst.trans (ih hvs.2 (hfirst.plain hplain) h)

/-- The elements of an object have all been there before. -/
def Heap.Thins (id : Nat) (h h' : Heap) : Prop :=
  ∀ i q, Slots.find? (indexName i) (h'.get id).slots = some q →
    Slots.find? (indexName i) (h.get id).slots = some q

namespace Heap.Thins

variable {id : Nat} {h h' h'' : Heap}

lemma refl (h : Heap) : h.Thins id h := fun _ _ hq => hq

lemma trans (hh : h.Thins id h') (hh' : h'.Thins id h'') : h.Thins id h'' :=
  fun i q hq => hh i q (hh' i q hq)

lemma update {f : Object → Object}
    (hf : ∀ i q, Slots.find? (indexName i) (f (h.get id)).slots = some q →
      Slots.find? (indexName i) (h.get id).slots = some q) : h.Thins id (h.update id f) := by
  intro i q hq
  rw [get_update] at hq
  split_ifs at hq
  · exact hf i q hq
  · exact hq

/-- Changes of the length leave the elements alone. -/
lemma define (p : Property) : h.Thins id (h.update id (·.define "length" p)) := by
  refine .update fun i q hq => ?_
  rwa [Object.find?_define, if_neg (indexName_ne_length i)] at hq

end Heap.Thins

/-- Deleting an element changes nothing else. -/
lemma find?_length_delete (h : Heap) (id i : Nat) :
    (h.update id fun obj => (obj.delete (indexName i)).2).find? id "length" =
      h.find? id "length" := by
  refine Heap.find?_congr ?_ ?_ fun j hj => Heap.get_update_ne (by omega) _
  · rw [Heap.get_update]
    split_ifs
    · exact Object.own?_congr (Object.sameShell_delete ..).primitive
        (Object.find?_delete_ne _ (indexName_ne_length i).symm)
    · rfl
  · rw [Heap.get_update]
    split_ifs
    · exact (Object.sameShell_delete ..).proto
    · rfl

/-- Deleting elements. -/
lemma thins_deleteOwn {o : Ref} {is : List Nat} {f : Nat → Nat} {s t : State}
    (h : (eachIndex (fun i => deleteOwn o (indexName (f i))) is).run serve fuel s = .done () t) :
    s.store.heap.Thins o.id t.store.heap ∧
      t.store.heap.find? o.id "length" = s.store.heap.find? o.id "length" := by
  induction is generalizing s with
  | nil =>
    cases h
    exact ⟨.refl _, rfl⟩
  | cons i is ih =>
    obtain ⟨⟨⟩, u, hdelete, h⟩ := run_bind_done.1 h
    cases hdelete
    obtain ⟨hrest, hlength⟩ := ih h
    refine ⟨.trans (.update fun j q hq => Object.find?_of_delete hq) hrest, ?_⟩
    exact hlength.trans (find?_length_delete ..)

/-- Setting a length that is no accessor. -/
lemma thins_putLength {o : Ref} {n : Nat} {s t : State}
    (hlength : ∀ found, s.store.heap.find? o.id "length" = some found →
      found.2.isAccessor = false)
    (h : (putLength o n).run serve fuel s = .done () t) :
    s.store.heap.Thins o.id t.store.heap := by
  have hextend : s.store.heap.Thins o.id
      (s.store.heap.update o.id (Heap.extend · "length" (Raw.ofNat n))) := by
    refine .update fun i q hq => ?_
    unfold Heap.extend at hq
    simp only [arrayIndex?_length, ite_self] at hq
    rwa [Object.find?_define, if_neg (indexName_ne_length i)] at hq
  unfold putLength putProperty at h
  rw [run_bind, run_look] at h
  dsimp only at h
  split at h
  · rw [eq_extended_of_putOwn h]
    exact hextend
  rename_i owner q hfind
  simp only [hlength _ hfind, Bool.false_eq_true, if_false] at h
  split_ifs at h
  · cases h
    exact .refl _
  rw [run_bind, run_object] at h
  dsimp only at h
  split at h
  · split_ifs at h
    · rw [setLength, run_bind, run_look] at h
      dsimp only at h
      split_ifs at h
      · cases h
      · rw [run_change] at h
        cases h
        refine .update fun i p hp => ?_
        rw [Heap.resize, Object.find?_recordLength _ _ (indexName_ne_length i)] at hp
        exact Object.find?_of_dropFrom hp
    · cases h
      exact .define _
  · rw [eq_extended_of_putOwn h]
    exact hextend

/-- Elements that are put back carry what the values carry. -/
lemma relabels_writeBack {o : Ref} {k : Label} {vs : List Value} {n : Nat} {s t : State}
    (hvs : ∀ v ∈ vs, k.leq v.label = true) (hplain : s.store.heap.ElementsPlain o.id)
    (h : (writeBack o vs n).run serve fuel s = .done () t) :
    s.store.heap.Relabels t.store.heap o.id k := by
  obtain ⟨⟨⟩, u, hput, h⟩ := run_bind_done.1 h
  obtain ⟨⟨⟩, w, hdelete, h⟩ := run_bind_done.1 h
  have hputs := puts_putFrom hvs hplain hput
  obtain ⟨hthins, hlength⟩ := thins_deleteOwn (f := id) hdelete
  have hrest := hthins.trans (thins_putLength
    (fun found hfound => hputs.plain hplain "length" (.inl rfl) found (hlength ▸ hfound)) h)
  intro i q hq
  rcases hputs.object.slot (indexName i) with heq | ⟨p, hp, -, hlabel⟩
  · exact .inl (heq ▸ hrest i q hq)
  · rw [hrest i q hq, Option.some.injEq] at hp
    exact .inr (hp ▸ hlabel (indexName_ne_length i))

/-! ## Sorting by a comparator -/

/-- What a sort does with the elements of its receiver. -/
def sortBy (this : Value) (o : Ref) (n : Nat) (elements : List Value)
    (comparator : Option (Ref × Label)) : Action Value := do
  let (sorted, compared) ←
    (Sort.sort (precedes comparator) elements).run ⟨Value.joinLabels elements, none⟩
  match compared.failure with
  | some f => fail f
  | none =>
    writeBack o (sorted.map fun v => v.wrap compared.label) n
    return (Raw.object o).labeled this.label

lemma isNullish_of_callable {v : Raw} {f : Ref} (h : v.callable? = some f) :
    v.isNullish = false := by
  cases v <;> first | rfl | cases h

/-- A sort by a function. -/
lemma sortArray_eq (this : Value) {v : Value} (rest : List Value) {f : Ref}
    (hv : v.raw.callable? = some f) :
    sortArray this (v :: rest) = (mutableArray this "sort" >>= fun r => elementsOf r.1 >>=
      fun elements => callbackAt (v :: rest) 0 "sort" >>= fun f => pure (some (f, v.label)) >>=
        sortBy this r.1 r.2 elements) := by
  have hnullish : (argAt (v :: rest) 0).raw.isNullish = false := isNullish_of_callable hv
  unfold sortArray
  simp only [hnullish]
  rfl

lemma run_callbackAt {v : Value} (rest : List Value) {f : Ref} (hv : v.raw.callable? = some f)
    (name : String) (s : State) :
    (callbackAt (v :: rest) 0 name).run serve fuel s = .done f s := by
  simp only [callbackAt, argAt, List.getD_cons_zero, hv, run_pure]

/-- What is left of a sort when its receiver and its comparator are known. -/
lemma run_sortArray {this : Value} {o : Ref} (ho : this.raw = .object o) {v : Value}
    (rest : List Value) {f : Ref} (hv : v.raw.callable? = some f) {s t : State} {r : Value} :
    (sortArray this (v :: rest)).run serve fuel s = .done r t ↔
      ∃ n u elements w, (mutableArray this "sort").run serve fuel s = .done (o, n) u ∧
        (elementsOf o).run serve fuel u = .done elements w ∧
        (sortBy this o n elements (some (f, v.label))).run serve fuel w = .done r t := by
  rw [sortArray_eq this rest hv]
  constructor
  · intro h
    obtain ⟨⟨o', n⟩, u, hguard, h⟩ := run_bind_done.1 h
    obtain rfl : o' = o := mutableArray_done ho hguard
    obtain ⟨elements, w, helements, h⟩ := run_bind_done.1 h
    obtain ⟨f', w', hf, h⟩ := run_bind_done.1 h
    rw [run_callbackAt rest hv] at hf
    cases hf
    exact ⟨n, u, elements, w, hguard, helements, h⟩
  · rintro ⟨n, u, elements, w, hguard, helements, h⟩
    exact run_bind_done.2 ⟨(o, n), u, hguard, run_bind_done.2 ⟨elements, w, helements,
      run_bind_done.2 ⟨f, w, run_callbackAt rest hv "sort" w, h⟩⟩⟩

/-- What is left of a sort is a part of it. -/
lemma mem_moments_sortArray {chronicle : Chronicle} {this : Value} {o : Ref} {n : Nat} {v : Value}
    {rest elements : List Value} {f : Ref} (hv : v.raw.callable? = some f) {s u w : State}
    (hguard : (mutableArray this "sort").run serve fuel s = .done (o, n) u)
    (helements : (elementsOf o).run serve fuel u = .done elements w) {cs : List Control}
    {x : Moment} (hx : x ∈ (sortBy this o n elements (some (f, v.label))).moments serve chronicle
      fuel cs w) : x ∈ (sortArray this (v :: rest)).moments serve chronicle fuel cs s := by
  rw [sortArray_eq this rest hv]
  exact mem_moments_rest hguard (mem_moments_rest helements
    (mem_moments_rest (run_callbackAt rest hv "sort" w) (mem_moments_rest (run_pure ..) hx)))

/-- A sort puts elements back that carry the label of its comparator, or has not called it. -/
lemma sortBy_done {this : Value} {o : Ref} {n : Nat} {elements : List Value} {f : Ref} {k : Label}
    {s t : State} {r : Value}
    (h : (sortBy this o n elements (some (f, k))).run serve fuel s = .done r t) :
    (∃ vs u, (writeBack o vs n).run serve fuel u = .done () t ∧
      (∀ v ∈ vs, k.leq v.label = true) ∧
      ∀ chronicle cs, ⟨writeBack o vs n, u, cs, .done () t⟩ ∈
        (sortBy this o n elements (some (f, k))).moments serve chronicle fuel cs s) ∨
    ∀ other, (sortBy this o n elements other).run serve fuel s = .done r t := by
  obtain ⟨⟨sorted, compared⟩, u, hsort, hback⟩ := run_bind_done.1 h
  have hrest := hback
  dsimp only at hback
  split at hback
  · cases hback
  rename_i hfailure
  obtain ⟨⟨⟩, w, hwrite, hback⟩ := run_bind_done.1 hback
  cases hback
  rcases sort_marked hsort with hmarked | hother
  · refine .inl ⟨_, u, hwrite, fun v hv => ?_, fun chronicle cs => ?_⟩
    · obtain ⟨x, -, rfl⟩ := List.mem_map.1 hv
      rcases hmarked with hlabel | hfailed
      · rw [Label.leq_iff] at hlabel ⊢
        rw [Value.height_wrap]
        omega
      · rw [hfailure] at hfailed
        cases hfailed
    · refine mem_moments_rest hsort ?_
      dsimp only
      rw [hfailure]
      refine mem_moments_first _ ?_
      rw [← hwrite]
      exact mem_moments_self _ cs u
  · exact .inr fun other => run_bind_done.2 ⟨_, u, hother other, hrest⟩

/-! ## The theorem -/

section

variable {hosts : Hosts} {m : ArrayFn} {f : Ref} {s : State}

/-- Calling a built-in method of arrays. -/
lemma perform_arrayMethod (hosts : Hosts) (hf : (s.store.heap.get f.id).arrayMethod? = some m)
    (this : Value) (args : List Value) :
    ∃ k, perform hosts (.call f this args) = object f.id >>= k ∧
      k (s.store.heap.get f.id) = arrayMethod m this args := by
  refine ⟨_, rfl, ?_⟩
  unfold Object.arrayMethod? at hf
  split at hf
  · rename_i hbehaviour
    cases hf
    rw [hbehaviour]
    rfl
  · cases hf

lemma machine_arrayMethod (hf : (s.store.heap.get f.id).arrayMethod? = some m)
    (rounds levels : Nat) (this : Value) (args : List Value) :
    machine hosts rounds (levels + 1) (.call f this args) s =
      (arrayMethod m this args).run (machine hosts rounds levels) rounds s := by
  obtain ⟨k, hperform, hk⟩ := perform_arrayMethod hosts hf this args
  rw [machine_succ, hperform, run_bind, run_object]
  dsimp only
  rw [hk]

lemma mem_machineChronicle_arrayMethod (hf : (s.store.heap.get f.id).arrayMethod? = some m)
    {rounds levels : Nat} {this : Value} {args : List Value} {cs : List Control} {w : Moment}
    (hw : w ∈ (arrayMethod m this args).momentsOn hosts rounds levels cs s) :
    w ∈ machineChronicle hosts rounds (levels + 1) (.call f this args) cs s := by
  obtain ⟨k, hperform, hk⟩ := perform_arrayMethod hosts hf this args
  rw [machineChronicle, hperform]
  refine mem_moments_rest (run_object ..) ?_
  rw [hk]
  exact hw

/-- **Changes of arrays are checked.** A built-in method that changes its receiver, called at any
program counter that includes the label of the receiver, is refused and changes nothing, or the
receiver ranks with the program counter and the receiver's label, or above. Then everything that
the receiver holds afterwards is classified at least as the arguments that choose positions or
the order, provided that its partition is. A sort by a function that ends normally does not need
that: the elements that it puts back are as they were or carry the label of the function, unless
the function has not been called, so that the call ends in the same way with every other one. -/
theorem array_change_guarded (hhosts : hosts.Scripted) {name : String}
    (hm : changing? m = some name) (hf : (s.store.heap.get f.id).arrayMethod? = some m)
    {this : Value} {o : Ref} (ho : this.raw = .object o) (hbound : o.id < s.store.heap.size)
    (hreceiver : this.label.leq s.control.pc = true) (args : List Value) (rounds levels : Nat)
    (cs : List Control) :
    let serve := machine hosts rounds (levels + 1)
    let out := serve (.call f this args) s
    let new := out.state.store.heap
    (∃ v t, out = .failed (.violation v) t ∧ v.target = name ∧ t.store.heap = s.store.heap) ∨
    ((s.control.pc.join this.label).leq (new.get o.id).partition = true ∧
      ((choiceLabel m args).leq (s.store.heap.get o.id).partition = true →
        ∀ n q, (new.get o.id).own? n = some q →
          (choiceLabel m args).leq (q.value.label.join (new.get o.id).partition) = true) ∧
      (m = .sort → ∀ v rest c r t, args = v :: rest → v.raw.callable? = some c →
        out = .done r t →
        (∃ vs n u, ⟨writeBack o vs n, u, cs, .done () t⟩ ∈
            machineChronicle hosts rounds (levels + 1) (.call f this args) cs s ∧
          (u.store.heap.ElementsPlain o.id →
            u.store.heap.Relabels t.store.heap o.id v.label)) ∨
        ∀ other : Value, other.raw.callable?.isSome = true →
          serve (.call f this (other :: rest)) s = .done r t)) := by
  intro serve out new
  have hout : out = (arrayMethod m this args).run (machine hosts rounds levels) rounds s :=
    machine_arrayMethod hf rounds levels this args
  have hpartition : (new.get o.id).partition = (s.store.heap.get o.id).partition :=
    machine_keepsPartition hhosts rounds (levels + 1) _ s hbound
  -- the guard refuses, or the program counter is not above the partition
  by_cases hless : (s.store.heap.get o.id).partition.less s.control.pc = true
  · obtain ⟨rest, hrest⟩ := arrayMethod_eq hm this args
    obtain ⟨t, hrefused, hheap⟩ :=
      run_mutableArray_refused (machine hosts rounds levels) rounds ho name hless
    refine .inl ⟨⟨name, s.control.pc, (s.store.heap.get o.id).partition,
      s.control.file, 0⟩, t, ?_, rfl, hheap⟩
    rw [hout, hrest, run_bind, hrefused]
  refine .inr ⟨?_, fun hchoice n q _ => ?_, ?_⟩
  · rw [hpartition]
    have hpc := Label.leq_iff.1 (Label.leq_of_not_less hless)
    rw [Label.leq_iff] at hreceiver ⊢
    rw [Label.height_join]
    omega
  · rw [hpartition]
    rw [Label.leq_iff] at hchoice ⊢
    rw [Label.height_join]
    omega
  -- a sort writes back what the comparator has chosen, or the comparator has not been called
  · rintro rfl v rest c r t rfl hc hdone
    have hsort : (sortArray this (v :: rest)).run (machine hosts rounds levels) rounds s =
      .done r t := hout ▸ hdone
    obtain ⟨n, u, elements, w, hguard, helements, hback⟩ := (run_sortArray ho rest hc).1 hsort
    rcases sortBy_done hback with ⟨vs, x, hwrite, hlabels, hmem⟩ | hother
    · exact .inl ⟨vs, n, x, mem_machineChronicle_arrayMethod hf
        (mem_moments_sortArray hc hguard helements (hmem _ cs)),
        fun hplain => relabels_writeBack hlabels hplain hwrite⟩
    · refine .inr fun other hcallable => ?_
      obtain ⟨c', hc'⟩ := Option.isSome_iff_exists.1 hcallable
      exact (machine_arrayMethod hf rounds levels this (other :: rest)).trans
        ((run_sortArray ho rest hc').2 ⟨n, u, elements, w, hguard, helements, hother _⟩)

end

/-- A state at a raised program counter, and the method that is asked to change an array there. -/
def pushRef : Ref :=
  (((secretRegion.store.heap.get secretRegion.control.realm.arrayProto).own? "push").bind
    (·.value.raw.object?)).getD ⟨0, .native⟩

set_option maxRecDepth 100000 in
/-- In a region of a secret, an object that was there before cannot be pushed to. -/
theorem array_change_refused_in_region : ∃ v t,
    machine .none 50 (50 + 1) (.call pushRef
      (Raw.object ⟨secretRegion.control.realm.arrayProto, .plain⟩) [Raw.bool true]) secretRegion =
        .failed (.violation v) t ∧
    v.target = "push" ∧ t.store.heap = secretRegion.store.heap := by
  obtain ⟨hlow, hbound, hpush⟩ : ¬secretRegion.control.pc.leq
        (secretRegion.store.heap.get secretRegion.control.realm.arrayProto).partition = true ∧
      secretRegion.control.realm.arrayProto < secretRegion.store.heap.size ∧
      (secretRegion.store.heap.get pushRef.id).arrayMethod? = some .push := by
    decide +kernel
  -- the rest holds of any state
  generalize secretRegion = s at *
  generalize pushRef = f at *
  have hthis : (Value.plain (.object ⟨s.control.realm.arrayProto, .plain⟩)).raw =
      .object ⟨s.control.realm.arrayProto, .plain⟩ := rfl
  rcases array_change_guarded scripted_none (rfl : changing? .push = some "push") hpush hthis hbound
    (Label.none_leq _) [Raw.bool true] 50 50 [] with hrefused | ⟨hleq, -, -⟩
  · exact hrefused
  · rw [machine_keepsPartition scripted_none 50 (50 + 1) _ s hbound, Label.leq_iff,
      Label.height_join] at hleq
    rw [Label.leq_iff] at hlow
    omega

/-- A script that calls `push` with a classified receiver. -/
def borrowedPush : Action Value := evaluate "var o = {}; [].push.call(label('H', o));" "" 1

/-- An action ends normally, and a global then refers to an object with a length whose partition
does not rank with a label. -/
def lengthBelow (p : Action Value) (bound : Nat) (s : State) (name : String) (k : Label) : Bool :=
  match p.run (machine .none bound bound) bound s with
  | .done _ t =>
    match ((t.store.heap.get t.control.realm.global).own? name).bind (·.value.raw.object?) with
    | some o => (t.store.heap.get o.id).hasOwn "length" && !k.leq (t.store.heap.get o.id).partition
    | none => false
  | _ => false

lemma exists_of_lengthBelow {p : Action Value} {bound : Nat} {s : State} {name : String} {k : Label}
    (h : lengthBelow p bound s name k = true) : ∃ v t o,
      p.run (machine .none bound bound) bound s = .done v t ∧
      ((t.store.heap.get t.control.realm.global).own? name).bind (·.value.raw.object?) = some o ∧
      (t.store.heap.get o.id).hasOwn "length" = true ∧
      ¬k.leq (t.store.heap.get o.id).partition = true := by
  unfold lengthBelow at h
  split at h
  · rename_i v t hrun
    split at h
    · rename_i o ho
      rw [Bool.and_eq_true, Bool.not_eq_true'] at h
      exact ⟨v, t, o, hrun, ho, h.1, by rw [h.2]; decide⟩
    · cases h
  · cases h

set_option maxRecDepth 100000 in
/-- The receiver of `push` is classified when the method is called through `call`, and the call is
not refused, although the receiver is in a lower partition: it gets a length. -/
theorem push_by_call_not_refused : ∃ v t o,
    borrowedPush.run (machine .none 50 50) 50 (Session.fresh .standard) = .done v t ∧
    ((t.store.heap.get t.control.realm.global).own? "o").bind (·.value.raw.object?) = some o ∧
    (t.store.heap.get o.id).hasOwn "length" = true ∧
    ¬Label.leq ⟨2, "H"⟩ (t.store.heap.get o.id).partition = true :=
  exists_of_lengthBelow (by rw [borrowedPush, evaluate_ofList]; decide +kernel)

end Clearance
