/-
# Sorting is stable

What the sort asks is a decision tree (`Quiz`): a question compares two elements, and the answer
decides what is asked next. A run of the sort in any monad follows a path of the tree, so what holds
at the end of all paths on which the answers are right holds of all runs with such answers.

Whatever the answers are, the result is a permutation of the list (`Rearranges.perm`). If they come
from a strict weak order, the result is sorted and the elements that are tied with one another are
in the order they had (`Sorts`). Both are shown in one induction: `A` says that the answers can be
relied on.

An insertion moves an element past those it is less than, and a merge of two sorted blocks moves a
part of the second block past a part of the first one. The merge finds the two parts by bisection:
they are the right ones if all of the second part that moves is less than all of the first, and none
of what stays is (`Splits`).
-/
import Clearance.Proofs.Sorting
import Mathlib

namespace Clearance.Sort

variable {α β γ : Type}

/-! ## Decision trees -/

/-- A decision tree over comparisons. -/
inductive Quiz (α β : Type) where
  | done (b : β)
  | ask (x y : α) (next : Bool → Quiz α β)

namespace Quiz

/-- Goes on with the result of a tree. -/
def andThen (k : β → Quiz α γ) : Quiz α β → Quiz α γ
  | done b => k b
  | ask x y next => ask x y fun answer => (next answer).andThen k

instance : Monad (Quiz α) where
  pure := done
  bind q k := q.andThen k

/-- The tree that asks one question. -/
def question (x y : α) : Quiz α Bool := ask x y done

/-- A path of a tree, with its answers, and its result. -/
inductive Leads : Quiz α β → List (α × α × Bool) → β → Prop where
  | done (b : β) : Leads (done b) [] b
  | ask {x y : α} {next : Bool → Quiz α β} {answer : Bool} {path : List (α × α × Bool)} {b : β}
    (h : Leads (next answer) path b) : Leads (ask x y next) ((x, y, answer) :: path) b

/-- The results of all paths whose answers are admitted have a property. -/
def Ensures (G : α → α → Bool → Prop) (Q : β → Prop) : Quiz α β → Prop
  | done b => Q b
  | ask x y next => ∀ answer, G x y answer → (next answer).Ensures G Q

variable {G : α → α → Bool → Prop} {Q : β → Prop} {R : γ → Prop}

lemma Leads.bind {q : Quiz α β} {k : β → Quiz α γ} {path path' : List (α × α × Bool)}
    {b : β} {c : γ}
    (hq : q.Leads path b) (hk : (k b).Leads path' c) : (q >>= k).Leads (path ++ path') c := by
  induction hq with
  | done b => exact hk
  | ask _ ih => exact .ask (ih hk)

lemma Leads.of_ensures {q : Quiz α β} {path : List (α × α × Bool)} {b : β} (h : q.Leads path b)
    (hq : q.Ensures G Q) (hpath : ∀ e ∈ path, G e.1 e.2.1 e.2.2) : Q b := by
  induction h with
  | done b => exact hq
  | ask _ ih =>
    obtain ⟨hfirst, hrest⟩ := List.forall_mem_cons.1 hpath
    exact ih (hq _ hfirst) hrest

lemma Ensures.bind {q : Quiz α β} {k : β → Quiz α γ} (hq : q.Ensures G Q)
    (hk : ∀ b, Q b → (k b).Ensures G R) : (q >>= k).Ensures G R := by
  induction q with
  | done b => exact hk b hq
  | ask x y next ih => exact fun answer hanswer => ih answer (hq answer hanswer)

lemma Ensures.mono {q : Quiz α β} {Q' : β → Prop} (hq : q.Ensures G Q) (h : ∀ b, Q b → Q' b) :
    q.Ensures G Q' := by
  induction q with
  | done b => exact h b hq
  | ask x y next ih => exact fun answer hanswer => ih answer (hq answer hanswer)

/-- A choice between two trees that go on in the same way. -/
lemma Ensures.ite_bind {c : Prop} [Decidable c] {p q : Quiz α β} {k : β → Quiz α γ}
    (h : (if c then p else q).Ensures G Q) (hk : ∀ b, Q b → (k b).Ensures G R) :
    (if c then p >>= k else q >>= k).Ensures G R := by
  split_ifs at h ⊢ <;> exact h.bind hk

end Quiz

/-! ## Sorted rearrangements -/

/-- Neither of two elements is less than the other. -/
def Tied (lt : α → α → Prop) (a b : α) : Prop := ¬lt a b ∧ ¬lt b a

/-- No element is less than one before it. -/
def Sorted (lt : α → α → Prop) (xs : List α) : Prop := xs.Pairwise fun a b => ¬lt b a

open Classical in
/-- The elements that are tied with a given one, in their order. -/
noncomputable def tiedWith (lt : α → α → Prop) (v : α) (xs : List α) : List α :=
  xs.filter fun a => Tied lt v a

/-- A permutation. If something is granted, tied elements have kept their order. -/
structure Rearranges (A : Prop) (lt : α → α → Prop) (xs ys : List α) : Prop where
  perm : ys.Perm xs
  stable : A → ∀ v, tiedWith lt v ys = tiedWith lt v xs

/-- A permutation. If something is granted, it is sorted and tied elements have kept their order. -/
structure Sorts (A : Prop) (lt : α → α → Prop) (xs ys : List α) : Prop
    extends Rearranges A lt xs ys where
  sorted : A → Sorted lt ys

section

variable {A : Prop} {lt : α → α → Prop} {xs ys zs as bs cs ds : List α}

/-- What is not less cannot become less by way of a third element. -/
lemma not_lt_trans [IsStrictWeakOrder α lt] {a b c : α} (hab : ¬lt a b) (hbc : ¬lt b c) :
    ¬lt a c := by
  intro hac
  have hba : ¬lt b a := fun h => hbc (IsTrans.trans b a c h hac)
  have hcb : ¬lt c b := fun h => hab (IsTrans.trans a c b hac h)
  exact (IsStrictWeakOrder.incomp_trans a b c ⟨hab, hba⟩ ⟨hbc, hcb⟩).1 hac

lemma tiedWith_append (lt : α → α → Prop) (v : α) (xs ys : List α) :
    tiedWith lt v (xs ++ ys) = tiedWith lt v xs ++ tiedWith lt v ys := List.filter_append ..

lemma tiedWith_eq_nil {v : α} : tiedWith lt v xs = [] ↔ ∀ a ∈ xs, ¬Tied lt v a := by
  simp [tiedWith]

lemma sorted_of_length_le_one (h : xs.length ≤ 1) : Sorted lt xs := by
  rcases xs with _ | ⟨x, _ | ⟨y, xs⟩⟩
  · exact .nil
  · exact List.pairwise_singleton ..
  · simp at h

namespace Rearranges

lemma refl (xs : List α) : Rearranges A lt xs xs := ⟨.refl xs, fun _ _ => rfl⟩

lemma trans (h : Rearranges A lt xs ys) (h' : Rearranges A lt ys zs) : Rearranges A lt xs zs :=
  ⟨h'.perm.trans h.perm, fun ha v => (h'.stable ha v).trans (h.stable ha v)⟩

lemma append (h : Rearranges A lt xs ys) (h' : Rearranges A lt as bs) :
    Rearranges A lt (xs ++ as) (ys ++ bs) := by
  refine ⟨h.perm.append h'.perm, fun ha v => ?_⟩
  rw [tiedWith_append, tiedWith_append, h.stable ha v, h'.stable ha v]

/-- What is less than its neighbours may move past them. -/
lemma swap (horder : A → IsStrictWeakOrder α lt) (hless : A → ∀ a ∈ as, ∀ b ∈ bs, lt b a) :
    Rearranges A lt (as ++ bs) (bs ++ as) := by
  refine ⟨List.perm_append_comm, fun ha v => ?_⟩
  have := horder ha
  rw [tiedWith_append, tiedWith_append]
  -- if both parts had an element tied with `v`, these would be tied with one another
  by_cases has : ∃ a ∈ as, Tied lt v a
  · obtain ⟨a, hmem, htied⟩ := has
    have hnone : tiedWith lt v bs = [] := tiedWith_eq_nil.2 fun b hb hb' =>
      not_lt_trans hb'.2 htied.1 (hless ha a hmem b hb)
    rw [hnone, List.nil_append, List.append_nil]
  · have hnone : tiedWith lt v as = [] := tiedWith_eq_nil.2 fun a hmem htied => has ⟨a, hmem, htied⟩
    rw [hnone, List.nil_append, List.append_nil]

end Rearranges

namespace Sorts

lemma nil : Sorts A lt [] [] := ⟨.refl _, fun _ => .nil⟩

lemma of_sorted (h : A → Sorted lt xs) : Sorts A lt xs xs := ⟨.refl _, h⟩

/-- Two sorted parts, of which the second has nothing that is less than something of the first. -/
lemma append (h : Sorts A lt xs ys) (h' : Sorts A lt as bs)
    (hbetween : A → ∀ x ∈ xs, ∀ a ∈ as, ¬lt a x) : Sorts A lt (xs ++ as) (ys ++ bs) :=
  ⟨h.toRearranges.append h'.toRearranges, fun ha =>
    List.pairwise_append.2 ⟨h.sorted ha, h'.sorted ha,
    fun x hx a ha' => hbetween ha x (h.perm.subset hx) a (h'.perm.subset ha')⟩⟩

lemma after (h : Rearranges A lt xs ys) (h' : Sorts A lt ys zs) : Sorts A lt xs zs :=
  ⟨h.trans h'.toRearranges, h'.sorted⟩

end Sorts

end

/-! ## Insertion -/

section

variable {A : Prop} {lt : α → α → Prop}

/-- An answer that is right if something is granted. -/
def Right (A : Prop) (lt : α → α → Prop) (x y : α) (answer : Bool) : Prop :=
  A → (answer = true ↔ lt x y)

variable (horder : A → IsStrictWeakOrder α lt)
include horder

/-- An element is inserted behind those that it is not less than, by induction on the sorted list,
which is given last element first. -/
lemma insertBack_ensures (x : α) {xs : List α} (hxs : A → Sorted lt xs.reverse) :
    (insertBack Quiz.question x xs).Ensures (Right A lt) fun ys =>
      Sorts A lt (xs.reverse ++ [x]) ys.reverse := by
  induction xs with
  | nil => exact Sorts.of_sorted fun _ => List.pairwise_singleton ..
  | cons y ys ih =>
    have hys : A → Sorted lt ys.reverse ∧ ∀ z ∈ ys.reverse, ¬lt y z := fun ha => by
      have h := List.pairwise_append.1 (List.reverse_cons ▸ hxs ha)
      exact ⟨h.1, fun z hz => h.2.2 z hz y (List.mem_singleton_self y)⟩
    unfold insertBack
    refine Quiz.Ensures.bind (Q := fun answer => A → (answer = true ↔ lt x y)) (fun answer h => h)
      fun answer hanswer => ?_
    -- the new element goes on past `y`, or it stays behind it
    cases answer with
    | true =>
      refine (ih fun ha => (hys ha).1).bind fun rest hrest => ?_
      change Sorts A lt ((y :: ys).reverse ++ [x]) (y :: rest).reverse
      rw [List.reverse_cons, List.reverse_cons]
      have hlast : A → lt x y := fun ha => (hanswer ha).1 rfl
      have hmoved : Rearranges A lt (ys.reverse ++ [y] ++ [x]) (ys.reverse ++ [x] ++ [y]) := by
        rw [List.append_assoc, List.append_assoc]
        refine (Rearranges.refl _).append (.swap horder fun ha => ?_)
        simpa using hlast ha
      refine .after hmoved (hrest.append
        (.of_sorted fun _ => sorted_of_length_le_one (Nat.le_refl 1)) fun ha => ?_)
      intro z hz y' hy'
      obtain rfl := List.mem_singleton.1 hy'
      have := horder ha
      rcases List.mem_append.1 hz with hz | hz
      · exact (hys ha).2 z hz
      · obtain rfl := List.mem_singleton.1 hz
        exact fun h => irrefl_of lt _ (IsTrans.trans _ _ _ h (hlast ha))
    | false =>
      change Sorts A lt ((y :: ys).reverse ++ [x]) (x :: y :: ys).reverse
      rw [show (x :: y :: ys).reverse = (y :: ys).reverse ++ [x] from List.reverse_cons]
      refine Sorts.append (.of_sorted hxs)
        (.of_sorted fun _ => sorted_of_length_le_one (Nat.le_refl 1)) fun ha => ?_
      intro z hz x' hx'
      obtain rfl := List.mem_singleton.1 hx'
      have := horder ha
      have hnot : ¬lt x' y := fun h => absurd ((hanswer ha).2 h) (by decide)
      rw [List.reverse_cons] at hz
      rcases List.mem_append.1 hz with hz | hz
      · exact not_lt_trans hnot ((hys ha).2 z hz)
      · obtain rfl := List.mem_singleton.1 hz
        exact hnot

lemma insertAll_ensures {sorted xs : List α} (hsorted : A → Sorted lt sorted.reverse) :
    (insertAll Quiz.question sorted xs).Ensures (Right A lt)
    (Sorts A lt (sorted.reverse ++ xs)) := by
  induction xs generalizing sorted with
  | nil =>
    rw [List.append_nil]
    exact Sorts.of_sorted hsorted
  | cons x xs ih =>
    refine (insertBack_ensures horder x hsorted).bind fun ys hys => ?_
    refine (ih hys.sorted).mono fun zs hzs => ?_
    rw [List.append_cons]
    exact .after (hys.toRearranges.append (.refl xs)) hzs

end

/-! ## Bisection -/

section

variable {A : Prop} {lt : α → α → Prop} {xs : List α}

/-- The element at one place is less than the element at another one. -/
def LessAt (lt : α → α → Prop) (xs : List α) (i j : Nat) : Prop :=
  ∃ x y, xs[i]? = some x ∧ xs[j]? = some y ∧ lt x y

lemma lessAt_ensures (xs : List α) (i j : Nat) : (lessAt Quiz.question xs i j).Ensures (Right A lt)
    fun answer => A → (answer = true ↔ LessAt lt xs i j) := by
  unfold lessAt LessAt
  rcases hx : xs[i]? with _ | x
  · intro _
    simp
  rcases hy : xs[j]? with _ | y
  · intro _
    simp
  · intro answer hanswer ha
    rw [hanswer ha]
    simp

lemma notLessAt_ensures (xs : List α) (i j : Nat) :
    (do return !(← lessAt Quiz.question xs i j) : Quiz α Bool).Ensures (Right A lt)
      fun answer => A → (answer = true ↔ ¬LessAt lt xs i j) := by
  refine (lessAt_ensures xs i j).bind fun answer hanswer ha => ?_
  rw [← hanswer ha]
  simp

/-- Bisection ends where the test changes. Nothing is said about other places. -/
lemma bisect_ensures {right : Nat → Quiz α Bool} {P : Nat → Prop} {lo hi fuel : Nat} (hle : lo ≤ hi)
    (hfuel : hi ≤ fuel)
    (hright : ∀ h, (right h).Ensures (Right A lt) fun answer => A → (answer = true ↔ P h)) :
    (bisect right fuel lo hi).Ensures (Right A lt) fun r =>
      lo ≤ r ∧ r ≤ hi ∧ (A → (lo < r → P (r - 1)) ∧ (r < hi → ¬P r)) := by
  -- the test says yes before `i` and no from `j` on
  suffices hsteps : ∀ fuel i j, lo ≤ i → i ≤ j → j ≤ hi → j - i ≤ fuel →
      (A → (lo < i → P (i - 1)) ∧ (j < hi → ¬P j)) →
      (bisect right fuel i j).Ensures (Right A lt) fun r =>
        lo ≤ r ∧ r ≤ hi ∧ (A → (lo < r → P (r - 1)) ∧ (r < hi → ¬P r)) from
    hsteps fuel lo hi (Nat.le_refl _) hle (Nat.le_refl _) (by omega) fun _ =>
      ⟨fun h => absurd h (Nat.lt_irrefl _), fun h => absurd h (Nat.lt_irrefl _)⟩
  intro fuel
  induction fuel with
  | zero =>
    intro i j hi' hij hj hfuel hends
    obtain rfl : i = j := by omega
    exact ⟨hi', hj, hends⟩
  | succ fuel ih =>
    intro i j hi' hij hj hfuel hends
    unfold bisect
    split_ifs with hlt
    · refine (hright _).bind fun answer hanswer => ?_
      cases answer with
      | true => exact ih _ _ (by omega) (by omega) hj (by omega) fun ha =>
          ⟨fun _ => (hanswer ha).1 rfl, (hends ha).2⟩
      | false => exact ih _ _ hi' (by omega) (by omega) (by omega) fun ha =>
          ⟨(hends ha).1, fun _ h => absurd ((hanswer ha).2 h) (by decide)⟩
    · obtain rfl : i = j := by omega
      exact ⟨hi', hj, hends⟩

end

/-! ## Merging -/

section

variable {A : Prop} {lt : α → α → Prop} {xs left right : List α} {start cut stop : Nat}

/-- The parts of two sorted blocks that change places, `[start, cut)` and `[cut, stop)`: all of the
second one is less than all of the first one, and what stays behind is not less than what stays in
front. -/
structure Splits (lt : α → α → Prop) (xs : List α) (start cut stop : Nat) : Prop where
  moves : ∀ a ∈ (xs.drop start).take (cut - start), ∀ b ∈ (xs.drop cut).take (stop - cut), lt b a
  stays : ∀ a ∈ xs.take start, ∀ b ∈ xs.drop stop, ¬lt b a

lemma exists_of_mem_slice {i k : Nat} {a : α} (h : a ∈ (xs.drop i).take k) :
    ∃ p, i ≤ p ∧ p < i + k ∧ xs[p]? = some a := by
  obtain ⟨p, hp, rfl⟩ := List.mem_take_iff_getElem.1 h
  rw [List.length_drop] at hp
  refine ⟨i + p, by omega, by omega, ?_⟩
  rw [List.getElem_drop, List.getElem?_eq_getElem]

/-- An element of a sorted list is not less than the ones before it, nor than itself. -/
lemma Sorted.not_lt [IsStrictWeakOrder α lt] (h : Sorted lt xs) {p q : Nat} (hpq : p ≤ q) {a b : α}
    (ha : xs[p]? = some a) (hb : xs[q]? = some b) : ¬lt b a := by
  rcases Nat.eq_or_lt_of_le hpq with rfl | hlt
  · obtain rfl := Option.some.inj (ha.symm.trans hb)
    exact irrefl_of lt a
  · obtain ⟨hp, rfl⟩ := List.getElem?_eq_some_iff.1 ha
    obtain ⟨hq, rfl⟩ := List.getElem?_eq_some_iff.1 hb
    exact List.pairwise_iff_getElem.1 h p q hp hq hlt

/-- Two sorted blocks are split rightly when the elements next to the cuts are in order. -/
lemma splits_of_ends [IsStrictWeakOrder α lt] (hfirst : Sorted lt (xs.take cut))
    (hsecond : Sorted lt (xs.drop cut)) (hstart : start ≤ cut) (hstop : cut ≤ stop)
    (hmoves : start < cut → cut < stop → LessAt lt xs (stop - 1) start)
    (hstays : 0 < start → stop < xs.length → ¬LessAt lt xs stop (start - 1)) :
    Splits lt xs start cut stop := by
  have hin : ∀ {p q : Nat} {a b : α}, p ≤ q → q < cut → xs[p]? = some a →
      xs[q]? = some b → ¬lt b a :=
    fun hpq hq ha hb => hfirst.not_lt hpq (by rwa [List.getElem?_take_of_lt (by omega)])
      (by rwa [List.getElem?_take_of_lt hq])
  have hbeyond : ∀ {p q : Nat} {a b : α}, cut ≤ p → p ≤ q → xs[p]? = some a → xs[q]? = some b →
      ¬lt b a := fun {p q _ _} hp hpq ha hb => by
    refine hsecond.not_lt (p := p - cut) (q := q - cut) (by omega) ?_ ?_
    · rwa [List.getElem?_drop, Nat.add_sub_cancel' hp]
    · rwa [List.getElem?_drop, Nat.add_sub_cancel' (hp.trans hpq)]
  refine ⟨fun a ha b hb => ?_, fun a ha b hb => ?_⟩
  · obtain ⟨p, hp, hp', ha⟩ := exists_of_mem_slice ha
    obtain ⟨q, hq, hq', hb⟩ := exists_of_mem_slice hb
    obtain ⟨x, y, hx, hy, hxy⟩ := hmoves (by omega) (by omega)
    by_contra hba
    exact not_lt_trans (hbeyond hq (by omega) hb hx)
      (not_lt_trans hba (hin hp (by omega) hy ha)) hxy
  · obtain ⟨p, hp, rfl⟩ := List.mem_take_iff_getElem.1 ha
    obtain ⟨q, hq, rfl⟩ := List.mem_drop_iff_getElem.1 hb
    have hend : stop < xs.length := by omega
    have hlast : start - 1 < xs.length := by omega
    have hq : stop + q < xs.length := by omega
    have hp : p < xs.length := by omega
    have hx : xs[stop]? = some xs[stop] := List.getElem?_eq_getElem hend
    have hy : xs[start - 1]? = some xs[start - 1] := List.getElem?_eq_getElem hlast
    have hxy : ¬lt xs[stop] xs[start - 1] := fun h => hstays (by omega) hend ⟨_, _, hx, hy, h⟩
    have hbx : ¬lt xs[stop + q] xs[stop] :=
      hbeyond hstop (Nat.le_add_right _ _) hx (List.getElem?_eq_getElem hq)
    have hya : ¬lt xs[start - 1] xs[p] :=
      hin (by omega) (by omega) (List.getElem?_eq_getElem hp) hy
    exact not_lt_trans hbx (not_lt_trans hxy hya)

lemma take_eq_append (xs : List α) (hstart : start ≤ cut) :
    xs.take cut = xs.take start ++ (xs.drop start).take (cut - start) := by
  rw [← List.take_add, Nat.add_sub_cancel' hstart]

lemma drop_eq_append (xs : List α) (hstop : cut ≤ stop) :
    xs.drop cut = (xs.drop cut).take (stop - cut) ++ xs.drop stop := by
  conv_lhs => rw [← List.take_append_drop (stop - cut) (xs.drop cut), List.drop_drop,
    Nat.add_sub_cancel' hstop]

lemma rotate_eq (xs : List α) (a b c : Nat) : rotate xs a b c =
    (xs.take a ++ (xs.drop b).take (c - b)) ++ ((xs.drop a).take (b - a) ++ xs.drop c) := by
  rw [rotate, List.append_assoc]

/-- With or without the exchange, the parts come in this order. -/
lemma exchange_eq (xs : List α) (hstart : start ≤ cut) (hstop : cut ≤ stop) :
    (if start < cut ∧ cut < stop then rotate xs start cut stop else xs) =
      (xs.take start ++ (xs.drop cut).take (stop - cut)) ++
        ((xs.drop start).take (cut - start) ++ xs.drop stop) := by
  split_ifs with hrotate
  · exact rotate_eq ..
  · rcases Nat.lt_or_ge start cut with hlt | hge
    · obtain rfl : stop = cut := by omega
      rw [Nat.sub_self, List.take_zero, List.append_nil, ← List.append_assoc,
        ← take_eq_append xs hstart, List.take_append_drop]
    · obtain rfl : start = cut := by omega
      rw [Nat.sub_self, List.take_zero, List.nil_append, List.append_assoc,
        ← drop_eq_append xs hstop, List.take_append_drop]

/-- After an exchange of the parts, the two sides are sorted on their own. -/
lemma Splits.sorts (horder : A → IsStrictWeakOrder α lt) (hfirst : A → Sorted lt (xs.take cut))
    (hsecond : A → Sorted lt (xs.drop cut)) (hstart : start ≤ cut) (hstop : cut ≤ stop)
    (h : A → Splits lt xs start cut stop)
    (hleft : Sorts A lt (xs.take start ++ (xs.drop cut).take (stop - cut)) left)
    (hright : Sorts A lt ((xs.drop start).take (cut - start) ++ xs.drop stop) right) :
    Sorts A lt xs (left ++ right) := by
  have htake := take_eq_append xs hstart
  have hdrop := drop_eq_append xs hstop
  have hmoved : Rearranges A lt xs (xs.take start ++ (xs.drop cut).take (stop - cut) ++
      ((xs.drop start).take (cut - start) ++ xs.drop stop)) := by
    have hswap := (show Rearranges A lt (xs.take start) _ from .refl _).append
      ((Rearranges.swap horder fun ha => (h ha).moves).append (.refl (xs.drop stop)))
    have hxs : xs.take start ++ ((xs.drop start).take (cut - start) ++
        (xs.drop cut).take (stop - cut) ++ xs.drop stop) = xs := by
      rw [List.append_assoc, ← hdrop, ← List.append_assoc, ← htake, List.take_append_drop]
    rwa [hxs, List.append_assoc, ← List.append_assoc] at hswap
  refine .after hmoved (hleft.append hright fun ha x hx a hmem => ?_)
  have := horder ha
  have hfirst' := List.pairwise_append.1 (htake ▸ hfirst ha)
  have hsecond' := List.pairwise_append.1 (hdrop ▸ hsecond ha)
  rcases List.mem_append.1 hx with hx | hx <;> rcases List.mem_append.1 hmem with hmem | hmem
  · exact hfirst'.2.2 x hx a hmem
  · exact (h ha).stays x hx a hmem
  · exact fun hlt => irrefl_of lt x (IsTrans.trans _ _ _ ((h ha).moves a hmem x hx) hlt)
  · exact hsecond'.2.2 x hx a hmem

end

section

variable {A : Prop} {lt : α → α → Prop} (horder : A → IsStrictWeakOrder α lt)
include horder

omit horder in
lemma sorted_take {xs : List α} {start cut : Nat} (hstart : start ≤ cut)
    (h : Sorted lt (xs.take cut)) :
    Sorted lt (xs.take start) :=
  (List.pairwise_append.1 (take_eq_append xs hstart ▸ h)).1

omit horder in
lemma sorted_drop {xs : List α} {cut stop : Nat} (hstop : cut ≤ stop)
    (h : Sorted lt (xs.drop cut)) :
    Sorted lt (xs.drop stop) :=
  (List.pairwise_append.1 (drop_eq_append xs hstop ▸ h)).2.1

omit horder in
lemma sorted_slice {xs : List α} {start cut : Nat} (hstart : start ≤ cut)
    (h : Sorted lt (xs.take cut)) :
    Sorted lt ((xs.drop start).take (cut - start)) :=
  (List.pairwise_append.1 (take_eq_append xs hstart ▸ h)).2.1

/-- The first block has one element, which is put where it belongs in the second one. -/
lemma sorts_rotate_first {xs : List α} {i : Nat} (hi : 1 ≤ i) (hsecond : A → Sorted lt (xs.drop 1))
    (hends : A → (1 < i → LessAt lt xs (i - 1) 0) ∧ (i < xs.length → ¬LessAt lt xs i 0)) :
    Sorts A lt xs (rotate xs 0 1 i) := by
  have hfirst : Sorted lt (xs.take 1) := sorted_of_length_le_one (by simp)
  rw [rotate_eq]
  refine Splits.sorts horder (fun _ => hfirst) hsecond (Nat.zero_le 1) hi (fun ha => ?_)
    (.of_sorted fun ha => ?_)
    (.append (.of_sorted fun _ => hfirst) (.of_sorted fun ha => ?_) fun ha => ?_)
  · have := horder ha
    exact splits_of_ends hfirst (hsecond ha) (Nat.zero_le 1) hi (fun _ => (hends ha).1)
      fun h => absurd h (Nat.lt_irrefl 0)
  · exact (hsecond ha).sublist (List.take_sublist ..)
  · exact sorted_drop hi (hsecond ha)
  · have := horder ha
    have hsplits : Splits lt xs 1 1 i := splits_of_ends hfirst (hsecond ha) (Nat.le_refl 1) hi
      (fun h => absurd h (Nat.lt_irrefl 1)) fun _ => (hends ha).2
    exact hsplits.stays

/-- The second block has one element, which is put where it belongs in the first one. -/
lemma sorts_rotate_last {xs : List α} {cut i : Nat} (hcut : xs.length = cut + 1) (hi : i ≤ cut)
    (hfirst : A → Sorted lt (xs.take cut))
    (hends : A → (0 < i → ¬LessAt lt xs cut (i - 1)) ∧ (i < cut → LessAt lt xs cut i)) :
    Sorts A lt xs (rotate xs i cut xs.length) := by
  have hsecond : Sorted lt (xs.drop cut) := sorted_of_length_le_one (by simp; omega)
  rw [rotate_eq]
  refine Splits.sorts horder hfirst (fun _ => hsecond) hi (by omega) (fun ha => ?_)
    (.append (.of_sorted fun ha => ?_) (.of_sorted fun _ => ?_) fun ha => ?_)
      (.of_sorted fun ha => ?_)
  · have := horder ha
    refine splits_of_ends (hfirst ha) hsecond hi (by omega) (fun h _ => ?_) fun _ h =>
      absurd h (Nat.lt_irrefl _)
    rw [hcut]
    exact (hends ha).2 h
  · exact sorted_take hi (hfirst ha)
  · exact hsecond.sublist (List.take_sublist ..)
  · have := horder ha
    intro x hx b hb
    have hsplits : Splits lt xs i cut cut := splits_of_ends (hfirst ha) hsecond hi (Nat.le_refl cut)
      (fun _ h => absurd h (Nat.lt_irrefl cut)) fun h _ => (hends ha).1 h
    exact hsplits.stays x hx b (List.mem_of_mem_take hb)
  · rw [List.drop_length, List.append_nil]
    exact sorted_slice hi (hfirst ha)

omit horder in
/-- The sides of a merge after the exchange. A side of one part is left as it is. -/
lemma side_ensures {fuel cut : Nat} {as bs : List α} {c : Prop} [Decidable c]
    (hmerge : 0 < cut → cut < (as ++ bs).length → (A → Sorted lt ((as ++ bs).take cut)) →
      (A → Sorted lt ((as ++ bs).drop cut)) →
      (merge Quiz.question fuel (as ++ bs) cut).Ensures (Right A lt) (Sorts A lt (as ++ bs)))
    (hcut : cut = as.length) (hc : c ↔ 0 < as.length ∧ 0 < bs.length) (has : A → Sorted lt as)
    (hbs : A → Sorted lt bs) :
    (if c then merge Quiz.question fuel (as ++ bs) cut else pure (as ++ bs)).Ensures (Right A lt)
      (Sorts A lt (as ++ bs)) := by
  subst hcut
  split_ifs with h
  · obtain ⟨hpos, hpos'⟩ := hc.1 h
    refine hmerge hpos (by simp; omega) ?_ ?_
    · rwa [List.take_left]
    · rwa [List.drop_left]
  · refine Sorts.of_sorted fun ha => ?_
    rcases Nat.eq_zero_or_pos as.length with hempty | hpos
    · rw [List.length_eq_zero_iff.1 hempty]
      exact hbs ha
    · have hempty : bs = [] := by
        rw [← List.length_eq_zero_iff]
        by_contra hne
        exact h (hc.2 ⟨hpos, Nat.pos_of_ne_zero hne⟩)
      rw [hempty, List.append_nil]
      exact has ha

/-- After the exchange, the two sides are merged on their own. -/
lemma sides_ensures {fuel start cut stop mid : Nat} {xs : List α}
    (hmerge : ∀ {ys : List α} {c : Nat}, ys.length ≤ fuel → 0 < c → c < ys.length →
      (A → Sorted lt (ys.take c)) → (A → Sorted lt (ys.drop c)) →
        (merge Quiz.question fuel ys c).Ensures (Right A lt) (Sorts A lt ys))
    (hstart : start ≤ cut) (hstop : cut ≤ stop) (hend : stop ≤ xs.length)
    (hmid : mid = start + (stop - cut)) (hleft : mid ≤ fuel) (hright : xs.length - mid ≤ fuel)
    (hfirst : A → Sorted lt (xs.take cut)) (hsecond : A → Sorted lt (xs.drop cut))
    (hsplits : A → Splits lt xs start cut stop) :
    (do
      let left ← if 0 < start ∧ start < mid then
          merge Quiz.question fuel (xs.take start ++ (xs.drop cut).take (stop - cut)) start
        else pure (xs.take start ++ (xs.drop cut).take (stop - cut))
      let right ← if mid < stop ∧ stop < xs.length then
          merge Quiz.question fuel ((xs.drop start).take (cut - start) ++ xs.drop stop) (stop - mid)
        else pure ((xs.drop start).take (cut - start) ++ xs.drop stop)
      pure (left ++ right)).Ensures (Right A lt) (Sorts A lt xs) := by
  have has : (xs.take start).length = start := List.length_take_of_le (by omega)
  have hbs : ((xs.drop cut).take (stop - cut)).length = stop - cut :=
    List.length_take_of_le (by rw [List.length_drop]; omega)
  have hcs : ((xs.drop start).take (cut - start)).length = cut - start :=
    List.length_take_of_le (by rw [List.length_drop]; omega)
  have hds : (xs.drop stop).length = xs.length - stop := List.length_drop
  refine Quiz.Ensures.ite_bind (side_ensures (hmerge ?_) has.symm ?_
    (fun ha => sorted_take hstart (hfirst ha))
    fun ha => (hsecond ha).sublist (List.take_sublist ..)) fun left' hleft' => ?_
  · rw [List.length_append, has, hbs]
    omega
  · rw [has, hbs]
    omega
  refine Quiz.Ensures.ite_bind (side_ensures (hmerge ?_) ?_ ?_
    (fun ha => sorted_slice hstart (hfirst ha)) fun ha => sorted_drop hstop (hsecond ha))
    fun right' hright' => ?_
  · rw [List.length_append, hcs, hds]
    omega
  · rw [hcs]
    omega
  · rw [hcs, hds]
    omega
  exact Splits.sorts horder hfirst hsecond hstart hstop hsplits hleft' hright'

/-- Merging two sorted blocks, by induction on the bound for the depth. -/
lemma merge_ensures {fuel : Nat} {xs : List α} {cut : Nat} (hfuel : xs.length ≤ fuel)
    (hcut : 0 < cut)
    (hcut' : cut < xs.length) (hfirst : A → Sorted lt (xs.take cut))
    (hsecond : A → Sorted lt (xs.drop cut)) :
    (merge Quiz.question fuel xs cut).Ensures (Right A lt) (Sorts A lt xs) := by
  induction fuel generalizing xs cut with
  | zero => omega
  | succ fuel ih =>
    unfold merge
    extract_lets n mid sum
    have hn : n = xs.length := rfl
    have hmid : mid = n / 2 := rfl
    have hsum : sum = mid + cut := rfl
    clear_value n mid sum
    subst hn
    by_cases hone : cut = 1
    · rw [if_pos hone]
      subst hone
      exact (bisect_ensures (P := fun h => LessAt lt xs h 0) (by omega) (Nat.le_refl _)
        fun h => lessAt_ensures ..).bind fun i hi => sorts_rotate_first horder hi.1 hsecond hi.2.2
    by_cases hlast : xs.length = cut + 1
    · rw [if_neg hone, if_pos hlast]
      refine (bisect_ensures (P := fun h => ¬LessAt lt xs cut h) (Nat.zero_le _) (by omega)
        fun h => notLessAt_ensures ..).bind fun i hi =>
          sorts_rotate_last horder hlast hi.2.1 hfirst ?_
      exact fun ha => ⟨((hi.2.2) ha).1, fun h => not_not.1 ((hi.2.2 ha).2 h)⟩
    have hrange : (if cut > mid then (sum - xs.length, mid) else (0, cut)) =
        (sum - xs.length, min mid cut) := by
      split_ifs <;> refine Prod.ext ?_ ?_ <;> dsimp only <;> omega
    rw [if_neg hone, if_neg hlast, hrange]
    refine (bisect_ensures (P := fun c => ¬LessAt lt xs (sum - 1 - c) c) (by omega) (by omega)
      fun h => notLessAt_ensures ..).bind fun start hstart => ?_
    obtain ⟨hlo, hhi, hends⟩ := hstart
    extract_lets stop xs' left right
    have hstop : stop = sum - start := rfl
    have hleft : left = xs'.take mid := rfl
    have hright : right = xs'.drop mid := rfl
    have hle : start ≤ cut := hhi.trans (min_le_right ..)
    have hge : cut ≤ stop := by omega
    have hsplits : A → Splits lt xs start cut stop := fun ha => by
      have := horder ha
      refine splits_of_ends (hfirst ha) (hsecond ha) hle hge (fun hlt _ => ?_) fun hpos hlt => ?_
      · have hyes := not_not.1 ((hends ha).2 (by omega))
        rwa [show sum - 1 - start = stop - 1 by omega] at hyes
      · have hno := (hends ha).1 (by omega)
        rwa [show sum - 1 - (start - 1) = stop by omega] at hno
    have hparts : xs' = _ := exchange_eq xs hle hge
    have hlength : (xs.take start ++ (xs.drop cut).take (stop - cut)).length = mid := by
      simp only [List.length_append, List.length_take, List.length_drop]
      omega
    rw [hparts, List.take_left' hlength] at hleft
    rw [hparts, List.drop_left' hlength] at hright
    clear_value left right
    subst hleft hright
    exact sides_ensures horder ih hle hge (by omega) (by omega) (by omega) (by omega) hfirst hsecond
      hsplits

end

/-! ## Sorting -/

section

variable {A : Prop} {lt : α → α → Prop}

/-- The blocks are the list, if there are enough. -/
lemma flatten_blocks {size fuel : Nat} (hsize : 0 < size) {xs : List α} (hfuel : xs.length ≤ fuel) :
    (blocks size fuel xs).flatten = xs := by
  induction fuel generalizing xs with
  | zero => rw [List.length_eq_zero_iff.1 (Nat.le_zero.1 hfuel)]; rfl
  | succ fuel ih =>
    unfold blocks
    split_ifs with hempty
    · rw [List.isEmpty_iff.1 hempty]
      rfl
    · have hpos : 0 < xs.length := List.length_pos_of_ne_nil fun h => hempty (List.isEmpty_iff.2 h)
      rw [List.flatten_cons, ih (by simp; omega), List.take_append_drop]

lemma ne_nil_of_mem_blocks {size fuel : Nat} (hsize : 0 < size) {xs b : List α}
    (hb : b ∈ blocks size fuel xs) : b ≠ [] := by
  induction fuel generalizing xs with
  | zero => cases hb
  | succ fuel ih =>
    unfold blocks at hb
    split_ifs at hb with hempty
    · cases hb
    · rcases List.mem_cons.1 hb with rfl | hb
      · rw [← List.length_pos_iff, List.length_take]
        have hpos : 0 < xs.length := List.length_pos_of_ne_nil fun h =>
          hempty (List.isEmpty_iff.2 h)
        omega
      · exact ih hb

/-- Blocks that are sorted one by one and are together a rearrangement. None of them is empty. -/
structure SortsBlocks (A : Prop) (lt : α → α → Prop) (xs : List α) (bs : List (List α)) : Prop where
  rearranges : Rearranges A lt xs bs.flatten
  sorted : A → ∀ b ∈ bs, Sorted lt b
  filled : ∀ b ∈ bs, b ≠ []

variable (horder : A → IsStrictWeakOrder α lt)
include horder

lemma sortBlocks_ensures (bs : List (List α)) (hfilled : ∀ b ∈ bs, b ≠ []) :
    (sortBlocks Quiz.question bs).Ensures (Right A lt) (SortsBlocks A lt bs.flatten) := by
  induction bs with
  | nil => exact ⟨.refl _, fun _ _ hb => absurd hb List.not_mem_nil, hfilled⟩
  | cons b bs ih =>
    obtain ⟨hb, hbs⟩ := List.forall_mem_cons.1 hfilled
    have hsorted : A → Sorted lt ([] : List α).reverse := fun _ => .nil
    refine (insertAll_ensures horder hsorted).bind fun ys hys => (ih hbs).bind fun rest hrest => ?_
    exact ⟨hys.toRearranges.append hrest.rearranges, fun ha =>
      List.forall_mem_cons.2 ⟨hys.sorted ha, hrest.sorted ha⟩,
      List.forall_mem_cons.2 ⟨fun h => hb (List.nil_perm.1 (h ▸ hys.perm)), hrest.filled⟩⟩

/-- A round halves the number of blocks. -/
lemma mergePairs_ensures : ∀ bs : List (List α), (A → ∀ b ∈ bs, Sorted lt b) → (∀ b ∈ bs, b ≠ []) →
    (mergePairs Quiz.question bs).Ensures (Right A lt) fun bs' =>
      SortsBlocks A lt bs.flatten bs' ∧ bs'.length = (bs.length + 1) / 2
  | [], hsorted, hfilled => ⟨⟨.refl _, hsorted, hfilled⟩, by simp⟩
  | [b], hsorted, hfilled => ⟨⟨.refl _, hsorted, hfilled⟩, by simp⟩
  | a :: b :: rest, hsorted, hfilled => by
    obtain ⟨ha, hfilled⟩ := List.forall_mem_cons.1 hfilled
    obtain ⟨hb, hrest⟩ := List.forall_mem_cons.1 hfilled
    have hmerge : (merge Quiz.question (a.length + b.length) (a ++ b) a.length).Ensures (Right A lt)
        (Sorts A lt (a ++ b)) :=
      merge_ensures horder (by simp) (List.length_pos_of_ne_nil ha)
        (by simpa using List.length_pos_of_ne_nil hb)
        (fun granted => by simpa using hsorted granted a (by simp))
        (fun granted => by simpa using hsorted granted b (by simp))
    refine hmerge.bind fun merged hmerged => (mergePairs_ensures rest (fun granted c hc =>
      hsorted granted c (by simp [hc])) hrest).bind fun others hothers => ?_
    obtain ⟨hblocks, hlength⟩ := hothers
    refine ⟨⟨?_, fun granted => List.forall_mem_cons.2
      ⟨hmerged.sorted granted, hblocks.sorted granted⟩,
      List.forall_mem_cons.2 ⟨fun h => ?_, hblocks.filled⟩⟩, ?_⟩
    · have hboth := hmerged.toRearranges.append hblocks.rearranges
      rwa [List.append_assoc] at hboth
    · exact ha (List.append_eq_nil_iff.1 (List.nil_perm.1 (h ▸ hmerged.perm))).1
    · rw [List.length_cons, hlength, List.length_cons, List.length_cons]
      omega

lemma mergeRounds_ensures {fuel : Nat} {bs : List (List α)} (hfuel : bs.length ≤ fuel)
    (hsorted : A → ∀ b ∈ bs, Sorted lt b) (hfilled : ∀ b ∈ bs, b ≠ []) :
    (mergeRounds Quiz.question fuel bs).Ensures (Right A lt) (Sorts A lt bs.flatten) := by
  induction fuel generalizing bs with
  | zero =>
    rw [List.length_eq_zero_iff.1 (Nat.le_zero.1 hfuel)]
    exact Sorts.nil
  | succ fuel ih =>
    unfold mergeRounds
    rcases bs with _ | ⟨b, _ | ⟨c, rest⟩⟩
    · exact Sorts.nil
    · rw [List.flatten_singleton]
      exact Sorts.of_sorted fun granted => hsorted granted b (List.mem_singleton_self b)
    · refine (mergePairs_ensures horder (b :: c :: rest) hsorted hfilled).bind fun bs' hbs' => ?_
      obtain ⟨hblocks, hlength⟩ := hbs'
      rw [List.length_cons, List.length_cons] at hlength hfuel
      exact (ih (by omega) hblocks.sorted hblocks.filled).mono fun ys hys =>
        .after hblocks.rearranges hys

/-- On every path, the result of a sort is a permutation; and if the answers come from a strict weak
order, it is sorted, with tied elements in the order they had. -/
theorem sort_ensures (xs : List α) :
    (Sort.sort Quiz.question xs).Ensures (Right A lt) (Sorts A lt xs) := by
  have hsize : 0 < blockSize := by decide
  have hblocks := sortBlocks_ensures horder (blocks blockSize xs.length xs)
    fun b hb => ne_nil_of_mem_blocks hsize hb
  rw [flatten_blocks hsize (Nat.le_refl _)] at hblocks
  exact hblocks.bind fun bs hbs =>
    (mergeRounds_ensures horder (Nat.le_refl _) hbs.sorted hbs.filled).mono fun ys hys =>
      .after hbs.rearranges hys

end

/-! ## Elements that come last -/

section

variable {lt : α → α → Prop} {last : α → Bool} {xs ys : List α}

/-- A sorted permutation in which tied elements have kept their order. -/
structure StableSort (lt : α → α → Prop) (xs ys : List α) : Prop where
  perm : ys.Perm xs
  sorted : Sorted lt ys
  stable : ∀ v, tiedWith lt v ys = tiedWith lt v xs

/-- An order in which some elements come after all others, and are not told apart. -/
def LastOf (last : α → Bool) (lt : α → α → Prop) (a b : α) : Prop :=
  last a = false ∧ (last b = true ∨ lt a b)

instance [IsStrictWeakOrder α lt] : IsStrictWeakOrder α (LastOf last lt) where
  irrefl a h := by
    obtain ⟨ha, hlast | hlt⟩ := h
    · rw [ha] at hlast
      cases hlast
    · exact irrefl_of lt a hlt
  trans a b c h h' := by
    obtain ⟨ha, hlast | hlt⟩ := h
    · rw [h'.1] at hlast
      cases hlast
    · exact ⟨ha, h'.2.imp id fun hbc => IsTrans.trans _ _ _ hlt hbc⟩
  incomp_trans a b c h h' := by
    have hsame : ∀ {x y : α}, ¬LastOf last lt x y ∧ ¬LastOf last lt y x →
        (last x = true ∧ last y = true) ∨ last x = false ∧ last y = false ∧ ¬lt x y ∧ ¬lt y x := by
      intro x y hxy
      unfold LastOf at hxy
      cases hx : last x <;> cases hy : last y <;> simp_all
    rcases hsame h with ⟨ha, hb⟩ | ⟨ha, hb, hab⟩ <;> rcases hsame h' with ⟨hb', hc⟩ | ⟨hb', hc, hbc⟩
    · simp [LastOf, ha, hc]
    · rw [hb] at hb'
      cases hb'
    · rw [hb] at hb'
      cases hb'
    · have hac := IsStrictWeakOrder.incomp_trans a b c hab hbc
      simp [LastOf, ha, hc, hac]

/-- In a sorted list, what comes last is at the end. -/
lemma eq_append_of_sorted (h : Sorted (LastOf last lt) xs) :
    xs = (xs.filter fun a => !last a) ++ xs.filter last := by
  induction xs with
  | nil => rfl
  | cons x xs ih =>
    obtain ⟨hx, hxs⟩ := List.pairwise_cons.1 h
    cases hlast : last x with
    | false =>
      rw [List.filter_cons_of_pos (by simp [hlast]), List.filter_cons_of_neg (by simp [hlast]),
        List.cons_append, ← ih hxs]
    | true =>
      have hall : ∀ a ∈ xs, last a = true := fun a ha => by
        by_contra hne
        exact hx a ha ⟨by simpa using hne, .inl hlast⟩
      have hnone : (x :: xs).filter (fun a => !last a) = [] :=
        List.filter_eq_nil_iff.2 fun a ha => by
          rcases List.mem_cons.1 ha with rfl | ha
          · simp [hlast]
          · simp [hall a ha]
      have hself : (x :: xs).filter last = x :: xs :=
        List.filter_eq_self.2 (List.forall_mem_cons.2 ⟨hlast, hall⟩)
      rw [hnone, hself, List.nil_append]

open Classical in
/-- A sort that puts some elements last sorts the others, and keeps the last ones in their order. -/
lemma Sorts.lastOf [IsStrictWeakOrder α lt] (h : Sorts True (LastOf last lt) xs ys) :
    ∃ front, ys = front ++ xs.filter last ∧ StableSort lt (xs.filter fun a => !last a) front := by
  have hlasts : ys.filter last = xs.filter last := by
    by_cases hsome : ∃ v ∈ xs, last v = true
    · obtain ⟨v, -, hv⟩ := hsome
      have htied : ∀ zs : List α, tiedWith (LastOf last lt) v zs = zs.filter last := fun zs => by
        refine List.filter_congr fun a _ => ?_
        cases ha : last a <;> simp [Tied, LastOf, hv, ha]
      rw [← htied, ← htied, h.stable trivial]
    · have hnone : ∀ zs : List α, (∀ a ∈ zs, a ∈ xs) → zs.filter last = [] := fun zs hzs =>
        List.filter_eq_nil_iff.2 fun a ha hlast => hsome ⟨a, hzs a ha, hlast⟩
      rw [hnone ys fun a ha => h.perm.subset ha, hnone xs fun a ha => ha]
  refine ⟨ys.filter fun a => !last a, ?_, h.perm.filter _, ?_, fun v => ?_⟩
  · rw [← hlasts]
    exact eq_append_of_sorted (h.sorted trivial)
  · refine (h.sorted trivial).filter _ |>.imp_of_mem fun {a b} ha hb hab hlt => hab ⟨?_, .inr hlt⟩
    simpa using (List.mem_filter.1 hb).2
  · by_cases hsome : ∃ a ∈ xs, last a = false ∧ Tied lt v a
    · obtain ⟨w, -, hw, hvw⟩ := hsome
      -- the elements tied with `v` are those tied with `w`, which does not come last
      have htied : ∀ zs : List α, tiedWith lt v (zs.filter fun a => !last a) =
          tiedWith (LastOf last lt) w zs := fun zs => by
        unfold tiedWith
        rw [List.filter_filter]
        refine List.filter_congr fun a _ => ?_
        have hiff : Tied lt v a ↔ Tied lt w a :=
          ⟨fun hva => IsStrictWeakOrder.incomp_trans _ _ _ hvw.symm hva,
            fun hwa => IsStrictWeakOrder.incomp_trans _ _ _ hvw hwa⟩
        have hlast : Tied (LastOf last lt) w a ↔ last a = false ∧ Tied lt v a := by
          rw [hiff]
          cases ha : last a <;> simp [Tied, LastOf, hw, ha]
        simp [hlast, Bool.and_comm]
      rw [htied, htied, h.stable trivial]
    · have hnone : ∀ zs : List α, (∀ a ∈ zs, a ∈ xs) →
          tiedWith lt v (zs.filter fun a => !last a) = [] := fun zs hzs =>
        tiedWith_eq_nil.2 fun a ha htied => by
          obtain ⟨hmem, hlast⟩ := List.mem_filter.1 ha
          exact hsome ⟨a, hzs a hmem, by simpa using hlast, htied⟩
      rw [hnone ys fun a ha => h.perm.subset ha, hnone xs fun a ha => ha]

end

end Clearance.Sort
