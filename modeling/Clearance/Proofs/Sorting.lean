/-
# Sorting in two monads

The sort looks at its elements through the comparison only. So two sorts, in two monads, of two
lists whose elements correspond give lists whose elements correspond, whenever the two
comparisons correspond: what it means for the actions of the two monads to correspond is a
parameter, which only has to respect results and sequences. Everything that is said of sorting
elsewhere is an instance: the induction over the blocks, the merges and the bisections is done
here once.
-/
import Clearance.Library.Sort
import Mathlib.Data.List.Forall2

namespace Clearance.Sort

universe u v

/-- A correspondence between the actions of two monads, given one between their results. -/
structure Correspondence (m : Type → Type u) (n : Type → Type v) [Monad m] [Monad n] where
  rel : {α β : Type} → (α → β → Prop) → m α → n β → Prop
  pure : ∀ {α β : Type} {R : α → β → Prop} {a : α} {b : β}, R a b → rel R (pure a) (pure b)
  bind : ∀ {α β γ δ : Type} {R : α → β → Prop} {S : γ → δ → Prop} {p : m α} {q : n β}
    {k : α → m γ} {l : β → n δ}, rel R p q → (∀ a b, R a b → rel S (k a) (l b)) →
      rel S (p >>= k) (q >>= l)

variable {m : Type → Type u} {n : Type → Type v} [Monad m] [Monad n] {α β : Type}

/-- Corresponding lists have corresponding elements at each place. -/
lemma getElem?_of_forall₂ {E : α → β → Prop} {xs : List α} {ys : List β} (h : List.Forall₂ E xs ys)
    (i : Nat) : (xs[i]? = none ∧ ys[i]? = none) ∨ ∃ x y, xs[i]? = some x ∧
    ys[i]? = some y ∧ E x y := by
  induction h generalizing i with
  | nil => exact .inl ⟨rfl, rfl⟩
  | cons hxy _ ih =>
    cases i with
    | zero => exact .inr ⟨_, _, rfl, rfl, hxy⟩
    | succ i => simpa using ih i

lemma rotate_forall₂ {E : α → β → Prop} {xs : List α} {ys : List β} (h : List.Forall₂ E xs ys)
    (a b c : Nat) : List.Forall₂ E (rotate xs a b c) (rotate ys a b c) :=
  List.rel_append (List.rel_append (List.rel_append (List.forall₂_take a h)
    (List.forall₂_take _ (List.forall₂_drop b h))) (List.forall₂_take _ (List.forall₂_drop a h)))
    (List.forall₂_drop c h)

lemma blocks_forall₂ {E : α → β → Prop} (size fuel : Nat) {xs : List α} {ys : List β}
    (h : List.Forall₂ E xs ys) :
    List.Forall₂ (List.Forall₂ E) (blocks size fuel xs) (blocks size fuel ys) := by
  induction fuel generalizing xs ys with
  | zero => exact .nil
  | succ fuel ih =>
    have hempty : xs.isEmpty = ys.isEmpty := by cases h <;> rfl
    unfold blocks
    rw [hempty]
    split_ifs
    · exact .nil
    · exact .cons (List.forall₂_take _ h) (ih (List.forall₂_drop _ h))

namespace Correspondence

variable (C : Correspondence m n) {E : α → β → Prop} {less : α → α → m Bool}
  {less' : β → β → n Bool}

lemma ite {γ δ : Type} {R : γ → δ → Prop} {c : Prop} [Decidable c] {p p' : m γ} {q q' : n δ}
    (h : C.rel R p q) (h' : C.rel R p' q') :
    C.rel R (if c then p else p') (if c then q else q') := by
  split_ifs
  · exact h
  · exact h'

/-- Bisection depends on the answers to its tests only. -/
lemma bisect {right : Nat → m Bool} {right' : Nat → n Bool}
    (hr : ∀ i, C.rel Eq (right i) (right' i)) (fuel i j : Nat) :
    C.rel Eq (Sort.bisect right fuel i j) (Sort.bisect right' fuel i j) := by
  induction fuel generalizing i j with
  | zero => exact C.pure rfl
  | succ fuel ih =>
    refine C.ite (C.bind (hr _) ?_) (C.pure rfl)
    rintro answer _ rfl
    exact C.ite (ih ..) (ih ..)

section

variable (h : ∀ a b, E a b → ∀ a' b', E a' b' → C.rel Eq (less a a') (less' b b'))

include h

lemma insertBack {x : α} {y : β} (hx : E x y) {xs : List α} {ys : List β}
    (hxs : List.Forall₂ E xs ys) :
    C.rel (List.Forall₂ E) (Sort.insertBack less x xs) (Sort.insertBack less' y ys) := by
  induction hxs with
  | nil => exact C.pure (.cons hx .nil)
  | cons hz hzs ih =>
    refine C.bind (h _ _ hx _ _ hz) ?_
    rintro answer _ rfl
    exact C.ite (C.bind ih fun _ _ hrest => C.pure (.cons hz hrest))
      (C.pure (.cons hx (.cons hz hzs)))

lemma insertAll {sorted : List α} {sorted' : List β} (hsorted : List.Forall₂ E sorted sorted')
    {xs : List α} {ys : List β} (hxs : List.Forall₂ E xs ys) :
    C.rel (List.Forall₂ E) (Sort.insertAll less sorted xs) (Sort.insertAll less' sorted' ys) := by
  induction hxs generalizing sorted sorted' with
  | nil => exact C.pure (List.rel_reverse hsorted)
  | cons hx _ ih => exact C.bind (C.insertBack h hx hsorted) fun _ _ => ih

lemma lessAt {xs : List α} {ys : List β} (hxs : List.Forall₂ E xs ys) (i j : Nat) :
    C.rel Eq (Sort.lessAt less xs i j) (Sort.lessAt less' ys i j) := by
  unfold Sort.lessAt
  rcases getElem?_of_forall₂ hxs i with ⟨hx, hy⟩ | ⟨x, y, hx, hy, hxy⟩ <;> rw [hx, hy]
  · exact C.pure rfl
  rcases getElem?_of_forall₂ hxs j with ⟨hx, hy⟩ | ⟨x', y', hx, hy, hxy'⟩ <;> rw [hx, hy]
  · exact C.pure rfl
  · exact h _ _ hxy _ _ hxy'

lemma notLessAt {xs : List α} {ys : List β} (hxs : List.Forall₂ E xs ys) (i j : Nat) :
    C.rel Eq (do return !(← Sort.lessAt less xs i j)) (do return !(← Sort.lessAt less' ys i j)) :=
  C.bind (C.lessAt h hxs i j) fun _ _ heq => C.pure (congrArg _ heq)

lemma merge (fuel : Nat) {xs : List α} {ys : List β} (hxs : List.Forall₂ E xs ys) (cut : Nat) :
    C.rel (List.Forall₂ E) (Sort.merge less fuel xs cut) (Sort.merge less' fuel ys cut) := by
  induction fuel generalizing xs ys cut with
  | zero => exact C.pure hxs
  | succ fuel ih =>
    unfold Sort.merge
    extract_lets size mid sum size' mid' sum'
    have hsize : size = size' := hxs.length_eq
    have hmid : mid = mid' := congrArg (· / 2) hsize
    have hsum : sum = sum' := congrArg (· + cut) hmid
    clear_value size mid sum size' mid' sum'
    subst hsize hmid hsum
    refine C.ite (C.bind (C.bisect (fun _ => C.lessAt h hxs _ _) ..) ?_) ?_
    · rintro i _ rfl
      exact C.pure (rotate_forall₂ hxs ..)
    refine C.ite (C.bind (C.bisect (fun _ => C.notLessAt h hxs _ _) ..) ?_) ?_
    · rintro i _ rfl
      exact C.pure (rotate_forall₂ hxs ..)
    refine C.bind (C.bisect (fun _ => C.notLessAt h hxs _ _) ..) ?_
    rintro start _ rfl
    dsimp only
    -- the two halves after the rotation
    have hrotated : List.Forall₂ E
        (if start < cut ∧ cut < sum - start then rotate xs start cut (sum - start) else xs)
        (if start < cut ∧ cut < sum - start then rotate ys start cut (sum - start) else ys) := by
      split_ifs
      · exact rotate_forall₂ hxs ..
      · exact hxs
    refine C.ite (C.bind (ih (List.forall₂_take _ hrotated) _) fun left left' hleft => ?_)
      (C.bind (C.pure (List.forall₂_take _ hrotated)) fun left left' hleft => ?_)
    all_goals
      exact C.ite
        (C.bind (ih (List.forall₂_drop _ hrotated) _) fun _ _ hright =>
          C.pure (List.rel_append hleft hright))
        (C.bind (C.pure (List.forall₂_drop _ hrotated)) fun _ _ hright =>
          C.pure (List.rel_append hleft hright))

lemma sortBlocks {bs : List (List α)} {bs' : List (List β)}
    (hbs : List.Forall₂ (List.Forall₂ E) bs bs') :
    C.rel (List.Forall₂ (List.Forall₂ E)) (Sort.sortBlocks less bs)
      (Sort.sortBlocks less' bs') := by
  induction hbs with
  | nil => exact C.pure .nil
  | cons hb _ ih =>
    exact C.bind (C.insertAll h .nil hb) fun _ _ hsorted =>
      C.bind ih fun _ _ hrest => C.pure (.cons hsorted hrest)

lemma mergePairs : ∀ {bs : List (List α)} {bs' : List (List β)},
    List.Forall₂ (List.Forall₂ E) bs bs' →
      C.rel (List.Forall₂ (List.Forall₂ E)) (Sort.mergePairs less bs) (Sort.mergePairs less' bs')
  | _, _, .nil => C.pure .nil
  | _, _, .cons hb .nil => C.pure (.cons hb .nil)
  | _, _, .cons ha (.cons hb hrest) => by
    unfold Sort.mergePairs
    rw [ha.length_eq, hb.length_eq]
    exact C.bind (C.merge h _ (List.rel_append ha hb) _) fun _ _ hmerged =>
      C.bind (mergePairs hrest) fun _ _ hothers => C.pure (.cons hmerged hothers)

lemma mergeRounds (fuel : Nat) {bs : List (List α)} {bs' : List (List β)}
    (hbs : List.Forall₂ (List.Forall₂ E) bs bs') :
    C.rel (List.Forall₂ E) (Sort.mergeRounds less fuel bs) (Sort.mergeRounds less' fuel bs') := by
  induction fuel generalizing bs bs' with
  | zero => exact C.pure (List.rel_flatten hbs)
  | succ fuel ih =>
    unfold Sort.mergeRounds
    cases hbs with
    | nil => exact C.pure .nil
    | cons hb hrest =>
      cases hrest with
      | nil => exact C.pure hb
      | cons hb' hrest => exact C.bind (C.mergePairs h (.cons hb (.cons hb' hrest))) fun _ _ => ih

/-- Sorting corresponding lists by corresponding comparisons is corresponding. -/
theorem sort {xs : List α} {ys : List β} (hxs : List.Forall₂ E xs ys) :
    C.rel (List.Forall₂ E) (Sort.sort less xs) (Sort.sort less' ys) := by
  unfold Sort.sort
  rw [hxs.length_eq]
  refine C.bind (C.sortBlocks h (blocks_forall₂ _ _ hxs)) fun bs bs' hbs => ?_
  rw [hbs.length_eq]
  exact C.mergeRounds h _ hbs

end
end Correspondence
end Clearance.Sort
