/-
# Access to objects is formed in these ways

Reading properties, converting and showing values, and writing the properties of an object that
may be written are put together in the ways of `Lasting`.
-/
import Clearance.Proofs.Lasting

namespace Clearance

open Clearance.Action

variable {site : Site} {W N : Nat → Prop}

/-! ## Properties -/

lemma neat_getProperty (o : Ref) (name : String) : Neat site W N (getProperty o name) := by
  refine .seq (.look _) fun found => ?_
  split
  · exact .done _
  · refine .ite (fun _ => ?_) fun _ => .done _
    split
    · exact .call ..
    · exact .done _

/-- Assignments are taken as wholes, so nobody asks for the order of arrays within them. -/
lemma ordinary_setLength {o : Ref} (ho : W o.id) (v : Value) :
    Ordinary site W (fun _ => True) (setLength o v) :=
  .seq (.look _) fun _ => .ite (fun _ => .fail) fun _ =>
    .changeOther ⟨ho, trivial⟩ fun _ => Object.sameShell_resize ..

lemma ordinary_putOwn {o : Ref} (ho : W o.id) (name : String) (v : Value) :
    Ordinary site W (fun _ => True) (putOwn o name v) :=
  .seq (.changeOther ⟨ho, trivial⟩ fun _ => Object.sameShell_extend ..) fun _ => .await

lemma neat_putProperty {o : Ref} (ho : W o.id) (name : String) (v : Value) :
    Neat site W N (putProperty o name v) := by
  refine .whole (.putProperty ..) (Built.seq (.look _) fun found => ?_)
  split
  · exact ordinary_putOwn ho ..
  · refine .ite (fun _ => ?_) fun _ => .ite (fun _ => .done _) fun _ => ?_
    · split
      · exact Built.seq (.call ..) fun _ => .done _
      · exact .done _
    · refine .seq (.object _) fun obj => ?_
      split
      · refine .ite (fun _ => ordinary_setLength ho _) fun _ => ?_
        exact .changeOther ⟨ho, trivial⟩ fun _ => Object.sameShell_define ..
      · exact ordinary_putOwn ho ..

lemma neat_cell (p : Place) : Neat site W N p.cell := by
  unfold Place.cell
  split
  · exact neat_getProperty ..
  · exact .fail

lemma neat_peek (p : Place) : Neat site W N p.peek := by
  unfold Place.peek
  split
  · exact .done _
  · refine .seq (.look _) fun found => ?_
    split <;> exact .done _

lemma neat_partition (p : Place) : Neat site W N p.partition := by
  unfold Place.partition
  split
  · exact .done _
  · exact .seq (.object _) fun _ => .done _

/-! ## Conversions -/

lemma neat_firstPrimitive (o : Ref) (names : List String) :
    Neat site W N (firstPrimitive o names) := by
  induction names with
  | nil => exact .fail
  | cons name rest ih =>
    refine .seq (neat_getProperty ..) fun m => ?_
    split
    · exact ih
    · exact .seq (.call ..) fun r => .ite (fun _ => .done _) fun _ => ih

lemma neat_toPrimitive (v : Raw) (hint : Hint) : Neat site W N (toPrimitive v hint) := by
  unfold toPrimitive
  split
  · refine .seq (.object _) fun obj => ?_
    split
    · exact .done _
    · exact .seq (neat_firstPrimitive ..) fun _ => .done _
  · exact .done _

lemma neat_numberOf (v : Raw) : Neat site W N (numberOf v) :=
  .seq (neat_toPrimitive ..) fun _ => .look _

lemma neat_stringOf (v : Raw) : Neat site W N (stringOf v) :=
  .seq (neat_toPrimitive ..) fun _ => .look _

lemma neat_looseEqualsWithin (n : Nat) (a b : Raw) :
    Neat site W N (looseEqualsWithin n a b) := by
  induction n generalizing a b with
  | zero => exact .done _
  | succ n ih =>
    unfold looseEqualsWithin
    refine .ite (fun _ => .done _) fun _ => .ite (fun _ => .done _) fun _ => ?_
    split
    · exact .seq (neat_toPrimitive ..) fun _ => ih ..
    · exact .seq (neat_toPrimitive ..) fun _ => ih ..
    · exact .seq (neat_toPrimitive ..) fun _ => ih ..
    · exact .look _

lemma neat_looseEquals (a b : Raw) : Neat site W N (looseEquals a b) :=
  .seq (.look _) fun _ => neat_looseEqualsWithin ..

lemma neat_lengthOf (o : Ref) : Neat site W N (lengthOf o) :=
  .seq (neat_getProperty ..) fun _ => .seq (.look _) fun _ => .done _

lemma neat_elementsFrom (o : Ref) (i n : Nat) : Neat site W N (elementsFrom o i n) := by
  refine .rounds fun (j, acc) => .ite (fun _ => ?_) fun _ => .done _
  exact .seq (neat_getProperty ..) fun _ => .done _

lemma neat_elementsOf (o : Ref) : Neat site W N (elementsOf o) :=
  .seq (neat_lengthOf o) fun _ => neat_elementsFrom ..

lemma neat_ordinaryHasInstance (fn : Ref) (v : Value) :
    Neat site W N (ordinaryHasInstance fn v) := by
  unfold ordinaryHasInstance
  split
  · refine .seq (neat_getProperty ..) fun p => ?_
    split
    · exact .look _
    · exact .fail
  · exact .done _

/-! ## Showing values -/

lemma neat_readQuietly (o : Ref) (name : String) : Neat site W N (readQuietly o name) :=
  .silence (neat_getProperty o name) (fun _ _ => .done _) (fun _ => .done _)
    (.reading rfl)

lemma neat_plainText (v : Value) : Neat site W N (plainText v) := .look _

lemma neat_errorText (o : Ref) : Neat site W N (errorText o) := by
  refine .seq (neat_readQuietly ..) fun name => .seq (neat_readQuietly ..) fun m => ?_
  refine .ite (fun _ => .seq (.done _) fun _ => ?_)
    fun _ => .seq (neat_plainText _) fun _ => ?_
  all_goals exact .seq (neat_plainText _) fun _ => .done _

lemma neat_patternFlag (o : Ref) (name : String) : Neat site W N (patternFlag o name) :=
  .seq (neat_readQuietly ..) fun _ => .done _

lemma neat_patternFlags (o : Ref) : Neat site W N (patternFlags o) :=
  .seq (neat_patternFlag ..) fun _ => .seq (neat_patternFlag ..) fun _ =>
    .seq (neat_patternFlag ..) fun _ => .done _

lemma neat_patternText (o : Ref) : Neat site W N (patternText o) :=
  .seq (neat_readQuietly ..) fun _ => .seq (neat_plainText _) fun _ =>
    .seq (neat_patternFlags o) fun _ => .done _

lemma neat_showEach {α : Type} {f : α → Action String} (hf : ∀ x, Neat site W N (f x))
    (xs : List α) : Neat site W N (showEach f xs) := by
  induction xs with
  | nil => exact .done _
  | cons x xs ih => exact .seq (hf x) fun _ => .seq ih fun _ => .done _

lemma neat_showElement {shown : Value → Action String}
    (hs : ∀ v, Neat site W N (shown v)) (id i : Nat) :
    Neat site W N (showElement shown id i) := by
  refine .seq (.object _) fun obj => ?_
  split
  · exact .ite (fun _ => .done _) fun _ => hs _
  · exact .done _

lemma neat_showEntry {shown : Value → Action String} (hs : ∀ v, Neat site W N (shown v))
    (id : Nat) (name : String) : Neat site W N (showEntry shown id name) := by
  refine .seq (.look _) fun found => ?_
  dsimp only
  split
  · exact .seq (.done _) fun _ => .done _
  · refine .ite (fun _ => .seq (.done _) fun _ => .done _) fun _ => ?_
    exact .seq (hs _) fun _ => .done _

lemma neat_showContainer (deep : Bool) {shown : Value → Action String}
    (hs : ∀ v, Neat site W N (shown v)) (o : Ref) :
    Neat site W N (showContainer deep shown o) := by
  refine .seq (.object _) fun obj => .ite (fun _ => .done _) fun _ => .ite (fun _ => ?_) fun _ => ?_
  · exact .seq (neat_lengthOf _) fun n =>
      .seq (neat_showEach (neat_showElement hs _) _) fun _ => .done _
  · refine .seq (.look _) fun names => ?_
    split
    · exact .done _
    · exact .seq (neat_showEach (neat_showEntry hs _) _) fun _ => .done _

lemma neat_inspectWithin (fuel left : Nat) (nested : Bool) (v : Value) :
    Neat site W N (inspectWithin fuel left nested v) := by
  induction fuel generalizing left nested v with
  | zero => exact .done _
  | succ fuel ih =>
    unfold inspectWithin
    dsimp only
    have finish : ∀ text, Neat site W N (pure (labelMark v ++ text)) := fun _ => .done _
    split
    · exact .seq (.done _) finish
    · exact .seq (.done _) finish
    · split
      · refine .seq (.object _) fun obj => ?_
        split <;> exact .seq (.done _) finish
      · exact .seq (.object _) fun _ => .seq (.done _) finish
      all_goals
        refine .seq (.object _) fun obj => .ite (fun _ => .seq (neat_errorText _) finish)
          fun _ => ?_
        split
        · exact .seq (ih ..) fun _ => .seq (.done _) finish
        · refine .ite (fun _ => .seq (neat_patternText _) finish) fun _ => ?_
          split
          · exact .seq (neat_showContainer _ (fun _ => .done _) _) finish
          · exact .seq (neat_showContainer _ (fun v => ih _ _ v) _) finish
    · exact .seq (neat_plainText _) finish

lemma neat_inspect (v : Value) : Neat site W N (inspect v) :=
  .seq (.look _) fun _ => neat_inspectWithin ..

end Clearance
