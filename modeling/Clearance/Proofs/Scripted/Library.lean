/-
# Built-in functions are formed in these ways

The built-in functions and everything that serves a request are put together in the ways of
`Lasting`. Functions that change their receiver do so behind the guard; the operations that keep
failures to themselves are the ones that `Silences` lists.
-/
import Clearance.Proofs.Scripted.Code

namespace Clearance

open Clearance.Action

variable {site : Site} {W N : Nat → Prop} {α : Type}

/-! ## Native functions -/

/-- Every call of the function is formed in these ways. -/
def NativeFn.Neat (site : Site) (W N : Nat → Prop) (f : NativeFn) : Prop :=
  ∀ this args, Clearance.Neat site W N (f this args)

/-- Every call of the function on raw values is formed in these ways. -/
def RawFn.Neat (site : Site) (W N : Nat → Prop) (f : RawFn) : Prop :=
  ∀ this args, Clearance.Neat site W N (f this args)

lemma neat_lift {f : RawFn} (h : f.Neat site W N) : NativeFn.Neat site W N (lift f) :=
  fun _ _ => .seq (h ..) fun _ => .done _

lemma neat_thisObject (this : Value) (name : String) :
    Neat site W N (thisObject this name) := by
  unfold thisObject
  split
  · exact .done _
  · exact .fail

lemma neat_callbackAt (args : List Value) (i : Nat) (name : String) :
    Neat site W N (callbackAt args i name) := by
  unfold callbackAt
  dsimp only
  split
  · exact .done _
  · exact .seq (neat_inspect _) fun _ => .fail

lemma neat_invokeAt (k : Label) (f : Ref) (this : Value) (args : List Value) :
    Neat site W N (invokeAt k f this args) :=
  .seq (lasting_above k (.call ..)) fun _ => .done _

lemma neat_converted (name : String) (position : Nat) {p : Action α} (hp : Neat site W N p) :
    Neat site W N (converted name position p) :=
  .silence hp (fun _ _ => .done _) (fun f => .seq (neat_failureText f) fun _ => .fail)
    (.converting rfl)

lemma neat_adaptedResult (name : String) {p : Action α} (hp : Neat site W N p) :
    Neat site W N (adaptedResult name p) := by
  refine .silence hp (fun _ _ => .done _) (fun f => ?_) (.adapting rfl)
  split
  · exact .done _
  · exact .fail
  · exact .seq (neat_failureText _) fun _ => .fail

lemma neat_numberAt (name : String) (args : List Raw) (i : Nat) :
    Neat site W N (numberAt name args i) :=
  neat_converted _ _ (neat_numberOf _)

lemma neat_textAt (name : String) (args : List Raw) (i : Nat) :
    Neat site W N (textAt name args i) :=
  neat_converted _ _ (neat_stringOf _)

lemma neat_convertFrom (name : String) {convert : Raw → Action α}
    (h : ∀ v, Neat site W N (convert v)) (i : Nat) (vs : List Raw) :
    Neat site W N (convertFrom name convert i vs) := by
  induction vs generalizing i with
  | nil => exact .done _
  | cons v vs ih => exact .seq (neat_converted _ _ (h v)) fun _ => .seq (ih _) fun _ => .done _

lemma neat_optionalIndex (v : Raw) (fallback : Int) :
    Neat site W N (optionalIndex v fallback) :=
  .ite (fun _ => .done _) fun _ => .seq (neat_numberOf _) fun _ => .done _

lemma neat_relativeIndex (v : Raw) (n fallback : Nat) :
    Neat site W N (relativeIndex v n fallback) :=
  .ite (fun _ => .done _) fun _ => .seq (neat_numberOf _) fun _ =>
    .ite (fun _ => .done _) fun _ => .done _

namespace Library

/-! ## Objects, functions and errors -/

lemma neat_newObject (args : List Value) : Neat site W N (newObject args) :=
  .ite (fun _ => .realm (fun _ _ => rfl) fun _ => .seq Lasting.pc.neat fun _ =>
      .seq (Lasting.create "Object" rfl (by decide) (.blank ..)).neat fun _ => .done _)
    fun _ => .seq (neat_toObject ..) fun _ => .done _

lemma neat_keysOf : RawFn.Neat site W N keysOf := by
  intro this args
  unfold keysOf
  split
  · exact .seq (.object _) fun _ => .seq (neat_newArray _) fun _ => .done _
  · exact .fail

lemma neat_prototypeOf : RawFn.Neat site W N prototypeOf := by
  intro this args
  unfold prototypeOf
  split
  · refine .seq (.object _) fun _ => ?_
    split <;> exact .done _
  · exact .fail

lemma neat_classText : RawFn.Neat site W N classText := by
  intro this args
  unfold classText
  split
  · exact .seq (.object _) fun _ => .done _
  · exact .done _

lemma neat_ownNamed (this : Raw) (args : List Raw) : Neat site W N (ownNamed this args) :=
  .seq (neat_toObject ..) fun _ => .seq (neat_stringOf _) fun _ => .seq (.object _) fun _ =>
    .done _

lemma neat_hasOwnNamed : RawFn.Neat site W N hasOwnNamed :=
  fun _ _ => .seq (neat_ownNamed ..) fun _ => .done _

lemma neat_isShown : RawFn.Neat site W N isShown := by
  intro this args
  refine .seq (neat_ownNamed ..) fun p => ?_
  split <;> exact .done _

lemma neat_textsOf (vs : List Value) : Neat site W N (textsOf vs) := by
  induction vs with
  | nil => exact .done _
  | cons v vs ih => exact .seq (neat_stringOf _) fun _ => .seq ih fun _ => .done _

lemma neat_thisFunction (this : Raw) (name : String) :
    Neat site W N (thisFunction this name) := by
  unfold thisFunction
  split
  · exact .done _
  · exact .fail

lemma neat_argumentList (v : Raw) : Neat site W N (argumentList v) := by
  cases v with
  | object o => exact neat_elementsOf o
  | absent | undefined | null => exact .done _
  | bool | number | string => exact .fail

lemma neat_newError (name : String) (args : List Value) :
    Neat site W N (newError name args) :=
  .realm (fun _ _ => rfl) fun _ => .seq Lasting.pc.neat fun _ =>
    .ite (fun _ => .seq (Lasting.create "Error" rfl (by decide) (.blank ..)).neat fun _ => .done _)
      fun _ => .seq (neat_stringOf _) fun _ =>
        .seq (Lasting.create "Error" rfl (by decide) (.defineNamed (.blank ..) (by decide) _)).neat
          fun _ => .done _

lemma neat_errorSource : RawFn.Neat site W N errorSource := by
  intro this args
  unfold errorSource
  split
  · exact .seq (neat_errorText _) fun _ => .done _
  · exact .fail

/-! ## Arrays -/

lemma neat_arrayOf (args : List Value) : Neat site W N (arrayOf args) := by
  unfold arrayOf
  split
  · refine .ite (fun _ => .fail) fun _ => .bind (lasting_newArray _) fun _ ha => ?_
    exact .seq (neat_putProperty ha ..) fun _ => .done _
  · exact .seq (neat_newArray _) fun _ => .done _

lemma neat_isArray : RawFn.Neat site W N isArray := by
  intro this args
  unfold isArray
  split
  · exact .seq (.object _) fun _ => .done _
  · exact .done _

/-- A receiver that is handed over to be changed may be written. -/
lemma lasting_mutableArray (this : Value) (name : String) :
    Lasting site W N (mutableArray this name) fun r => W r.1.id :=
  .seq (neat_thisObject ..) fun _ => .bind (lasting_guardWrite ..) fun _ ho =>
    .seq (neat_lengthOf _) fun _ => .pure ho

lemma neat_deleteOwn {o : Ref} (ho : W o.id) (name : String) :
    Neat site W N (deleteOwn o name) :=
  .change ho (fun _ => Object.sameShell_delete ..) (fun _ _ h => h.delete name)
    (fun o => Object.Retains.delete o name) fun _ h => h.delete name

lemma neat_moveElement {o : Ref} (ho : W o.id) (source target : Nat) :
    Neat site W N (moveElement o source target) := by
  refine .seq (.object _) fun obj => ?_
  split
  · exact .ite (fun _ => neat_deleteOwn ho _) fun _ => neat_putProperty ho ..
  · exact neat_deleteOwn ho _

lemma neat_putFrom {o : Ref} (ho : W o.id) (i : Nat) (vs : List Value) :
    Neat site W N (putFrom o i vs) := by
  induction vs generalizing i with
  | nil => exact .done _
  | cons v vs ih => exact .seq (neat_putProperty ho ..) fun _ => ih _

lemma neat_eachIndex {f : Nat → Action Unit} (h : ∀ i, Neat site W N (f i))
    (is : List Nat) : Neat site W N (eachIndex f is) := by
  induction is with
  | nil => exact .done _
  | cons i is ih => exact .seq (h i) fun _ => ih

lemma neat_putLength {o : Ref} (ho : W o.id) (n : Nat) : Neat site W N (putLength o n) :=
  neat_putProperty ho ..

lemma neat_writeBack {o : Ref} (ho : W o.id) (elements : List Value) (length : Nat) :
    Neat site W N (writeBack o elements length) :=
  .seq (neat_putFrom ho ..) fun _ =>
    .seq (neat_eachIndex (fun _ => neat_deleteOwn ho _) _) fun _ => neat_putLength ho _

lemma neat_push : NativeFn.Neat site W N push :=
  fun _ _ => .bind (lasting_mutableArray ..) fun _ ho =>
    .seq (neat_putFrom ho ..) fun _ => .seq (neat_putLength ho _) fun _ => .done _

lemma neat_pop : NativeFn.Neat site W N pop := by
  intro this args
  refine .bind (lasting_mutableArray ..) fun r ho => .ite (fun _ => ?_) fun _ => ?_
  · exact .seq (neat_putLength ho _) fun _ => .done _
  · exact .seq (neat_getProperty ..) fun _ => .seq (neat_deleteOwn ho _) fun _ =>
      .seq (neat_putLength ho _) fun _ => .done _

lemma neat_shift : NativeFn.Neat site W N shift := by
  intro this args
  refine .bind (lasting_mutableArray ..) fun r ho => .ite (fun _ => ?_) fun _ => ?_
  · exact .seq (neat_putLength ho _) fun _ => .done _
  · exact .seq (neat_getProperty ..) fun _ =>
      .seq (neat_eachIndex (fun _ => neat_moveElement ho ..) _) fun _ =>
        .seq (neat_deleteOwn ho _) fun _ => .seq (neat_putLength ho _) fun _ => .done _

lemma neat_unshift : NativeFn.Neat site W N unshift :=
  fun _ _ => .bind (lasting_mutableArray ..) fun _ ho =>
    .seq (neat_eachIndex (fun _ => neat_moveElement ho ..) _) fun _ =>
      .seq (neat_putFrom ho ..) fun _ => .seq (neat_putLength ho _) fun _ => .done _

lemma neat_spliceCount (args : List Value) (available : Nat) :
    Neat site W N (spliceCount args available) := by
  unfold spliceCount
  split
  · exact .done _
  · exact .seq (neat_numberOf _) fun _ => .ite (fun _ => .done _) fun _ => .done _

lemma neat_splice : NativeFn.Neat site W N splice :=
  fun _ _ => .bind (lasting_mutableArray ..) fun _ ho =>
    .seq (neat_relativeIndex ..) fun _ => .seq (neat_spliceCount ..) fun _ =>
      .seq (neat_elementsOf _) fun _ => .seq .await fun _ => .seq (neat_writeBack ho ..) fun _ =>
        .seq (neat_newArray _) fun _ => .done _

lemma neat_reverse : NativeFn.Neat site W N reverse :=
  fun _ _ => .bind (lasting_mutableArray ..) fun _ ho =>
    .seq (neat_elementsOf _) fun _ => .seq (neat_writeBack ho ..) fun _ => .done _

/-! ## Sorting -/

/-- A comparison is formed in these ways, whatever has been learned before it. -/
structure Compares (site : Site) (W N : Nat → Prop) (p : Comparing α) : Prop where
  run : ∀ c, Neat site W N (p.run c)

namespace Compares

variable {β : Type}

lemma pure (a : α) : Compares site W N (Pure.pure a : Comparing α) := ⟨fun _ => .done _⟩

lemma bind {p : Comparing α} {k : α → Comparing β} (hp : Compares site W N p)
    (hk : ∀ a, Compares site W N (k a)) : Compares site W N (p >>= k) :=
  ⟨fun c => .seq (hp.run c) fun r => (hk r.1).run r.2⟩

lemma modify (f : Compared → Compared) :
    Compares site W N (MonadState.modifyGet fun c => ((), f c) : Comparing Unit) :=
  ⟨fun _ => .done _⟩

lemma ite {c : Prop} [Decidable c] {p q : Comparing α} (hp : Compares site W N p)
    (hq : Compares site W N q) : Compares site W N (if c then p else q) := by
  split_ifs
  · exact hp
  · exact hq

lemma noted {p : Action α} (hp : Neat site W N p) (otherwise : α) :
    Compares site W N (noted p otherwise) := by
  refine .bind ⟨fun c => .silence hp (fun _ _ => .done _) (fun _ => .done _) (.comparing rfl)⟩
    fun r => ?_
  cases r with
  | ok a => exact .pure _
  | error f => exact .bind (.modify _) fun _ => .pure _

lemma precedes (comparator : Option (Ref × Label)) (a b : Value) :
    Compares site W N (precedes comparator a b) := by
  refine .ite (.pure _) (.ite (.pure _) ?_)
  split
  · refine .bind (.noted (.seq (neat_invokeAt ..) fun _ => .done _) _) fun r => ?_
    split
    · exact .pure _
    · exact .bind (.modify _) fun _ => .bind (.noted (neat_numberOf _) _) fun _ => .pure _
  · exact .bind (.noted (neat_stringOf _) _) fun _ =>
      .bind (.noted (neat_stringOf _) _) fun _ => .pure _

section Sorting

variable {less : α → α → Comparing Bool} (h : ∀ a b, Compares site W N (less a b))

include h

lemma insertBack (x : α) (ys : List α) : Compares site W N (Sort.insertBack less x ys) := by
  induction ys with
  | nil => exact .pure _
  | cons y ys ih => exact .bind (h x y) fun _ => .ite (.bind ih fun _ => .pure _) (.pure _)

lemma insertAll (sorted xs : List α) : Compares site W N (Sort.insertAll less sorted xs) := by
  induction xs generalizing sorted with
  | nil => exact .pure _
  | cons x xs ih => exact .bind (insertBack h x sorted) fun _ => ih _

omit h in
lemma bisect {right : Nat → Comparing Bool} (hr : ∀ i, Compares site W N (right i))
    (fuel i j : Nat) : Compares site W N (Sort.bisect right fuel i j) := by
  induction fuel generalizing i j with
  | zero => exact .pure _
  | succ fuel ih => exact .ite (.bind (hr _) fun _ => .ite (ih ..) (ih ..)) (.pure _)

lemma lessAt (xs : List α) (i j : Nat) : Compares site W N (Sort.lessAt less xs i j) := by
  unfold Sort.lessAt
  split
  · exact h _ _
  · exact .pure _

lemma merge (fuel : Nat) (xs : List α) (cut : Nat) :
    Compares site W N (Sort.merge less fuel xs cut) := by
  induction fuel generalizing xs cut with
  | zero => exact .pure _
  | succ fuel ih =>
    have after : ∀ i j, Compares site W N (do return !(← Sort.lessAt less xs i j)) :=
      fun i j => .bind (lessAt h xs i j) fun _ => .pure _
    refine .ite (.bind (bisect (fun _ => lessAt h ..) ..) fun _ => .pure _) ?_
    refine .ite (.bind (bisect (fun _ => after ..) ..) fun _ => .pure _) ?_
    refine .bind (bisect (fun _ => after ..) ..) fun start => ?_
    refine .ite (.bind (ih ..) fun left => ?_) (.bind (.pure _) fun left => ?_)
    all_goals
      exact .ite (.bind (ih ..) fun _ => .pure _) (.bind (.pure _) fun _ => .pure _)

lemma sortBlocks (bs : List (List α)) : Compares site W N (Sort.sortBlocks less bs) := by
  induction bs with
  | nil => exact .pure _
  | cons b bs ih => exact .bind (insertAll h [] b) fun _ => .bind ih fun _ => .pure _

lemma mergePairs (bs : List (List α)) : Compares site W N (Sort.mergePairs less bs) := by
  induction bs using Sort.mergePairs.induct with
  | case1 a b rest ih => exact .bind (merge h ..) fun _ => .bind ih fun _ => .pure _
  | case2 bs hbs =>
    rw [Sort.mergePairs]
    · exact .pure _
    · exact hbs

lemma mergeRounds (fuel : Nat) (bs : List (List α)) :
    Compares site W N (Sort.mergeRounds less fuel bs) := by
  induction fuel generalizing bs with
  | zero => exact .pure _
  | succ fuel ih =>
    unfold Sort.mergeRounds
    split
    · exact .pure _
    · exact .pure _
    · exact .bind (mergePairs h _) fun _ => ih _

lemma sort (xs : List α) : Compares site W N (Sort.sort less xs) :=
  .bind (sortBlocks h _) fun _ => mergeRounds h ..

end Sorting
end Compares

lemma neat_sortArray : NativeFn.Neat site W N sortArray := by
  intro this args
  refine .bind (lasting_mutableArray ..) fun r ho => .seq (neat_elementsOf _) fun elements => ?_
  extract_lets sorted
  have finish : ∀ comparator, Neat site W N (sorted comparator) := by
    intro comparator
    refine .seq ((Compares.sort (Compares.precedes comparator) elements).run _) fun result => ?_
    obtain ⟨sorted, compared⟩ := result
    dsimp only
    split
    · exact .fail
    · exact .seq (neat_writeBack ho ..) fun _ => .done _
  refine .ite (fun _ => .seq (.done _) finish) fun _ => ?_
  exact .seq (neat_callbackAt ..) fun _ => .seq (.done _) finish

/-! ## Methods that leave their receiver alone -/

lemma neat_slice : NativeFn.Neat site W N slice :=
  fun _ _ => .seq (neat_thisObject ..) fun _ => .seq (neat_elementsOf _) fun _ =>
    .seq (neat_relativeIndex ..) fun _ => .seq (neat_relativeIndex ..) fun _ =>
      .seq (neat_newArray _) fun _ => .done _

lemma neat_spread (vs : List Value) : Neat site W N (spread vs) := by
  induction vs with
  | nil => exact .done _
  | cons v vs ih =>
    unfold spread
    extract_lets appended
    have finish : ∀ here, Neat site W N (appended here) := fun _ => .seq ih fun _ => .done _
    split
    · refine .seq (.object _) fun _ => .ite (fun _ => ?_) fun _ => .seq (.done _) finish
      exact .seq (neat_elementsOf _) fun _ => .seq (.done _) finish
    · exact .seq (.done _) finish

lemma neat_concat : NativeFn.Neat site W N concat :=
  fun _ _ => .seq (neat_thisObject ..) fun _ => .seq (neat_elementsOf _) fun _ =>
    .seq (neat_spread _) fun _ => .seq (neat_newArray _) fun _ => .done _

lemma neat_elementTexts (vs : List Value) : Neat site W N (elementTexts vs) := by
  induction vs with
  | nil => exact .done _
  | cons v vs ih =>
    unfold elementTexts
    extract_lets followed
    have finish : ∀ text, Neat site W N (followed text) := fun _ => .seq ih fun _ => .done _
    exact .ite (fun _ => .seq (.done _) finish) fun _ => .seq (neat_stringOf _) finish

lemma neat_join : NativeFn.Neat site W N join := by
  intro this args
  refine .seq (neat_thisObject ..) fun o => ?_
  extract_lets given label joined
  have finish : ∀ separator, Neat site W N (joined separator) :=
    fun _ => .seq (neat_elementsOf _) fun _ => .seq (neat_elementTexts _) fun _ => .done _
  refine .ite (fun _ => ?_) fun _ => ?_
  · exact .seq (.done _) finish
  · exact .seq (neat_stringOf _) finish

lemma neat_indexOf : NativeFn.Neat site W N indexOf :=
  fun _ _ => .seq (neat_thisObject ..) fun _ => .seq (neat_elementsOf _) fun _ =>
    .seq (neat_relativeIndex ..) fun _ => .done _

lemma neat_iterate {σ : Type} (name : String) (this : Value) (args : List Value) (init : σ)
    (visit : σ → Nat → Value → Value → σ × Bool) :
    Neat site W N (iterate name this args init visit) := by
  refine .seq (neat_thisObject ..) fun _ => .seq (neat_callbackAt ..) fun _ => ?_
  refine .seq (neat_lengthOf _) fun _ => .rounds fun (i, acc) => ?_
  refine .ite (fun _ => .seq (.look _) fun _ => .ite (fun _ => ?_) fun _ => .done _) fun
    _ => .done _
  refine .seq (neat_getProperty ..) fun _ => .seq (neat_invokeAt ..) fun _ => ?_
  split <;> exact .done _

lemma neat_forEach : NativeFn.Neat site W N forEach :=
  fun _ _ => .seq (neat_iterate ..) fun _ => .done _

lemma neat_lengthQuietly (o : Ref) : Neat site W N (lengthQuietly o) :=
  .silence (neat_lengthOf o) (fun _ _ => .done _) (fun _ => .done _) (.measuring rfl)

lemma neat_map : NativeFn.Neat site W N map :=
  fun _ _ => .seq (neat_iterate ..) fun _ => .seq (neat_thisObject ..) fun _ =>
    .seq (neat_lengthQuietly _) fun _ => .seq (neat_newArray _) fun _ => .done _

lemma neat_filter : NativeFn.Neat site W N filter :=
  fun _ _ => .seq (neat_iterate ..) fun _ => .seq (neat_newArray _) fun _ => .done _

lemma neat_testEach (name : String) (wanted : Bool) :
    NativeFn.Neat site W N (testEach name wanted) :=
  fun _ _ => .seq (neat_iterate ..) fun _ => .done _

lemma neat_reduce : NativeFn.Neat site W N reduce := by
  intro this args
  refine .seq (neat_thisObject ..) fun o => .seq (neat_callbackAt ..) fun f =>
    .seq (neat_lengthOf _) fun n => ?_
  extract_lets accumulated
  have finish : ∀ start, Neat site W N (accumulated start) := by
    intro start
    refine .seq (.rounds fun (i, acc) => ?_) fun _ => .done _
    refine .ite (fun _ => .seq (.look _) fun _ => .ite (fun _ => ?_) fun _ => .done _)
      fun _ => .done _
    exact .seq (neat_getProperty ..) fun _ => .seq (neat_invokeAt ..) fun _ => .done _
  split
  · exact .seq (.done _) finish
  · refine .seq (.look _) fun found => ?_
    split
    · exact .seq .fail finish
    · exact .seq (neat_getProperty ..) fun _ => .seq (.done _) finish

lemma neat_arrayMethod (m : ArrayFn) : NativeFn.Neat site W N (arrayMethod m) := by
  cases m with
  | push => exact neat_push
  | pop => exact neat_pop
  | shift => exact neat_shift
  | unshift => exact neat_unshift
  | splice => exact neat_splice
  | reverse => exact neat_reverse
  | sort => exact neat_sortArray
  | slice => exact neat_slice
  | concat => exact neat_concat
  | join => exact neat_join
  | toString => exact fun this _ => neat_join this []
  | indexOf => exact neat_indexOf
  | forEach => exact neat_forEach
  | map => exact neat_map
  | filter => exact neat_filter
  | some | every => exact neat_testEach _ _
  | reduce => exact neat_reduce

end Library
end Clearance
