/-
# The methods that change arrays are list operations

`push`, `pop`, `shift`, `unshift`, `splice` and `reverse` move elements one slot at a time. On an
array of plain data that inherits no elements, what they leave is what the operation of the name
makes of the list of the elements (`Ref.MutatesLike`), and nothing else has changed.

Each method is a sequence of steps that turn the elements into others (`Turns`) and ends by setting
the length, which cuts off what is left beyond the end (`Leaves`). `splice` converts its arguments
first, which may call functions of the script; the array is what these have left. If they have left
fewer elements than the positions ask for, the program breaks down.
-/
import Clearance.Proofs.Elements
import Clearance.Proofs.Mutation

namespace Clearance

open Clearance.Action Clearance.Library

/-- An action that leaves an array with the elements of a list, and changes nothing else. -/
def Leaves {α : Type} (serve : Service) (fuel : Nat) (s : State) (id : Nat) (p : Action α)
    (f : Nat → Option Value) (a : α) (ys : List (Option Value)) : Prop :=
  ∀ h n, s.store.heap.Relists h id n f → ∃ h',
    p.run serve fuel (s.withHeap h) = .done a (s.withHeap h') ∧
      s.store.heap.Differs h' id Object.SameRest ∧ (h'.get id).Holds ys

/-- A run that gives a value and leaves an array with the elements of a list. Nothing else has
changed. -/
def Ref.Becomes (o : Ref) (ys : List (Option Value)) (p : Action Value) (v : Value)
    (serve : Service)
    (fuel : Nat) (s : State) : Prop :=
  ∃ h', p.run serve fuel s = .done v (s.withHeap h') ∧
    s.store.heap.Differs h' o.id Object.SameRest ∧ (h'.get o.id).Holds ys

lemma Ref.Becomes.after {β : Type} {o : Ref} {ys : List (Option Value)} {p : Action β}
    {q : β → Action Value} {b : β} {v : Value} {serve : Service} {fuel : Nat} {s : State}
    (hp : p.run serve fuel s = .done b s) (hq : o.Becomes ys (q b) v serve fuel s) :
    o.Becomes ys (p >>= q) v serve fuel s := by
  obtain ⟨h', hrun, hh'⟩ := hq
  exact ⟨h', run_bind_done.2 ⟨b, s, hp, hrun⟩, hh'⟩

section

variable {α β : Type} {serve : Service} {fuel : Nat} {s : State} {o : Ref} {id m : Nat}
  {f g : Nat → Option Value} {ys : List (Option Value)}

lemma Turns.leaves {p : Action β} {q : β → Action α} {b : β} {a : α}
    (hp : Turns serve fuel s id p f b g) (hq : Leaves serve fuel s id (q b) g a ys) :
    Leaves serve fuel s id (p >>= q) f a ys := by
  intro h n hh
  obtain ⟨h', n', hrun, hh'⟩ := hp h n hh
  obtain ⟨h'', hrun', hh''⟩ := hq h' n' hh'
  exact ⟨h'', run_bind_done.2 ⟨b, _, hrun, hrun'⟩, hh''⟩

/-- What is returned at the end changes nothing. -/
lemma Leaves.give {p : Action Unit} (hp : Leaves serve fuel s id p f () ys) (a : α) :
    Leaves serve fuel s id (p >>= fun _ => pure a) f a ys := by
  intro h n hh
  obtain ⟨h', hrun, hh'⟩ := hp h n hh
  exact ⟨h', run_bind_done.2 ⟨(), _, hrun, rfl⟩, hh'⟩

/-- An action that starts from the state itself. -/
lemma Leaves.becomes {p : Action Value} {v : Value} {n : Nat}
    (hp : Leaves serve fuel s o.id p f v ys)
    (hlists : (s.store.heap.get o.id).Lists n f) : o.Becomes ys p v serve fuel s :=
  hp s.store.heap n (.refl hlists)

variable (hid : o.id < s.store.heap.size)
include hid

/-- The length is set last. -/
lemma leaves_putLength (hlength : ys.length = m) (hm : m ≤ maxLength)
    (hys : ∀ j < m, g j = ys[j]?.join) : Leaves serve fuel s o.id (putLength o m) g () ys := by
  intro h n hh
  obtain ⟨h', hrun, hh'⟩ := @run_putLength serve fuel s o n m g h hid hm hh
  have hsame : (fun j => if j < m then g j else none) = fun j => ys[j]?.join := by
    funext j
    split_ifs with hj
    · exact hys j hj
    · rw [List.getElem?_eq_none (by omega)]
      rfl
  refine ⟨h', hrun, hh'.differs, ?_⟩
  rw [Object.Holds, hlength, ← hsame]
  exact hh'.lists

/-- An array without elements stays so. -/
lemma leaves_nothing {v : Value} :
    Leaves serve fuel s o.id (putLength o 0 >>= fun _ => pure v) f v [] :=
  have hnothing : Leaves serve fuel s o.id (putLength o 0) f () [] :=
    leaves_putLength hid rfl (Nat.zero_le _) fun j hj => absurd hj (Nat.not_lt_zero j)
  hnothing.give v

variable (hplain : s.store.heap.Inherits o.id Property.Plain)
include hplain

/-- Writing a list back over an array that was at most so long. -/
lemma leaves_writeBack (elements : List Value) {length : Nat}
    (helements : elements.length ≤ maxLength)
    (hlength : length ≤ maxLength) :
    Leaves serve fuel s o.id (writeBack o elements length) f () (elements.map some) := by
  refine (turns_putFrom hid hplain elements (by omega)).leaves
    ((turns_deleteFrom hid (by omega)).leaves
    (leaves_putLength hid (List.length_map ..) helements fun j hj => ?_))
  rw [if_neg (by omega), if_pos (by omega), Nat.sub_zero, List.getElem?_map,
    List.getElem?_eq_getElem hj]
  rfl

end

/-! ## Reading an array -/

section

variable {serve : Service} {fuel : Nat} {s : State} {o : Ref} {this : Value}
  {xs : List (Option Value)}

/-- A program counter at or below the partition of the receiver is accepted. -/
lemma run_mutableArray (hthis : this.raw = .object o) (name : String)
    (hpc : s.control.pc.leq (s.store.heap.get o.id).partition = true)
    (hholds : (s.store.heap.get o.id).Holds xs) :
    (mutableArray this name).run serve fuel s = .done (o, xs.length) s := by
  unfold mutableArray guardWrite
  simp only [run_bind, run_thisObject hthis, run_pc, run_object, Label.not_less_of_leq hpc,
    Bool.false_eq_true, if_false, run_pure, run_lengthOf_lists hholds]

section

variable (hholds : (s.store.heap.get o.id).Holds xs)
  (hbare : s.store.heap.Inherits o.id fun _ => False)
include hholds hbare

/-- The elements of an array, in which holes are undefined. -/
lemma run_elementsOf_holds (hfuel : xs.length < fuel) :
    (elementsOf o).run serve fuel s = .done (xs.map (·.getD .undefined)) s := by
  rw [run_elementsOf_elementsAt hholds (hbare.mono fun _ => False.elim) hfuel,
    elementsAt_of_bare hholds hbare]

lemma run_getProperty_holds {i : Nat} (hi : i < maxLength) :
    (getProperty o (indexName i)).run serve fuel s = .done (xs[i]?.join.getD .undefined) s := by
  rw [run_getProperty_elementAt hholds (hbare.mono fun _ => False.elim) hi,
    elementAt_of_bare hholds hbare hi]

end

end

/-! ## The positions of a splice -/

/-- The position that a number denotes in a list: what is no number is the start, a negative number
is counted from the end, and what is outside is put at the nearer end. -/
def positionIn (n : Nat) (x : Float) : Nat :=
  if x.isNaN then 0
  else match Decimal.truncate? x with
    | some i => if i < 0 then (n + i).toNat else min i.toNat n
    | none => if x < 0.0 then 0 else n

/-- The count that a number denotes, when so many are available. -/
def countWithin (available : Nat) (x : Float) : Nat :=
  if x.isNaN then 0
  else match Decimal.truncate? x with
    | some i => min i.toNat available
    | none => if x < 0.0 then 0 else available

/-- What an argument denotes that may be missing. Its conversion to a number may call functions. -/
inductive Denotes (serve : Service) (fuel : Nat) (arg : Option Raw) (fallback : Nat)
    (denote : Float → Nat) (s : State) : Nat → State → Prop where
  | missing (harg : arg = none) : Denotes serve fuel arg fallback denote s fallback s
  | number {v : Raw} {x : Float} {t : State} (harg : arg = some v)
      (hx : (numberOf v).run serve fuel s = .done x t) :
      Denotes serve fuel arg fallback denote s (denote x) t

/-- The start and the count of the elements that a splice removes from a list of length `n`, after
the arguments have been converted. -/
def Positions (serve : Service) (fuel n : Nat) (args : List Value) (s : State) (start count : Nat)
    (t : State) : Prop :=
  ∃ u, Denotes serve fuel ((args[0]?.map (·.raw)).filter (!·.isUndefined)) 0
    (positionIn n) s start u ∧
    Denotes serve fuel (args[1]?.map (·.raw)) (n - start) (countWithin (n - start)) u count t

lemma positionIn_le (n : Nat) (x : Float) : positionIn n x ≤ n := by
  unfold positionIn
  split
  · exact Nat.zero_le n
  · split <;> split <;> omega

lemma countWithin_le (available : Nat) (x : Float) : countWithin available x ≤ available := by
  unfold countWithin
  split
  · exact Nat.zero_le _
  · split
    · omega
    · split <;> omega

section

variable {serve : Service} {fuel n : Nat} {args : List Value} {s t u : State} {start count : Nat}

/-- The elements to be removed are in the list. -/
lemma Positions.le (h : Positions serve fuel n args s start count t) : start + count ≤ n := by
  obtain ⟨u, hstart, hcount⟩ := h
  have hstart' : start ≤ n := by
    cases hstart with
    | missing => exact Nat.zero_le n
    | number => exact positionIn_le ..
  have hcount' : count ≤ n - start := by
    cases hcount with
    | missing => exact Nat.le_refl _
    | number => exact countWithin_le ..
  omega

lemma run_relativeIndex_denotes
    (h : Denotes serve fuel ((args[0]?.map (·.raw)).filter (!·.isUndefined)) 0
      (positionIn n) s start
      u) :
    (relativeIndex (argAt args 0).raw n 0).run serve fuel s = .done start u := by
  have harg : (argAt args 0).raw = (args[0]?.map (·.raw)).getD .undefined := by
    unfold argAt
    rw [List.getD_eq_getElem?_getD]
    cases args[0]? <;> rfl
  rw [harg]
  unfold relativeIndex
  cases h with
  | missing hnone =>
    rw [if_pos]
    · rfl
    · cases hraw : args[0]?.map (·.raw) with
      | none => rfl
      | some r => simpa [hraw, Option.filter] using hnone
  | number hsome hx =>
    obtain ⟨hraw, hdefined⟩ := Option.filter_eq_some_iff.1 hsome
    rw [hraw, Option.getD_some, if_neg (by simpa using hdefined), run_bind, hx]
    dsimp only
    unfold positionIn
    split_ifs <;> rfl

lemma run_spliceCount_denotes {available : Nat}
    (h : Denotes serve fuel (args[1]?.map (·.raw)) available (countWithin available) s count t) :
    (spliceCount args available).run serve fuel s = .done count t := by
  unfold spliceCount
  cases h with
  | missing hnone =>
    rw [Option.map_eq_none_iff.1 hnone]
    rfl
  | number hsome hx =>
    obtain ⟨v, hv, rfl⟩ := Option.map_eq_some_iff.1 hsome
    rw [hv]
    dsimp only
    rw [run_bind, hx]
    dsimp only
    unfold countWithin
    split_ifs <;> rfl

end

/-! ## The methods -/

/-- What the methods that change an array do to the list of its elements. -/
structure Ref.MutatesLike (o : Ref) (xs : List (Option Value)) (this : Value) (args : List Value)
    (serve : Service) (fuel : Nat) (s : State) : Prop where
  push : o.Becomes (xs ++ args.map some) (push this args)
    ((Raw.ofNat (xs.length + args.length)).labeled this.label) serve fuel s
  pop : o.Becomes xs.dropLast (pop this args) ((xs.getLast?.join.getD .undefined).wrap this.label)
    serve fuel s
  shift : o.Becomes xs.tail (shift this args) ((xs.head?.join.getD .undefined).wrap this.label)
    serve fuel s
  unshift : o.Becomes (args.map some ++ xs) (unshift this args)
    ((Raw.ofNat (xs.length + args.length)).labeled this.label) serve fuel s
  reverse : xs.length < fuel → o.Becomes (xs.reverse.map fun x => some (x.getD .undefined))
    (reverse this args) ((Raw.object o).labeled this.label) serve fuel s
  /-- The positions of a splice are positions in the list. -/
  within : ∀ start count t, Positions serve fuel xs.length args s start count t →
    start + count ≤ xs.length
  /-- The program breaks down when conversions have left fewer elements. -/
  shortened : ∀ start count t zs, Positions serve fuel xs.length args s start count t →
    (t.store.heap.get o.id).Holds zs → t.store.heap.Inherits o.id (fun _ => False) →
    zs.length < start + count → zs.length < fuel →
      (splice this args).run serve fuel s =
        .stuck (.panic (beyondText (start + count) zs.length)) t
  /-- The conversions may have changed the array: `zs` is what it holds after them. -/
  splice : ∀ start count t zs, Positions serve fuel xs.length args s start count t →
    (t.store.heap.get o.id).Holds zs → t.store.heap.Inherits o.id (fun _ => False) →
    start + count ≤ zs.length → zs.length + args.length < 2 ^ 32 → zs.length < fuel → ∃ h' removed,
      (splice this args).run serve fuel s = .done ((Raw.object ⟨h'.size, .plain⟩).labeled
          ((this.label.join (argAt args 0).label).join (argAt args 1).label))
        (t.withHeap (h'.push removed)) ∧
      t.store.heap.Differs h' o.id Object.SameRest ∧
      (h'.get o.id).Holds ((zs.take start).map (fun x => some (x.getD .undefined)) ++
        (args.drop 2).map some ++ (zs.drop (start + count)).map fun x => some (x.getD .undefined)) ∧
      removed.Holds (((zs.drop start).take count).map fun x => (x.getD .undefined).element?)

section

variable {serve : Service} {fuel : Nat} {s : State} {o : Ref} {this : Value}
  {xs : List (Option Value)}
  {args : List Value}
  (hthis : this.raw = .object o)
  (hholds : (s.store.heap.get o.id).Holds xs) (hbare : s.store.heap.Inherits o.id fun _ => False)
  (hpc : s.control.pc.leq (s.store.heap.get o.id).partition = true)
include hthis hholds hbare hpc

lemma push_appends (hsize : xs.length + args.length ≤ maxLength) :
    o.Becomes (xs ++ args.map some) (push this args)
      ((Raw.ofNat (xs.length + args.length)).labeled this.label) serve fuel s := by
  have hid : o.id < s.store.heap.size := hholds.lt_size
  have hplain := hbare.mono (S := Property.Plain) fun _ => False.elim
  unfold push
  refine .after (run_mutableArray hthis _ hpc hholds) ?_
  refine ((turns_putFrom hid hplain args hsize).leaves
    ((leaves_putLength hid (by simp) hsize fun j hj => ?_).give _)).becomes hholds
  by_cases hold : j < xs.length
  · rw [if_neg (by omega), List.getElem?_append_left hold]
  · rw [if_pos (by omega), List.getElem?_append_right (Nat.le_of_not_lt hold), List.getElem?_map]
    cases args[j - xs.length]? <;> rfl

lemma pop_drops_last : o.Becomes xs.dropLast (pop this args)
    ((xs.getLast?.join.getD .undefined).wrap this.label) serve fuel s := by
  have hid : o.id < s.store.heap.size := hholds.lt_size
  have hbound : xs.length ≤ maxLength := hholds.bound
  unfold pop
  refine .after (run_mutableArray hthis _ hpc hholds) ?_
  dsimp only
  split_ifs with hempty
  · obtain rfl := List.length_eq_zero_iff.1 hempty
    exact (leaves_nothing hid).becomes hholds
  · refine .after (run_getProperty_holds hholds hbare (by omega)) ?_
    rw [← List.getLast?_eq_getElem?]
    refine ((turns_deleteOwn hid (by omega)).leaves
      ((leaves_putLength hid (by simp) (by omega) fun j hj => ?_).give _)).becomes hholds
    rw [Function.update_of_ne (by omega), List.getElem?_dropLast, if_pos hj]

lemma shift_drops_first : o.Becomes xs.tail (shift this args)
    ((xs.head?.join.getD .undefined).wrap this.label) serve fuel s := by
  have hid : o.id < s.store.heap.size := hholds.lt_size
  have hbound : xs.length ≤ maxLength := hholds.bound
  have hplain := hbare.mono (S := Property.Plain) fun _ => False.elim
  unfold shift
  refine .after (run_mutableArray hthis _ hpc hholds) ?_
  dsimp only
  split_ifs with hempty
  · obtain rfl := List.length_eq_zero_iff.1 hempty
    exact (leaves_nothing hid).becomes hholds
  · have hfirst : (getProperty o "0").run serve fuel s = .done (xs[0]?.join.getD .undefined) s :=
      run_getProperty_holds (i := 0) hholds hbare (by decide)
    refine .after hfirst ?_
    rw [← List.head?_eq_getElem?]
    refine ((turns_moveDown hid hplain (by omega)).leaves ((turns_deleteOwn hid (by omega)).leaves
      ((leaves_putLength hid (by simp) (by omega) fun j hj => ?_).give _))).becomes hholds
    rw [Function.update_of_ne (by omega), if_pos hj, List.getElem?_tail]

lemma unshift_prepends (hsize : xs.length + args.length ≤ maxLength) :
    o.Becomes (args.map some ++ xs) (unshift this args)
      ((Raw.ofNat (xs.length + args.length)).labeled this.label) serve fuel s := by
  have hid : o.id < s.store.heap.size := hholds.lt_size
  have hplain := hbare.mono (S := Property.Plain) fun _ => False.elim
  unfold unshift
  refine .after (run_mutableArray hthis _ hpc hholds) ?_
  refine ((turns_moveUp hid hplain hsize).leaves ((turns_putFrom hid hplain args (by omega)).leaves
    ((leaves_putLength hid (by simp [Nat.add_comm]) hsize fun j hj => ?_).give _))).becomes hholds
  by_cases hnew : j < args.length
  · rw [if_pos (by omega), List.getElem?_append_left (by simpa using hnew), List.getElem?_map]
    cases args[j]? <;> rfl
  · rw [if_neg (by omega), if_pos (by omega),
      List.getElem?_append_right (by simpa using Nat.le_of_not_lt hnew), List.length_map]

lemma reverse_reverses (hfuel : xs.length < fuel) :
    o.Becomes (xs.reverse.map fun x => some (x.getD .undefined)) (reverse this args)
      ((Raw.object o).labeled this.label) serve fuel s := by
  have hid : o.id < s.store.heap.size := hholds.lt_size
  have hplain := hbare.mono (S := Property.Plain) fun _ => False.elim
  have hwrite :
      Leaves serve fuel s o.id (writeBack o (xs.map (·.getD .undefined)).reverse xs.length)
      (fun i => xs[i]?.join) () _ :=
    leaves_writeBack hid hplain _ (by simpa using hholds.bound) hholds.bound
  have hback := (hwrite.give ((Raw.object o).labeled this.label)).becomes hholds
  rw [← List.map_reverse, List.map_map] at hback
  unfold reverse
  refine .after (run_mutableArray hthis _ hpc hholds) ?_
  refine .after (run_elementsOf_holds hholds hbare hfuel) ?_
  rw [← List.map_reverse]
  exact hback

end

section

variable {serve : Service} {fuel : Nat} {s t : State} {o : Ref} {this : Value}
  {xs zs : List (Option Value)} {args : List Value} {start count : Nat}
  (hthis : this.raw = .object o) (hholds : (s.store.heap.get o.id).Holds xs)
  (hpc : s.control.pc.leq (s.store.heap.get o.id).partition = true)
  (hpositions : Positions serve fuel xs.length args s start count t)
  (hholds' : (t.store.heap.get o.id).Holds zs) (hbare : t.store.heap.Inherits o.id fun _ => False)
  (hfuel : zs.length < fuel)
include hthis hholds hpc hpositions hholds' hbare hfuel

/-- A splice up to its first write: the positions are settled, and the elements have been read. -/
lemma run_splice_read : (splice this args).run serve fuel s = (do
    insist (beyondText (start + count) zs.length) fun _ => start + count ≤ zs.length
    writeBack o ((zs.map (·.getD .undefined)).take start ++ args.drop 2 ++
      (zs.map (·.getD .undefined)).drop (start + count)) xs.length
    return (Raw.object (← newArray (((zs.map (·.getD .undefined)).drop start).take count))).labeled
      ((this.label.join (argAt args 0).label).join (argAt args 1).label) :
      Action Value).run serve fuel t := by
  obtain ⟨u, hstart, hcount⟩ := hpositions
  unfold splice
  rw [run_bind, run_mutableArray hthis _ hpc hholds]
  dsimp only
  rw [run_bind, run_relativeIndex_denotes hstart]
  dsimp only
  rw [run_bind, run_spliceCount_denotes hcount]
  dsimp only
  rw [run_bind, run_elementsOf_holds hholds' hbare hfuel]
  dsimp only
  rw [List.length_map]

/-- A splice of an array that the conversions have shortened too much. -/
lemma splice_breaks_down (hshort : zs.length < start + count) :
    (splice this args).run serve fuel s =
      .stuck (.panic (beyondText (start + count) zs.length)) t := by
  rw [run_splice_read hthis hholds hpc hpositions hholds' hbare hfuel, run_bind,
    run_insist_of_not (by simpa using hshort)]

/-- A splice, after its arguments have been converted. -/
lemma splice_replaces (hwithin : start + count ≤ zs.length)
    (hsize : zs.length + args.length < 2 ^ 32) : ∃ h' removed,
      (splice this args).run serve fuel s = .done ((Raw.object ⟨h'.size, .plain⟩).labeled
          ((this.label.join (argAt args 0).label).join (argAt args 1).label))
        (t.withHeap (h'.push removed)) ∧
      t.store.heap.Differs h' o.id Object.SameRest ∧
      (h'.get o.id).Holds ((zs.take start).map (fun x => some (x.getD .undefined)) ++
        (args.drop 2).map some ++ (zs.drop (start + count)).map fun x => some (x.getD .undefined)) ∧
      removed.Holds (((zs.drop start).take count).map fun x => (x.getD .undefined).element?) := by
  have hplain := hbare.mono (S := Property.Plain) fun _ => False.elim
  have hbound : zs.length ≤ maxLength := hholds'.bound
  have hmax : maxLength + 1 = 2 ^ 32 := rfl
  have hnext : (zs.take start).length + (args.drop 2).length + (zs.drop (start + count)).length ≤
      maxLength := by
    simp only [List.length_take, List.length_drop]
    omega
  -- what is kept and what is inserted are written over the old elements
  have hwrite : Leaves serve fuel t o.id (writeBack o ((zs.map (·.getD .undefined)).take start ++
      args.drop 2 ++ (zs.map (·.getD .undefined)).drop (start + count)) xs.length)
      (fun i => zs[i]?.join) () _ :=
    leaves_writeBack hholds'.lt_size hplain _ (by simpa [Nat.add_assoc] using hnext) hholds.bound
  obtain ⟨h', hrun, hdiffers, hleft⟩ := hwrite t.store.heap zs.length (.refl hholds')
  have hrun' : (writeBack o ((zs.map (·.getD .undefined)).take start ++ args.drop 2 ++
      (zs.map (·.getD .undefined)).drop (start + count)) xs.length).run serve fuel t =
        .done () (t.withHeap h') := hrun
  refine ⟨h', Heap.arrayOf (some t.control.realm.arrayProto) t.control.pc
    (((zs.map (·.getD .undefined)).drop start).take count), ?_, hdiffers, ?_, ?_⟩
  · rw [run_splice_read hthis hholds hpc hpositions hholds' hbare hfuel, run_bind,
      run_insist_of_holds (by simpa using hwithin)]
    dsimp only
    rw [run_bind, hrun']
    rfl
  · simpa [Function.comp_def] using hleft
  · have hremoved := @Heap.holds_arrayOf (some t.control.realm.arrayProto) t.control.pc
      (((zs.map (·.getD .undefined)).drop start).take count) (by simp; omega)
    simpa [← List.map_drop, ← List.map_take, Function.comp_def] using hremoved

end

/-- The methods that change arrays are list operations: on every array of plain data under whose
prototypes there are no elements, for every receiver label and all arguments that leave the length
below `2 ^ 32`. -/
theorem mutators_are_list_operations {serve : Service} {fuel : Nat} {s : State} {o : Ref}
    {this : Value}
    {xs : List (Option Value)} {args : List Value} (hthis : this.raw = .object o)
    (hholds : (s.store.heap.get o.id).Holds xs) (hbare : s.store.heap.Inherits o.id fun _ => False)
    (hpc : s.control.pc.leq (s.store.heap.get o.id).partition = true)
    (hsize : xs.length + args.length < 2 ^ 32) : o.MutatesLike xs this args serve fuel s where
  push := push_appends hthis hholds hbare hpc (Nat.le_of_lt_succ hsize)
  pop := pop_drops_last hthis hholds hbare hpc
  shift := shift_drops_first hthis hholds hbare hpc
  unshift := unshift_prepends hthis hholds hbare hpc (Nat.le_of_lt_succ hsize)
  reverse := reverse_reverses hthis hholds hbare hpc
  within _ _ _ hpositions := hpositions.le
  splice _ _ _ _ hpositions hholds' hbare' hwithin hsize' hfuel' :=
    splice_replaces hthis hholds hpc hpositions hholds' hbare' hfuel' hwithin hsize'
  shortened _ _ _ _ hpositions hholds' hbare' hshort hfuel' :=
    splice_breaks_down hthis hholds hpc hpositions hholds' hbare' hfuel' hshort

lemma holds_holedArray : holedArray.Holds [some (Raw.ofNat 1), none, some (Raw.ofNat 3)] :=
  @Heap.holds_arrayOf none .none [Raw.ofNat 1, Raw.absent, Raw.ofNat 3] (by decide)

lemma inherits_holedArray (R : Property → Prop) :
    (holdingSession holedArray).store.heap.Inherits 0 R := fun _ hj => absurd hj List.not_mem_nil

/-- The array of three elements, the second of which is a hole, is changed like the list. A splice
at `-2` starts at the hole. -/
theorem holed_array_changed_like_a_list :
    (⟨0, .plain⟩ : Ref).MutatesLike [some (Raw.ofNat 1), none, some (Raw.ofNat 3)]
        (Raw.object ⟨0, .plain⟩) [Raw.number (-2.0), Raw.ofNat 1, Raw.ofNat 9]
        (machine .none 50 50) 50 (holdingSession holedArray) ∧
      Positions (machine .none 50 50) 50 3 [Raw.number (-2.0), Raw.ofNat 1, Raw.ofNat 9]
        (holdingSession holedArray) 1 1 (holdingSession holedArray) := by
  have hstart : positionIn 3 (-2.0) = 1 := by decide +kernel
  have hcount : countWithin 2 (Nat.toUInt64 1).toFloat = 1 := by decide +kernel
  refine ⟨mutators_are_list_operations rfl holds_holedArray (inherits_holedArray _)
    (by decide +kernel)
    (by simp),
    holdingSession holedArray, ?_, ?_⟩
  · rw [← hstart]
    exact .number rfl rfl
  · rw [← hcount]
    exact .number rfl rfl

end Clearance
