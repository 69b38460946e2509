/-
# What `map` makes of an array

`map` goes through the indices below the length that its receiver has when it is called. It visits
those at which there is something when they are reached: the element is read, and the callback is
called with it. What this comes to, from one index on, is a `Tour`: it has the result of the
callback for each index that was visited, nothing for the others, and the state in which each visit
leaves the machine. So the indices are visited once, in ascending order, whatever the callback does.

The results carry the labels of the receiver and of the callback, and are at their indices in a new
array; there are holes at the other indices (`map_follows_tour`). But the length of this array is
not the number of indices: `map` cuts off the holes at the end and then looks at its receiver again.
If this has become longer, then so is the result (`mapped_pushing_is_longer`).
-/
import Clearance.Proofs.Extent
import Clearance.Proofs.Mutators
import Mathlib.Data.List.DropRight

namespace Clearance

open Clearance.Action Clearance.Library

/-- A tour of the indices of an object, from the first one on: what the visits gave, and the state
after them. -/
inductive Tour (serve : Service) (fuel : Nat) (o : Ref) (visit : Nat → Action Value) :
    Nat → State → List (Option Value) → State → Prop
  | nil (i : Nat) (s : State) : Tour serve fuel o visit i s [] s
  | hole {i : Nat} {s t : State} {rs : List (Option Value)}
    (hempty : s.store.heap.has o.id (indexName i) = false)
    (htour : Tour serve fuel o visit (i + 1) s rs t) : Tour serve fuel o visit i s (none :: rs) t
  | element {i : Nat} {s t u : State} {r : Value} {rs : List (Option Value)}
    (hpresent : s.store.heap.has o.id (indexName i) = true)
    (hvisit : (visit i).run serve fuel s = .done r u)
    (htour : Tour serve fuel o visit (i + 1) u rs t) : Tour serve fuel o visit i s (some r :: rs) t

/-- What is done at an index with an element. -/
def visitAt (k : Label) (f o : Ref) (receiver : Value) (i : Nat) : Action Value :=
  getProperty o (indexName i) >>= fun element =>
    invokeAt k f receiver [element, Raw.ofNat i, Raw.object o]

/-- Both ended, not normally, in the same way. -/
inductive Outcome.Interrupts {α β : Type} : Outcome α → Outcome β → Prop
  | failed (f : Failure) (s : State) : Interrupts (.failed f s) (.failed f s)
  | stuck (w : Stuck) (s : State) : Interrupts (.stuck w s) (.stuck w s)

/-- The elements of the new array when the receiver has a length in the end: the holes after the
last result only count if the length includes them. -/
def mapped (rs : List (Option Value)) (length : Nat) : List (Option Value) :=
  ((rs.rdropWhile Option.isNone).rightpad length none).map (·.bind Value.element?)

namespace Tour

variable {serve : Service} {fuel : Nat} {o : Ref} {visit : Nat → Action Value} {i n : Nat}
  {s t : State} {rs : List (Option Value)}

/-- Tours go on until all indices have been reached or a visit does not end normally. -/
lemma complete_or_interrupted (serve : Service) (fuel : Nat) (o : Ref) (visit : Nat → Action Value)
    {i n : Nat} (hi : i ≤ n) (s : State) :
    (∃ rs t, Tour serve fuel o visit i s rs t ∧ i + rs.length = n) ∨
    ∃ rs t, Tour serve fuel o visit i s rs t ∧ i + rs.length < n ∧
      t.store.heap.has o.id (indexName (i + rs.length)) = true ∧
      ∀ r u, (visit (i + rs.length)).run serve fuel t ≠ .done r u := by
  induction hm : n - i generalizing i s with
  | zero => exact .inl ⟨[], s, .nil i s, by simp; omega⟩
  | succ m ih =>
    have hnext : ∀ r : Option Value, ∀ rs : List (Option Value),
        i + 1 + rs.length = i + (r :: rs).length := fun r rs => by
      rw [List.length_cons]
      omega
    cases hpresent : s.store.heap.has o.id (indexName i) with
    | false =>
      rcases ih (i := i + 1) (by omega) s (by omega) with
        ⟨rs, t, htour, hlength⟩ | ⟨rs, t, htour, hlength, hrest⟩
      · exact .inl ⟨none :: rs, t, .hole hpresent htour, by rwa [← hnext]⟩
      · exact .inr ⟨none :: rs, t, .hole hpresent htour, by rwa [← hnext], by rwa [← hnext]⟩
    | true =>
      cases hvisit : (visit i).run serve fuel s with
      | done r u =>
        rcases ih (i := i + 1) (by omega) u (by omega) with
          ⟨rs, t, htour, hlength⟩ | ⟨rs, t, htour, hlength, hrest⟩
        · exact .inl ⟨some r :: rs, t, .element hpresent hvisit htour, by rwa [← hnext]⟩
        · exact .inr ⟨some r :: rs, t, .element hpresent hvisit htour, by rwa [← hnext],
            by rwa [← hnext]⟩
      | failed f u =>
        exact .inr ⟨[], s, .nil i s, show i < n by omega, hpresent, fun r t h => by
          cases hvisit.symm.trans h⟩
      | stuck w u =>
        exact .inr ⟨[], s, .nil i s, show i < n by omega, hpresent, fun r t h => by
          cases hvisit.symm.trans h⟩

/-- Every result comes from a visit. -/
lemma forall_mem (h : Tour serve fuel o visit i s rs t) {P : Value → Prop}
    (hvisit : ∀ i s r u, (visit i).run serve fuel s = .done r u → P r) :
    ∀ r, some r ∈ rs → P r := by
  induction h with
  | nil => exact fun _ hr => absurd hr List.not_mem_nil
  | hole _ _ ih => exact fun r hr => ih r (by simpa using hr)
  | element _ hrun _ ih =>
    intro r hr
    rcases List.mem_cons.1 hr with heq | hr
    · obtain rfl := Option.some.inj heq
      exact hvisit _ _ _ _ hrun
    · exact ih r hr

end Tour

/-! ## The results so far -/

/-- The list that is kept while the callback is called. -/
def collected (rs : List (Option Value)) : List Value :=
  (rs.rdropWhile Option.isNone).map (·.getD .absent)

lemma collected_concat_none (rs : List (Option Value)) :
    collected (rs ++ [none]) = collected rs := by
  rw [collected, List.rdropWhile_concat_pos _ _ _ rfl, collected]

lemma replicate_rtakeWhile (rs : List (Option Value)) :
    List.replicate (rs.length - (rs.rdropWhile Option.isNone).length) none =
      rs.rtakeWhile Option.isNone := by
  have hlength : rs.length = _ := congrArg List.length
    (List.rdropWhile_append_rtakeWhile (p := Option.isNone) (l := rs)).symm
  rw [List.length_append] at hlength
  rw [hlength, Nat.add_sub_cancel_left]
  exact (List.eq_replicate_of_mem fun r hr =>
    Option.isNone_iff_eq_none.1 (List.mem_rtakeWhile_imp hr)).symm

lemma placeAt_collected (rs : List (Option Value)) (r : Value) :
    placeAt rs.length r (collected rs) = collected (rs ++ [some r]) := by
  have hrs : rs.rdropWhile Option.isNone ++ List.replicate
      (rs.length - (rs.rdropWhile Option.isNone).length) none = rs := by
    rw [replicate_rtakeWhile, List.rdropWhile_append_rtakeWhile]
  have hall : collected (rs ++ [some r]) = (rs ++ [some r]).map (·.getD .absent) := by
    rw [collected, List.rdropWhile_concat_neg _ _ _ (by simp)]
  rw [hall]
  nth_rewrite 3 [← hrs]
  simp [placeAt, collected]

/-- What the new array holds. -/
lemma map_element?_collected (rs : List (Option Value)) (n : Nat) :
    (collected rs ++ List.replicate (n - (collected rs).length) Value.absent).map Value.element? =
      mapped rs n := by
  have helement : ∀ r : Option Value, (r.getD Value.absent).element? = r.bind Value.element? :=
    fun r => by cases r <;> rfl
  have hhole : Value.absent.element? = none := rfl
  simp [mapped, collected, List.rightpad, helement, hhole, Function.comp_def]

lemma length_mapped (rs : List (Option Value)) (n : Nat) :
    (mapped rs n).length = max n (rs.rdropWhile Option.isNone).length := by
  rw [mapped, List.length_map, List.length_rightpad]

/-- Only holes at the end can be missing or left over. -/
lemma mapped_of_length {rs : List (Option Value)} {n : Nat} (h : (mapped rs n).length = rs.length) :
    mapped rs n = rs.map (·.bind Value.element?) := by
  have hholes : n - (rs.rdropWhile Option.isNone).length =
      rs.length - (rs.rdropWhile Option.isNone).length := by
    rw [length_mapped] at h
    omega
  rw [mapped, List.rightpad, hholes, replicate_rtakeWhile, List.rdropWhile_append_rtakeWhile]

lemma length_rdropWhile_le (rs : List (Option Value)) :
    (rs.rdropWhile Option.isNone).length ≤ rs.length :=
  (List.rdropWhile_prefix Option.isNone rs).length_le

/-! ## The rounds -/

/-- A round of the loop that calls the callback. -/
def mapRound (k : Label) (f o : Ref) (receiver : Value) (n : Nat) :
    Nat × List Value → Action ((Nat × List Value) ⊕ List Value) := fun (i, out) => do
  if i < n then
    if ← look fun s => s.heap.has o.id (indexName i) then
      let element ← getProperty o (indexName i)
      let r ← invokeAt k f receiver [element, Raw.ofNat i, Raw.object o]
      return .inl (i + 1, placeAt i r out)
    else return .inl (i + 1, out)
  else return .inr out

section

variable {serve : Service} {fuel : Nat} {k : Label} {f o : Ref} {receiver : Value} {n i : Nat}
  {out : List Value} {s t : State}

lemma run_mapRound_end :
    (mapRound k f o receiver n (n, out)).run serve fuel s = .done (.inr out) s := by
  rw [mapRound, if_neg (Nat.lt_irrefl n), run_pure]

lemma run_mapRound_hole (hi : i < n) (hempty : s.store.heap.has o.id (indexName i) = false) :
    (mapRound k f o receiver n (i, out)).run serve fuel s = .done (.inl (i + 1, out)) s := by
  rw [mapRound, if_pos hi, run_bind, run_look]
  dsimp only
  rw [hempty]
  rfl

/-- At an index with an element, a round comes to a visit. -/
lemma run_mapRound_element (hi : i < n) (hpresent : s.store.heap.has o.id (indexName i) = true) :
    (mapRound k f o receiver n (i, out)).run serve fuel s =
      (visitAt k f o receiver i >>= fun r => pure (.inl (i + 1, placeAt i r out))).run serve fuel
        s := by
  rw [mapRound, if_pos hi, run_bind, run_look]
  dsimp only
  rw [hpresent, if_pos rfl, visitAt, run_bind, run_bind, run_bind]
  cases (getProperty o (indexName i)).run serve fuel s with
  | done element u => exact run_bind ..
  | failed => rfl
  | stuck => rfl

/-- The rounds of a tour. -/
lemma iterate_mapRound {rs before : List (Option Value)}
    (htour : Tour serve fuel o (visitAt k f o receiver) i s rs t) (hi : before.length = i)
    (hn : i + rs.length ≤ n) (m : Nat) :
    iterate (fun x u => (mapRound k f o receiver n x).run serve fuel u) (rs.length + m)
        (i, collected before) s =
      iterate (fun x u => (mapRound k f o receiver n x).run serve fuel u) m
        (i + rs.length, collected (before ++ rs)) t := by
  induction htour generalizing before with
  | nil => rw [List.append_nil, List.length_nil, Nat.zero_add, Nat.add_zero]
  | @hole i s t rs hempty _ ih =>
    rw [List.length_cons] at hn
    have hrest := @ih (before ++ [none]) (by simp [hi]) (by omega)
    rw [collected_concat_none, List.append_assoc, List.singleton_append] at hrest
    rw [List.length_cons, Nat.add_right_comm, iterate, run_mapRound_hole (by omega) hempty,
      ← Nat.add_assoc, Nat.add_right_comm i]
    exact hrest
  | @element i s t u r rs hpresent hvisit _ ih =>
    rw [List.length_cons] at hn
    have hrest := @ih (before ++ [some r]) (by simp [hi]) (by omega)
    rw [← placeAt_collected, hi, List.append_assoc, List.singleton_append] at hrest
    rw [List.length_cons, Nat.add_right_comm, iterate, run_mapRound_element (by omega) hpresent,
      run_bind_of_done hvisit, ← Nat.add_assoc, Nat.add_right_comm i]
    exact hrest

/-- All indices have been reached. -/
lemma run_loop_mapRound {rs : List (Option Value)}
    (htour : Tour serve fuel o (visitAt k f o receiver) 0 s rs t) (hfuel : rs.length < fuel) :
    (loop (0, []) (mapRound k f o receiver rs.length)).run serve fuel s = .done
    (collected rs) t := by
  obtain ⟨m, rfl⟩ : ∃ m, fuel = rs.length + (m + 1) := ⟨fuel - rs.length - 1, by omega⟩
  rw [run_loop]
  refine (@iterate_mapRound serve _ k f o receiver rs.length 0 s t rs [] htour rfl
    (Nat.zero_add _).le
    (m + 1)).trans ?_
  rw [iterate, Nat.zero_add, run_mapRound_end]
  rfl

/-- A visit does not end normally. -/
lemma run_loop_mapRound_interrupted {rs : List (Option Value)}
    (htour : Tour serve fuel o (visitAt k f o receiver) 0 s rs t) (hn : rs.length < n)
    (hfuel : n < fuel) (hpresent : t.store.heap.has o.id (indexName rs.length) = true)
    (hvisit : ∀ r u, (visitAt k f o receiver rs.length).run serve fuel t ≠ .done r u) :
    ((visitAt k f o receiver rs.length).run serve fuel t).Interrupts
      ((loop (0, []) (mapRound k f o receiver n)).run serve fuel s) := by
  obtain ⟨m, rfl⟩ : ∃ m, fuel = rs.length + (m + 1) := ⟨fuel - rs.length - 1, by omega⟩
  rw [run_loop]
  have hrounds := @iterate_mapRound serve _ k f o receiver n 0 s t rs [] htour rfl
    (by omega) (m + 1)
  rw [List.nil_append, Nat.zero_add, iterate, run_mapRound_element hn hpresent, run_bind] at hrounds
  refine hrounds ▸ ?_
  cases hrun : (visitAt k f o receiver rs.length).run serve (rs.length + (m + 1)) t with
  | done r u => exact absurd hrun (hvisit r u)
  | failed g u => exact .failed g u
  | stuck w u => exact .stuck w u

end

/-! ## The length of the receiver -/

section

variable {serve : Service} {fuel : Nat} {o : Ref} {n : Nat} {s t : State}

/-- Lengths are words. -/
lemma le_of_run_lengthOf (h : (lengthOf o).run serve fuel s = .done n t) : n ≤ maxLength := by
  obtain ⟨v, u, -, h⟩ := run_bind_done.1 h
  obtain ⟨w, u', hw, h⟩ := run_bind_done.1 h
  cases h
  cases hw
  exact Nat.le_of_lt_succ (UInt32.toNat_lt _)

/-- A length can always be read again, if that comes to an end. -/
lemma run_lengthQuietly (o : Ref) (s : State) :
    (∃ n t, (lengthQuietly o).run serve fuel s = .done n t ∧ n ≤ maxLength) ∨
      ∃ w t, (lengthQuietly o).run serve fuel s = .stuck w t := by
  unfold lengthQuietly
  rw [run_bind, run_attempt]
  cases hrun : (lengthOf o).run serve fuel s with
  | done n t => exact .inl ⟨n, t, rfl, le_of_run_lengthOf hrun⟩
  | failed f t => exact .inl ⟨0, t, rfl, Nat.zero_le _⟩
  | stuck w t => exact .inr ⟨w, t, rfl⟩

end

/-! ## Runs of `map` -/

/-- How a call of `map` ends, from the state in which it has read the length of its receiver. -/
inductive MapEnds (serve : Service) (fuel : Nat) (o f : Ref) (this : Value) (args : List Value)
    (n : Nat) (s : State) (x : Outcome Value) : Prop
  /-- All indices have been reached. The new array has as many elements as the receiver had, with
  the results at their indices and holes elsewhere, if its length is right at all. -/
  | through {rs : List (Option Value)} {length : Nat} {t u : State} {made : Object}
    (htour : Tour serve fuel o (visitAt (iterationLabel this args) f o (argAt args 1)) 0 s rs t)
    (hn : rs.length = n)
    (hlabels : ∀ r, some r ∈ rs → (iterationLabel this args).leq r.label = true)
    (hread : (lengthQuietly o).run serve fuel t = .done length u)
    (hmade : x = .done ((Raw.object ⟨u.store.heap.size, .plain⟩).labeled (iterationLabel this args))
      (u.withHeap (u.store.heap.push made)))
    (hholds : made.Holds (mapped rs length))
    (hlength : (mapped rs length).length = max length (rs.rdropWhile Option.isNone).length)
    (hexact : (mapped rs length).length = n → made.Holds (rs.map (·.bind Value.element?)))
  /-- The length cannot be read again. -/
  | unread {rs : List (Option Value)} {t : State}
    (htour : Tour serve fuel o (visitAt (iterationLabel this args) f o (argAt args 1)) 0 s rs t)
    (hn : rs.length = n) (hread : ((lengthQuietly o).run serve fuel t).Interrupts x)
  /-- A visit does not end normally: the elements before it have been visited. -/
  | interrupted {rs : List (Option Value)} {t : State}
    (htour : Tour serve fuel o (visitAt (iterationLabel this args) f o (argAt args 1)) 0 s rs t)
    (hn : rs.length < n) (hpresent : t.store.heap.has o.id (indexName rs.length) = true)
    (hvisit : ((visitAt (iterationLabel this args) f o (argAt args 1) rs.length).run serve fuel
      t).Interrupts x)

section

variable {serve : Service} {fuel : Nat} {o f : Ref} {this : Value} {args : List Value} {n : Nat}
  {s u : State}

/-- What is left when the callback has been called. -/
def finishMap (this : Value) (args out : List Value) : Action Value := do
  let o ← thisObject this "map"
  let n ← lengthQuietly o
  return (Raw.object (← newArray (out ++ List.replicate (n - out.length) .absent))).labeled
    (iterationLabel this args)

lemma Outcome.Interrupts.bind {α β γ : Type} {p : Action β} {x : Outcome γ}
    (h : x.Interrupts (p.run serve fuel s)) (k : β → Action α) :
    x.Interrupts ((p >>= k).run serve fuel s) := by
  rw [run_bind]
  cases hrun : p.run serve fuel s with
  | done b t => cases hrun ▸ h
  | failed f t =>
    rw [hrun] at h
    cases h
    exact .failed f t
  | stuck w t =>
    rw [hrun] at h
    cases h
    exact .stuck w t

lemma run_map (hthis : this.raw = .object o) (hf : (argAt args 0).raw.callable? = some f)
    (hlength : (lengthOf o).run serve fuel s = .done n u) :
    (map this args).run serve fuel s =
      (loop (0, []) (mapRound (iterationLabel this args) f o (argAt args 1) n) >>=
        finishMap this args).run serve fuel u := by
  have hcallback : (callbackAt args 0 "map").run serve fuel s = .done f s := by
    simp only [callbackAt, hf, run_pure]
  have hiterate : (Library.iterate "map" this args [] fun out i _ r => (placeAt i r out, true)).run
      serve fuel s = (loop (0, []) (mapRound (iterationLabel this args) f o (argAt args 1) n)).run
        serve fuel u := by
    unfold Library.iterate
    rw [run_bind_of_done (run_thisObject hthis _ s), run_bind_of_done hcallback,
      run_bind_of_done hlength]
    rfl
  have hmap : map this args = Library.iterate "map" this args [] (fun out i _ r =>
    (placeAt i r out, true)) >>= finishMap this args := rfl
  rw [hmap, run_bind, run_bind, hiterate]

/-- A call of `map` makes an array of what a tour of the indices of its receiver has given, or ends
like the visit that did not end normally. -/
theorem map_follows_tour (hthis : this.raw = .object o)
    (hf : (argAt args 0).raw.callable? = some f)
    (hlength : (lengthOf o).run serve fuel s = .done n u) (hfuel : n < fuel) :
    MapEnds serve fuel o f this args n u ((map this args).run serve fuel s) := by
  rw [run_map hthis hf hlength]
  rcases Tour.complete_or_interrupted serve fuel o
    (visitAt (iterationLabel this args) f o (argAt args 1)) (Nat.zero_le n) u with
    ⟨rs, t, htour, hn⟩ | ⟨rs, t, htour, hn, hpresent, hvisit⟩
  · rw [Nat.zero_add] at hn
    subst hn
    rw [run_bind_of_done (run_loop_mapRound htour hfuel), finishMap,
      run_bind_of_done (run_thisObject hthis _ _)]
    rcases run_lengthQuietly o t with ⟨length, w, hread, hbound⟩ | ⟨w, t', hread⟩
    · have hlength' : (collected rs ++
          List.replicate (length - (collected rs).length) Value.absent).length ≤ maxLength := by
        rw [← List.length_map Value.element?, map_element?_collected, length_mapped]
        exact max_le hbound ((length_rdropWhile_le rs).trans (le_of_run_lengthOf hlength))
      have hholds := Heap.holds_arrayOf (some w.control.realm.arrayProto) w.control.pc hlength'
      rw [map_element?_collected] at hholds
      refine .through htour rfl (htour.forall_mem fun i s r u hr => ?_) hread
        ((run_bind_of_done hread _).trans rfl) hholds (length_mapped ..) fun hn => ?_
      · obtain ⟨_, _, -, hcall⟩ := run_bind_done.1 hr
        exact leq_label_of_invokeAt hcall
      · rwa [mapped_of_length hn] at hholds
    · rw [run_bind_stuck hread]
      exact .unread htour rfl (hread ▸ .stuck w t')
  · rw [Nat.zero_add] at hn hpresent hvisit
    exact .interrupted htour hn hpresent
      ((run_loop_mapRound_interrupted htour hn hfuel hpresent hvisit).bind _)

end

/-- A fresh session in whose heap there is one more object. -/
def joinedSession (o : Object) : State :=
  (Session.fresh .standard).withHeap ((Session.fresh .standard).store.heap.push o)

/-- The array of three elements, the second of which is a hole, and a function of the library. -/
theorem map_follows_tour_of_holed_array :
    let o : Ref := ⟨(Session.fresh .standard).store.heap.size, .plain⟩
    let boolean : Value := Raw.object ⟨73, .native⟩
    MapEnds (machine .none 50 50) 50 o ⟨73, .native⟩ (Raw.object o) [boolean] 3
      (joinedSession holedArray)
      ((map (Raw.object o) [boolean]).run (machine .none 50 50) 50 (joinedSession holedArray)) := by
  intro o boolean
  have hholds : ((joinedSession holedArray).store.heap.get o.id).Holds
      [some (Raw.ofNat 1), none, some (Raw.ofNat 3)] := by
    rw [joinedSession, State.heap_withHeap, Heap.get_push_size]
    exact holds_holedArray
  have hlength : (lengthOf o).run (machine .none 50 50) 50 (joinedSession holedArray) =
      .done 3 (joinedSession holedArray) := run_lengthOf_lists hholds
  exact map_follows_tour rfl rfl hlength (show 3 < 50 by decide)

/-- The callback adds an element to the array for each one that it is called with. -/
def mappedPushing : Action Value :=
  evaluate "[true, false].map(function(x, i, a) \x7b a.push(x); return x; \x7d)" "" 1

/-- An array has a given length. -/
def Object.countsTo (o : Object) (n : Nat) : Bool :=
  o.cls = "Array" && match Slots.find? "length" o.slots with
    | some p => match p.value.raw with
      | .number x => x == Decimal.ofNat n
      | _ => false
    | none => false

lemma Object.Holds.length_eq {o : Object} {xs : List (Option Value)} {n : Nat} (h : o.Holds xs)
    (hn : o.countsTo n = true) (hbound : n ≤ maxLength) : xs.length = n := by
  obtain ⟨q, hq, -, hraw⟩ := h.length
  obtain ⟨-, hn⟩ := Bool.and_eq_true_iff.1 hn
  rw [hq] at hn
  dsimp only at hn
  rw [hraw] at hn
  dsimp only [Raw.ofNat] at hn
  rw [ofNat_eq_toFloat hbound, Decimal.beq_iff, compare_toFloat
    (Nat.lt_of_le_of_lt h.bound (by decide)) (Nat.lt_of_le_of_lt hbound (by decide))] at hn
  exact Nat.compare_eq_eq.1 (Option.some.inj hn)

/-- An action ends normally with a reference to an array of a given length. -/
def endsWithArray (p : Action Value) (bound : Nat) (s : State) (n : Nat) : Bool :=
  match p.run (machine .none bound bound) bound s with
  | .done v t => match v.raw.object? with
    | some o => (t.store.heap.get o.id).countsTo n
    | none => false
  | _ => false

lemma exists_of_endsWithArray {p : Action Value} {bound n : Nat} {s : State}
    (h : endsWithArray p bound s n = true) : ∃ v t o,
      p.run (machine .none bound bound) bound s = .done v t ∧ v.raw.object? = some o ∧
      (t.store.heap.get o.id).countsTo n = true := by
  unfold endsWithArray at h
  split at h
  · rename_i v t hrun
    split at h
    · rename_i o ho
      exact ⟨v, t, o, hrun, ho, h⟩
    · cases h
  · cases h

set_option maxRecDepth 100000 in
/-- The array has two elements when `map` is called on it, and the result has four. -/
theorem mapped_pushing_is_longer : ∃ v t o,
    mappedPushing.run (machine .none 50 50) 50 (Session.fresh .standard) = .done v t ∧
      v.raw.object? = some o ∧ (t.store.heap.get o.id).countsTo 4 = true ∧
      ∀ xs, (t.store.heap.get o.id).Holds xs → xs.length ≠ 2 := by
  have hfour : endsWithArray mappedPushing 50 (Session.fresh .standard) 4 = true := by
    rw [mappedPushing, evaluate_ofList]
    decide +kernel
  obtain ⟨v, t, o, hrun, ho, hlength⟩ := exists_of_endsWithArray hfour
  refine ⟨v, t, o, hrun, ho, hlength, fun xs hholds => ?_⟩
  rw [hholds.length_eq hlength (by decide)]
  decide

end Clearance
