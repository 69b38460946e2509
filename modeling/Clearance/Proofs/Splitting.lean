/-
# Splitting and joining

A text is split at the occurrences of a separator that are found from the left, one after the other
(`Text.Pieces`): the pieces do not contain the separator, and the text is what they are with the
separator in between. The method for splitting puts the pieces in an array, and the one for joining
reads them back (`join_undoes_split`).
-/
import Clearance.Library.Global
import Clearance.Proofs.Elements
import Clearance.Session

namespace Clearance

/-! ## The pieces of a text -/

namespace Text

/-- The pieces of a text between the occurrences of a separator, which are found from the left: no
occurrence starts in front of the one that ends a piece. -/
inductive Pieces (separator : List Char) : List Char → List (List Char) → Prop where
  | last {text : List Char} (h : ¬separator <:+: text) : Pieces separator text [text]
  | cut {piece rest : List Char} {pieces : List (List Char)}
      (hfirst : ∀ i < piece.length, ¬separator <+: (piece ++ (separator ++ rest)).drop i)
      (hrest : Pieces separator rest pieces) :
      Pieces separator (piece ++ (separator ++ rest)) (piece :: pieces)

variable {separator text : List Char} {pieces : List (List Char)}

lemma Pieces.ne_nil (h : Pieces separator text pieces) : pieces ≠ [] := by
  cases h <;> exact List.cons_ne_nil _ _

/-- The pieces with the separator in between are the text. -/
lemma Pieces.intercalate_eq (h : Pieces separator text pieces) :
    separator.intercalate pieces = text := by
  induction h with
  | last => exact List.intercalate_singleton
  | @cut piece rest pieces hfirst hrest ih =>
    obtain ⟨next, more, rfl⟩ := List.exists_cons_of_ne_nil hrest.ne_nil
    rw [List.intercalate_cons_cons, ih, List.append_assoc]

/-- No piece contains the separator. -/
lemma Pieces.not_isInfix (h : Pieces separator text pieces) (hne : separator ≠ []) :
    ∀ piece ∈ pieces, ¬separator <:+: piece := by
  induction h with
  | last hlast => simpa using hlast
  | @cut piece rest pieces hfirst hrest ih =>
    refine List.forall_mem_cons.2 ⟨?_, ih⟩
    rintro ⟨before, after, rfl⟩
    -- an occurrence in the piece starts in front of its end
    refine hfirst before.length ?_ ?_
    · have := List.length_pos_of_ne_nil hne
      simp
      omega
    · simp [List.append_assoc]

/-- Characters of the last occurrence are passed. -/
lemma splitFrom_skip (skip : Nat) (piece cs : List Char) :
    splitFrom separator skip piece cs = splitFrom separator 0 piece (cs.drop skip) := by
  induction skip generalizing cs with
  | zero => rfl
  | succ skip ih =>
    cases cs with
    | nil => simp [splitFrom]
    | cons c cs =>
      rw [splitFrom, List.drop_succ_cons]
      exact ih cs

/-- What is split off, given that no occurrence starts in what has been read of the current piece,
by induction on the rest of the text. -/
lemma pieces_splitFrom (hne : separator ≠ []) (piece cs : List Char)
    (hread : ∀ i < piece.length, ¬separator <+: (piece.reverse ++ cs).drop i) :
    Pieces separator (piece.reverse ++ cs) (splitFrom separator 0 piece cs) := by
  -- on what is left to read; no separator starts in what has been read of the piece (`hread`)
  induction hn : cs.length using Nat.strong_induction_on generalizing piece cs with
  | _ n ih =>
    subst hn
    cases cs with
    | nil =>
      rw [splitFrom, List.append_nil]
      refine .last fun hinfix => ?_
      obtain ⟨before, after, heq⟩ := hinfix
      have hlt : before.length < piece.length := by
        have hlength := congrArg List.length heq
        have := List.length_pos_of_ne_nil hne
        simp at hlength
        omega
      refine hread _ hlt ?_
      rw [List.append_nil, ← heq]
      simp [List.append_assoc]
    | cons c cs =>
      rw [splitFrom]
      split_ifs with hprefix
      · obtain ⟨rest, hrest⟩ := List.isPrefixOf_iff_prefix.1 hprefix
        have hdrop : cs.drop (separator.length - 1) = rest := by
          obtain ⟨d, ds, rfl⟩ := List.exists_cons_of_ne_nil hne
          obtain rfl : ds ++ rest = cs := (List.cons.inj hrest).2
          exact List.drop_left
        have hlength : separator.length + rest.length = cs.length + 1 := by
          simpa using congrArg List.length hrest
        have hpos := List.length_pos_of_ne_nil hne
        rw [splitFrom_skip, hdrop, ← hrest]
        rw [← hrest] at hread
        refine .cut (fun i hi => hread i (by simpa using hi)) ?_
        simpa using ih rest.length (by simp; omega) [] rest (by simp) rfl
      · have := ih cs.length (by simp) (c :: piece) cs ?_ rfl
        · simpa using this
        · intro i hi
          rw [List.reverse_cons, List.append_assoc, List.singleton_append]
          rcases Nat.lt_or_ge i piece.length with hlt | hge
          · exact hread i hlt
          · have : i = piece.length := by simp at hi; omega
            subst this
            rw [← List.length_reverse, List.drop_left]
            exact fun h => hprefix (List.isPrefixOf_iff_prefix.2 h)

/-- A separator that is not empty splits a text into its pieces. -/
lemma pieces_split (hne : separator ≠ []) : Pieces separator text (split separator text) := by
  obtain ⟨c, cs, rfl⟩ := List.exists_cons_of_ne_nil hne
  exact pieces_splitFrom hne [] text (by simp)

/-- The text is what its pieces are with the separator in between. -/
lemma intercalate_split (separator text : List Char) :
    separator.intercalate (split separator text) = text := by
  cases separator with
  | nil =>
    show [].intercalate (text.map fun c => [c]) = text
    induction text with
    | nil => rfl
    | cons c cs ih => cases cs <;> simp_all
  | cons c cs => exact (pieces_split (List.cons_ne_nil c cs)).intercalate_eq

end Text

/-! ## The methods -/

open Clearance.Action Clearance.Library

/-- The texts that a text is split into. -/
def piecesOf (separator text : String) : List String :=
  (Text.split separator.toList text.toList).map String.ofList

lemma intercalate_piecesOf (separator text : String) :
    separator.intercalate (piecesOf separator text) = text := by
  refine String.toList_injective ?_
  rw [String.toList_intercalate, piecesOf, List.map_map]
  have hid : (String.toList ∘ String.ofList) = id := funext fun _ => String.toList_ofList
  rw [hid, List.map_id, Text.intercalate_split]

section

variable {serve : Service} {fuel : Nat} {s t : State}

/-- A state with a new array of texts. -/
def State.withTexts (s : State) (texts : List String) : State :=
  s.withHeap (s.store.heap.push (Heap.arrayOf (some s.control.realm.arrayProto) s.control.pc
    (texts.map fun w => (Raw.string w : Value))))

/-- The method for splitting gives a new array of the pieces. -/
lemma run_split {this v : Value} {text separator : String}
    (hthis : (stringOf this.raw).run serve fuel s = .done text t) (hv : v.raw = .string separator) :
    (Library.run (.stringMethod .split) this [v]).run serve fuel s =
      .done ((Raw.object ⟨t.store.heap.size, .plain⟩ : Value).wrap (Value.joinLabels [this, v]))
        (t.withTexts (piecesOf separator text)) := by
  refine run_lift ?_
  refine (run_bind_of_done (run_converted "split" 1 hthis) _).trans (run_adaptedResult "split" ?_)
  show (splitText text.toList v.raw .undefined).run serve fuel t = _
  rw [hv]
  unfold State.withTexts piecesOf
  rw [List.map_map]
  rfl

/-- A new array of texts holds them. -/
lemma holds_withTexts {texts : List String} (hfew : texts.length ≤ maxLength) :
    ((s.withTexts texts).store.heap.get s.store.heap.size).Holds
      (texts.map fun w => some (Raw.string w : Value)) := by
  let elements : List Value := texts.map fun w => (Raw.string w : Value)
  have hlength : elements.length ≤ maxLength := by simpa [elements] using hfew
  have hholds := Heap.holds_arrayOf (some s.control.realm.arrayProto) s.control.pc hlength
  rw [State.withTexts, State.heap_withHeap, Heap.get_push_size]
  rw [List.map_map] at hholds
  exact hholds

lemma run_stringOf_string (w : String) :
    (stringOf (.string w)).run serve fuel s = .done w s := rfl

/-- The texts of texts are these texts. -/
lemma run_elementTexts (texts : List String) :
    (elementTexts (texts.map fun w => (Raw.string w : Value))).run serve fuel s =
      .done texts s := by
  induction texts with
  | nil => rfl
  | cons w texts ih =>
    rw [List.map_cons, elementTexts]
    exact (run_bind_of_done (run_stringOf_string w) _).trans ((run_bind_of_done ih _).trans rfl)

/-- The elements of an array without holes are read as they are, whatever it inherits. -/
lemma run_elementsOf_dense {o : Ref} {elements : List Value}
    (hholds : (s.store.heap.get o.id).Holds (elements.map some)) (hfuel : elements.length < fuel) :
    (elementsOf o).run serve fuel s = .done elements s := by
  have hlength : (lengthOf o).run serve fuel s = .done elements.length s := by
    simpa using run_lengthOf_lists hholds
  have hread : ∀ j < elements.length, (getProperty o (indexName j)).run serve fuel s =
      .done (elements.getD j .undefined) s := by
    intro j hj
    have hbound : elements.length ≤ maxLength := by simpa using hholds.bound
    have helement := hholds.elements j (Nat.lt_of_lt_of_le hj hbound)
    rw [List.getElem?_map, List.getElem?_eq_getElem hj] at helement
    obtain ⟨q, hq, hvalue⟩ := Option.map_eq_some_iff.1 helement
    rw [run_getProperty_slot hq (hholds.plain j (Nat.lt_of_lt_of_le hj hbound) q hq).1.data, hvalue,
      List.getD_eq_getElem?_getD, List.getElem?_eq_getElem hj, Option.getD_some]
  rw [run_elementsOf_of_reads hlength hread hfuel]
  congr 1
  exact List.ext_getElem (by simp) fun i hi _ => by
    simp [show i < elements.length by simpa using hi]

/-- The method for joining puts the separator between the texts of an array. -/
lemma run_join {this v : Value} {o : Ref} {texts : List String} {separator : String}
    (hthis : this.raw = .object o) (hv : v.raw = .string separator)
    (hholds : (s.store.heap.get o.id).Holds (texts.map fun w => some (Raw.string w : Value)))
    (hfuel : texts.length < fuel) :
    (Library.run (.arrayMethod .join) this [v]).run serve fuel s =
      .done ((Raw.string (separator.intercalate texts)).labeled (this.label.join v.label)) s := by
  have helements : (elementsOf o).run serve fuel s =
      .done (texts.map fun w => (Raw.string w : Value)) s :=
    run_elementsOf_dense (by rwa [List.map_map]) (by simpa using hfuel)
  have hlabels : Value.joinLabels (texts.map fun w => (Raw.string w : Value)) = .none := by
    unfold Value.joinLabels
    rw [List.foldl_map]
    simp only [Value.plain_label, Label.join_none, List.foldl_fixed]
  have hseparator : (stringOf v.raw).run serve fuel s = .done separator s :=
    hv ▸ run_stringOf_string separator
  show (join this [v]).run serve fuel s = _
  unfold join thisObject
  rw [hthis]
  refine (run_bind_of_done (run_pure o s) _).trans ?_
  have hdefined : ((argAt [v] 0).raw).isUndefined = false := by
    show v.raw.isUndefined = false
    rw [hv]
    rfl
  dsimp only
  rw [hdefined]
  simp only [Bool.false_eq_true, if_false]
  refine (run_bind_of_done hseparator _).trans ?_
  refine (run_bind_of_done helements _).trans
    ((run_bind_of_done (run_elementTexts texts) _).trans ?_)
  rw [hlabels, Label.join_none]
  rfl

end

/-- **Joining undoes splitting.** The method for splitting gives an array of the pieces of a text.
With the separator in between, the pieces are the text; they are those between the occurrences found
from the left, and do not contain the separator, or the characters of the text if the separator is
empty. As long as an array can count the pieces, it holds them, and the method for joining gives
back the text in every state in which the array is as it was made. -/
theorem join_undoes_split (serve : Service) (fuel : Nat) {s t : State} {this v : Value}
    {text separator : String} (hthis : (stringOf this.raw).run serve fuel s = .done text t)
    (hv : v.raw = .string separator) : ∃ (o : Ref) (array : Value) (u : State),
    (Library.run (.stringMethod .split) this [v]).run serve fuel s = .done array u ∧
      array.raw = .object o ∧ separator.intercalate (piecesOf separator text) = text ∧
      (separator ≠ "" → Text.Pieces separator.toList text.toList
          ((piecesOf separator text).map String.toList) ∧
        ∀ piece ∈ piecesOf separator text, ¬separator.toList <:+: piece.toList) ∧
      (separator = "" → piecesOf separator text = text.toList.map fun c => String.ofList [c]) ∧
      ((piecesOf separator text).length ≤ maxLength →
        (u.store.heap.get o.id).Holds
            ((piecesOf separator text).map fun w => some (Raw.string w : Value)) ∧
          ∀ (serve' : Service) (fuel' : Nat) (u' : State) (v' : Value), v'.raw = .string separator →
            u'.store.heap.get o.id = u.store.heap.get o.id →
            (piecesOf separator text).length < fuel' →
            (Library.run (.arrayMethod .join) array [v']).run serve' fuel' u' =
              .done ((Raw.string text).labeled (array.label.join v'.label)) u') := by
  have htexts : (piecesOf separator text).map String.toList =
      Text.split separator.toList text.toList := by
    rw [piecesOf, List.map_map]
    exact (List.map_congr_left fun _ _ => String.toList_ofList).trans (List.map_id _)
  refine ⟨_, _, _, run_split hthis hv, Value.wrap_raw .., intercalate_piecesOf separator text,
    fun hne => ?_, fun hempty => ?_, fun hfew => ⟨holds_withTexts hfew, ?_⟩⟩
  · have hseparator : separator.toList ≠ [] := by simpa using hne
    have hpieces : Text.Pieces separator.toList text.toList
        ((piecesOf separator text).map String.toList) := htexts ▸ Text.pieces_split hseparator
    exact ⟨hpieces, fun piece hpiece =>
      hpieces.not_isInfix hseparator _ (List.mem_map_of_mem hpiece)⟩
  · rw [piecesOf, hempty]
    exact List.map_map
  · intro serve' fuel' u' v' hv' hu' hfuel
    have hholds := holds_withTexts (s := t) hfew
    rw [← hu'] at hholds
    rw [run_join (Value.wrap_raw ..) hv' hholds hfuel, intercalate_piecesOf]

/-- Occurrences that overlap are found from the left. -/
theorem join_undoes_split_overlapping : ∃ (array : Value) (u : State),
    (Library.run (.stringMethod .split) (Raw.string "aaa") [(Raw.string "aa" : Value)]).run
        (machine .none 50 50) 50 (Session.fresh .standard) = .done array u ∧
      (Library.run (.arrayMethod .join) array [(Raw.string "aa" : Value)]).run
      (machine .none 50 50) 50 u =
        .done ((Raw.string "aaa").labeled (array.label.join .none)) u := by
  have hlength : (piecesOf "aa" "aaa").length = 2 := by decide
  let receiver : Value := Raw.string "aaa"
  have hreceiver : (stringOf receiver.raw).run (machine .none 50 50) 50 (Session.fresh .standard) =
      .done "aaa" (Session.fresh .standard) := run_stringOf_string _
  obtain ⟨o, array, u, hsplit, -, -, -, -, hjoin⟩ := join_undoes_split (machine .none 50 50) 50
    (v := Raw.string "aa") hreceiver rfl
  obtain ⟨-, hjoin⟩ := hjoin (by rw [hlength]; decide)
  exact ⟨array, u, hsplit, hjoin _ _ u (Raw.string "aa") rfl rfl (by rw [hlength]; decide)⟩

end Clearance
