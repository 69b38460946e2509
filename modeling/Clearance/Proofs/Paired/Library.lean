/-
# Built-in functions side by side

The functions on objects, functions, errors and arrays do the same on both sides. A lifted function
works on raw values, which are the same, so it is enough that it does the same twice. The sort is an
instance of `Clearance.Sort.Correspondence`: what corresponds are two comparisons that go on from
what has been learned before.
-/
import Clearance.Proofs.Paired.Code
import Clearance.Proofs.Sorting

namespace Clearance

open Clearance.Action World

variable {W : World} {L : Ground} {α β : Type}

namespace World

/-- Native functions that do the same on values that correspond. -/
def Natives (W : World) (f f' : NativeFn) : Prop :=
  ∀ {L : Ground} {this this' : Value} {args args' : List Value}, W.Values this this' →
    List.Forall₂ W.Values args args' → Paired W L (f this args) (f' this' args') W.Values

/-- Raw values that scripts may hold. -/
abbrev Fine (W : World) (r : Raw) : Prop := W.Raws r r

/-- Functions on raw values that do the same twice. -/
def RawFns (W : World) (f : RawFn) : Prop :=
  ∀ {L : Ground} {this : Raw} {args : List Raw}, W.Fine this → (∀ r ∈ args, W.Fine r) →
    Paired W L (f this args) (f this args) W.Values

lemma Raws.fine {r r' : Raw} (h : W.Raws r r') : W.Fine r := ⟨rfl, h.sound, h.present⟩

lemma values_getD {vs vs' : List Value} (h : List.Forall₂ W.Values vs vs') (i : Nat) :
    W.Values (vs.getD i .undefined) (vs'.getD i .undefined) := by
  induction h generalizing i with
  | nil => exact .undefined
  | cons hv _ ih =>
    cases i with
    | zero => exact hv
    | succ i => exact ih i

lemma fine_rawAt {args : List Raw} (h : ∀ r ∈ args, W.Fine r) (i : Nat) :
    W.Fine (rawAt args i) := by
  induction args generalizing i with
  | nil => exact .primitive rfl
  | cons r rs ih =>
    obtain ⟨hr, hrs⟩ := List.forall_mem_cons.1 h
    cases i with
    | zero => exact hr
    | succ i => exact ih hrs i

lemma raws_map {vs vs' : List Value} (h : List.Forall₂ W.Values vs vs') :
    vs'.map Value.raw = vs.map Value.raw ∧ ∀ r ∈ vs.map Value.raw, W.Fine r := by
  induction h with
  | nil => exact ⟨rfl, by rintro r ⟨⟩⟩
  | cons hv _ ih =>
    refine ⟨?_, ?_⟩
    · rw [List.map_cons, List.map_cons, ih.1, hv.raw.same]
    · rw [List.map_cons]
      exact List.forall_mem_cons.2 ⟨hv.raw.fine, ih.2⟩

lemma labels_joinLabels' {vs vs' : List Value} (h : List.Forall₂ W.Values vs vs') :
    W.Labels (Value.joinLabels vs) (Value.joinLabels vs') := labels_joinLabels (cells_of_values h)

end World

/-! ## Adapted functions -/

lemma natives_lift {f : RawFn} (h : W.RawFns f) : W.Natives (lift f) (lift f) := by
  intro L this this' args args' hthis hargs
  obtain ⟨hsame, hfine⟩ := raws_map hargs
  unfold lift
  rw [hthis.raw.same, hsame]
  exact .bind (h hthis.raw.fine hfine) fun _ _ hr =>
    .pure (hr.wrap (labels_joinLabels' (.cons hthis hargs)))

lemma paired_thisObject {this this' : Value} (h : W.Values this this') (name : String) :
    Paired W L (thisObject this name) (thisObject this' name) W.Refs := by
  unfold thisObject
  have hsound := h.raw.sound
  rw [h.raw.same]
  split
  · rename_i o ho
    exact .pure ⟨rfl, hsound o ho⟩
  · exact .typeError (.refl _)

lemma paired_callbackAt {args args' : List Value} (h : List.Forall₂ W.Values args args') (i : Nat)
    (name : String) : Paired W L (callbackAt args i name) (callbackAt args' i name)
      fun f f' => f' = f ∧ W.Callee f := by
  have harg : W.Raws (argAt args i).raw (argAt args' i).raw := (values_getD h i).raw
  have hinspect := paired_inspect_raw (L := L) harg
  have hcallable : ∀ f, (argAt args i).raw.callable? = some f → W.Callee f := fun _ => harg.callable
  unfold callbackAt
  rw [harg.same] at hinspect ⊢
  dsimp only
  split
  · rename_i f hf
    exact .pure ⟨rfl, hcallable f hf⟩
  · exact .bind hinspect fun _ _ hm => .typeError ((Texts.append (.refl _) hm).append (.refl _))

lemma paired_invokeAt {k k' : Label} (hk : W.Labels k k') {f : Ref} (hf : W.Callee f)
    {this this' : Value} (hthis : W.Values this this') {args args' : List Value}
    (hargs : List.Forall₂ W.Values args args') :
    Paired W L (invokeAt k f this args) (invokeAt k' f this' args') W.Values :=
  .bind (.above hk (.call hf hthis hargs)) fun _ _ hr => .pure (hr.wrap hk)

lemma paired_thrownText {v v' : Value} (h : W.Values v v') :
    Paired W L (thrownText v) (thrownText v') W.Texts := by
  unfold thrownText
  have hmark : W.Texts (if v.label.isNone then "" else "<" ++ v.label.text ++ ">")
      (if v'.label.isNone then "" else "<" ++ v'.label.text ++ ">") := fun hf => by
    rw [h.label.same hf]
  have hinspect := paired_inspect_raw (L := L) h.raw
  have hsound := h.raw.sound
  have hfinish : ∀ s s', W.Texts s s' → Paired W L
      (pure ((if v.label.isNone then "" else "<" ++ v.label.text ++ ">") ++ s))
      (pure ((if v'.label.isNone then "" else "<" ++ v'.label.text ++ ">") ++ s')) W.Texts :=
    fun s s' hs => .pure (hmark.append hs)
  rw [h.raw.same] at hinspect ⊢
  dsimp only
  split
  · rename_i o ho
    refine .bind (.object (W.fits_object (hsound o ho))) fun obj obj' hobj => ?_
    rw [hobj.cls]
    exact .ite' (fun _ => .bind (paired_errorText (hsound o ho)) hfinish) fun _ =>
      .bind hinspect hfinish
  · exact .bind hinspect hfinish

lemma paired_failureText {f f' : Failure} (h : W.Failures f f') :
    Paired W L f.text f'.text W.Texts := by
  cases h with
  | thrown file line hv =>
    exact .bind (paired_thrownText hv) fun _ _ hs => .pure fun hf => by rw [hs hf]
  | fault name hm => exact .pure (.append (.refl _) hm)
  | violation _ _ hv => exact .pure fun hf => by rw [hv hf]
  | overflow depth => exact .pure (.refl _)
  | internal _ hm => exact .pure (.append (.refl _) hm)
  | script e => exact .pure (.refl _)
  | quit code => exact .pure (.refl _)
  | host ht => exact .pure ht

lemma paired_converted (name : String) (position : Nat) {p : Action α} {q : Action β}
    {R : α → β → Prop} (h : Paired W L p q R) :
    Paired W L (converted name position p) (converted name position q) R := by
  refine .bind (.attempt h) fun r r' hr => ?_
  cases hr with
  | ok h => exact .pure h
  | error hf => exact .bind (paired_failureText hf) fun _ _ hm => .typeError (.append (.refl _) hm)

lemma paired_adaptedResult (name : String) {p : Action α} {q : Action β} {R : α → β → Prop}
    (h : Paired W L p q R) : Paired W L (adaptedResult name p) (adaptedResult name q) R := by
  refine .bind (.attempt h) fun r r' hr => ?_
  cases hr with
  | ok h => exact .pure h
  | error hf =>
    have htext := paired_failureText (L := L) hf
    have hwrapped : Paired W L
        (_ >>= fun m => (typeError (name ++ ": " ++ m) : Action α))
        (_ >>= fun m => (typeError (name ++ ": " ++ m) : Action β)) R :=
      .bind htext fun _ _ hm => .typeError (.append (.refl _) hm)
    cases hf with
    | fault n hm => exact .fail (.fault n hm)
    | thrown | violation | overflow | internal | script | quit | host => exact hwrapped

section

variable {args : List Raw} (h : ∀ r ∈ args, W.Fine r)
include h

lemma paired_numberAt (name : String) (i : Nat) :
    Paired W L (numberAt name args i) (numberAt name args i) Eq :=
  paired_converted _ _ (paired_numberOf (fine_rawAt h i))

lemma paired_textAt (name : String) (i : Nat) :
    Paired W L (textAt name args i) (textAt name args i) Eq :=
  paired_converted _ _ (paired_stringOf (fine_rawAt h i))

lemma paired_convertFrom (name : String) {convert : Raw → Action α}
    (hconvert : ∀ r, W.Fine r → Paired W L (convert r) (convert r) Eq) (i : Nat) :
    Paired W L (convertFrom name convert i args) (convertFrom name convert i args) Eq := by
  induction args generalizing i with
  | nil => exact .pure rfl
  | cons r rs ih =>
    obtain ⟨hr, hrs⟩ := List.forall_mem_cons.1 h
    exact .bindEq (paired_converted _ _ (hconvert r hr)) fun _ =>
      .bindEq (ih hrs _) fun _ => .pure rfl

lemma paired_numbersFrom (name : String) (i : Nat) :
    Paired W L (numbersFrom name args i) (numbersFrom name args i) Eq :=
  paired_convertFrom (fun r hr => h r (List.mem_of_mem_drop hr)) name (fun _ => paired_numberOf) i

lemma paired_textsFrom (name : String) (i : Nat) :
    Paired W L (textsFrom name args i) (textsFrom name args i) Eq :=
  paired_convertFrom (fun r hr => h r (List.mem_of_mem_drop hr)) name (fun _ => paired_stringOf) i

end

lemma paired_optionalIndex {r : Raw} (h : W.Fine r) (fallback : Int) :
    Paired W L (optionalIndex r fallback) (optionalIndex r fallback) Eq :=
  .ite' (fun _ => .pure rfl) fun _ => .bindEq (paired_numberOf h) fun _ => .pure rfl

lemma paired_relativeIndex {r r' : Raw} (h : W.Raws r r') (n fallback : Nat) :
    Paired W L (relativeIndex r n fallback) (relativeIndex r' n fallback) Eq := by
  obtain rfl := h.same
  exact .ite' (fun _ => .pure rfl) fun _ => .bindEq (paired_numberOf h) fun _ =>
    .ite' (fun _ => .pure rfl) fun _ => .pure rfl

namespace Library

/-! ## Objects, functions and errors -/

section

variable {this this' : Value} {args args' : List Value}

lemma values_argAt (h : List.Forall₂ W.Values args args') (i : Nat) :
    W.Values (argAt args i) (argAt args' i) := values_getD h i

lemma paired_newObject (h : List.Forall₂ W.Values args args') :
    Paired W L (newObject args) (newObject args') W.Values := by
  have harg := values_argAt h 0
  unfold newObject
  dsimp only
  refine .ite (by rw [harg.raw.same]) (fun _ => ?_) fun _ => ?_
  · exact .bindRealm (.bind .pc fun _ _ hpc => .bind
      (.make (.blank (by decide) (W.proto (by simp)) hpc)) fun _ _ ho => .pure (.object ho))
  · exact .bind (paired_toObject none harg.raw) fun _ _ ho =>
      .pure (.labeled (.object ho) harg.label)

lemma cells_map (f : β → Raw) (hf : ∀ x, (f x).isPrimitive = true) (xs : List β) :
    List.Forall₂ W.Cells (xs.map fun x => Value.plain (f x))
      (xs.map fun x => Value.plain (f x)) := by
  induction xs with
  | nil => exact .nil
  | cons x xs ih => exact .cons (.inl (.primitive (hf x))) ih

lemma rawFns_keysOf : W.RawFns keysOf := by
  intro L this args _ hargs
  have hfine := fine_rawAt hargs 0
  unfold keysOf
  generalize rawAt args 0 = r at hfine
  cases r with
  | object o =>
    refine .bind (.object (W.fits_object hfine.refs)) fun obj obj' hobj => ?_
    have hshown : (obj'.slots.filter fun slot => !slot.2.hidden).map Prod.fst =
        (obj.slots.filter fun slot => !slot.2.hidden).map Prod.fst := by
      have hslots := hobj.slots
      generalize obj.slots = slots at hslots
      generalize obj'.slots = slots' at hslots
      induction hslots with
      | nil => rfl
      | @cons a b _ _ hab _ ih =>
        obtain ⟨n, x⟩ := a
        obtain ⟨n', x'⟩ := b
        obtain ⟨rfl, hx⟩ := hab
        rw [List.filter_cons, List.filter_cons]
        dsimp only at hx ⊢
        rw [hx.hidden]
        split_ifs
        · rw [List.map_cons, List.map_cons, ih]
        · exact ih
    dsimp only
    rw [hshown]
    exact .bind (paired_newArray (cells_map Raw.string (fun _ => rfl) _)) fun _ _ ho =>
      .pure (.object ho)
  | _ => exact .typeError (.refl _)

lemma rawFns_prototypeOf : W.RawFns prototypeOf := by
  intro L this args _ hargs
  have hfine := fine_rawAt hargs 0
  unfold prototypeOf
  generalize rawAt args 0 = r at hfine
  cases r with
  | object o =>
    refine .bind (.object (W.fits_object hfine.refs)) fun obj obj' hobj => ?_
    rw [hobj.proto]
    split
    · rename_i q hq
      exact .pure (.object ⟨rfl, W.fits_plain (hobj.proto_object q hq)⟩)
    · exact .pure (.primitive rfl)
  | _ => exact .typeError (.refl _)

lemma rawFns_classText : W.RawFns classText := by
  intro L this args hthis _
  cases this with
  | object o =>
    refine .bind (.object (W.fits_object hthis.refs)) fun obj obj' hobj => ?_
    rw [hobj.cls]
    exact .pure (.primitive rfl)
  | _ => exact .pure (.primitive rfl)

lemma paired_ownNamed {this : Raw} {args : List Raw} (hthis : W.Fine this)
    (hargs : ∀ r ∈ args, W.Fine r) : Paired W L (ownNamed this args) (ownNamed this args)
      fun found found' => ∃ cls name, W.Finds cls name found found' := by
  refine .bind (paired_toObject none hthis) fun o o' ho =>
    .bindEq (paired_stringOf (fine_rawAt hargs 0)) fun name => ?_
  obtain ⟨rfl, ho⟩ := ho
  exact .bind (.object (W.fits_object ho)) fun obj obj' hobj => .pure ⟨_, name, hobj.own? name⟩

lemma rawFns_hasOwnNamed : W.RawFns hasOwnNamed := by
  intro L this args hthis hargs
  refine .bind (paired_ownNamed hthis hargs) fun found found' hfound => ?_
  obtain ⟨cls, name, ⟨rfl, rfl⟩ | ⟨x, x', rfl, rfl, -⟩⟩ := hfound
  all_goals exact .pure (.primitive rfl)

lemma rawFns_isShown : W.RawFns isShown := by
  intro L this args hthis hargs
  refine .bind (paired_ownNamed hthis hargs) fun found found' hfound => ?_
  obtain ⟨cls, name, ⟨rfl, rfl⟩ | ⟨x, x', rfl, rfl, hx⟩⟩ := hfound
  · exact .pure (.primitive rfl)
  · dsimp only
    rw [hx.hidden]
    exact .pure (.primitive rfl)

lemma paired_textsOf (h : List.Forall₂ W.Values args args') :
    Paired W L (textsOf args) (textsOf args') Eq := by
  induction h with
  | nil => exact .pure rfl
  | cons hv _ ih => exact .bindEq (paired_stringOf hv.raw) fun _ => .bindEq ih fun _ => .pure rfl

lemma paired_thisFunction {r r' : Raw} (h : W.Raws r r') (name : String) :
    Paired W L (thisFunction r name) (thisFunction r' name) fun f f' => f' = f ∧ W.Callee f := by
  obtain rfl := h.same
  unfold thisFunction
  split
  · rename_i f hf
    exact .pure ⟨rfl, h.callable hf⟩
  · exact .typeError (.refl _)

lemma natives_callWith : W.Natives callWith callWith := by
  intro L this this' args args' hthis hargs
  refine .bind (paired_thisFunction hthis.raw "call") fun f f' hf => ?_
  obtain ⟨rfl, hf⟩ := hf
  exact paired_invokeAt hthis.label hf (values_argAt hargs 0) (List.forall₂_drop 1 hargs)

lemma paired_argumentList {r r' : Raw} (h : W.Raws r r') :
    Paired W L (argumentList r) (argumentList r') (List.Forall₂ W.Values) := by
  obtain rfl := h.same
  cases r' with
  | object o => exact paired_elementsOf h.refs
  | absent | undefined | null => exact .pure .nil
  | bool | number | string => exact .typeError (.refl _)

lemma natives_applyTo : W.Natives applyTo applyTo := by
  intro L this this' args args' hthis hargs
  refine .bind (paired_thisFunction hthis.raw "apply") fun f f' hf => ?_
  obtain ⟨rfl, hf⟩ := hf
  refine .bind (paired_argumentList (values_argAt hargs 1).raw) fun vs vs' hvs => ?_
  exact paired_invokeAt (hthis.label.join (values_argAt hargs 1).label) hf
    (values_argAt hargs 0) hvs

lemma rawFns_functionSource : W.RawFns functionSource := by
  intro L this args hthis _
  refine .seq (.abreast (paired_thisFunction hthis "toString")) fun _ _ => ?_
  exact .bindEq (paired_plainText' (.inl (.plain hthis))) fun _ => .pure (.primitive rfl)

/-- An error constructor. Where the runs meet different labels, no error is made of a labeled
undefined value: it would keep the text of the value on one side only. -/
lemma paired_newError (name : String) (h : List.Forall₂ W.Values args args') :
    Paired W L (newError name args) (newError name args') W.Values := by
  have harg := values_argAt h 0
  by_cases hlapse : ¬W.faithful ∧ (argAt args 0).isLabeled = true ∧
      (argAt args 0).raw.isUndefined = true
  · exact .lapse hlapse.1 (.message hlapse.2.1 hlapse.2.2)
  have hundefined : (argAt args' 0).isUndefined = (argAt args 0).isUndefined := by
    by_cases hf : W.faithful
    · exact Shown.isUndefined (.inl (.inl harg)) hf
    · unfold Value.isUndefined
      rw [harg.raw.same]
      have hright : (argAt args' 0).isLabeled = false :=
        Bool.eq_false_iff.2 ((W.right_calm hf).not_less harg.label.right)
      cases hraw : (argAt args 0).raw.isUndefined
      · rw [Bool.and_false, Bool.and_false]
      · rw [hright, Bool.eq_false_iff.2 fun hlabeled => hlapse ⟨hf, hlabeled, hraw⟩]
  have hproto : ∀ q ∈ W.realm.errorProtos.lookup name, ¬W.store q := fun q hq => W.errorProto hq
  refine .bindRealm (.bind .pc fun pc pc' hpc => ?_)
  have hblank : W.Objects (Object.blank "Error" (W.realm.errorProtos.lookup name) pc)
      (Object.blank "Error" (W.realm.errorProtos.lookup name) pc') := .blank (by decide) hproto hpc
  refine .ite (by rw [hundefined]) (fun _ => ?_) fun _ => ?_
  · exact .bind (.make hblank) fun _ _ ho => .pure (.object ho)
  · exact .bindEq (paired_stringOf harg.raw) fun text => .bind
      (.make (hblank.setHidden (.inl (.labeled (.primitive rfl) harg.label)))) fun _ _ ho =>
        .pure (.object ho)

lemma rawFns_errorSource : W.RawFns errorSource := by
  intro L this args hthis _
  cases this with
  | object o =>
    by_cases hf : W.faithful
    · refine .bind (paired_errorText hthis.refs) fun s s' hs => ?_
      rw [hs hf]
      exact .pure (.primitive rfl)
    · exact .lapse hf (.text o args)
  | _ => exact .typeError (.refl _)

/-! ## Arrays -/

lemma paired_arrayOf (h : List.Forall₂ W.Values args args') :
    Paired W L (arrayOf args) (arrayOf args') W.Values := by
  have helements : ∀ {L}, Paired W L (newArray args >>= fun a => pure (Value.plain (.object a)))
      (newArray args' >>= fun a => pure (Value.plain (.object a))) W.Values :=
    .bind (paired_newArray (cells_of_values h)) fun _ _ ha => .pure (.object ha)
  unfold arrayOf
  rcases h with _ | @⟨v, v', _, _, hv, _ | hrest⟩
  · exact helements
  · obtain ⟨r, k⟩ := v
    obtain ⟨r', k'⟩ := v'
    obtain rfl : r' = r := hv.raw.same
    cases r' with
    | number x =>
      refine .ite' (fun _ => .rangeError _) fun _ => .bind (paired_newArray .nil) fun a a' ha => ?_
      obtain ⟨rfl, ha⟩ := ha
      exact .seq (paired_putProperty ha "length" (.primitive rfl)) fun _ _ =>
        .pure (.labeled (.object ⟨rfl, ha⟩) hv.label)
    | _ => exact helements
  · obtain ⟨r, k⟩ := v
    obtain ⟨r', k'⟩ := v'
    obtain rfl : r' = r := hv.raw.same
    cases r' <;> exact helements

lemma rawFns_isArray : W.RawFns isArray := by
  intro L this args _ hargs
  have hfine := fine_rawAt hargs 0
  unfold isArray
  generalize rawAt args 0 = r at hfine
  cases r with
  | object o =>
    refine .bind (.object (W.fits_object hfine.refs)) fun obj obj' hobj => ?_
    rw [hobj.cls]
    exact .pure (.primitive rfl)
  | _ => exact .pure (.primitive rfl)

lemma paired_guardWrite {o : Ref} (ho : W.fits o) (name : String) :
    Abreast W L (guardWrite o name) (guardWrite o name) := by
  refine .bind .pc fun pc pc' hpc => .bind (.object (W.fits_object ho)) fun obj obj' hobj => ?_
  exact .check (fun hcalm => hpc.not_less_left hcalm) (fun hcalm => hpc.not_less_right hcalm)
    (fun hf => by rw [hpc.same hf, hobj.partition.same hf]) hpc hobj.partition (.done _ _)

/-- A receiver that is handed over to be changed. -/
lemma paired_mutableArray (h : W.Values this this') (name : String) :
    Paired W L (mutableArray this name) (mutableArray this' name)
      fun r r' => r' = r ∧ W.fits r.1 := by
  refine .bind (paired_thisObject h name) fun o o' ho => ?_
  obtain ⟨rfl, ho⟩ := ho
  exact .seq (paired_guardWrite ho name) fun _ _ => .bindEq (paired_lengthOf ho) fun n =>
    .pure ⟨rfl, ho⟩

section

variable {o : Ref} (ho : W.fits o)
include ho

lemma paired_deleteOwn (name : String) : Abreast W L (deleteOwn o name) (deleteOwn o name) :=
  .change (W.fits_object ho) (fun _ => Object.sameShell_delete ..) fun _ _ h => (h.delete name).2

lemma paired_moveElement (source target : Nat) :
    Abreast W L (moveElement o source target) (moveElement o source target) := by
  refine .bind (.object (W.fits_object ho)) fun obj obj' hobj => ?_
  rcases hobj.own? (indexName source) with ⟨hn, hn'⟩ | ⟨x, x', hx, hx', hxx⟩
  · rw [hn, hn']
    exact paired_deleteOwn ho _
  · rw [hx, hx']
    refine .ite (by rw [hxx.isAccessor]) (fun _ => paired_deleteOwn ho _) fun hacc => ?_
    exact paired_putProperty ho _ ((hxx.contents hacc).reads.values (indexName_ne_message source))

lemma paired_putFrom (i : Nat) {vs vs' : List Value} (h : List.Forall₂ W.Values vs vs') :
    Abreast W L (putFrom o i vs) (putFrom o i vs') := by
  induction h generalizing i with
  | nil => exact .done _ _
  | cons hv _ ih => exact .seq (paired_putProperty ho _ hv) fun _ _ => ih _

lemma paired_putLength (n : Nat) : Abreast W L (putLength o n) (putLength o n) :=
  paired_putProperty ho _ (.primitive rfl)

end

lemma paired_eachIndex {f : Nat → Action Unit} (h : ∀ i, Abreast W L (f i) (f i)) (is : List Nat) :
    Abreast W L (eachIndex f is) (eachIndex f is) := by
  induction is with
  | nil => exact .done _ _
  | cons i is ih => exact .seq (h i) fun _ _ => ih

lemma paired_writeBack {o : Ref} (ho : W.fits o) {vs vs' : List Value}
    (h : List.Forall₂ W.Values vs vs') (length : Nat) :
    Abreast W L (writeBack o vs length) (writeBack o vs' length) := by
  unfold writeBack
  rw [h.length_eq]
  exact .seq (paired_putFrom ho 0 h) fun _ _ =>
    .seq (paired_eachIndex (fun _ => paired_deleteOwn ho _) _) fun _ _ => paired_putLength ho _

lemma natives_push : W.Natives push push := by
  intro L this this' args args' hthis hargs
  refine .bind (paired_mutableArray hthis "push") ?_
  rintro ⟨o, n⟩ _ ⟨rfl, ho⟩
  dsimp only
  rw [hargs.length_eq]
  exact .seq (paired_putFrom ho n hargs) fun _ _ => .seq (paired_putLength ho _) fun _ _ =>
    .pure (.labeled (.primitive rfl) hthis.label)

lemma natives_pop : W.Natives pop pop := by
  intro L this this' args args' hthis _
  refine .bind (paired_mutableArray hthis "pop") ?_
  rintro ⟨o, n⟩ _ ⟨rfl, ho⟩
  refine .ite' (fun _ => ?_) fun _ => ?_
  · exact .seq (paired_putLength ho _) fun _ _ => .pure (Values.undefined.wrap hthis.label)
  · exact .bind (paired_getProperty' ho (indexName_ne_message _)) fun v v' hv =>
      .seq (paired_deleteOwn ho _) fun _ _ => .seq (paired_putLength ho _) fun _ _ =>
        .pure (hv.wrap hthis.label)

lemma natives_shift : W.Natives shift shift := by
  intro L this this' args args' hthis _
  refine .bind (paired_mutableArray hthis "shift") ?_
  rintro ⟨o, n⟩ _ ⟨rfl, ho⟩
  refine .ite' (fun _ => ?_) fun _ => ?_
  · exact .seq (paired_putLength ho _) fun _ _ => .pure (Values.undefined.wrap hthis.label)
  · exact .bind (paired_getProperty' ho (by decide)) fun v v' hv =>
      .seq (paired_eachIndex (fun _ => paired_moveElement ho ..) _) fun _ _ =>
        .seq (paired_deleteOwn ho _) fun _ _ => .seq (paired_putLength ho _) fun _ _ =>
          .pure (hv.wrap hthis.label)

lemma natives_unshift : W.Natives unshift unshift := by
  intro L this this' args args' hthis hargs
  refine .bind (paired_mutableArray hthis "unshift") ?_
  rintro ⟨o, n⟩ _ ⟨rfl, ho⟩
  dsimp only
  rw [hargs.length_eq]
  exact .seq (paired_eachIndex (fun _ => paired_moveElement ho ..) _) fun _ _ =>
    .seq (paired_putFrom ho 0 hargs) fun _ _ => .seq (paired_putLength ho _) fun _ _ =>
      .pure (.labeled (.primitive rfl) hthis.label)

lemma paired_spliceCount (h : List.Forall₂ W.Values args args') (available : Nat) :
    Paired W L (spliceCount args available) (spliceCount args' available) Eq := by
  unfold spliceCount
  rcases Sort.getElem?_of_forall₂ h 1 with ⟨hn, hn'⟩ | ⟨v, v', hv, hv', hvv⟩
  · rw [hn, hn']
    exact .pure rfl
  · rw [hv, hv']
    exact .bindEq (paired_numberOf hvv.raw) fun _ => .ite' (fun _ => .pure rfl) fun _ => .pure rfl

lemma natives_splice : W.Natives splice splice := by
  intro L this this' args args' hthis hargs
  have hfirst := values_argAt hargs 0
  refine .bind (paired_mutableArray hthis "splice") ?_
  rintro ⟨o, n⟩ _ ⟨rfl, ho⟩
  refine .bindEq (paired_relativeIndex hfirst.raw n 0) fun start =>
    .bindEq (paired_spliceCount hargs _) fun count =>
      .bind (paired_elementsOf ho) fun vs vs' hvs => ?_
  have hnext := List.rel_append (List.rel_append (List.forall₂_take start hvs)
    (List.forall₂_drop 2 hargs)) (List.forall₂_drop (start + count) hvs)
  have hremoved := List.forall₂_take count (List.forall₂_drop start hvs)
  rw [hvs.length_eq]
  exact .seq (.insist fun _ _ _ => rfl) fun _ _ => .seq (paired_writeBack ho hnext n) fun _ _ =>
    .bind (paired_newArray (cells_of_values hremoved)) fun _ _ ha => .pure
      (.labeled (.object ha) ((hthis.label.join hfirst.label).join (values_argAt hargs 1).label))

lemma natives_reverse : W.Natives reverse reverse := by
  intro L this this' args args' hthis _
  refine .bind (paired_mutableArray hthis "reverse") ?_
  rintro ⟨o, n⟩ _ ⟨rfl, ho⟩
  exact .bind (paired_elementsOf ho) fun vs vs' hvs =>
    .seq (paired_writeBack ho (List.rel_reverse hvs) n) fun _ _ =>
      .pure (.labeled (.object ⟨rfl, ho⟩) hthis.label)

end

/-! ## Sorting -/

/-- What two sorts have learned. -/
structure Compareds (W : World) (c c' : Compared) : Prop where
  label : W.Labels c.label c'.label
  failure : Option.Rel W.Failures c.failure c'.failure

/-- Comparisons correspond if they do from whatever has been learned before. -/
def comparingPaired (W : World) (L : Ground) : Sort.Correspondence Comparing Comparing where
  rel R p q := ∀ c c', Compareds W c c' →
    Paired W L (p.run c) (q.run c') fun r r' => R r.1 r'.1 ∧ Compareds W r.2 r'.2
  pure h := fun _ _ hc => .pure ⟨h, hc⟩
  bind hp hk := fun c c' hc => .bind (hp c c' hc) fun _ _ hr => hk _ _ hr.1 _ _ hr.2

/-- A label is learned on both sides. -/
lemma paired_learned {k k' : Label} (hk : W.Labels k k') : (comparingPaired W L).rel
    (fun _ _ => True) (modify fun c => { c with label := c.label.join k } : Comparing Unit)
    (modify fun c => { c with label := c.label.join k' } : Comparing Unit) :=
  fun _ _ hc => .pure ⟨trivial, hc.label.join hk, hc.failure⟩

/-- A failure is learned on both sides, unless there was one before. -/
lemma paired_failed {f f' : Failure} (hf : W.Failures f f') : (comparingPaired W L).rel
    (fun _ _ => True) (modify fun c => { c with failure := c.failure.or (some f) } : Comparing Unit)
    (modify fun c => { c with failure := c.failure.or (some f') } : Comparing Unit) := by
  rintro ⟨k, x⟩ ⟨k', x'⟩ ⟨hk, hx⟩
  refine .pure ⟨trivial, hk, ?_⟩
  dsimp only at hx
  cases hx with
  | none => exact .some hf
  | some hx => exact .some hx

/-- A failure is noted on both sides. -/
lemma paired_noted {p : Action α} {q : Action β} {R : α → β → Prop} (h : Paired W L p q R) {a : α}
    {b : β} (hab : R a b) : (comparingPaired W L).rel R (noted p a) (noted q b) := by
  have hattempt : (comparingPaired W L).rel (W.Attempts R) (StateT.lift (attempt p))
      (StateT.lift (attempt q)) := fun c c' hc => .bind (.attempt h) fun _ _ hr => .pure ⟨hr, hc⟩
  refine Sort.Correspondence.bind _ hattempt fun r r' hr => ?_
  cases hr with
  | ok h => exact Sort.Correspondence.pure _ h
  | error hf =>
    exact Sort.Correspondence.bind _ (paired_failed hf) fun _ _ _ => Sort.Correspondence.pure _ hab

/-- The comparators of two sorts. -/
def Comparators (W : World) : Option (Ref × Label) → Option (Ref × Label) → Prop :=
  Option.Rel fun x x' => (x'.1 = x.1 ∧ W.Callee x.1) ∧ W.Labels x.2 x'.2

lemma paired_precedes {f f' : Option (Ref × Label)} (hf : Comparators W f f') {a a' b b' : Value}
    (ha : W.Values a a') (hb : W.Values b b') :
    (comparingPaired W L).rel Eq (precedes f a b) (precedes f' a' b') := by
  unfold precedes
  rw [ha.isUndefined_raw, hb.isUndefined_raw]
  refine Sort.Correspondence.ite _ (Sort.Correspondence.pure _ rfl)
    (Sort.Correspondence.ite _ (Sort.Correspondence.pure _ rfl) ?_)
  cases hf with
  | none =>
    refine Sort.Correspondence.bind _ (paired_noted (paired_stringOf ha.raw) rfl) ?_
    rintro s _ rfl
    refine Sort.Correspondence.bind _ (paired_noted (paired_stringOf hb.raw) rfl) ?_
    rintro s _ rfl
    exact Sort.Correspondence.pure _ rfl
  | @some x x' hx =>
    obtain ⟨g, k⟩ := x
    obtain ⟨_, k'⟩ := x'
    obtain ⟨⟨rfl, hg⟩, hk⟩ := hx
    have hcall := paired_invokeAt (L := L) hk hg .undefined (.cons ha (.cons hb .nil))
    refine Sort.Correspondence.bind _ (R := Option.Rel W.Values) (paired_noted
      (.bind hcall fun _ _ hr => .pure (.some hr)) .none) fun r r' hr => ?_
    cases hr with
    | none => exact Sort.Correspondence.pure _ rfl
    | some hr =>
      refine Sort.Correspondence.bind _ (paired_learned hr.label) fun _ _ _ =>
        Sort.Correspondence.bind _ (paired_noted (paired_numberOf hr.raw) rfl) ?_
      rintro x _ rfl
      exact Sort.Correspondence.pure _ rfl

lemma values_wrapAll {vs vs' : List Value} (h : List.Forall₂ W.Values vs vs') {k k' : Label}
    (hk : W.Labels k k') :
    List.Forall₂ W.Values (vs.map fun v => v.wrap k) (vs'.map fun v => v.wrap k') := by
  induction h with
  | nil => exact .nil
  | cons hv _ ih => exact .cons (hv.wrap hk) ih

lemma natives_sortArray : W.Natives sortArray sortArray := by
  intro L this this' args args' hthis hargs
  refine .bind (paired_mutableArray hthis "sort") ?_
  rintro ⟨o, n⟩ _ ⟨rfl, ho⟩
  refine .bind (paired_elementsOf ho) fun vs vs' hvs => ?_
  extract_lets sorted sorted'
  have hsorted : ∀ f f', Comparators W f f' → Paired W L (sorted f) (sorted' f') W.Values := by
    intro f f' hf
    have hless : ∀ a a', W.Values a a' → ∀ b b', W.Values b b' →
        (comparingPaired W L).rel Eq (precedes f a b) (precedes f' a' b') :=
      fun a a' ha b b' hb => paired_precedes hf ha hb
    have hsort := (comparingPaired W L).sort hless hvs
    refine .bind (hsort _ _ ⟨labels_joinLabels' hvs, .none⟩) ?_
    rintro ⟨xs, c⟩ ⟨xs', c'⟩ ⟨hxs, hc⟩
    obtain ⟨k, x⟩ := c
    obtain ⟨k', x'⟩ := c'
    obtain ⟨hk, hx⟩ := hc
    dsimp only at hk hx hxs ⊢
    cases hx with
    | some hf => exact .fail hf
    | none =>
      exact .seq (paired_writeBack ho (values_wrapAll hxs hk) n) fun _ _ =>
        .pure (.labeled (.object ⟨rfl, ho⟩) hthis.label)
  refine .ite (by rw [(values_argAt hargs 0).raw.same]) (fun _ => ?_) fun _ => ?_
  · exact .bind (.pure .none) hsorted
  · exact .bind (paired_callbackAt hargs 0 "sort") fun f f' hf =>
      .bind (.pure (.some ⟨hf, (values_argAt hargs 0).label⟩)) hsorted

/-! ## Methods that leave their receiver alone -/

lemma natives_slice : W.Natives slice slice := by
  intro L this this' args args' hthis hargs
  refine .bind (paired_thisObject hthis "slice") fun o o' ho => ?_
  obtain ⟨rfl, ho⟩ := ho
  refine .bind (paired_elementsOf ho) fun vs vs' hvs => ?_
  dsimp only
  rw [hvs.length_eq]
  refine .bindEq (paired_relativeIndex (values_argAt hargs 0).raw _ _) fun start =>
    .bindEq (paired_relativeIndex (values_argAt hargs 1).raw _ _) fun stop => ?_
  have hout := List.forall₂_take (stop - start) (List.forall₂_drop start hvs)
  exact .bind (paired_newArray (cells_of_values hout)) fun _ _ ha =>
    .pure (.labeled (.object ha) (hthis.label.join (labels_joinLabels' hargs)))

lemma paired_spread {vs vs' : List Value} (h : List.Forall₂ W.Values vs vs') :
    Paired W L (spread vs) (spread vs') (List.Forall₂ W.Values) := by
  induction h with
  | nil => exact .pure .nil
  | @cons v v' vs vs' hv hvs ih =>
    unfold spread
    extract_lets appended appended'
    have happended : ∀ xs xs', List.Forall₂ W.Values xs xs' →
        Paired W L (appended xs) (appended' xs') (List.Forall₂ W.Values) :=
      fun xs xs' hxs => .bind ih fun _ _ hrest => .pure (List.rel_append hxs hrest)
    have hsingle : Paired W L (pure [v] >>= appended) (pure [v'] >>= appended')
        (List.Forall₂ W.Values) := .bind (.pure (.cons hv .nil)) happended
    have hsound := hv.raw.sound
    rw [hv.raw.same]
    split
    · rename_i o ho
      refine .bind (.object (W.fits_object (hsound o ho))) fun obj obj' hobj => ?_
      rw [hobj.cls]
      refine .ite' (fun _ => ?_) fun _ => hsingle
      exact .bind (paired_elementsOf (hsound o ho)) fun xs xs' hxs =>
        .bind (.pure (values_wrapAll hxs hv.label)) happended
    · exact hsingle

lemma natives_concat : W.Natives concat concat := by
  intro L this this' args args' hthis hargs
  refine .bind (paired_thisObject hthis "concat") fun o o' ho => ?_
  obtain ⟨rfl, ho⟩ := ho
  exact .bind (paired_elementsOf ho) fun vs vs' hvs => .bind (paired_spread hargs) fun xs xs' hxs =>
    .bind (paired_newArray (cells_of_values (List.rel_append hvs hxs))) fun _ _ ha =>
      .pure (.labeled (.object ha) hthis.label)

lemma paired_elementTexts {vs vs' : List Value} (h : List.Forall₂ W.Values vs vs') :
    Paired W L (elementTexts vs) (elementTexts vs') Eq := by
  induction h with
  | nil => exact .pure rfl
  | @cons v v' vs vs' hv hvs ih =>
    unfold elementTexts
    have hrest : ∀ s, Paired W L (elementTexts vs >>= fun rest => pure (s :: rest))
        (elementTexts vs' >>= fun rest => pure (s :: rest)) Eq :=
      fun _ => .bindEq ih fun _ => .pure rfl
    exact .ite (by rw [hv.raw.same]) (fun _ => .bindEq (.pure rfl) hrest) fun _ =>
      .bindEq (paired_stringOf hv.raw) hrest

lemma natives_join : W.Natives join join := by
  intro L this this' args args' hthis hargs
  have harg := values_argAt hargs 0
  refine .bind (paired_thisObject hthis "join") fun o o' ho => ?_
  obtain ⟨rfl, ho⟩ := ho
  extract_lets given label joined given' label' joined'
  have hlabel : W.Labels label label' := by
    dsimp only [label, label', given, given']
    rw [harg.isUndefined_raw]
    split_ifs
    · exact hthis.label
    · exact hthis.label.join harg.label
  have hjoined : ∀ s, Paired W L (joined s) (joined' s) W.Values := fun s =>
    .bind (paired_elementsOf ho) fun vs vs' hvs => .bindEq (paired_elementTexts hvs) fun texts =>
      .pure (.labeled (.primitive rfl) (hlabel.join (labels_joinLabels' hvs)))
  refine .ite (by rw [harg.isUndefined_raw]) (fun _ => .bindEq (.pure rfl) hjoined) fun _ => ?_
  exact .bindEq (paired_stringOf harg.raw) hjoined

lemma searchFrom_paired {r r' : Raw} (hr : r' = r) {vs vs' : List Value}
    (h : List.Forall₂ W.Values vs vs') (i : Nat) {k k' : Label} (hk : W.Labels k k') :
    W.Raws (searchFrom r vs i k).1 (searchFrom r' vs' i k').1 ∧
      W.Labels (searchFrom r vs i k).2 (searchFrom r' vs' i k').2 := by
  subst hr
  induction h generalizing i k k' with
  | nil => exact ⟨.primitive rfl, hk⟩
  | @cons v v' vs vs' hv hvs ih =>
    unfold searchFrom
    dsimp only
    rw [hv.raw.same]
    split_ifs
    · exact ⟨.primitive rfl, hk.join hv.label⟩
    · exact ih _ (hk.join hv.label)

lemma natives_indexOf : W.Natives indexOf indexOf := by
  intro L this this' args args' hthis hargs
  have hfirst := values_argAt hargs 0
  have hsecond := values_argAt hargs 1
  refine .bind (paired_thisObject hthis "indexOf") fun o o' ho => ?_
  obtain ⟨rfl, ho⟩ := ho
  refine .bind (paired_elementsOf ho) fun vs vs' hvs => ?_
  rw [hvs.length_eq]
  refine .bindEq (paired_relativeIndex hsecond.raw _ _) fun start => ?_
  have hfound := searchFrom_paired hfirst.raw.same (List.forall₂_drop start hvs) start
    ((hthis.label.join hfirst.label).join hsecond.label)
  exact .pure (.labeled hfound.1 hfound.2)

lemma labels_iteration {this this' : Value} {args args' : List Value} (hthis : W.Values this this')
    (hargs : List.Forall₂ W.Values args args') :
    W.Labels (iterationLabel this args) (iterationLabel this' args') :=
  hthis.label.join (values_argAt hargs 0).label

/-- Iterations whose visitors keep a relation between what they have collected. -/
lemma paired_iterate {σ τ : Type} (name : String) {this this' : Value} {args args' : List Value}
    (hthis : W.Values this this') (hargs : List.Forall₂ W.Values args args') {I : σ → τ → Prop}
    {init : σ} {init' : τ} (hinit : I init init') {visit : σ → Nat → Value → Value → σ × Bool}
    {visit' : τ → Nat → Value → Value → τ × Bool}
    (hvisit : ∀ x x' i e e' r r', I x x' → W.Values e e' → W.Values r r' →
      I (visit x i e r).1 (visit' x' i e' r').1 ∧ (visit' x' i e' r').2 = (visit x i e r).2) :
    Paired W L (iterate name this args init visit) (iterate name this' args' init' visit') I := by
  refine .bind (paired_thisObject hthis name) fun o o' ho => ?_
  obtain ⟨rfl, ho⟩ := ho
  refine .bind (paired_callbackAt hargs 0 name) fun f f' hf => ?_
  obtain ⟨rfl, hf⟩ := hf
  refine .bindEq (paired_lengthOf ho) fun n => .loop
    (I := fun x x' => x'.1 = x.1 ∧ I x.2 x'.2) ⟨rfl, hinit⟩ ?_
  rintro ⟨i, x⟩ ⟨i', x'⟩ ⟨hi, hx⟩
  obtain rfl : i' = i := hi
  dsimp only at hx ⊢
  refine .ite' (fun _ => ?_) fun _ => .pure (.inr hx)
  refine .bindEq (.lookEq fun s s' h => h.has (W.fits_object ho) _) fun present =>
    .ite' (fun _ => ?_) fun _ =>
    .pure (.inl ⟨rfl, hx⟩)
  refine .bind (paired_getProperty' ho (indexName_ne_message _)) fun e e' he => ?_
  refine .bind (paired_invokeAt (labels_iteration hthis hargs) hf (values_argAt hargs 1)
    (.cons he (.cons (.primitive rfl) (.cons (.object ⟨rfl, ho⟩) .nil)))) fun r r' hr => ?_
  have hstep := hvisit x x' i' e e' r r' hx he hr
  generalize visit x i' e r = y at hstep
  generalize visit' x' i' e' r' = y' at hstep
  obtain ⟨y, goes⟩ := y
  obtain ⟨y', goes'⟩ := y'
  obtain ⟨hy, hgoes⟩ := hstep
  obtain rfl : goes' = goes := hgoes
  cases goes'
  · exact .pure (.inr hy)
  · exact .pure (.inl ⟨rfl, hy⟩)

lemma natives_forEach : W.Natives forEach forEach := by
  intro L this this' args args' hthis hargs
  exact .seq (.abreast (paired_iterate (I := fun _ _ => True) _ hthis hargs trivial
    fun _ _ _ _ _ _ _ _ _ _ => ⟨trivial, rfl⟩)) fun _ _ => .pure .undefined

lemma paired_lengthQuietly {o : Ref} (ho : W.fits o) :
    Paired W L (lengthQuietly o) (lengthQuietly o) Eq := by
  refine .bind (.attempt (paired_lengthOf ho)) fun r r' hr => ?_
  cases hr with
  | ok h =>
    subst h
    exact .pure rfl
  | error => exact .pure rfl

lemma cells_replicate (n : Nat) :
    List.Forall₂ W.Cells (List.replicate n .absent) (List.replicate n .absent) := by
  induction n with
  | zero => exact .nil
  | succ n ih => exact .cons .absent ih

lemma natives_map : W.Natives map map := by
  intro L this this' args args' hthis hargs
  refine .bind (paired_iterate (I := List.Forall₂ W.Cells) _ hthis hargs .nil ?_)
    fun out out' hout => .bind (paired_thisObject hthis "map") fun o o' ho => ?_
  · intro x x' i e e' r r' hx _ hr
    refine ⟨?_, rfl⟩
    dsimp only [placeAt]
    rw [hx.length_eq]
    exact List.rel_append (List.rel_append hx (cells_replicate _)) (.cons (.inl hr) .nil)
  · obtain ⟨rfl, ho⟩ := ho
    refine .bindEq (paired_lengthQuietly ho) fun n => ?_
    dsimp only
    rw [hout.length_eq]
    exact .bind (paired_newArray (List.rel_append hout (cells_replicate _))) fun _ _ ha =>
      .pure (.labeled (.object ha) (labels_iteration hthis hargs))

lemma natives_filter : W.Natives filter filter := by
  intro L this this' args args' hthis hargs
  refine .bind (paired_iterate (I := fun x x' => List.Forall₂ W.Values x.1 x'.1 ∧ W.Labels x.2 x'.2)
    _ hthis hargs ⟨.nil, .none⟩ ?_) ?_
  · rintro ⟨xs, k⟩ ⟨xs', k'⟩ i e e' r r' ⟨hxs, hk⟩ he hr
    refine ⟨⟨?_, hk.join hr.label⟩, rfl⟩
    dsimp only
    rw [hr.raw.same]
    split_ifs
    · exact .cons he hxs
    · exact hxs
  · rintro ⟨xs, k⟩ ⟨xs', k'⟩ ⟨hxs, hk⟩
    exact .bind (paired_newArray (cells_of_values (List.rel_reverse hxs))) fun _ _ ha =>
      .pure (.labeled (.object ha) ((labels_iteration hthis hargs).join hk))

lemma natives_testEach (name : String) (wanted : Bool) :
    W.Natives (testEach name wanted) (testEach name wanted) := by
  intro L this this' args args' hthis hargs
  refine .bind (paired_iterate (I := fun x x' => x'.1 = x.1 ∧ W.Labels x.2 x'.2)
    _ hthis hargs ⟨rfl, .none⟩ ?_) ?_
  · rintro ⟨b, k⟩ ⟨b', k'⟩ i e e' r r' ⟨-, hk⟩ _ hr
    dsimp only
    rw [hr.raw.same]
    exact ⟨⟨rfl, hk.join hr.label⟩, rfl⟩
  · rintro ⟨b, k⟩ ⟨b', k'⟩ ⟨hb, hk⟩
    obtain rfl : b' = b := hb
    exact .pure (.labeled (.primitive rfl) ((labels_iteration hthis hargs).join hk))

lemma natives_reduce : W.Natives reduce reduce := by
  intro L this this' args args' hthis hargs
  refine .bind (paired_thisObject hthis "reduce") fun o o' ho => ?_
  obtain ⟨rfl, ho⟩ := ho
  refine .bind (paired_callbackAt hargs 0 "reduce") fun f f' hf => ?_
  obtain ⟨rfl, hf⟩ := hf
  refine .bindEq (paired_lengthOf ho) fun n => ?_
  have hlabel := labels_iteration hthis hargs
  extract_lets reduced reduced'
  have hreduced : ∀ x x' : Nat × Value, x'.1 = x.1 ∧ W.Values x.2 x'.2 →
      Paired W L (reduced x) (reduced' x') W.Values := by
    intro x x' hx
    refine .bind (R := W.Values) (.loop (I := fun x x' => x'.1 = x.1 ∧ W.Values x.2 x'.2) hx ?_)
      fun v v' hv => .pure (hv.wrap hlabel)
    rintro ⟨i, acc⟩ ⟨i', acc'⟩ ⟨hi, hacc⟩
    obtain rfl : i' = i := hi
    dsimp only at hacc ⊢
    refine .ite' (fun _ => ?_) fun _ => .pure (.inr hacc)
    refine .bindEq (.lookEq fun s s' h => h.has (W.fits_object ho) _) fun present =>
      .ite' (fun _ => ?_) fun _ =>
      .pure (.inl ⟨rfl, hacc⟩)
    refine .bind (paired_getProperty' ho (indexName_ne_message _)) fun e e' he => ?_
    exact .bind (paired_invokeAt hlabel hf .undefined (.cons hacc (.cons he (.cons (.primitive rfl)
      (.cons (.object ⟨rfl, ho⟩) .nil))))) fun r r' hr => .pure (.inl ⟨rfl, hr⟩)
  rcases Sort.getElem?_of_forall₂ hargs 1 with ⟨hn, hn'⟩ | ⟨v, v', hv, hv', hvv⟩
  · rw [hn, hn']
    refine .bindEq (.lookEq fun s s' h => ?_) fun found => ?_
    · simp only [h.has (W.fits_object ho)]
    · cases found with
      | none =>
        exact .bind (R := fun x x' => x'.1 = x.1 ∧ W.Values x.2 x'.2)
          (.typeError (.refl _)) hreduced
      | some i =>
        exact .bind (paired_getProperty' ho (indexName_ne_message i)) fun v v' hv =>
          .bind (.pure ⟨rfl, hv⟩) hreduced
  · rw [hv, hv']
    exact .bind (.pure ⟨rfl, hvv⟩) hreduced

/-- The methods of arrays. -/
lemma natives_arrayMethod (m : ArrayFn) : W.Natives (arrayMethod m) (arrayMethod m) := by
  cases m with
  | push => exact natives_push
  | pop => exact natives_pop
  | shift => exact natives_shift
  | unshift => exact natives_unshift
  | splice => exact natives_splice
  | reverse => exact natives_reverse
  | sort => exact natives_sortArray
  | slice => exact natives_slice
  | concat => exact natives_concat
  | join => exact natives_join
  | toString => exact fun hthis _ => natives_join hthis .nil
  | indexOf => exact natives_indexOf
  | forEach => exact natives_forEach
  | map => exact natives_map
  | filter => exact natives_filter
  | some | every => exact natives_testEach _ _
  | reduce => exact natives_reduce

end Library
end Clearance
