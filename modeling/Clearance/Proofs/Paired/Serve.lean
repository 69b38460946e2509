/-
# Requests side by side

The built-in functions on texts, numbers and patterns and those of the global object do the same on
both sides, and with them whatever a machine serves. The two machines may read texts differently and
have hosts of their own, provided that what the hosts do corresponds.
-/
import Clearance.Proofs.Paired.Library

namespace Clearance

open Clearance.Action World

variable {W : World} {L : Ground}

namespace Library

/-! ## Texts -/

section

variable {this this' : Value} {args args' : List Value}

lemma rawFns_toText : W.RawFns toText := by
  intro L this args _ hargs
  cases args with
  | nil => exact .pure (.primitive rfl)
  | cons r rs =>
    exact .bindEq (paired_stringOf (hargs r List.mem_cons_self)) fun _ => .pure (.primitive rfl)

lemma paired_wrapped {cls : String} (hcls : cls ≠ "Activation") {proto : Realm → Nat}
    (hproto : ¬W.store (proto W.realm)) {r : Raw} (hr : r.isPrimitive = true) {k k' : Label}
    (hk : W.Labels k k') : Paired W L
      (do
        let o ← newWrapper cls (proto (← realm)) r
        return (Raw.object o).labeled k)
      (do
        let o ← newWrapper cls (proto (← realm)) r
        return (Raw.object o).labeled k') W.Values :=
  .bindRealm (.bind (paired_newWrapper hcls hproto hr) fun _ _ ho =>
    .pure (.labeled (.object ho) hk))

lemma World.not_store_proto {q : Nat} (h : q ∈ [W.realm.objectProto, W.realm.functionProto,
    W.realm.arrayProto, W.realm.stringProto, W.realm.numberProto, W.realm.booleanProto,
    W.realm.regexpProto]) : ¬W.store q := W.proto h q rfl

lemma paired_newText (h : List.Forall₂ W.Values args args') :
    Paired W L (newText args) (newText args') W.Values := by
  have hfinish : ∀ s : String, Paired W L
      (do
        let o ← newWrapper "String" (← realm).stringProto (.string s)
        return (Raw.object o).labeled (argAt args 0).label)
      (do
        let o ← newWrapper "String" (← realm).stringProto (.string s)
        return (Raw.object o).labeled (argAt args' 0).label) W.Values :=
    fun _ => paired_wrapped (by decide) (World.not_store_proto (by simp)) rfl
      (values_argAt h 0).label
  cases h with
  | nil => exact .bindEq (.pure rfl) hfinish
  | cons hv _ => exact .bindEq (paired_stringOf hv.raw) hfinish

lemma rawFns_fromCharCode : W.RawFns fromCharCode := fun _ hargs =>
  .bindEq (paired_numbersFrom hargs _ 0) fun _ => .pure (.primitive rfl)

section

variable {r r' : Raw} (hr : W.Fine r) (hr' : W.Fine r')
include hr

lemma paired_substr (s : List Char) (start : Float) :
    Paired W L (substr s start r) (substr s start r) W.Values :=
  .bindEq (paired_optionalIndex hr _) fun _ => .pure (.primitive rfl)

lemma paired_separatorOf : Paired W L (separatorOf r) (separatorOf r) Eq := by
  cases r with
  | undefined => exact .pure rfl
  | object o =>
    refine .bind (.object (W.fits_object hr.refs)) fun obj obj' hobj => ?_
    rw [hobj.pattern]
    split
    · exact .pure rfl
    · exact .bindEq (paired_stringOf hr) fun _ => .pure rfl
  | absent | null | bool | number | string =>
    exact .bindEq (paired_plainText' (.inl (.plain hr))) fun _ => .pure rfl

include hr'

lemma paired_substring (s : List Char) :
    Paired W L (substring s r r') (substring s r r') W.Values :=
  .bindEq (paired_optionalIndex hr _) fun _ => .bindEq (paired_optionalIndex hr' _) fun _ =>
    .pure (.primitive rfl)

lemma paired_sliceText (s : List Char) :
    Paired W L (sliceText s r r') (sliceText s r r') W.Values :=
  .bindEq (paired_relativeIndex hr _ _) fun _ => .bindEq (paired_relativeIndex hr' _ _) fun _ =>
    .pure (.primitive rfl)

lemma paired_splitText (s : List Char) :
    Paired W L (splitText s r r') (splitText s r r') W.Values := by
  unfold splitText
  extract_lets split
  have hfinish : ∀ most, Paired W L (split most) (split most) W.Values := fun _ =>
    .bindEq (paired_separatorOf hr) fun _ => .bind
      (paired_newArray (cells_map (fun p => Raw.string (String.ofList p)) (fun _ => rfl) _))
      fun _ _ ho => .pure (.object ho)
  refine .ite' (fun _ => .bindEq (.pure rfl) hfinish) fun _ => ?_
  exact .bindEq (.lookEq fun s s' h => h.word hr'.sound) fun _ => .bindEq (.pure rfl) hfinish

end

lemma fine_cons {r : Raw} {rs : List Raw} (hr : W.Fine r) (hrs : ∀ x ∈ rs, W.Fine x) :
    ∀ x ∈ r :: rs, W.Fine x := List.forall_mem_cons.2 ⟨hr, hrs⟩

lemma rawFns_stringMethod (m : StringFn) : W.RawFns (stringMethod m) := by
  intro L this rest hthis hrest
  have hargs := fine_cons hthis hrest
  have hfine : ∀ i, W.Fine (rawAt (this :: rest) i) := fun i => fine_rawAt hargs i
  cases m with
  | charAt =>
    exact .bindEq (paired_textAt hargs _ 0) fun _ => .bindEq (paired_numberAt hargs _ 1) fun _ =>
      .pure (.primitive rfl)
  | charCodeAt =>
    refine .bindEq (paired_textAt hargs _ 0) fun s =>
      .bindEq (paired_numberAt hargs _ 1) fun x => ?_
    split <;> exact .pure (.primitive rfl)
  | indexOf =>
    refine .bindEq (paired_textAt hargs _ 0) fun s => .bindEq (paired_textAt hargs _ 1) fun t =>
      .bindEq (paired_numberAt hargs _ 2) fun x => ?_
    dsimp only
    split <;> exact .pure (.primitive rfl)
  | lastIndexOf =>
    refine .bindEq (paired_textAt hargs _ 0) fun s => .bindEq (paired_textAt hargs _ 1) fun t => ?_
    split <;> exact .pure (.primitive rfl)
  | substring =>
    exact .bindEq (paired_textAt hargs _ 0) fun s =>
      paired_adaptedResult _ (paired_substring (hfine 1) (hfine 2) _)
  | substr =>
    exact .bindEq (paired_textAt hargs _ 0) fun s => .bindEq (paired_numberAt hargs _ 1) fun x =>
      paired_adaptedResult _ (paired_substr (hfine 2) _ _)
  | slice =>
    exact .bindEq (paired_textAt hargs _ 0) fun s =>
      paired_adaptedResult _ (paired_sliceText (hfine 1) (hfine 2) _)
  | toUpperCase | toLowerCase | trim | toString | valueOf =>
    exact .bindEq (paired_textAt hargs _ 0) fun _ => .pure (.primitive rfl)
  | concat =>
    exact .bindEq (paired_textAt hargs _ 0) fun _ => .bindEq (paired_textsFrom hargs _ 1) fun _ =>
      .pure (.primitive rfl)
  | split =>
    exact .bindEq (paired_textAt hargs _ 0) fun s =>
      paired_adaptedResult _ (paired_splitText (hfine 1) (hfine 2) _)

/-! ## Numbers -/

lemma rawFns_toNumber : W.RawFns toNumber := by
  intro L this args _ hargs
  cases args with
  | nil => exact .pure (.primitive rfl)
  | cons r rs =>
    exact .bindEq (paired_numberOf (hargs r List.mem_cons_self)) fun _ => .pure (.primitive rfl)

lemma paired_newNumber (h : List.Forall₂ W.Values args args') :
    Paired W L (newNumber args) (newNumber args') W.Values := by
  have hfinish : ∀ x : Float, Paired W L
      (do
        let o ← newWrapper "Number" (← realm).numberProto (.number x)
        return (Raw.object o).labeled (argAt args 0).label)
      (do
        let o ← newWrapper "Number" (← realm).numberProto (.number x)
        return (Raw.object o).labeled (argAt args' 0).label) W.Values :=
    fun _ => paired_wrapped (by decide) (World.not_store_proto (by simp)) rfl
      (values_argAt h 0).label
  cases h with
  | nil => exact .bindEq (.pure rfl) hfinish
  | cons hv _ => exact .bindEq (paired_numberOf hv.raw) hfinish

lemma paired_numberInRadix (x : Float) {r : Raw} (hr : W.Fine r) :
    Paired W L (numberInRadix x r) (numberInRadix x r) W.Values := by
  refine .bindEq (paired_optionalIndex hr _) fun _ => .ite' (fun _ => .rangeError _) fun _ => ?_
  split
  · exact .ite' (fun _ => .pure (.primitive rfl)) fun _ => .pure (.primitive rfl)
  · exact .pure (.primitive rfl)

lemma rawFns_numberText : W.RawFns numberText := fun hthis hrest =>
  .bindEq (paired_numberAt (fine_cons hthis hrest) _ 0) fun _ =>
    paired_adaptedResult _ (paired_numberInRadix _ (fine_rawAt hrest 0))

lemma rawFns_toFixed : W.RawFns toFixed := fun hthis hrest =>
  .bindEq (paired_numberAt (fine_cons hthis hrest) _ 0) fun _ =>
    .bindEq (paired_numberAt (fine_cons hthis hrest) _ 1) fun _ =>
      .ite' (fun _ => .rangeError _) fun _ => .pure (.primitive rfl)

lemma paired_newBoolean (h : List.Forall₂ W.Values args args') :
    Paired W L (newBoolean args) (newBoolean args') W.Values := by
  have harg := values_argAt h 0
  unfold newBoolean
  dsimp only
  rw [harg.raw.same]
  exact paired_wrapped (by decide) (World.not_store_proto (by simp)) rfl harg.label

lemma paired_thisBoolean {r : Raw} (hr : W.Fine r) :
    Paired W L (thisBoolean r) (thisBoolean r) Eq := by
  unfold thisBoolean
  extract_lets checked
  have hchecked : ∀ inner, Paired W L (checked inner) (checked inner) Eq := by
    intro inner
    cases inner with
    | some b => exact .pure rfl
    | none => exact .typeError (.refl _)
  split
  · exact .bindEq (.pure rfl) hchecked
  · refine .bind (.object (W.fits_object hr.refs)) fun obj obj' hobj => ?_
    rw [hobj.primitive]
    split <;> exact .bindEq (.pure rfl) hchecked
  · exact .bindEq (.pure rfl) hchecked

/-! ## Patterns -/

lemma paired_labeledRegExp (pattern flags : String) {k k' : Label} (hk : W.Labels k k') :
    Paired W L (labeledRegExp pattern flags k) (labeledRegExp pattern flags k') W.Values :=
  .bind (paired_newRegExp pattern flags) fun _ _ ho => .pure (.labeled (.object ho) hk)

lemma paired_optionalText {r r' : Raw} (h : W.Raws r r') :
    Paired W L (optionalText r) (optionalText r') Eq := by
  obtain rfl := h.same
  exact .ite' (fun _ => .pure rfl) fun _ => paired_stringOf h

/-- The source of a pattern, and whether it is undefined. -/
lemma paired_source {o : Ref} (ho : W.fits o) :
    Paired W L (readQuietly o "source") (readQuietly o "source") fun v v' =>
      W.Cells v v' ∧ v'.isUndefined = v.isUndefined := by
  have hcells : Paired W L (readQuietly o "source") (readQuietly o "source") W.Cells :=
    paired_readQuietly' ho (by decide)
  by_cases hf : W.faithful
  · exact .mono hcells fun _ _ h => ⟨h, Shown.isUndefined (.inl h) hf⟩
  · exact .source hf hcells

lemma paired_stringOf_cells {v v' : Value} (h : W.Cells v v') :
    Paired W L (stringOf v.raw) (stringOf v'.raw) Eq := by
  rcases h with h | ⟨rfl, rfl⟩
  · exact paired_stringOf h.raw
  · exact .bind (R := fun p p' => p' = p ∧ W.Sound p.raw) (.pure ⟨rfl, by rintro o ⟨⟩⟩)
      fun p p' hp => .lookEq fun s s' hs => by rw [hp.1]; exact hs.text hp.2

lemma paired_regExpFrom (h : List.Forall₂ W.Values args args') :
    Paired W L (regExpFrom args) (regExpFrom args') W.Values := by
  have hsource := values_argAt h 0
  have hflags := values_argAt h 1
  unfold regExpFrom
  extract_lets given flags label made copied given' flags' label' made' copied'
  have hlabel : W.Labels label label' := hsource.label.join hflags.label
  have hcopied : ∀ x x' : Option Nat, x' = x ∧ (∀ id ∈ x, ¬W.store id) →
      Paired W L (copied x) (copied' x') W.Values := by
    rintro _ x ⟨rfl, hx⟩
    cases x with
    | none =>
      exact .bindEq (paired_optionalText hsource.raw) fun _ =>
        .bindEq (paired_optionalText hflags.raw) fun _ => paired_labeledRegExp _ _ hlabel
    | some id =>
      have hid : W.fits ⟨id, .plain⟩ := W.fits_plain (hx id rfl)
      refine .ite (by rw [hflags.isUndefined_raw]) (fun _ => ?_) fun _ => ?_
      · exact .bindEq (paired_patternFlags hid) fun _ => .bind (paired_readQuietly' hid (by decide))
          fun _ _ hv => .bindEq (paired_plainText' hv) fun _ => paired_labeledRegExp _ _ hlabel
      · refine .bind (paired_source hid) fun v v' hv => ?_
        have hmade : ∀ s, Paired W L
            (optionalText flags.raw >>= fun t => labeledRegExp s t label)
            (optionalText flags'.raw >>= fun t => labeledRegExp s t label') W.Values :=
          fun s => .bindEq (paired_optionalText hflags.raw) fun _ => paired_labeledRegExp _ _ hlabel
        exact .ite (by rw [hv.2]) (fun _ => .bindEq (.pure rfl) hmade) fun _ =>
          .bindEq (paired_stringOf_cells hv.1) hmade
  have hraw : given'.raw = given.raw := hsource.raw.same
  have hsound : W.Sound given.raw := hsource.raw.sound
  have hnone : Paired W L (pure none >>= copied) (pure none >>= copied') W.Values :=
    .bind (.pure ⟨rfl, by rintro _ ⟨⟩⟩) hcopied
  rw [hraw]
  split
  · rename_i o ho
    refine .bind (.object (W.fits_object (hsound o ho))) fun obj obj' hobj => ?_
    rw [hobj.cls]
    refine .ite' (fun _ => .bind (.pure ⟨rfl, ?_⟩) hcopied) fun _ => hnone
    rintro _ ⟨⟩
    exact W.fits_object (hsound o ho)
  · exact hnone

/-- The pattern objects and machines that values denote. -/
def PatternRefs (W : World) (x x' : Option (Ref × Pattern.Code)) : Prop :=
  x' = x ∧ ∀ y ∈ x, W.fits y.1

lemma paired_patternOf {r r' : Raw} (h : W.Raws r r') :
    Paired W L (patternOf r) (patternOf r') (PatternRefs W) := by
  obtain rfl := h.same
  cases r' with
  | object o =>
    refine .bind (.object (W.fits_object h.refs)) fun obj obj' hobj => ?_
    rw [hobj.pattern]
    split
    · exact .pure ⟨rfl, by rintro _ ⟨⟩; exact fits_record h.refs⟩
    · exact .pure ⟨rfl, by rintro _ ⟨⟩⟩
  | _ => exact .pure ⟨rfl, by rintro _ ⟨⟩⟩

lemma paired_thisRegExp {r : Raw} (h : W.Fine r) (name : String) :
    Paired W L (thisRegExp r name) (thisRegExp r name) fun x x' => x' = x ∧ W.fits x.1 := by
  refine .bind (paired_patternOf h) ?_
  rintro x _ ⟨rfl, hx⟩
  split
  · rename_i p
    exact .pure ⟨rfl, hx p rfl⟩
  · exact .typeError (.refl _)

lemma cells_captureValues (s : List Char) (start : Nat) (m : Pattern.Slots) :
    List.Forall₂ W.Values ((captureValues s start m).map Value.plain)
      ((captureValues s start m).map Value.plain) := by
  have hprimitive : ∀ r ∈ captureValues s start m, r.isPrimitive = true := by
    intro r hr
    obtain ⟨i, -, rfl⟩ := List.mem_map.1 hr
    split <;> rfl
  generalize captureValues s start m = rs at hprimitive
  induction rs with
  | nil => exact .nil
  | cons r rs ih =>
    obtain ⟨hr, hrs⟩ := List.forall_mem_cons.1 hprimitive
    exact .cons (.primitive hr) (ih hrs)

/-- The position of a global pattern is remembered. -/
lemma paired_remember {re : Ref} (hre : W.fits re) (global : Bool) {v : Value}
    (hv : W.Values v v) {r : Raw} (hr : W.Fine r) : Paired W L
      (do
        if global then putProperty re "lastIndex" v
        return r)
      (do
        if global then putProperty re "lastIndex" v
        return r) W.Raws :=
  .ite' (fun _ => .seq (paired_putProperty hre _ hv) fun _ _ => .pure hr) fun _ => .pure hr

lemma paired_execute {re : Ref} (hre : W.fits re) (code : Pattern.Code) (text : String) :
    Paired W L (execute re code text) (execute re code text) W.Raws := by
  refine .bindEq (paired_patternFlag hre (by decide)) fun global => ?_
  extract_lets missed reset searched
  have hsearched : ∀ position, Paired W L (searched position) (searched position) W.Raws := by
    intro position
    refine .ite' (fun _ => paired_remember hre global (.primitive rfl) (.primitive rfl)) fun _ => ?_
    dsimp only
    split
    · exact paired_remember hre global (.primitive rfl) (.primitive rfl)
    · refine .bind (paired_newArray (cells_of_values (cells_captureValues ..))) fun a a' ha => ?_
      obtain ⟨rfl, ha⟩ := ha
      refine .seq (.change (W.fits_object ha) (fun o => ?_) fun o o' ho => ?_) fun _ _ =>
        paired_remember hre global (.primitive rfl) (.object ⟨rfl, ha⟩)
      · exact (Object.sameShell_set ..).trans (Object.sameShell_set ..)
      · exact (ho.set (.primitive rfl)).set (.primitive rfl)
  refine .ite' (fun _ => ?_) fun _ => .bindEq (.pure rfl) hsearched
  exact .seq (paired_guardWrite hre _) fun _ _ => .bind (paired_getProperty' hre (by decide))
    fun v v' hv => by
      rw [hv.raw.same]
      exact .bindEq (paired_optionalIndex hv.raw.fine _) hsearched

lemma rawFns_exec : W.RawFns exec := by
  intro L this args hthis hargs
  refine .bind (paired_thisRegExp hthis "exec") ?_
  rintro ⟨re, code⟩ _ ⟨rfl, hre⟩
  exact .bindEq (paired_stringOf (fine_rawAt hargs 0)) fun s =>
    .bind (paired_execute hre code s) fun _ _ hr => .pure (.plain hr)

lemma rawFns_test : W.RawFns test := by
  intro L this args hthis hargs
  refine .bind (paired_thisRegExp hthis "test") ?_
  rintro ⟨re, code⟩ _ ⟨rfl, hre⟩
  refine .bindEq (paired_stringOf (fine_rawAt hargs 0)) fun s =>
    .bind (paired_execute hre code s) fun r r' hr => ?_
  rw [hr.same]
  split <;> exact .pure (.primitive rfl)

lemma rawFns_regExpSource : W.RawFns regExpSource := by
  intro L this args hthis _
  refine .bind (paired_thisRegExp hthis "toString") ?_
  rintro ⟨re, code⟩ _ ⟨rfl, hre⟩
  exact .bindEq (paired_patternText hre) fun _ => .pure (.primitive rfl)

lemma paired_toRegExp {r : Raw} (h : W.Fine r) :
    Paired W L (toRegExp r) (toRegExp r) fun x x' => x' = x ∧ W.fits x.1 := by
  refine .bind (paired_patternOf h) ?_
  rintro x _ ⟨rfl, hx⟩
  split
  · rename_i p
    exact .pure ⟨rfl, hx p rfl⟩
  · refine .bindEq (paired_optionalText h) fun s =>
      .bind (paired_newRegExp s "") fun re re' hre => ?_
    obtain ⟨rfl, hre⟩ := hre
    refine .bind (.object (W.fits_object hre)) fun obj obj' hobj => ?_
    rw [hobj.pattern]
    split
    · exact .pure ⟨rfl, hre⟩
    · exact .fail (.host (.refl _))

lemma rawFns_matchAll : W.RawFns matchAll := by
  intro L this args hthis hargs
  refine .bindEq (paired_stringOf hthis) fun text => .bind (paired_toRegExp (fine_rawAt hargs 0)) ?_
  rintro ⟨re, code⟩ _ ⟨rfl, hre⟩
  refine .bindEq (paired_patternFlag hre (by decide)) fun global => .ite' (fun _ => ?_) fun _ => ?_
  · split
    · exact .pure (.primitive rfl)
    · exact .bind (paired_newArray (cells_map (matchText text.toList) (fun _ => rfl) _))
        fun _ _ ho =>
        .pure (.object ho)
  · exact .bind (paired_execute hre code text) fun _ _ hr => .pure (.plain hr)

lemma rawFns_search : W.RawFns search := by
  intro L this args hthis hargs
  refine .bindEq (paired_stringOf hthis) fun text => .bind (paired_toRegExp (fine_rawAt hargs 0)) ?_
  rintro ⟨re, code⟩ _ ⟨rfl, hre⟩
  dsimp only
  split <;> exact .pure (.primitive rfl)

/-- What replaces matches, on both sides. -/
def Replacements (W : World) (r r' : Replacement) : Prop :=
  r' = r ∧ ∀ f, r = .function f → W.Callee f

lemma paired_replaceFrom (s : List Char) {r : Replacement} (hr : Replacements W r r)
    (ms : List Pattern.Slots) (offset : Nat) {k k' : Label} (hk : W.Labels k k') :
    Paired W L (replaceFrom s r ms offset k) (replaceFrom s r ms offset k')
      fun x x' => x'.1 = x.1 ∧ W.Labels x.2 x'.2 := by
  induction ms generalizing offset k k' with
  | nil => exact .pure ⟨rfl, hk⟩
  | cons m ms ih =>
    unfold replaceFrom
    dsimp only
    have hfinish : ∀ x x' : List Char × Label, x'.1 = x.1 ∧ W.Labels x.2 x'.2 → Paired W L
        (replaceFrom s r ms m.range.2 x.2 >>= fun y =>
          pure (Text.sliceBytes offset m.range.1 s ++ x.1 ++ y.1, y.2))
        (replaceFrom s r ms m.range.2 x'.2 >>= fun y =>
          pure (Text.sliceBytes offset m.range.1 s ++ x'.1 ++ y.1, y.2))
        fun x x' => x'.1 = x.1 ∧ W.Labels x.2 x'.2 :=
      fun x x' hx => .bind (ih _ hx.2) fun y y' hy => .pure ⟨by rw [hx.1, hy.1], hy.2⟩
    cases r with
    | template cs => exact .bind (.pure ⟨rfl, hk⟩) hfinish
    | function f =>
      refine .bind (paired_invokeAt hk (hr.2 f rfl) .undefined (List.rel_append
        (cells_captureValues ..) (.cons (.primitive rfl) (.cons (.primitive rfl) .nil))))
        fun v v' hv => .bindEq (paired_stringOf hv.raw) fun t => ?_
      exact .bind (.pure ⟨rfl, hk.join hv.label⟩) hfinish

lemma natives_replace : W.Natives replace replace := by
  intro L this this' args args' hthis hargs
  have hpattern := (values_argAt hargs 0).raw
  have hreplacement := (values_argAt hargs 1).raw
  unfold replace
  rw [hpattern.same, hreplacement.same]
  refine .bind (R := fun s s' => s' = s) (.mono (paired_stringOf hthis.raw) fun _ _ h => h.symm) ?_
  rintro _ text rfl
  refine .bind (paired_patternOf hpattern.fine) ?_
  rintro _ x ⟨rfl, hx⟩
  extract_lets searched searched'
  have hsearched : ∀ y, Paired W L (searched y) (searched' y) W.Values := by
    intro y
    have hfinish : ∀ r, Replacements W r r → Paired W L
        (replaceFrom text.toList r
          (y.1.findAll (if y.2 then none else some 1) text.toList) 0
          (Value.joinLabels (this :: args)) >>= fun z =>
            pure ((Raw.string (String.ofList z.1)).labeled z.2))
        (replaceFrom text.toList r
          (y.1.findAll (if y.2 then none else some 1) text.toList) 0
          (Value.joinLabels (this' :: args')) >>= fun z =>
            pure ((Raw.string (String.ofList z.1)).labeled z.2)) W.Values :=
      fun r hr => .bind (paired_replaceFrom _ hr _ _ (labels_joinLabels' (.cons hthis hargs)))
        fun z z' hz => .pure (by rw [hz.1]; exact .labeled (.primitive rfl) hz.2)
    dsimp only [searched, searched']
    split
    · rename_i f hf
      exact .bind (R := fun r r' => r' = r ∧ Replacements W r r)
        (.pure ⟨rfl, rfl, by rintro _ ⟨⟩; exact hreplacement.callable hf⟩)
        fun r r' hr => by rw [hr.1]; exact hfinish r hr.2
    · exact .bindEq (paired_stringOf hreplacement.fine) fun s =>
        .bind (R := fun r r' => r' = r ∧ Replacements W r r) (.pure ⟨rfl, rfl, by rintro _ ⟨⟩⟩)
          fun r r' hr => by rw [hr.1]; exact hfinish r hr.2
  split
  · rename_i re code
    exact .bindEq (paired_patternFlag (hx _ rfl) (by decide)) fun _ => .bindEq (.pure rfl) hsearched
  · refine .bindEq (paired_stringOf hpattern.fine) fun s => ?_
    split
    · exact .bindEq (.pure rfl) hsearched
    · exact .bindEq (.fail (.host (.refl _))) hsearched

/-! ## The global object -/

lemma natives_evalValue : W.Natives evalValue (evalValueBy W.reader) := by
  intro L this this' args args' _ hargs
  unfold evalValue evalValueBy
  cases hargs with
  | nil => exact .pure .undefined
  | @cons v v' _ _ hv _ =>
    obtain ⟨r, k⟩ := v
    obtain ⟨r', k'⟩ := v'
    obtain rfl : r' = r := hv.raw.same
    cases r' with
    | string s => exact paired_evalText s hv.label
    | _ => exact .pure hv

lemma natives_functionFrom : W.Natives (fun _ args => newFunctionFrom args)
    (fun _ args => do functionFromTextsBy W.reader (← textsOf args) (Value.joinLabels args)) :=
  fun _ hargs => .bindEq (paired_textsOf hargs) fun texts =>
    paired_functionFromTexts texts (labels_joinLabels' hargs)

lemma paired_shownAll (h : List.Forall₂ W.Values args args') :
    Paired W L (shownAll args) (shownAll args') (List.Forall₂ W.Texts) := by
  unfold shownAll
  induction h with
  | nil => exact .pure .nil
  | cons hv _ ih =>
    exact .bind (paired_inspect (.inl (.inl hv))) fun _ _ hs => .bind ih fun _ _ hss =>
      .pure (.cons hs hss)

lemma natives_print : W.Natives print print := fun _ hargs =>
  .bind (paired_shownAll hargs) fun _ _ hs =>
    .seq (.emitText ((texts_intercalate _ hs).append (.refl _))) fun _ _ => .pure .undefined

lemma natives_quit : W.Natives quit quit := by
  intro L this this' args args' _ hargs
  cases hargs with
  | nil => exact .fail (.quit 0)
  | cons hv _ =>
    exact .bindEq (.lookEq fun s s' h => by rw [hv.raw.same]; exact h.word hv.raw.sound) fun w =>
      .fail (.quit _)

lemma paired_hostCall {fn fn' : Value} (hfn : W.Values fn fn') (hthis : W.Values this this')
    (hargs : List.Forall₂ W.Values args args') :
    Paired W L (hostCall fn this args) (hostCall fn' this' args') W.Values := by
  refine paired_forHost ?_
  have hinspect := paired_inspect_raw (L := L) hfn.raw
  have hcallable : ∀ f, fn.raw.callable? = some f → W.Callee f := fun _ => hfn.raw.callable
  rw [hfn.raw.same] at hinspect ⊢
  split
  · exact .bind hinspect fun _ _ hm => .typeError (hm.append (.refl _))
  · rename_i f hf
    have hreceiver : W.Values (if this.raw.isAbsent then .undefined else this)
        (if this'.raw.isAbsent then .undefined else this') := by
      rw [hthis.raw.same, hthis.raw.present]
      exact hthis
    exact .call (hcallable f hf) hreceiver hargs

lemma natives_load : W.Natives load load := by
  intro L this this' args args' _ hargs
  cases hargs with
  | nil => exact .typeError (.refl _)
  | cons hv _ =>
    refine .bindEq (paired_stringOf hv.raw) fun path => .bindEq (.readFile path) fun entry => ?_
    split
    · exact .fail (.fault _ (.refl _))
    · refine .bindRealm (.bind (paired_getProperty' (W.fits_plain W.global_object) (by decide)) fun
        f f' hf => ?_)
      exact paired_hostCall hf .undefined (.cons (.labeled (.primitive rfl) hv.label) .nil)

end

/-! ## All built-in functions -/

section

variable (f : Float → Raw) (hf : ∀ x, (f x).isPrimitive = true)
include hf

/-- Functions of a number. -/
lemma rawFns_ofNumber (name : String) : W.RawFns fun _ args => do
    return f (← numberAt name args 0) :=
  fun _ hargs => .bindEq (paired_numberAt hargs _ 0) fun x => .pure (.primitive (hf x))

/-- Functions of two numbers. -/
lemma rawFns_ofNumbers (name : String) (g : Float → Float → Float) : W.RawFns fun _ args => do
    let x ← numberAt name args 0
    let y ← numberAt name args 1
    return f (g x y) :=
  fun _ hargs => .bindEq (paired_numberAt hargs _ 0) fun x =>
    .bindEq (paired_numberAt hargs _ 1) fun y => .pure (.primitive (hf (g x y)))

end

lemma rawFns_numberValue : W.RawFns numberValue := fun hthis hrest =>
  .bindEq (paired_numberAt (fine_cons hthis hrest) _ 0) fun _ => .pure (.primitive rfl)

lemma rawFns_toBoolean : W.RawFns toBoolean := fun _ _ => .pure (.primitive rfl)

lemma rawFns_booleanValue : W.RawFns booleanValue := fun hthis _ =>
  .bindEq (paired_thisBoolean hthis) fun _ => .pure (.primitive rfl)

lemma rawFns_booleanText : W.RawFns booleanText := fun hthis _ =>
  .bindEq (paired_thisBoolean hthis) fun _ => .pure (.primitive rfl)

lemma rawFns_maximum : W.RawFns maximum := fun _ hargs =>
  .bindEq (paired_numbersFrom hargs _ 0) fun _ => .pure (.primitive rfl)

lemma rawFns_minimum : W.RawFns minimum := fun _ hargs =>
  .bindEq (paired_numbersFrom hargs _ 0) fun _ => .pure (.primitive rfl)

lemma rawFns_random : W.RawFns random := fun _ _ => .random

lemma rawFns_parseInt : W.RawFns parseInt := fun _ hargs =>
  .bindEq (paired_textAt hargs _ 0) fun _ => .bindEq (paired_numberAt hargs _ 1) fun _ =>
    .pure (.primitive rfl)

lemma rawFns_parseFloat : W.RawFns parseFloat := fun _ hargs =>
  .bindEq (paired_textAt hargs _ 0) fun _ => .pure (.primitive rfl)

lemma rawFns_version : W.RawFns fun _ _ => return Raw.string versionText :=
  fun _ _ => .pure (.primitive rfl)

/-- Every built-in function does the same on both sides. -/
theorem natives_run (b : Builtin) : W.Natives (run b) (runBy W.reader b) := by
  cases b with
  | object => exact fun _ => paired_newObject
  | keys => exact natives_lift rawFns_keysOf
  | getPrototypeOf => exact natives_lift rawFns_prototypeOf
  | objectToString => exact natives_lift rawFns_classText
  | objectValueOf => exact fun hthis _ => .pure hthis
  | hasOwnProperty => exact natives_lift rawFns_hasOwnNamed
  | propertyIsEnumerable => exact natives_lift rawFns_isShown
  | function => exact natives_functionFrom
  | call => exact natives_callWith
  | apply => exact natives_applyTo
  | functionToString => exact natives_lift rawFns_functionSource
  | error name => exact fun _ => paired_newError name
  | errorToString => exact natives_lift rawFns_errorSource
  | array => exact fun _ => paired_arrayOf
  | isArray => exact natives_lift rawFns_isArray
  | arrayMethod m => exact natives_arrayMethod m
  | string => exact natives_lift rawFns_toText
  | newString => exact fun _ => paired_newText
  | fromCharCode => exact natives_lift rawFns_fromCharCode
  | stringMethod m => exact natives_lift (rawFns_stringMethod m)
  | matchPattern => exact natives_lift rawFns_matchAll
  | searchPattern => exact natives_lift rawFns_search
  | replacePattern => exact natives_replace
  | number => exact natives_lift rawFns_toNumber
  | newNumber => exact fun _ => paired_newNumber
  | numberToString => exact natives_lift rawFns_numberText
  | toFixed => exact natives_lift rawFns_toFixed
  | numberValueOf => exact natives_lift rawFns_numberValue
  | boolean => exact natives_lift rawFns_toBoolean
  | newBoolean => exact fun _ => paired_newBoolean
  | booleanValueOf => exact natives_lift rawFns_booleanValue
  | booleanToString => exact natives_lift rawFns_booleanText
  | math f =>
    exact natives_lift
      (rawFns_ofNumber (fun x => .number (MathFn.value f x)) (fun _ => rfl) _)
  | pow => exact natives_lift (rawFns_ofNumbers Raw.number (fun _ => rfl) _ power)
  | atan2 => exact natives_lift (rawFns_ofNumbers Raw.number (fun _ => rfl) _ Float.atan2)
  | random => exact natives_lift rawFns_random
  | max => exact natives_lift rawFns_maximum
  | min => exact natives_lift rawFns_minimum
  | regexp => exact fun _ => paired_regExpFrom
  | exec => exact natives_lift rawFns_exec
  | test => exact natives_lift rawFns_test
  | regexpToString => exact natives_lift rawFns_regExpSource
  | eval => exact natives_evalValue
  | isNaN => exact natives_lift (rawFns_ofNumber (fun x => .bool x.isNaN) (fun _ => rfl) _)
  | isFinite => exact natives_lift (rawFns_ofNumber (fun x => .bool x.isFinite) (fun _ => rfl) _)
  | parseInt => exact natives_lift rawFns_parseInt
  | parseFloat => exact natives_lift rawFns_parseFloat
  | print => exact natives_print
  | version => exact natives_lift rawFns_version
  | quit => exact natives_quit
  | load => exact natives_load

end Library

/-! ## Requests -/

/-- Hosts whose functions and objects do the same on values that correspond. -/
structure World.Hosts (W : World) (hosts hosts' : Hosts) : Prop where
  call : ∀ n, W.Natives (hosts.call n) (hosts'.call n)
  construct : ∀ n {L : Ground} {args args' : List Value}, List.Forall₂ W.Values args args' →
    Paired W L (hosts.construct n args) (hosts'.construct n args') W.Values
  hasInstance : ∀ n {L : Ground} {v v' : Value}, W.Values v v' →
    Paired W L (hosts.hasInstance n v) (hosts'.hasInstance n v') Eq

/-- A host that provides nothing. -/
lemma World.hosts_none (W : World) : W.Hosts .none .none :=
  ⟨fun _ _ _ _ _ _ _ _ => .fail (.host (.refl _)), fun _ _ _ _ _ => .fail (.host (.refl _)),
    fun _ _ _ _ _ => .fail (.host (.refl _))⟩

section

variable {hosts hosts' : Hosts} (hhosts : W.Hosts hosts hosts')
include hhosts

lemma natives_native (n : Native) : W.Natives (n.run hosts) (n.runBy hosts' W.reader) := by
  cases n with
  | builtin b => exact Library.natives_run b
  | host n => exact hhosts.call n

/-- **What is done for requests that correspond is put together in the same way.** -/
theorem paired_perform {r r' : Request} (h : W.Requests r r')
    (hknown : ¬W.lax → L.known r.target.id) :
    Paired W L (perform hosts r) (performBy hosts' W.reader r') W.Values := by
  cases h with
  | @call fn this this' args args' hfn hthis hargs =>
    refine .bind (.target hfn.fits hknown) fun obj obj' ⟨hobj, hsuits⟩ => ?_
    have hbehaviour := hobj.behaviour
    generalize obj.behaviour = b at hbehaviour hsuits
    generalize obj'.behaviour = b' at hbehaviour
    have hlax : b = .none ∨ (∃ n, b = .host n) → W.lax := fun hb =>
      by_contra fun hlax => hfn.not_idle (hsuits hlax) hb
    cases hbehaviour with
    | none => exact .fail (.internal (hlax (.inl rfl)) (.refl _))
    | host n => exact .fail (.internal (hlax (.inr ⟨n, rfl⟩)) (.refl _))
    | closure hclosure hscope => exact paired_callClosure hfn.fits hclosure hscope hthis hargs
    | native name arity f ctor =>
      cases f with
      | none => exact .typeError (.refl _)
      | some n => exact natives_native hhosts n hthis hargs
  | @construct fn args args' hfn hargs =>
    refine .bind (.target hfn.fits hknown) fun obj obj' ⟨hobj, hsuits⟩ => ?_
    have hbehaviour := hobj.behaviour
    generalize obj.behaviour = b at hbehaviour hsuits
    generalize obj'.behaviour = b' at hbehaviour
    cases hbehaviour with
    | none => exact .fail (.internal (by_contra fun hlax => hfn.not_idle (hsuits hlax)) (.refl _))
    | host n => exact hhosts.construct n hargs
    | closure hclosure hscope => exact paired_constructClosure hfn.fits hclosure hscope hargs
    | native name arity f ctor =>
      cases ctor with
      | none => exact .typeError (.refl _)
      | some n => exact natives_native hhosts n .undefined hargs
  | @hasInstance fn v v' hfn hv =>
    refine .bind (.object (W.fits_object hfn.fits)) fun obj obj' hobj => ?_
    have hbehaviour := hobj.behaviour
    generalize obj.behaviour = b at hbehaviour
    generalize obj'.behaviour = b' at hbehaviour
    have hordinary : Paired W L (ordinaryHasInstance fn v >>= fun x => pure (Value.plain (.bool x)))
        (ordinaryHasInstance fn v' >>= fun x => pure (Value.plain (.bool x))) W.Values :=
      .bindEq (paired_ordinaryHasInstance hfn.fits hv) fun _ => .pure (.primitive rfl)
    cases hbehaviour with
    | host n => exact .bindEq (hhosts.hasInstance n hv) fun _ => .pure (.primitive rfl)
    | none | closure | native => exact hordinary

end
end Clearance
