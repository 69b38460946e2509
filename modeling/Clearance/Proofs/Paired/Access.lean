/-
# Access to objects side by side

Reading and writing the properties of objects, converting values and showing them do the same on
both sides. What is shown is the same text only if both runs meet the same labels.
-/
import Clearance.Proofs.Paired.Judgment

namespace Clearance

open Clearance.Action

/-- The same primitive, without a label. -/
def SamePrimitive (v v' : Value) : Prop :=
  v' = v ∧ v.label = .none ∧ v.raw.isPrimitive = true

namespace World

variable (W : World)

/-- What is read under a name. -/
def Reads (name : String) (v v' : Value) : Prop :=
  W.Values v v' ∨ (name = "message" ∧ W.Wordings v v')

/-- What may be shown. -/
def Shown (v v' : Value) : Prop := W.Cells v v' ∨ W.Wordings v v'

/-- What lookups along prototypes find. -/
def Founds (name : String) (found found' : Option (Nat × Property)) : Prop :=
  (found = none ∧ found' = none) ∨ ∃ owner cls p p', found = some (owner, p) ∧
    found' = some (owner, p') ∧ ¬W.store owner ∧ W.Properties cls name p p'

/-- What is seen of a cell before a write. -/
def Peeks (v v' : Option Value) : Prop :=
  (v = none ∧ v' = none) ∨ ∃ u u', v = some u ∧ v' = some u' ∧
    u'.raw.isUndefined = u.raw.isUndefined ∧ W.Labels u.label u'.label

variable {W}

lemma Reads.shown {name : String} {v v' : Value} (h : W.Reads name v v') : W.Shown v v' :=
  h.imp .inl fun h => h.2

lemma Reads.values {name : String} {v v' : Value} (h : W.Reads name v v')
    (hname : name ≠ "message") : W.Values v v' :=
  h.resolve_right fun hmessage => hname hmessage.1

lemma Contents.reads {cls name : String} {v v' : Value} (h : W.Contents cls name v v') :
    W.Reads name v v' := h.imp id fun h => ⟨h.2.1, h.2.2⟩

lemma Contents.peeks {cls name : String} {v v' : Value} (h : W.Contents cls name v v') :
    W.Peeks (some v) (some v') := by
  refine .inr ⟨v, v', rfl, rfl, ?_⟩
  rcases h with h | ⟨-, -, h⟩
  · exact ⟨h.isUndefined_raw, h.label⟩
  · obtain ⟨s, s', hs, hs', -⟩ := h.texts
    exact ⟨by rw [hs, hs']; rfl, h.label⟩

lemma raws_of_samePrimitive {v v' : Value} (h : SamePrimitive v v') : W.Raws v.raw v'.raw := by
  obtain ⟨rfl, -, hprimitive⟩ := h
  exact .primitive hprimitive

lemma values_of_samePrimitive {v v' : Value} (h : SamePrimitive v v') : W.Values v v' := by
  obtain ⟨rfl, hlabel, hprimitive⟩ := h
  exact ⟨.primitive hprimitive, by rw [hlabel]; exact .none, fun _ => hlabel⟩

/-- Labels in front of shown values. -/
lemma texts_labelMark {v v' : Value} (h : W.Labels v.label v'.label) :
    W.Texts (labelMark v) (labelMark v') := by
  intro hf
  unfold labelMark Value.isLabeled
  rw [h.same hf]

lemma Shown.label {v v' : Value} (h : W.Shown v v') : W.Labels v.label v'.label :=
  h.elim Cells.label Wordings.label

/-- A value is undefined without a label on both sides, if both runs meet the same labels. -/
lemma Shown.isUndefined {v v' : Value} (h : W.Shown v v') (hf : W.faithful) :
    v'.isUndefined = v.isUndefined := by
  have hraw : v'.raw.isUndefined = v.raw.isUndefined := by
    rcases h with h | h
    · rw [h.raw]
    · obtain ⟨s, s', hs, hs', -⟩ := h.texts
      rw [hs, hs']
      rfl
  unfold Value.isUndefined Value.isLabeled
  rw [hraw, h.label.same hf]

lemma Shown.text {v v' : Value} (h : W.Shown v v') {s s' : Heap} (hh : W.Heaps s s') :
    W.Texts (s.text v.raw) (s'.text v'.raw) := by
  intro hf
  rcases h with h | h
  · rw [h.raw]
    exact hh.text h.sound
  · obtain ⟨t, t', ht, ht', htexts⟩ := h.texts
    rw [ht, ht', htexts hf]
    rfl

lemma Properties.shown {cls name : String} {p p' : Property} (h : W.Properties cls name p p')
    (hp : ¬p.isAccessor = true) : W.Shown p.value p'.value := (h.contents hp).reads.shown

lemma texts_intercalate (separator : String) {xs ys : List String}
    (h : List.Forall₂ W.Texts xs ys) :
    W.Texts (separator.intercalate xs) (separator.intercalate ys) := by
  intro hf
  have heq : ys = xs := by
    induction h with
    | nil => rfl
    | cons hx _ ih => rw [hx hf, ih]
  rw [heq]

end World

variable {W : World} {L : Ground} {α : Type}

open World

/-! ## Properties -/

lemma paired_find? {id : Nat} (hid : ¬W.store id) (name : String) :
    Paired W L (look fun s => s.heap.find? id name) (look fun s => s.heap.find? id name)
      (W.Founds name) := by
  refine .look fun s s' h => ?_
  rcases h.find? hid name with hnone | ⟨owner, p, p', hp, hp', howner, hpp⟩
  · exact .inl hnone
  · exact .inr ⟨owner, _, p, p', hp, hp', howner, hpp⟩

lemma paired_getProperty {o : Ref} (ho : W.fits o) (name : String) :
    Paired W L (getProperty o name) (getProperty o name) (W.Reads name) := by
  refine .bind (paired_find? (W.fits_object ho) name) fun found found' hfound => ?_
  rcases hfound with ⟨rfl, rfl⟩ | ⟨owner, cls, p, p', rfl, rfl, -, hpp⟩
  · exact .pure (.inl .undefined)
  dsimp only
  refine .ite (by rw [hpp.isAccessor]) (fun _ => ?_) fun hacc => .pure (hpp.contents hacc).reads
  rw [hpp.getter]
  split
  · rename_i f hf
    have hcallable : W.Callee f := Raws.callable (r := p.getter) ⟨rfl, hpp.getter_sound, by
      cases hp : p.getter <;> first | rfl | (rw [hp] at hf; cases hf)⟩ hf
    exact .mono (.call hcallable (.object ⟨rfl, ho⟩) .nil) fun _ _ => .inl
  · exact .pure (.inl .undefined)

/-- Reading a property other than a message. -/
lemma paired_getProperty' {o : Ref} (ho : W.fits o) {name : String} (hname : name ≠ "message") :
    Paired W L (getProperty o name) (getProperty o name) W.Values :=
  .mono (paired_getProperty ho name) fun _ _ h => h.values hname

lemma paired_setLength {o : Ref} (ho : W.fits o) {v v' : Value} (hv : W.Values v v') :
    Abreast W L (setLength o v) (setLength o v') := by
  refine .bindEq (.lookEq fun s s' h => ?_) fun n => .ite' (fun _ => .rangeError _) fun _ => ?_
  · rw [hv.raw.same]
    exact h.number hv.raw.sound
  · exact .change (W.fits_object ho) (fun _ => Object.sameShell_resize ..) fun _ _ h =>
      h.resize _ hv.label

lemma paired_putOwn {o : Ref} (ho : W.fits o) (name : String) {v v' : Value}
    (hv : W.Values v v') : Abreast W L (putOwn o name v) (putOwn o name v') :=
  .seq (.change (W.fits_object ho) (fun _ => Object.sameShell_extend ..) fun _ _ h => h.extend hv)
    fun _ _ => .insist fun _ _ h => (h.object o.id (W.fits_object ho)).counts name

lemma paired_putProperty {o : Ref} (ho : W.fits o) (name : String) {v v' : Value}
    (hv : W.Values v v') : Abreast W L (putProperty o name v) (putProperty o name v') := by
  refine .bind (paired_find? (W.fits_object ho) name) fun found found' hfound => ?_
  rcases hfound with ⟨rfl, rfl⟩ | ⟨owner, cls, p, p', rfl, rfl, -, hpp⟩
  · exact paired_putOwn ho name hv
  dsimp only
  refine .ite (by rw [hpp.isAccessor]) (fun _ => ?_) fun _ =>
    .ite (by rw [hpp.readOnly]) (fun _ => .done _ _) fun _ => ?_
  · rw [hpp.setter]
    split
    · rename_i f hf
      have hcallable : W.Callee f := Raws.callable (r := p.setter) ⟨rfl, hpp.setter_sound, by
        cases hp : p.setter <;> first | rfl | (rw [hp] at hf; cases hf)⟩ hf
      exact .seq (.abreast (.call hcallable (.object ⟨rfl, ho⟩) (.cons hv .nil)))
        fun _ _ => .done _ _
    · exact .done _ _
  · refine .bind (.object (W.fits_object ho)) fun obj obj' hobj => ?_
    have hput := paired_putOwn (L := L) ho name hv
    rcases hobj.find? name with ⟨hn, hn'⟩ | ⟨own, own', hown, hown', hpown⟩
    · rw [hn, hn']
      cases owner == o.id <;> exact hput
    · rw [hown, hown']
      cases owner == o.id
      · exact hput
      · refine .ite (by rw [hobj.cls]) (fun _ => paired_setLength ho hv) fun _ => ?_
        exact .change (W.fits_object ho) (fun _ => Object.sameShell_define ..) fun _ _ h =>
          h.define (hpown.withValue (.inl hv))

/-! ## Places -/

lemma paired_partition {o : Ref} (ho : W.fits o) (name : String) :
    Paired W L (Place.partition ⟨some o, name⟩) (Place.partition ⟨some o, name⟩) W.Labels :=
  .bind (.object (W.fits_object ho)) fun _ _ h => .pure h.partition

/-- Reading an operand. Where the two runs meet different labels, the message of an error is not
read. -/
lemma paired_resolve {t t' : Operand} (h : W.Operands t t') :
    Paired W L t.resolve t'.resolve W.Ratings := by
  cases h with
  | value hv => exact .pure (.of_values hv)
  | @place p p' k k' hp hk =>
    have hread : Paired W L p.cell p'.cell W.Values →
        Paired W L p.partition p'.partition W.Labels →
        Paired W L (Operand.place p k).resolve (Operand.place p' k').resolve W.Ratings :=
      fun hcell hpartition => .bind hcell fun _ _ hv => .bind hpartition fun _ _ hpart =>
        .pure ⟨hv.raw, (hk.join hv.label).join hpart⟩
    cases hp with
    | unbound name => exact hread (.referenceError _) (.pure .none)
    | @member o name ho =>
      by_cases hmessage : name = "message" ∧ ¬W.faithful
      · obtain ⟨rfl, hf⟩ := hmessage
        exact .message hf ho hk
      · refine hread (.mono (paired_getProperty ho name) fun v v' hv => ?_)
          (paired_partition ho name)
        rcases hv with hv | ⟨hname, hv⟩
        · exact hv
        · exact hv.values (not_not.1 fun hf => hmessage ⟨hname, hf⟩)
    | binding hpartner => exact .resolve hpartner hk

lemma paired_valueOf {p p' : Action Operand} (h : Paired W L p p' W.Operands) :
    Paired W L (valueOf p) (valueOf p') W.Ratings := .bind h fun _ _ ht => paired_resolve ht

/-! ## Conversions -/

lemma methods_ne_message (hint : Hint) : ∀ name ∈ hint.methods, name ≠ "message" := by
  cases hint <;> decide

lemma paired_firstPrimitive {o : Ref} (ho : W.fits o) (names : List String)
    (hnames : ∀ name ∈ names, name ≠ "message") :
    Paired W L (firstPrimitive o names) (firstPrimitive o names)
      fun r r' => r' = r ∧ r.isPrimitive = true := by
  induction names with
  | nil => exact .typeError (.refl _)
  | cons name rest ih =>
    obtain ⟨hname, hrest⟩ := List.forall_mem_cons.1 hnames
    refine .bind (paired_getProperty' ho hname) fun m m' hm => ?_
    rw [hm.raw.same]
    split
    · exact ih hrest
    · rename_i f hf
      refine .bind (.call (hm.raw.callable hf) (.object ⟨rfl, ho⟩) .nil) fun r r' hr => ?_
      dsimp only
      rw [hr.raw.same]
      exact .ite' (fun hprimitive => .pure ⟨rfl, hprimitive⟩) fun _ => ih hrest

lemma Raw.isPrimitive_of_present {r : Raw} (hpresent : r.isAbsent = false)
    (hobject : ∀ o, r ≠ .object o) : r.isPrimitive = true := by
  cases r with
  | absent => cases hpresent
  | object o => exact absurd rfl (hobject o)
  | _ => rfl

lemma paired_toPrimitive {r r' : Raw} (h : W.Raws r r') (hint : Hint) :
    Paired W L (toPrimitive r hint) (toPrimitive r' hint) SamePrimitive := by
  obtain ⟨rfl, hsound, hpresent⟩ := h
  unfold toPrimitive
  split
  · rename_i o
    have ho : W.fits o := hsound o rfl
    refine .bind (.object (W.fits_object ho)) fun obj obj' hobj => ?_
    rw [hobj.primitive]
    split
    · rename_i p hp
      exact .pure ⟨rfl, hobj.wrapped p hp⟩
    · refine .bind (paired_firstPrimitive ho _ (methods_ne_message hint)) fun r r' hr => ?_
      obtain ⟨rfl, hprimitive⟩ := hr
      exact .pure ⟨rfl, rfl, hprimitive⟩
  · rename_i hobject
    exact .pure ⟨rfl, rfl, Raw.isPrimitive_of_present hpresent hobject⟩

lemma SamePrimitive.sound {v v' : Value} (h : SamePrimitive v v') : W.Sound v.raw :=
  (raws_of_samePrimitive h).sound

lemma paired_numberOf {r r' : Raw} (h : W.Raws r r') :
    Paired W L (numberOf r) (numberOf r') Eq := by
  refine .bind (paired_toPrimitive h .number) fun p p' hp => ?_
  rw [hp.1]
  exact .lookEq fun s s' hs => hs.number hp.sound

lemma paired_stringOf {r r' : Raw} (h : W.Raws r r') :
    Paired W L (stringOf r) (stringOf r') Eq := by
  refine .bind (paired_toPrimitive h .string) fun p p' hp => ?_
  rw [hp.1]
  exact .lookEq fun s s' hs => hs.text hp.sound

lemma paired_looseEqualsWithin (n : Nat) {a a' b b' : Raw} (ha : W.Raws a a') (hb : W.Raws b b') :
    Paired W L (looseEqualsWithin n a b) (looseEqualsWithin n a' b') Eq := by
  induction n generalizing a a' b b' with
  | zero => exact .pure rfl
  | succ n ih =>
    have hconvert : ∀ {r r' : Raw}, W.Raws r r' → Paired W L (toPrimitive r .number)
        (toPrimitive r' .number) fun p p' => W.Raws p.raw p'.raw :=
      fun h => .mono (paired_toPrimitive h .number) fun _ _ => raws_of_samePrimitive
    obtain rfl := ha.same
    obtain rfl := hb.same
    unfold looseEqualsWithin
    refine .ite' (fun _ => .pure rfl) fun _ => .ite' (fun _ => .pure rfl) fun _ => ?_
    split
    · exact .bind (hconvert hb) fun p p' hp => ih (.primitive rfl) hp
    · exact .bind (hconvert ha) fun p p' hp => ih hp hb
    · exact .bind (hconvert hb) fun p p' hp => ih ha hp
    · exact .lookEq fun s s' hs => hs.looselyEqual ha.sound hb.sound

lemma paired_looseEquals {a a' b b' : Raw} (ha : W.Raws a a') (hb : W.Raws b b') :
    Paired W L (looseEquals a b) (looseEquals a' b') Eq :=
  .bindEq (.lookEq fun _ _ h => h.size) fun _ => paired_looseEqualsWithin _ ha hb

lemma paired_lengthOf {o : Ref} (ho : W.fits o) :
    Paired W L (lengthOf o) (lengthOf o) Eq := by
  refine .bind (paired_getProperty' ho (by decide)) fun v v' hv => ?_
  rw [hv.raw.same]
  exact .bindEq (.lookEq fun s s' hs => hs.word hv.raw.sound) fun _ => .pure rfl

lemma indexName_ne_message (n : Nat) : indexName n ≠ "message" := by
  intro h
  have hdigits : ∀ c ∈ Nat.toDigits 10 n, c ≠ 'm' := by
    intro c hc
    have := Nat.isDigit_of_mem_toDigits (by decide) (by decide) hc
    rintro rfl
    exact absurd this (by decide)
  have hlist : Nat.toDigits 10 n = "message".toList := by
    rw [← h]
    simp [indexName]
  rw [hlist] at hdigits
  exact hdigits 'm' (by decide) rfl

lemma paired_elementsFrom {o : Ref} (ho : W.fits o) (i n : Nat) :
    Paired W L (elementsFrom o i n) (elementsFrom o i n) (List.Forall₂ W.Values) := by
  refine .loop (I := fun x y => y.1 = x.1 ∧ List.Forall₂ W.Values x.2 y.2) ⟨rfl, .nil⟩ ?_
  rintro ⟨j, acc⟩ ⟨j', acc'⟩ ⟨hj, hacc⟩
  obtain rfl : j' = j := hj
  dsimp only at hacc ⊢
  refine .ite' (fun _ => ?_) fun _ => .pure (.inr (List.rel_reverse hacc))
  exact .bind (paired_getProperty' ho (indexName_ne_message j')) fun v v' hv =>
    .pure (.inl ⟨rfl, .cons hv hacc⟩)

lemma paired_elementsOf {o : Ref} (ho : W.fits o) :
    Paired W L (elementsOf o) (elementsOf o) (List.Forall₂ W.Values) :=
  .bindEq (paired_lengthOf ho) fun _ => paired_elementsFrom ho ..

lemma paired_ordinaryHasInstance {fn : Ref} (hfn : W.fits fn) {v v' : Value}
    (hv : W.Values v v') :
    Paired W L (ordinaryHasInstance fn v) (ordinaryHasInstance fn v') Eq := by
  unfold ordinaryHasInstance
  have hsound := hv.raw.sound
  rw [hv.raw.same]
  split
  · rename_i o hraw
    refine .bind (paired_getProperty' hfn (by decide)) fun p p' hp => ?_
    rw [hp.raw.same]
    split
    · exact .lookEq fun s s' hs => by rw [(hs.chain (W.fits_object (hsound o hraw))).1]
    · exact .typeError (.refl _)
  · exact .pure rfl

/-! ## Showing values -/

lemma paired_readQuietly {o : Ref} (ho : W.fits o) (name : String) :
    Paired W L (readQuietly o name) (readQuietly o name) W.Shown := by
  refine .bind (.attempt (paired_getProperty ho name)) fun r r' hr => ?_
  cases hr with
  | ok hv => exact .pure hv.shown
  | error => exact .pure (.inl .absent)

lemma paired_readQuietly' {o : Ref} (ho : W.fits o) {name : String} (hname : name ≠ "message") :
    Paired W L (readQuietly o name) (readQuietly o name) W.Cells := by
  refine .bind (.attempt (paired_getProperty' ho hname)) fun r r' hr => ?_
  cases hr with
  | ok hv => exact .pure (.inl hv)
  | error => exact .pure .absent

lemma paired_plainText {v v' : Value} (h : W.Shown v v') :
    Paired W L (plainText v) (plainText v') W.Texts :=
  .look fun _ _ hs => h.text hs

lemma paired_errorText {o : Ref} (ho : W.fits o) :
    Paired W L (errorText o) (errorText o) W.Texts := by
  refine .bind (paired_readQuietly ho "name") fun name name' hname =>
    .bind (paired_readQuietly ho "message") fun m m' hm => ?_
  by_cases hf : W.faithful
  · have hfinish : ∀ n n', W.Texts n n' → Paired W L
        (do
          let text ← plainText m
          return if m.isUndefined || text = "" then n else n ++ ": " ++ text)
        (do
          let text ← plainText m'
          return if m'.isUndefined || text = "" then n' else n' ++ ": " ++ text) W.Texts :=
      fun n n' hn => .bind (paired_plainText hm) fun text text' htext => .pure fun _ => by
        rw [hm.isUndefined hf, htext hf, hn hf]
    refine .ite (by rw [hname.isUndefined hf]) (fun _ => ?_) fun _ => ?_
    · exact .bind (.pure (.refl _)) hfinish
    · exact .bind (paired_plainText hname) hfinish
  -- where the texts may differ, the name is shown on one side and defaulted on the other
  · have hfinish : ∀ n n' : String, Paired W L
        (do
          let text ← plainText m
          return if m.isUndefined || text = "" then n else n ++ ": " ++ text)
        (do
          let text ← plainText m'
          return if m'.isUndefined || text = "" then n' else n' ++ ": " ++ text) W.Texts :=
      fun _ _ => .bind (paired_plainText hm) fun _ _ _ => .pure fun hf' => absurd hf' hf
    dsimp only
    split_ifs
    · exact .seq (.done _ _) fun _ _ => hfinish ..
    · exact .seq (.lookRight fun _ => trivial) fun _ _ => hfinish ..
    · exact .seq (.lookLeft fun _ => trivial) fun _ _ => hfinish ..
    · exact .seq (.abreast (paired_plainText hname)) fun _ _ => hfinish ..

lemma paired_patternFlag {o : Ref} (ho : W.fits o) {name : String} (hname : name ≠ "message") :
    Paired W L (patternFlag o name) (patternFlag o name) Eq :=
  .bind (paired_readQuietly' ho hname) fun _ _ h => .pure (by rw [h.raw])

lemma paired_patternFlags {o : Ref} (ho : W.fits o) :
    Paired W L (patternFlags o) (patternFlags o) Eq :=
  .bindEq (paired_patternFlag ho (by decide)) fun _ =>
    .bindEq (paired_patternFlag ho (by decide)) fun _ =>
      .bindEq (paired_patternFlag ho (by decide)) fun _ => .pure rfl

lemma paired_plainText' {v v' : Value} (h : W.Cells v v') :
    Paired W L (plainText v) (plainText v') Eq :=
  .lookEq fun _ _ hs => by rw [h.raw]; exact hs.text h.sound

lemma paired_patternText {o : Ref} (ho : W.fits o) :
    Paired W L (patternText o) (patternText o) Eq :=
  .bind (paired_readQuietly' ho (by decide)) fun _ _ h => .bindEq (paired_plainText' h) fun _ =>
    .bindEq (paired_patternFlags ho) fun _ => .pure rfl

lemma paired_showEach {f f' : α → Action String} (hf : ∀ x, Paired W L (f x) (f' x) W.Texts)
    (xs : List α) : Paired W L (showEach f xs) (showEach f' xs) (List.Forall₂ W.Texts) := by
  induction xs with
  | nil => exact .pure .nil
  | cons x xs ih => exact .bind (hf x) fun _ _ h => .bind ih fun _ _ hs => .pure (.cons h hs)

section

variable {shown shown' : Value → Action String}

lemma paired_showElement (hs : ∀ v v', W.Shown v v' → Paired W L (shown v) (shown' v') W.Texts)
    {id : Nat} (hid : ¬W.store id) (i : Nat) :
    Paired W L (showElement shown id i) (showElement shown' id i) W.Texts := by
  refine .bind (.object hid) fun obj obj' hobj => ?_
  rcases hobj.own? (indexName i) with ⟨hn, hn'⟩ | ⟨p, p', hp, hp', hpp⟩
  · rw [hn, hn']
    exact .pure (.refl _)
  · rw [hp, hp']
    exact .ite (by rw [hpp.isAccessor]) (fun _ => .pure (.refl _)) fun hacc =>
      hs _ _ (hpp.shown hacc)

lemma paired_showEntry (hs : ∀ v v', W.Shown v v' → Paired W L (shown v) (shown' v') W.Texts)
    {id : Nat} (hid : ¬W.store id) (name : String) :
    Paired W L (showEntry shown id name) (showEntry shown' id name) W.Texts := by
  refine .bind (paired_find? hid name) fun found found' hfound => ?_
  have hfinish : ∀ s s', W.Texts s s' → Paired W L (pure (name ++ ": " ++ s))
      (pure (name ++ ": " ++ s')) W.Texts := fun s s' h => .pure (.append (.refl _) h)
  rcases hfound with ⟨rfl, rfl⟩ | ⟨owner, cls, p, p', rfl, rfl, -, hpp⟩
  · exact .bind (.pure (.refl _)) hfinish
  · refine .ite (by rw [hpp.isAccessor]) (fun _ => .bind (.pure (.refl _)) hfinish) fun hacc => ?_
    exact .bind (hs _ _ (hpp.shown hacc)) hfinish

lemma paired_showContainer (deep : Bool)
    (hs : ∀ v v', W.Shown v v' → Paired W L (shown v) (shown' v') W.Texts) {o : Ref}
    (ho : W.fits o) :
    Paired W L (showContainer deep shown o) (showContainer deep shown' o) W.Texts := by
  refine .bind (.object (W.fits_object ho)) fun obj obj' hobj => ?_
  rw [hobj.cls]
  refine .ite' (fun _ => .pure (.refl _)) fun _ => .ite' (fun _ => ?_) fun _ => ?_
  · exact .bindEq (paired_lengthOf (fits_record ho)) fun n =>
      .bind (paired_showEach (paired_showElement hs (W.fits_object ho)) _) fun _ _ h =>
        .pure (.append (.append (.refl _) (texts_intercalate _ h)) (.refl _))
  · refine .bindEq (.lookEq fun s s' h => h.enumerable (W.fits_object ho)) fun names => ?_
    split
    · exact .pure (.refl _)
    · exact .bind (paired_showEach (paired_showEntry hs (W.fits_object ho)) _) fun _ _ h =>
        .pure (.append (.append (.refl _) (texts_intercalate _ h)) (.refl _))

end

lemma paired_inspectWithin (fuel left : Nat) (nested : Bool) {v v' : Value} (hv : W.Shown v v') :
    Paired W L (inspectWithin fuel left nested v) (inspectWithin fuel left nested v') W.Texts := by
  induction fuel generalizing left nested v v' with
  | zero => exact .pure (.refl _)
  | succ fuel ih =>
    unfold inspectWithin
    dsimp only
    have hfinish : ∀ s s', W.Texts s s' → Paired W L (pure (labelMark v ++ s))
        (pure (labelMark v' ++ s')) W.Texts :=
      fun s s' h => .pure (.append (texts_labelMark hv.label) h)
    have hsame : ∀ s, Paired W L (pure s >>= fun s => pure (labelMark v ++ s))
        (pure s >>= fun s => pure (labelMark v' ++ s)) W.Texts :=
      fun s => .bind (.pure (.refl s)) hfinish
    have hplain := paired_plainText (L := L) hv
    -- either the values correspond, or their texts do
    rcases hv with hv | hv
    · have hsound := hv.sound
      rw [hv.raw]
      split
      · exact hsame _
      · exact hsame _
      -- objects: functions by their code, others by what they contain
      · rename_i o hraw
        have ho : W.fits o := hsound o hraw
        split
        · refine .bind (.object (W.fits_object ho)) fun obj obj' hobj => ?_
          have hb := hobj.behaviour
          generalize obj.behaviour = b at hb
          generalize obj'.behaviour = b' at hb
          cases hb with
          | closure hfn =>
            dsimp only
            rw [hfn.code, Script.Function.rebuild_name]
            exact hsame _
          | none | native | host => exact hsame _
        · refine .bind (.object (W.fits_object ho)) fun obj obj' hobj => ?_
          rw [hobj.functionText]
          exact hsame _
        all_goals
          refine .bind (.object (W.fits_object ho)) fun obj obj' hobj => ?_
          rw [hobj.cls, hobj.primitive]
          refine .ite' (fun _ => .bind (paired_errorText (fits_record ho)) hfinish) fun _ => ?_
          split
          · rename_i p hp
            have hsame : SamePrimitive p p := ⟨rfl, hobj.wrapped p hp⟩
            exact .bind (ih _ _ (.inl (.inl (values_of_samePrimitive hsame)))) fun _ _ h =>
              .bind (.pure (.append (.append (.refl _) h) (.refl _))) hfinish
          · refine .ite' (fun _ => ?_) fun _ => ?_
            · exact .bind (.mono (paired_patternText (fits_record ho)) fun _ _ h =>
                h ▸ .refl _) hfinish
            · split
              · exact .bind (paired_showContainer _ (fun _ _ _ => .pure (.refl _)) ho) hfinish
              · exact .bind (paired_showContainer _ (fun _ _ h => ih _ _ h) ho) hfinish
      · exact .bind hplain hfinish
    · obtain ⟨s, s', hs, hs', htexts⟩ := hv.texts
      rw [hs, hs']
      refine .bind (.pure fun hf => ?_) hfinish
      rw [htexts hf]

lemma paired_inspect {v v' : Value} (hv : W.Shown v v') :
    Paired W L (inspect v) (inspect v') W.Texts :=
  .bindEq (.lookEq fun _ _ h => h.size) fun _ => paired_inspectWithin _ _ _ hv

lemma paired_inspect_raw {r r' : Raw} (h : W.Raws r r') :
    Paired W L (inspect r) (inspect r') W.Texts := paired_inspect (.inl (.inl (.plain h)))

end Clearance
