/-
# The evaluator side by side

The operations of the evaluator do the same on both sides, given that their operands do. The lemmas
follow the definitions, one for each operation; one induction over the syntax trees then pairs an
expression with the expression that becomes of it. There the two sides differ in one place only:
where a label expression is dropped, the first side attaches a label and the second does not.
-/
import Clearance.Proofs.Paired.Access

namespace Clearance

open Clearance.Action Script World

variable {W : World} {L : Ground} {α β : Type}

/-! ## Writes -/

namespace World

/-- Locations before a write. -/
structure Locations (W : World) (loc loc' : Location) : Prop where
  cell : W.Labels loc.cell loc'.cell
  label : W.Labels loc.label loc'.label
  established : loc'.established = loc.established

/-- Places that are no bindings. -/
inductive Members (W : World) : Place → Place → Prop
  | unbound (name : String) : Members W ⟨none, name⟩ ⟨none, name⟩
  | member {o : Ref} (name : String) : W.fits o → Members W ⟨some o, name⟩ ⟨some o, name⟩

lemma Values.raiseAbove {v v' : Value} {k k' l l' : Label} (hv : W.Values v v')
    (hk : W.Labels k k') (hl : W.Labels l l') :
    W.Values (v.raiseAbove k l) (v'.raiseAbove k' l') := by
  refine .ite hv (hv.wrap hk) (Value.wrap_raw ..) fun hf => ?_
  rw [hk.same hf, hl.same hf]

/-- What is stored at locations that correspond. -/
lemma Locations.stored {loc loc' : Location} (h : W.Locations loc loc') {pc pc' k k' : Label}
    (hpc : W.Labels pc pc') (hk : W.Labels k k') {r r' : Rated} (hr : W.Ratings r r') :
    W.Values (loc.stored pc k r) (loc'.stored pc' k' r') := by
  refine Values.wrap (.ite ?_ ?_ ?_ fun hf => ?_) h.cell
  · exact hr.value.raiseAbove (hpc.join (hk.join h.label)) h.label
  · exact hr.value.wrap hpc
  · unfold Value.raiseAbove
    split_ifs <;> simp only [Value.wrap_raw]
  · rw [h.label.same hf, hpc.same hf]

end World

lemma paired_peek {o : Ref} (ho : W.fits o) (name : String) :
    Paired W L (Place.peek ⟨some o, name⟩) (Place.peek ⟨some o, name⟩) W.Peeks := by
  refine .bind (paired_find? (W.fits_object ho) name) fun found found' hfound => ?_
  rcases hfound with ⟨rfl, rfl⟩ | ⟨owner, cls, p, p', rfl, rfl, -, hpp⟩
  · exact .pure (.inl ⟨rfl, rfl⟩)
  dsimp only
  by_cases hacc : p.isAccessor = true
  · rw [hpp.isAccessor, hacc]
    exact .pure (.inr ⟨_, _, rfl, rfl, rfl, .none⟩)
  · rw [hpp.isAccessor, if_neg hacc, if_neg hacc]
    exact .pure (hpp.contents hacc).peeks

lemma paired_location {p p' : Place} (h : W.Members p p') :
    Paired W L p.location p'.location W.Locations := by
  cases h with
  | unbound name =>
    exact .bindRealm (.bind (.object W.global_object) fun _ _ ho =>
      .pure ⟨.none, ho.partition, rfl⟩)
  | @member o name ho =>
    refine .bind (paired_partition ho name) fun k k' hk => .bind (paired_peek ho name) ?_
    rintro _ _ (⟨rfl, rfl⟩ | ⟨u, u', rfl, rfl, hundefined, hlabel⟩)
    · exact .pure ⟨.none, hk, rfl⟩
    · exact .pure ⟨hlabel, hlabel.join hk, by rw [hundefined]⟩

lemma paired_write {p p' : Place} (h : W.Members p p') {v v' : Value} (hv : W.Values v v') :
    Abreast W L (p.write v) (p'.write v') := by
  cases h with
  | unbound name => exact .bindRealm (paired_putProperty (W.fits_plain W.global_object) name hv)
  | member name ho => exact paired_putProperty ho name hv

lemma paired_assign_member (line : Nat) {p p' : Place} (hp : W.Members p p') {k k' : Label}
    (hk : W.Labels k k') {r r' : Rated} (hr : W.Ratings r r') (declare : Bool) :
    Paired W L (assign line p k r declare) (assign line p' k' r' declare) W.Values := by
  have hname : p'.name = p.name := by cases hp <;> rfl
  refine .bind (paired_location hp) fun loc loc' hloc => .bind .pc fun pc pc' hpc => ?_
  have hcontext := hpc.join (hk.join hloc.label)
  have hbound := hloc.label.join hloc.cell
  unfold assignTo
  dsimp only
  rw [hname]
  refine .check (fun hcalm => hcontext.not_less_left hcalm)
    (fun hcalm => hcontext.not_less_right hcalm)
    (fun hf => by rw [hcontext.same hf, hbound.same hf]) hcontext hbound ?_
  refine .check (fun hcalm h => ?_) (fun hcalm h => ?_) (fun hf => ?_) hr.label hloc.label ?_
  · exact hr.label.not_less_left hcalm (Bool.and_eq_true_iff.1 h).2
  · exact hr.label.not_less_right hcalm (Bool.and_eq_true_iff.1 h).2
  · rw [hloc.established, hr.label.same hf, hloc.label.same hf]
  · exact .noted (.seq (paired_write hp (hloc.stored hpc hk hr)) fun _ _ => .pure hr.value)

/-- The checked write of a value. -/
lemma paired_assign (line : Nat) {p p' : Place} (hp : W.Places p p') {k k' : Label}
    (hk : W.Labels k k') {r r' : Rated} (hr : W.Ratings r r') (declare : Bool) :
    Paired W L (assign line p k r declare) (assign line p' k' r' declare) W.Values := by
  cases hp with
  | unbound name => exact paired_assign_member line (.unbound name) hk hr declare
  | member name ho => exact paired_assign_member line (.member name ho) hk hr declare
  | binding hpartner => exact .assign hpartner hk hr

/-! ## Failures -/

lemma World.errorProto (W : World) {name : String} {q : Nat}
    (h : W.realm.errorProtos.lookup name = some q) : ¬W.store q := by
  have hmem : (name, q) ∈ W.realm.errorProtos := by
    obtain ⟨before, after, heq, -⟩ := List.lookup_eq_some_iff.1 h
    rw [heq]
    simp
  exact W.protos_objects q
    (List.mem_append.2 (.inr (List.mem_map.2 ⟨(name, q), hmem, rfl⟩)))

lemma World.proto (W : World) {q : Nat} (h : q ∈ [W.realm.objectProto, W.realm.functionProto,
    W.realm.arrayProto, W.realm.stringProto, W.realm.numberProto, W.realm.booleanProto,
    W.realm.regexpProto]) : ∀ q' ∈ some q, ¬W.store q' := by
  rintro _ ⟨⟩
  exact W.protos_objects q (List.mem_append.2 (.inl h))

lemma paired_makeError (name : String) {m m' : String} (hm : W.Texts m m') {k k' : Label}
    (hk : W.Labels k k') : Paired W L (makeError name m k) (makeError name m' k') W.Refs := by
  refine .bindRealm (.make (.setHidden (.blank (by decide) ?_ hk) (.inr ⟨rfl, rfl, ?_⟩)))
  · intro q hq
    split at hq
    · rename_i p hp
      cases hq
      exact W.errorProto hp
    · exact W.errorProto hq
  · exact ⟨⟨m, m', rfl, rfl, hm⟩, .none, fun _ => rfl⟩

lemma paired_completionOf (line : Nat) {f f' : Failure} (h : W.Failures f f') :
    Paired W L (completionOf line f) (completionOf line f') W.Completions := by
  cases h with
  | thrown file l hv => exact .pure (.thrown _ hv)
  | fault name hm =>
    refine .bind .pc fun pc pc' hpc => .bind (paired_makeError name hm hpc) fun e e' he => ?_
    exact .pure (.thrown line (.labeled (.object he) hpc))
  | violation hl hr hv => exact .fail (.violation hl hr hv)
  | overflow depth => exact .fail (.overflow depth)
  | internal hlax hm => exact .fail (.internal hlax hm)
  | script e => exact .fail (.script e)
  | quit code => exact .fail (.quit code)
  | host ht => exact .fail (.host ht)

lemma paired_guarded (line : Nat) {p : Action α} {q : Action β} {R : α → β → Prop}
    {k : α → Action Completion} {l : β → Action Completion} (hp : Paired W L p q R)
    (hk : ∀ a b, R a b → Paired W L (k a) (l b) W.Completions) :
    Paired W L (guarded line p k) (guarded line q l) W.Completions := by
  refine .bind (.attempt hp) fun r r' hr => ?_
  cases hr with
  | ok h => exact hk _ _ h
  | error h => exact paired_completionOf line h

lemma paired_thrownFailure {v v' : Value} (hv : W.Values v v') (line : Nat) :
    Paired W L (thrownFailure v line) (thrownFailure v' line) W.Failures :=
  .bind .control fun c c' hc => by rw [hc.file]; exact .pure (.thrown _ _ hv)

lemma paired_forHost {p : Action α} {q : Action β} {R : α → β → Prop} (h : Paired W L p q R) :
    Paired W L (forHost p) (forHost q) R := by
  refine .bind (.attempt h) fun r r' hr => ?_
  cases hr with
  | ok h => exact .pure h
  | error h =>
    cases h with
    | fault name hm =>
      refine .bind .control fun c c' hc => .bind (paired_makeError name hm hc.pc) fun e e' he => ?_
      rw [hc.file]
      exact .fail (.thrown _ _ (.labeled (.object he) hc.pc))
    | thrown file l hv => exact .fail (.thrown file l hv)
    | violation hl hr hv => exact .fail (.violation hl hr hv)
    | overflow depth => exact .fail (.overflow depth)
    | internal hlax hm => exact .fail (.internal hlax hm)
    | script e => exact .fail (.script e)
    | quit code => exact .fail (.quit code)
    | host ht => exact .fail (.host ht)

/-! ## Functions and wrappers -/

lemma paired_newFunction {fn fn' : Script.Function Span} (hfn : W.Functions fn fn') {scope : Nat}
    (hscope : W.frame scope) {pc pc' : Label} (hpc : W.Labels pc pc') :
    Paired W L (newFunction fn scope pc) (newFunction fn' scope pc') W.Refs := by
  have hparams : fn'.params = fn.params := by rw [hfn.code, Script.Function.rebuild_params]
  refine .bindRealm (.bind (.allocate ?_ trivial) fun f f' hf => ?_)
  · rw [hparams]
    exact ((Objects.blank (by decide) (W.proto (by simp)) hpc).withBehaviour
      (.closure hfn hscope)).define
      (.constant (.primitive rfl))
  · obtain ⟨rfl, hf'⟩ := hf
    refine .bind (.make ((Objects.blank (by decide) (W.proto (by simp)) hpc).setHidden
      (.inl (.object ⟨rfl, hf'⟩)))) fun p p' hp => ?_
    refine .seq (.change (W.fits_object hf') (fun _ => Object.sameShell_define ..) fun o
      o' ho => ?_)
      fun _ _ => .pure ⟨rfl, hf'⟩
    exact ho.define (.of_values (.object hp) ..)

lemma paired_newWrapper {cls : String} (hcls : cls ≠ "Activation") {proto : Nat}
    (hproto : ¬W.store proto) {r : Raw} (hr : r.isPrimitive = true) :
    Paired W L (newWrapper cls proto r) (newWrapper cls proto r) W.Refs :=
  .bind .pc fun _ _ hpc => .make
    ((Objects.blank hcls (by rintro _ ⟨⟩; exact hproto) hpc).withPrimitive hr)

lemma paired_newArray {vs vs' : List Value} (h : List.Forall₂ W.Cells vs vs') :
    Paired W L (newArray vs) (newArray vs') W.Refs :=
  .bindRealm (.bind .pc fun _ _ hpc => .make (.arrayOf (W.proto (by simp)) hpc h))

lemma objects_listed {vs vs' : List Value} (h : List.Forall₂ W.Values vs vs') (n : Nat)
    {o o' : Object} (ho : W.Objects o o') :
    W.Objects ((vs.zipIdx n).foldl (fun o (v, i) => o.set (indexName i) v) o)
      ((vs'.zipIdx n).foldl (fun o (v, i) => o.set (indexName i) v) o') := by
  induction h generalizing n o o' with
  | nil => exact ho
  | cons hv _ ih => exact ih (n + 1) (ho.set hv)

lemma paired_newArguments {f : Ref} (hf : W.fits f) {args args' : List Value}
    (hargs : List.Forall₂ W.Values args args') {pc pc' : Label} (hpc : W.Labels pc pc') :
    Paired W L (newArguments f args pc) (newArguments f args' pc') W.Refs := by
  refine .bindRealm (.make ?_)
  have hblank := Objects.blank (by decide : "Arguments" ≠ "Activation")
    (W.proto (q := W.realm.objectProto) (by simp)) hpc
  have hlisted := objects_listed hargs 0 hblank
  have hlength : args'.length = args.length := hargs.length_eq.symm
  rw [hlength]
  exact (hlisted.define (.hiddenData (.primitive rfl))).define
    (.hiddenData (.object ⟨rfl, hf⟩))

lemma paired_describe (path : Option String) {r r' : Raw} (h : W.Raws r r') :
    Paired W L (describe path r) (describe path r') W.Texts := by
  unfold describe
  split
  · exact .pure (.refl _)
  · rw [h.same]
    refine .ite' (fun _ => .pure (.refl _)) fun _ => ?_
    have hinspect := paired_inspect_raw (L := L) h
    rw [h.same] at hinspect
    exact hinspect

lemma paired_toObject (path : Option String) {r r' : Raw} (h : W.Raws r r') :
    Paired W L (toObject path r) (toObject path r') W.Refs := by
  refine .bindRealm ?_
  have hdescribe := paired_describe (L := L) path h
  obtain rfl := h.same
  have hproto : ∀ {q : Nat}, q ∈ [W.realm.objectProto, W.realm.functionProto, W.realm.arrayProto,
      W.realm.stringProto, W.realm.numberProto, W.realm.booleanProto, W.realm.regexpProto] →
      ¬W.store q := fun hq => W.proto hq _ rfl
  split
  · exact .pure ⟨rfl, h.refs⟩
  · exact paired_newWrapper (by decide) (hproto (by simp)) rfl
  · exact paired_newWrapper (by decide) (hproto (by simp)) rfl
  · exact paired_newWrapper (by decide) (hproto (by simp)) rfl
  · exact .bind hdescribe fun _ _ hm => .typeError (hm.append (.refl _))

lemma paired_newRegExp (pattern flags : String) :
    Paired W L (newRegExp pattern flags) (newRegExp pattern flags) W.Refs := by
  unfold newRegExp
  split
  · exact .syntaxError _
  · dsimp only
    split
    · exact .syntaxError _
    · refine .bindRealm (.bind .pc fun _ _ hpc => .make ?_)
      have hblank := (Objects.blank (W := W) (by decide : "RegExp" ≠ "Activation")
        (W.proto (q := W.realm.regexpProto) (by simp)) hpc).withPattern ‹_›
      exact ((((hblank.define (.of_values (.primitive rfl) ..)).define
        (.of_values (.primitive rfl) ..)).define (.of_values (.primitive rfl) ..)).define
        (.of_values (.primitive rfl) ..)).define (.hiddenData (.primitive rfl))

/-! ## Operators -/

lemma raws_of_eq {r r' : Raw} (h : r' = r) (hr : r.isPrimitive = true) : W.Raws r r' := by
  rw [h]
  exact .primitive hr

lemma paired_twoNumbers {a a' b b' : Raw} (ha : W.Raws a a') (hb : W.Raws b b') :
    Paired W L (twoNumbers a b) (twoNumbers a' b') Eq :=
  .bindEq (paired_numberOf ha) fun _ => .bindEq (paired_numberOf hb) fun _ => .pure rfl

/-- The heaps of both sides. -/
lemma paired_heap : Paired W L (look Store.heap) (look Store.heap) W.Heaps := .look fun _ _ h => h

lemma paired_addValues {a a' b b' : Raw} (ha : W.Raws a a') (hb : W.Raws b b') :
    Paired W L (addValues a b) (addValues a' b') W.Raws := by
  refine .bind (paired_toPrimitive ha _) fun x x' hx =>
    .bind (paired_toPrimitive hb _) fun y y' hy => .bind paired_heap fun h h' hh => ?_
  rw [hx.1, hy.1]
  refine .ite' (fun _ => .pure (raws_of_eq ?_ rfl)) fun _ => .pure (raws_of_eq ?_ rfl)
  · rw [hh.text hx.sound, hh.text hy.sound]
  · rw [hh.number hx.sound, hh.number hy.sound]

lemma paired_compareValues (op : BinaryOp) {a a' b b' : Raw} (ha : W.Raws a a')
    (hb : W.Raws b b') : Paired W L (compareValues op a b) (compareValues op a' b') W.Raws := by
  refine .bind (paired_toPrimitive ha _) fun x x' hx =>
    .bind (paired_toPrimitive hb _) fun y y' hy => ?_
  rw [hx.1, hy.1]
  split
  · exact .pure (.primitive rfl)
  · refine .bind paired_heap fun h h' hh => .pure (raws_of_eq ?_ rfl)
    rw [hh.number hx.sound, hh.number hy.sound]

lemma paired_binaryOp {op : BinaryOp} (hop : ¬W.lax → op.named = true) {a a' b b' : Raw}
    (ha : W.Raws a a') (hb : W.Raws b b') :
    Paired W L (binaryOp op a b) (binaryOp op a' b') W.Raws := by
  unfold binaryOp
  cases op with
  | add => exact paired_addValues ha hb
  | sub | mul | div | mod | bitAnd | bitOr | bitXor | shiftLeft | shiftRight | shiftRightZero =>
    exact .bindEq (paired_twoNumbers ha hb) fun _ => .pure (.primitive rfl)
  | eq | ne => exact .bindEq (paired_looseEquals ha hb) fun _ => .pure (.primitive rfl)
  | same | notSame =>
    rw [ha.same, hb.same]
    exact .pure (.primitive rfl)
  | lt | gt | le | ge => exact paired_compareValues _ ha hb
  | isIn =>
    have hinspect := paired_inspect_raw (L := L) hb
    have hsound := hb.sound
    rw [hb.same] at hinspect ⊢
    dsimp only
    split
    · exact .bind hinspect fun _ _ hm => .typeError (.append (.refl _) hm)
    · rename_i o ho
      refine .bindEq (paired_stringOf ha) fun name => ?_
      refine .bindEq (.lookEq fun s s' h => h.has (W.fits_object (hsound o ?_)) name) fun _ =>
        .pure (.primitive rfl)
      cases b <;> cases ho
      rfl
  | instanceOf =>
    have hinspect := paired_inspect_raw (L := L) hb
    have hconstructor : ∀ f, b.constructor? = some f → W.Maker f := fun _ => hb.constructor
    rw [hb.same] at hinspect ⊢
    dsimp only
    split
    · rename_i f hf
      exact .bind (.invoke (.hasInstance (hconstructor f hf) (.plain ha))) fun _ _ h => .pure h.raw
    · exact .bind hinspect fun _ _ hm => .typeError (.append (.refl _) hm)
  | other text => exact .fail (.internal (World.lax_of_absurd hop) (.refl _))

/-! ## Operations -/

/-- Two actions that evaluate to operands that correspond. -/
def World.Evaluates (W : World) (p p' : Action Operand) : Prop :=
  ∀ L, Paired W L p p' W.Operands

section

variable {p p' q q' r r' : Action Operand} {ps ps' : List (Action Operand)}

lemma World.Evaluates.value (h : W.Evaluates p p') :
    Paired W L (valueOf p) (valueOf p') W.Ratings := paired_valueOf (h L)

lemma World.Operands.of_raw {x x' : Raw} (h : W.Raws x x') {k k' : Label} (hk : W.Labels k k') :
    W.Operands (.value (x.labeled k)) (.value (x'.labeled k')) := .value (.labeled h hk)

lemma World.Operands.of_primitive {x : Raw} (h : x.isPrimitive = true) :
    W.Operands (.value x) (.value x) := .value (.primitive h)

lemma World.Operands.of_refs {o o' : Ref} (h : W.Refs o o') :
    W.Operands (.value (Raw.object o)) (.value (Raw.object o')) := .value (.object h)

lemma World.Operands.placeAt {pl pl' : Place} (hpl : W.Places pl pl') {k k' : Label}
    (hk : W.Labels k k') : W.Operands (.placeAt pl k) (.placeAt pl' k') := .place hpl hk.dropped

lemma World.accessor {cls name : String} {x x' : Property} (h : W.Properties cls name x x') :
    W.Properties cls name (if x.isAccessor then x else .noAccessor)
      (if x'.isAccessor then x' else .noAccessor) ∨
    (if x.isAccessor then x else .noAccessor) = Property.noAccessor ∧
      (if x'.isAccessor then x' else .noAccessor) = Property.noAccessor := by
  rw [h.isAccessor]
  split_ifs
  · exact .inl h
  · exact .inr ⟨rfl, rfl⟩

/-- The two halves of an accessor are set one at a time. -/
lemma World.Properties.joined {cls name : String} {x x' : Property}
    (h : W.Properties cls name x x' ∨ x = .noAccessor ∧ x' = .noAccessor) {y y' : Raw}
    (hy : W.Raws y y') :
    W.Properties cls name { x with getter := y } { x' with getter := y' } ∧
      W.Properties cls name { x with setter := y } { x' with setter := y' } := by
  have hgetter : ∀ z : Property, ({ z with getter := y } : Property).isAccessor =
    true := fun z => by
    simp [Property.isAccessor, hy.present]
  have hsetter : ∀ z : Property, ({ z with setter := y } : Property).isAccessor =
    true := fun z => by
    simp [Property.isAccessor, hy.present]
  rcases h with h | ⟨rfl, rfl⟩
  · refine ⟨⟨hy.same, hy.sound, h.setter, h.setter_sound, h.hidden, h.readOnly, h.permanent,
      h.value.imp id fun hv => ⟨hgetter x, hv.2⟩⟩, ⟨h.getter, h.getter_sound, hy.same, hy.sound,
      h.hidden, h.readOnly, h.permanent, h.value.imp id fun hv => ⟨hsetter x, hv.2⟩⟩⟩
  · exact ⟨⟨hy.same, hy.sound, rfl, by rintro o ⟨⟩, rfl, rfl, rfl, .inr ⟨hgetter _, rfl, rfl⟩⟩,
      ⟨rfl, by rintro o ⟨⟩, hy.same, hy.sound, rfl, rfl, rfl, .inr ⟨hsetter _, rfl, rfl⟩⟩⟩

lemma paired_addMember {o : Ref} (ho : W.fits o) (key : String) (kind : MemberKind)
    {x x' : Rated} (hx : W.Ratings x x') :
    Abreast W L (addMember o key kind x) (addMember o key kind x') := by
  refine .change (W.fits_object ho) (fun obj => ?_) fun obj obj' hobj => ?_
  · dsimp only
    split <;> exact Object.sameShell_define ..
  · cases kind
    case init => exact hobj.define (.data hx.value)
    case' get => refine hobj.define (Properties.joined ?_ hx.raw).1
    case' set => refine hobj.define (Properties.joined ?_ hx.raw).2
    -- A getter and a setter join the accessor that the member has, or a new one.
    all_goals
      rcases hobj.own? key with ⟨hn, hn'⟩ | ⟨a, a', ha, ha', hpa⟩
      · rw [hn, hn']
        exact .inr ⟨rfl, rfl⟩
      · rw [ha, ha']
        exact World.accessor hpa

lemma evaluates_assignment (line : Nat) {op : AssignOp} (hop : ¬W.lax → op.named = true)
    (hp : W.Evaluates p p') (hq : W.Evaluates q q') :
    W.Evaluates (assignment line op p q) (assignment line op p' q') := by
  refine fun L => .bind (hp L) fun t t' ht => ?_
  cases ht with
  | value => exact .referenceError _
  | place hpl hk =>
    cases op with
    | plain =>
      exact .bind hq.value fun x x' hx => .bind (paired_assign line hpl hk hx false) fun _ _ hv =>
        .pure (.value hv)
    | compound op =>
      refine .bind (paired_resolve (.place hpl hk)) fun old old' hold =>
        .bind hq.value fun x x' hx => .bind (paired_binaryOp hop hold.raw hx.raw) fun y y' hy => ?_
      exact .bind (paired_assign line hpl hk ⟨hy, hold.label.join hx.label⟩ false) fun _ _ hv =>
        .pure (.value hv)

lemma evaluates_binary {op : BinaryOp} (hop : ¬W.lax → op.named = true) (hp : W.Evaluates p p')
    (hq : W.Evaluates q q') :
    W.Evaluates (binary op p q) (binary op p' q') := by
  refine fun L => .bind hp.value fun x x' hx => .bind hq.value fun y y' hy =>
    .bind (paired_binaryOp hop hx.raw hy.raw) fun z z' hz => .pure (.of_raw hz ?_)
  split_ifs
  · exact hx.label
  · exact hx.label.join hy.label

/-- The operand that is evaluated under the label of another one. -/
lemma paired_rated (kind : String) (line : Nat) {k k' : Label} (hk : W.Labels k k')
    (hq : W.Evaluates q q') : Paired W L
      (controlled kind line k do
        let r ← valueOf q
        return Operand.value (r.raw.labeled (k.join r.label)))
      (controlled kind line k' do
        let r ← valueOf q'
        return Operand.value (r.raw.labeled (k'.join r.label))) W.Operands :=
  .controlled hk (.bind hq.value fun _ _ hy => .pure (.of_raw hy.raw (hk.join hy.label)))

lemma evaluates_logical (kind : String) (line : Nat) {op : LogicalOp}
    (hop : ¬W.lax → op.named = true) (hp : W.Evaluates p p') (hq : W.Evaluates q q') :
    W.Evaluates (logical kind line op p q) (logical kind line op p' q') := by
  refine fun L => .bind hp.value fun x x' hx => ?_
  have hrest := paired_rated (L := L) kind line hx.label hq
  have htruth : x'.raw.truth = x.raw.truth := by rw [hx.raw.same]
  cases op with
  | and => exact .ite (by rw [htruth]) (fun _ => hrest) fun _ => .pure (.value hx.value)
  | or => exact .ite (by rw [htruth]) (fun _ => .pure (.value hx.value)) fun _ => hrest
  | other text => exact .fail (.internal (World.lax_of_absurd hop) (.refl _))

lemma evaluates_conditional (kind : String) (line : Nat) (hp : W.Evaluates p p')
    (hq : W.Evaluates q q') (hr : W.Evaluates r r') :
    W.Evaluates (conditional kind line p q r) (conditional kind line p' q' r') := by
  refine fun L => .bind hp.value fun x x' hx => paired_rated kind line hx.label ?_
  rw [hx.raw.same]
  split_ifs
  · exact hq
  · exact hr

lemma paired_eraseAt (line : Nat) {pl pl' : Place} (hpl : W.Places pl pl') {k k' : Label}
    (hk : W.Labels k k') : Paired W L (eraseAt line pl k) (eraseAt line pl' k') W.Operands := by
  cases hpl with
  | unbound name => exact .pure (.of_primitive rfl)
  | binding hpartner => exact .eraseAt hpartner hk
  | @member o name ho =>
    refine .bind (paired_partition ho name) fun l l' hl => .bind (paired_peek ho name) ?_
    have hdelete : Paired W L
        (alter o.id (·.delete name) >>= fun gone => pure (Operand.value (Raw.bool gone)))
        (alter o.id (·.delete name) >>= fun gone => pure (Operand.value (Raw.bool gone)))
        W.Operands :=
      .bindEq (.alter (W.fits_object ho) (fun obj => Object.sameShell_delete obj name)
        fun obj obj' hobj => ⟨(hobj.delete name).1.symm, (hobj.delete name).2⟩)
        fun _ => .pure (.of_primitive rfl)
    intro cell cell' hcell
    refine .bind .pc fun pc pc' hpc => ?_
    have hcontext := hpc.join hk
    have hleft : W.left.Calm → ∀ m : Label, ¬m.less (pc.join k) = true :=
      fun hcalm _ => hcontext.not_less_left hcalm
    have hright : W.right.Calm → ∀ m : Label, ¬m.less (pc'.join k') = true :=
      fun hcalm _ => hcontext.not_less_right hcalm
    rcases hcell with ⟨rfl, rfl⟩ | ⟨u, u', rfl, rfl, -, hu⟩
    · exact .check (fun hcalm => hleft hcalm _) (fun hcalm => hright hcalm _)
        (fun hf => by rw [hcontext.same hf, hl.same hf]) hcontext hl hdelete
    · exact .check (fun hcalm => hleft hcalm _) (fun hcalm => hright hcalm _)
        (fun hf => by simp only [hcontext.same hf, hl.same hf, hu.same hf]) hcontext
          (hl.join hu) hdelete

lemma evaluates_deletion (line : Nat) (hp : W.Evaluates p p') :
    W.Evaluates (deletion line p) (deletion line p') := by
  refine fun L => .bind (hp L) fun t t' ht => ?_
  cases ht with
  | value => exact .pure (.of_primitive rfl)
  | place hpl hk => exact paired_eraseAt line hpl hk

lemma evaluates_typeOf (hp : W.Evaluates p p') : W.Evaluates (typeOf p) (typeOf p') := by
  refine fun L => .bind (hp L) fun t t' ht => ?_
  have hkind : Paired W L
      (t.resolve >>= fun r => pure (Operand.value ((Raw.string r.raw.typeName).labeled r.label)))
      (t'.resolve >>= fun r => pure (Operand.value ((Raw.string r.raw.typeName).labeled r.label)))
      W.Operands := .bind (paired_resolve ht) fun r r' hr => .pure (by
    rw [hr.raw.same]
    exact .of_raw (.primitive rfl) hr.label)
  cases ht with
  | value => exact hkind
  | place hpl hk =>
    cases hpl with
    | unbound name => exact .pure (.of_raw (.primitive rfl) hk)
    | member => exact hkind
    | binding hpartner => exact hkind

lemma evaluates_unary (line : Nat) {op : UnaryOp} (hop : ¬W.lax → op.named = true)
    (hp : W.Evaluates p p') :
    W.Evaluates (unary line op p) (unary line op p') := by
  intro L
  unfold unary
  cases op with
  | typeOf => exact evaluates_typeOf hp L
  | delete => exact evaluates_deletion line hp L
  | void => exact .bind hp.value fun _ _ _ => .pure (.value .undefined)
  | not =>
    refine .bind hp.value fun x x' hx => .bind (R := W.Raws) (.pure ?_) fun y y' hy =>
      .pure (.of_raw hy hx.label)
    rw [hx.raw.same]
    exact .primitive rfl
  | minus | plus | bitNot =>
    exact .bind hp.value fun x x' hx => .bindEq (paired_numberOf hx.raw) fun n =>
      .bind (R := W.Raws) (.pure (.primitive rfl)) fun y y' hy => .pure (.of_raw hy hx.label)
  | other text =>
    exact .bind hp.value fun x x' hx =>
      .bind (R := W.Raws) (.fail (.internal (World.lax_of_absurd hop) (.refl _))) fun y y' hy =>
        .pure (.of_raw hy hx.label)

lemma evaluates_increment (line : Nat) (op : String) (before : Bool) (hp : W.Evaluates p p') :
    W.Evaluates (increment line op before p) (increment line op before p') := by
  refine fun L => .bind (hp L) fun t t' ht => ?_
  cases ht with
  | value => exact .referenceError _
  | place hpl hk =>
    refine .bind (paired_resolve (.place hpl hk)) fun old old' hold =>
      .bindEq (paired_numberOf hold.raw) fun n => ?_
    have hnext : W.Ratings ⟨.number (if op = "--" then n - 1.0 else n + 1.0), old.label⟩
        ⟨.number (if op = "--" then n - 1.0 else n + 1.0), old'.label⟩ :=
      ⟨.primitive rfl, hold.label⟩
    exact .seq (.abreast (paired_assign line hpl hk hnext false)) fun _ _ =>
      .pure (.of_raw (.primitive rfl) hold.label)

lemma paired_propertyPlace (path : Option String) {x x' y y' : Raw} (hx : W.Raws x x')
    (hy : W.Raws y y') {k k' : Label} (hk : W.Labels k k') :
    Paired W L (propertyPlace path x y k) (propertyPlace path x' y' k') W.Operands := by
  refine .bind (paired_toObject path hx) fun o o' ho => .bindEq (paired_stringOf hy) fun name => ?_
  obtain ⟨rfl, ho⟩ := ho
  exact .pure (.placeAt (.member name ho) hk)

lemma paired_valuesOf (h : List.Forall₂ W.Evaluates ps ps') :
    Paired W L (valuesOf ps) (valuesOf ps') (List.Forall₂ W.Values) := by
  induction h with
  | nil => exact .pure .nil
  | cons hp _ ih =>
    exact .bind hp.value fun _ _ hx => .bind ih fun _ _ hxs => .pure (.cons hx.value hxs)

/-- The receiver of a call of a function that an operand has given. -/
lemma paired_receiverOf {t t' : Operand} (ht : W.Operands t t') {x : Rated}
    (hx : x.raw.callable?.isSome = true) :
    Paired W (L.called t t' x) (receiverOf t) (receiverOf t') W.Values := by
  cases ht with
  | value => exact .pure .undefined
  | place hpl hk =>
    cases hpl with
    | unbound => exact .pure .undefined
    | binding hpartner =>
      exact .receiverOf hpartner (.inr ⟨hx, .inl ⟨_, rfl, rfl⟩⟩) (.inr ⟨hx, .inr ⟨_, rfl, rfl⟩⟩)
    | @member o name ho =>
      refine .bind (.object (W.fits_object ho)) fun obj obj' hobj => ?_
      rw [if_neg hobj.ordinary, if_neg (by rw [hobj.cls]; exact hobj.ordinary)]
      exact .pure (.object ⟨rfl, ho⟩)

lemma evaluates_callExpression (kind : String) (line : Nat) (path : Option String)
    (hp : W.Evaluates p p') (h : List.Forall₂ W.Evaluates ps ps') :
    W.Evaluates (callExpression kind line path p ps) (callExpression kind line path p' ps') := by
  refine fun L => .bind (hp L) fun t t' ht => .callee (paired_resolve ht) fun f f' hf =>
    .bind (paired_valuesOf h) fun vs vs' hvs => ?_
  have hdescribe := paired_describe (L := L.called t t' f) path hf.raw
  rw [hf.raw.same] at hdescribe ⊢
  split
  · exact .bind hdescribe fun _ _ hm => .typeError (hm.append (.refl _))
  · rename_i fn hfn
    refine .bind (paired_receiverOf ht (by rw [hfn]; rfl)) fun this this' hthis => ?_
    exact .bind (.controlled hf.label (.call (hf.raw.callable hfn) hthis hvs)) fun _ _ hv =>
      .pure (.value (hv.wrap hf.label))

lemma Raw.object?_eq {x : Raw} {o : Ref} (h : x.object? = some o) : x = .object o := by
  cases x <;> cases h
  rfl

lemma Heap.constructor?_of_isConstructor {h : Heap} {o : Ref}
    (ho : h.isConstructor (.object o) = true) :
    (Raw.object o).constructor? = some o := by
  unfold Heap.isConstructor at ho
  unfold Raw.constructor?
  dsimp only at ho ⊢
  cases hface : o.face with
  | plain =>
    rw [hface] at ho
    cases ho
  | closure | native | host => rfl

lemma evaluates_newExpression (kind : String) (line : Nat) (path : Option String)
    (hp : W.Evaluates p p') (h : List.Forall₂ W.Evaluates ps ps') :
    W.Evaluates (newExpression kind line path p ps) (newExpression kind line path p' ps') := by
  refine fun L => .bind hp.value fun f f' hf => .bind (paired_valuesOf h) fun vs vs' hvs => ?_
  have hdescribe := paired_describe (L := L) path hf.raw
  have hsound := hf.raw.sound
  rw [hf.raw.same] at hdescribe ⊢
  refine .bind (R := fun c c' => c' = c ∧ (c = true → ∀ o ∈ f.raw.object?, W.Maker o))
    (.look fun s s' hs => ⟨hs.isConstructor hsound, fun hc o ho => ?_⟩) fun constructible _ hc => ?_
  · have hraw := Raw.object?_eq ho
    rw [hraw] at hc
    exact ⟨hsound o hraw, Heap.constructor?_of_isConstructor hc⟩
  obtain ⟨rfl, hmaker⟩ := hc
  split
  · rename_i fn hfn
    exact .bind (.controlled hf.label (.invoke (.construct (hmaker rfl fn hfn) hvs)))
      fun _ _ hv => .pure (.value (hv.wrap hf.label))
  · exact .bind hdescribe fun _ _ hm => .typeError (hm.append (.refl _))

/-- A label expression that stands on both sides. -/
lemma evaluates_labelExpression {name : String} (hname : ∀ k,
      W.realm.lattice.lookup? name = some k → W.left.mem k ∧ W.right.mem k)
    (hp : W.Evaluates p p') : W.Evaluates (labelExpression name p) (labelExpression name p') := by
  refine fun L => .bindRealm ?_
  split
  · exact .syntaxError _
  · rename_i k hk
    obtain ⟨hleft, hright⟩ := hname k hk
    exact .bind hp.value fun _ _ hx => .pure (.value (hx.value.wrap ⟨hleft, hright, fun _ => rfl⟩))

/-- A label expression that is dropped on the second side. -/
lemma evaluates_dropped {name : String} {k : Label} (hk : W.realm.lattice.lookup? name = some k)
    (hleft : W.left.mem k) (hf : ¬W.faithful) (hp : W.Evaluates p p') :
    W.Evaluates (labelExpression name p) (sequence [p'] .undefined) := by
  refine fun L => .realmLeft ?_
  rw [hk]
  exact .bind hp.value fun _ _ hx => .pure (.value (hx.value.wrap_left hleft hf))

lemma paired_sequence (h : List.Forall₂ W.Evaluates ps ps') {v v' : Value} (hv : W.Values v v') :
    Paired W L (sequence ps v) (sequence ps' v') W.Operands := by
  induction h generalizing v v' with
  | nil => exact .pure (.value hv)
  | cons hp _ ih => exact .bind hp.value fun _ _ hx => ih hx.value

/-- Elements that correspond: holes, and actions that evaluate alike. -/
lemma paired_elementValues {es es' : List (Option (Action Operand))}
    (h : List.Forall₂ (Option.Rel W.Evaluates) es es') :
    Paired W L (elementValues es) (elementValues es') (List.Forall₂ W.Cells) := by
  induction h with
  | nil => exact .pure .nil
  | cons hp _ ih =>
    cases hp with
    | none => exact .bind ih fun _ _ hxs => .pure (.cons .absent hxs)
    | some hp =>
      exact .bind hp.value fun _ _ hx => .bind ih fun _ _ hxs => .pure (.cons (.inl hx.value) hxs)

/-- Members that correspond. -/
def World.MemberActions (W : World) (m m' : String × MemberKind × Action Operand) : Prop :=
  m'.1 = m.1 ∧ m'.2.1 = m.2.1 ∧ W.Evaluates m.2.2 m'.2.2

lemma paired_addMembers {o : Ref} (ho : W.fits o)
    {ms ms' : List (String × MemberKind × Action Operand)}
    (h : List.Forall₂ W.MemberActions ms ms') :
    Abreast W L (addMembers o ms) (addMembers o ms') := by
  induction h with
  | nil => exact .done _ _
  | @cons m m' _ _ hm _ ih =>
    obtain ⟨key, kind, value⟩ := m
    obtain ⟨key', kind', value'⟩ := m'
    obtain ⟨rfl, rfl, hvalue⟩ := hm
    exact .bind hvalue.value fun _ _ hx => .seq (paired_addMember ho _ _ hx) fun _ _ => ih

end

/-! ## Expressions -/

section

variable (W)

lemma World.rewrite_span (e : Script.Expr Span) (h : W.Allows (e.nodes true)) :
    (e.rebuild id W.rewrite).span = e.span := by
  cases e
  case label s name operand =>
    rw [Script.Expr.rebuild]
    obtain ⟨hkept, -⟩ | ⟨hdropped, -⟩ := W.rewrite_label (id s) name (operand.rebuild id W.rewrite)
      (W.named_of_allowed h.head)
    · rw [hkept]
      rfl
    · rw [hdropped]
      rfl
  case function fn =>
    rw [Script.Expr.rebuild, W.rewrite_other _ (by rintro s name operand ⟨⟩)]
    obtain ⟨s, n, ps, b, form, src⟩ := fn
    rfl
  all_goals
    rw [Script.Expr.rebuild, W.rewrite_other _ (by rintro s name operand ⟨⟩)]
    rfl

lemma World.rewrite_path : ∀ e : Script.Expr Span, W.Allows (e.nodes true) →
    path? (e.rebuild id W.rewrite) = path? e
  | .label s name operand, h => by
    rw [Script.Expr.rebuild]
    obtain ⟨hkept, -⟩ | ⟨hdropped, -⟩ := W.rewrite_label (id s) name (operand.rebuild id W.rewrite)
      (W.named_of_allowed h.head)
    · rw [hkept]
      rfl
    · rw [hdropped]
      rfl
  | .member s o p, h => by
    have hpath := World.rewrite_path o (Allows.append_iff.1 h.tail).1
    rw [Script.Expr.rebuild, W.rewrite_other _ (by rintro s name operand ⟨⟩), path?, path?, hpath]
    rfl
  | .ident _, _ | .number .., _ | .string .., _ | .bool .., _ | .null _, _ | .regexp .., _
  | .array .., _ | .object .., _ | .function _, _ | .this _, _ | .assign .., _ | .binary .., _
  | .logical .., _ | .unary .., _ | .update .., _ | .conditional .., _ | .sequence .., _
  | .call .., _ | .construct .., _ | .index .., _ => by
    rw [Script.Expr.rebuild, W.rewrite_other _ (by rintro s name operand ⟨⟩)]
    rfl

end

lemma World.kept {p : Action Operand} {e : Script.Expr Span}
    (he : ∀ s name operand, e ≠ .label s name operand) (h : W.Evaluates p e.action) :
    W.Evaluates p (W.rewrite e).action := by
  rw [W.rewrite_other e he]
  exact h

lemma World.Functions.of_nodes {fn : Script.Function Span} (h : W.Allows (fn.nodes true)) :
    W.Functions fn (fn.rebuild id W.rewrite) := by
  exact ⟨rfl, h⟩

mutual

/-- **The expression that becomes of an expression evaluates alike.** -/
theorem evaluates_expr : ∀ e : Script.Expr Span, W.Allows (e.nodes true) →
    W.Evaluates e.action (e.rebuild id W.rewrite).action
  | .ident i, _ => by
    rw [Expr.rebuild]
    exact World.kept (by rintro s n o ⟨⟩) fun L => .bind .placeOf fun _ _ h =>
      .pure (.place h .none)
  | .number _ x, _ => by
    rw [Expr.rebuild]
    exact World.kept (by rintro s n o ⟨⟩) fun L => .pure (.of_primitive rfl)
  | .string _ s, _ => by
    rw [Expr.rebuild]
    exact World.kept (by rintro s n o ⟨⟩) fun L => .pure (.of_primitive rfl)
  | .bool _ b, _ => by
    rw [Expr.rebuild]
    exact World.kept (by rintro s n o ⟨⟩) fun L => .pure (.of_primitive rfl)
  | .null _, _ => by
    rw [Expr.rebuild]
    exact World.kept (by rintro s n o ⟨⟩) fun L => .pure (.of_primitive rfl)
  | .regexp _ pattern flags, _ => by
    rw [Expr.rebuild]
    exact World.kept (by rintro s n o ⟨⟩) fun L => .bind (paired_newRegExp pattern flags)
      fun _ _ h => .pure (.of_refs h)
  | .array _ elements, h => by
    rw [Expr.rebuild]
    exact World.kept (by rintro s n o ⟨⟩) fun L =>
      .bind (paired_elementValues (evaluates_elements elements h.tail)) fun _ _ hvs =>
        .bind (paired_newArray hvs) fun _ _ ho => .pure (.of_refs ho)
  | .object _ members, h => by
    rw [Expr.rebuild]
    refine World.kept (by rintro s n o ⟨⟩) fun L => .bindRealm (.bind .pc fun _ _ hpc =>
      .bind (.make (.blank (by decide) (W.proto (by simp)) hpc)) fun o o' ho => ?_)
    obtain ⟨rfl, ho⟩ := ho
    exact .seq (paired_addMembers ho (evaluates_members members h.tail)) fun _ _ =>
      .pure (.of_refs ⟨rfl, ho⟩)
  | .function fn, h => by
    rw [Expr.rebuild]
    exact World.kept (by rintro s n o ⟨⟩) fun L => .bind (.functionExpression (.of_nodes h)
      fun scope _ _ hscope hpc => paired_newFunction (.of_nodes h) hscope hpc)
      fun _ _ ho => .pure (.of_refs ho)
  | .this _, _ => by
    rw [Expr.rebuild]
    exact World.kept (by rintro s n o ⟨⟩) fun L => .bind .control fun _ _ hc =>
      .pure (.value hc.this)
  | .assign _ op target value, h => by
    obtain ⟨ht, hv⟩ := Allows.append_iff.1 h.tail
    rw [Expr.rebuild]
    exact World.kept (by rintro s n o ⟨⟩)
      (evaluates_assignment _ h.head_voiced (evaluates_expr target ht) (evaluates_expr value hv))
  | .binary _ op left right, h => by
    obtain ⟨hl, hr⟩ := Allows.append_iff.1 h.tail
    rw [Expr.rebuild]
    exact World.kept (by rintro s n o ⟨⟩)
      (evaluates_binary h.head_voiced (evaluates_expr left hl) (evaluates_expr right hr))
  | .logical _ op left right, h => by
    obtain ⟨hl, hr⟩ := Allows.append_iff.1 h.tail
    rw [Expr.rebuild]
    exact World.kept (by rintro s n o ⟨⟩)
      (evaluates_logical _ _ h.head_voiced (evaluates_expr left hl) (evaluates_expr right hr))
  | .unary _ op operand, h => by
    rw [Expr.rebuild]
    exact World.kept (by rintro s n o ⟨⟩)
      (evaluates_unary _ h.head_voiced (evaluates_expr operand h.tail))
  | .update _ op before operand, h => by
    rw [Expr.rebuild]
    exact World.kept (by rintro s n o ⟨⟩)
      (evaluates_increment _ op before (evaluates_expr operand h.tail))
  | .conditional _ test yes no, h => by
    obtain ⟨htest, hno⟩ := Allows.append_iff.1 h.tail
    obtain ⟨htest, hyes⟩ := Allows.append_iff.1 htest
    rw [Expr.rebuild]
    exact World.kept (by rintro s n o ⟨⟩) (evaluates_conditional _ _ (evaluates_expr test htest)
      (evaluates_expr yes hyes) (evaluates_expr no hno))
  | .sequence _ items, h => by
    rw [Expr.rebuild]
    exact World.kept (by rintro s n o ⟨⟩) fun L =>
      paired_sequence (evaluates_exprs items h.tail) .undefined
  | .call _ callee args, h => by
    obtain ⟨hcallee, hargs⟩ := Allows.append_iff.1 h.tail
    rw [Expr.rebuild]
    refine World.kept (by rintro s n o ⟨⟩) ?_
    rw [Expr.action, Expr.action, World.rewrite_path W callee hcallee]
    exact evaluates_callExpression _ _ _ (evaluates_expr callee hcallee)
      (evaluates_exprs args hargs)
  | .construct _ callee args, h => by
    obtain ⟨hcallee, hargs⟩ := Allows.append_iff.1 h.tail
    rw [Expr.rebuild]
    refine World.kept (by rintro s n o ⟨⟩) ?_
    rw [Expr.action, Expr.action, World.rewrite_path W callee hcallee]
    exact evaluates_newExpression _ _ _ (evaluates_expr callee hcallee) (evaluates_exprs args hargs)
  | .member _ object property, h => by
    have hobject := (Allows.append_iff.1 h.tail).1
    rw [Expr.rebuild]
    refine World.kept (by rintro s n o ⟨⟩) fun L => ?_
    rw [Expr.action, Expr.action, World.rewrite_path W object hobject]
    exact .bind (evaluates_expr object hobject).value fun _ _ hx =>
      paired_propertyPlace _ hx.raw (.primitive rfl) hx.label
  | .index _ object key, h => by
    obtain ⟨hobject, hkey⟩ := Allows.append_iff.1 h.tail
    rw [Expr.rebuild]
    refine World.kept (by rintro s n o ⟨⟩) fun L => ?_
    rw [Expr.action, Expr.action, World.rewrite_path W object hobject]
    exact .bind (evaluates_expr object hobject).value fun _ _ hx =>
      .bind (evaluates_expr key hkey).value fun _ _ hy =>
        paired_propertyPlace _ hx.raw hy.raw (hx.label.join hy.label)
  | .label s name operand, h => by
    have hoperand := evaluates_expr operand h.tail
    rw [Expr.rebuild, Expr.action]
    obtain ⟨hkept, hname⟩ | ⟨hdropped, hf, k, hk, hleft⟩ := W.rewrite_label (id s) name
      (operand.rebuild id W.rewrite) (W.named_of_allowed h.head)
    · rw [hkept, Expr.action]
      exact evaluates_labelExpression hname hoperand
    · rw [hdropped, Expr.action]
      exact evaluates_dropped hk hleft hf hoperand

lemma evaluates_exprs : ∀ es : List (Script.Expr Span), W.Allows (nodesOfExprs true es) →
    List.Forall₂ W.Evaluates (actions es) (actions (rebuildExprs id W.rewrite es))
  | [], _ => by
    rw [rebuildExprs, actions]
    exact .nil
  | e :: es, h => by
    obtain ⟨he, hes⟩ := Allows.append_iff.1 h
    rw [rebuildExprs, actions, actions]
    exact .cons (evaluates_expr e he) (evaluates_exprs es hes)

lemma evaluates_elements : ∀ es : List (Option (Script.Expr Span)),
    W.Allows (nodesOfElements true es) → List.Forall₂ (Option.Rel W.Evaluates)
      (elementActions es) (elementActions (rebuildElements id W.rewrite es))
  | [], _ => by
    rw [rebuildElements, elementActions]
    exact .nil
  | e :: es, h => by
    obtain ⟨he, hes⟩ := Allows.append_iff.1 h
    rw [rebuildElements, elementActions, elementActions]
    exact .cons (evaluates_element e he) (evaluates_elements es hes)

lemma evaluates_element : ∀ e : Option (Script.Expr Span), W.Allows (nodesOfExpr? true e) →
    Option.Rel W.Evaluates (elementAction e) (elementAction (rebuildExpr? id W.rewrite e))
  | none, _ => by
    rw [rebuildExpr?, elementAction]
    exact .none
  | some e, h => by
    rw [rebuildExpr?, elementAction, elementAction]
    exact .some (evaluates_expr e h)

lemma evaluates_members : ∀ ms : List (Member Span), W.Allows (nodesOfMembers true ms) →
    List.Forall₂ W.MemberActions (memberActions ms) (memberActions (rebuildMembers id W.rewrite ms))
  | [], _ => by
    rw [rebuildMembers, memberActions]
    exact .nil
  | .mk key kind value :: ms, h => by
    obtain ⟨hvalue, hms⟩ := Allows.append_iff.1 h.tail
    rw [rebuildMembers, memberActions, memberActions]
    exact .cons ⟨rfl, rfl, evaluates_expr value hvalue⟩ (evaluates_members ms hms)

end

end Clearance
