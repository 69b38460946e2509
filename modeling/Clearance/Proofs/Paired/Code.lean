/-
# Statements and activations side by side

What `Clearance.Proofs.Paired.Eval` shows for expressions, shown for statements and for the code of
activations. Declarations stay where they are when label expressions are dropped, so both sides bind
the same names in the same order.
-/
import Clearance.Proofs.Paired.Eval
import Clearance.Proofs.Rebuild

namespace Clearance

open Clearance.Action Script World

/-! ## Declarations of rewritten code -/

namespace Script

lemma nodes_hoisted {α : Type} {ss : List (Stmt α)} :
    ∀ fn ∈ hoistedFunctions ss, fn.nodes true ⊆ nodesOfStmts true ss := by
  induction ss with
  | nil => rintro fn ⟨⟩
  | cons s ss ih =>
    intro fn hfn
    rw [nodesOfStmts]
    cases s
    case function s f =>
      rcases List.mem_cons.1 (show fn ∈ f :: hoistedFunctions ss from hfn) with rfl | hfn
      · exact List.subset_append_of_subset_left _ (List.subset_cons_self _ _)
      · exact List.subset_append_of_subset_right _ (ih fn hfn)
    all_goals exact List.subset_append_of_subset_right _ (ih fn hfn)

end Script

variable {W : World} {L : Ground}

/-! ## Statements -/

namespace World

/-- Two actions that finish alike. -/
def Finishes (W : World) (p p' : Action Completion) : Prop := ∀ L, Paired W L p p' W.Completions

/-- Initialisers that correspond. -/
structure Initialisers (W : World) (i i' : Initialiser) : Prop where
  line : i'.line = i.line
  name : i'.name = i.name
  value : W.Evaluates i.value i'.value

/-- Tests of loops that correspond. -/
structure Tests (W : World) (t t' : Test) : Prop where
  line : t'.line = t.line
  action : W.Evaluates t.action t'.action

/-- Cases of a switch that correspond. -/
structure CaseActions (W : World) (c c' : CaseAction) : Prop where
  test : Option.Rel (fun t t' => t'.1 = t.1 ∧ W.Evaluates t.2 t'.2) c.test c'.test
  body : W.Finishes c.body c'.body

/-- Catch clauses that correspond. -/
structure Clauses (W : World) (c c' : Clause) : Prop where
  line : c'.line = c.line
  param : c'.param = c.param
  guard : Option.Rel W.Tests c.guard c'.guard
  body : W.Finishes c.body c'.body

/-- What remains of completions outside a round of a loop. -/
def Rounds (W : World) : Option Completion → Option Completion → Prop := Option.Rel W.Completions

namespace Completions

variable {c c' : Completion}

lemma isAbrupt (h : W.Completions c c') : c'.isAbrupt = c.isAbrupt := by
  cases h <;> rfl

lemma outward (h : W.Completions c c') : W.Completions c.outward c'.outward := by
  cases h with
  | normal => exact .normal
  | leave target => exact .leave _
  | resume target => exact .resume _
  | returned hv => exact .returned hv
  | thrown line hv => exact .thrown line hv

lemma afterBreak (h : W.Completions c c') : W.Completions c.afterBreak c'.afterBreak := by
  cases h with
  | normal => exact .normal
  | leave target =>
    unfold Completion.afterBreak
    split
    · exact .normal
    · exact .leave _
  | resume target => exact .resume _
  | returned hv => exact .returned hv
  | thrown line hv => exact .thrown line hv

lemma afterRound (h : W.Completions c c') : W.Rounds c.afterRound c'.afterRound := by
  have hafter := h.afterBreak
  cases h with
  | normal => exact .none
  | leave target => exact .some hafter
  | resume target =>
    rcases target with _ | _ | n
    · exact .some hafter
    · exact .none
    · exact .some hafter
  | returned hv => exact .some hafter
  | thrown line hv => exact .some hafter

end Completions
end World

/-- Whether a loop goes on. -/
abbrev World.Passes (W : World) : Label ⊕ Completion → Label ⊕ Completion → Prop :=
  Sum.LiftRel W.Labels W.Completions

section

variable {p p' q q' : Action Operand} {b b' c c' : Action Completion}

lemma paired_inOrder {ps ps' : List (Action Completion)} (h : List.Forall₂ W.Finishes ps ps') :
    W.Finishes (inOrder ps) (inOrder ps') := by
  intro L
  induction h with
  | nil => exact .pure .normal
  | cons hp _ ih =>
    exact .bind (hp L) fun x x' hx => .ite (by rw [hx.isAbrupt]) (fun _ => .pure hx) fun _ => ih

lemma paired_freeze {pl pl' : Place} (hpl : W.Places pl pl') :
    Abreast W L (freeze pl) (freeze pl') := by
  cases hpl with
  | unbound name => exact .done _ _
  | binding hpartner => exact .freeze hpartner
  | @member o name ho =>
    refine .change (W.fits_object ho) (fun obj => ?_) fun obj obj' hobj => ?_
    · dsimp only
      split
      · exact Object.sameShell_define ..
      · exact .refl obj
    · rcases hobj.own? name with ⟨hn, hn'⟩ | ⟨x, x', hx, hx', hxx⟩
      · rw [hn, hn']
        exact hobj
      · rw [hx, hx']
        exact hobj.define hxx.withReadOnly

lemma paired_initialise (kind : VarKind) {is is' : List Initialiser}
    (h : List.Forall₂ W.Initialisers is is') :
    W.Finishes (initialise kind is) (initialise kind is') := by
  intro L
  induction h with
  | nil => exact .pure .normal
  | @cons i i' _ _ hi _ ih =>
    obtain ⟨line, name, value⟩ := i
    obtain ⟨line', name', value'⟩ := i'
    obtain ⟨rfl, rfl, hvalue⟩ := hi
    refine paired_guarded _ (R := fun _ _ => True) ?_ fun _ _ _ => ih
    refine .bind .placeOf fun pl pl' hpl => .bind (World.Evaluates.value hvalue) fun r r' hr => ?_
    refine .seq (.abreast (paired_assign _ hpl .none hr true)) fun _ _ => ?_
    exact .ite' (fun _ => paired_freeze hpl) fun _ => .done _ _

lemma World.Bindings.of_refs {f f' : Ref} (h : W.Refs f f') (permanent : Bool) :
    W.Bindings { Property.data (Raw.object f) with permanent }
      { Property.data (Raw.object f') with permanent } :=
  ⟨_, _, permanent, .object h, rfl, rfl⟩

lemma paired_functionStatement {fn fn' : Script.Function Span} (h : W.Functions fn fn') :
    W.Finishes (functionStatement fn) (functionStatement fn') := by
  intro L
  have hform : fn'.form = fn.form := by rw [h.code, Script.Function.rebuild_form]
  have hname : fn'.name = fn.name := by rw [h.code, Script.Function.rebuild_name]
  unfold functionStatement
  rw [hform, hname]
  refine .ite' (fun _ => .pure .normal) fun _ => .bind .control fun c c' hc => ?_
  rw [hc.scope]
  exact .bind (paired_newFunction h hc.scope_frame hc.pc) fun f f' hf =>
    .seq (.define (.of_refs hf false)) fun _ _ => .pure .normal

lemma paired_branchOn (line testLine : Nat) (hp : W.Evaluates p p') (hb : W.Finishes b b')
    (hc : W.Finishes c c') :
    W.Finishes (branchOn line testLine p b c) (branchOn line testLine p' b' c') :=
  fun L => paired_guarded _ hp.value fun t t' ht => .controlled ht.label
    (.ite (by rw [ht.raw.same]) (fun _ => hb L) fun _ => hc L)

lemma paired_runCases {cs cs' : List CaseAction} (h : List.Forall₂ W.CaseActions cs cs') :
    W.Finishes (runCases cs) (runCases cs') := by
  have hbodies : List.Forall₂ W.Finishes (cs.map CaseAction.body) (cs'.map CaseAction.body) := by
    induction h with
    | nil => exact .nil
    | cons hc _ ih => exact .cons hc.body ih
  exact fun L => .bind (paired_inOrder hbodies L) fun _ _ hx => .pure hx.afterBreak

lemma dropTests {cs cs' : List CaseAction} (h : List.Forall₂ W.CaseActions cs cs') :
    List.Forall₂ W.CaseActions (cs.dropWhile fun c => c.test.isSome)
      (cs'.dropWhile fun c => c.test.isSome) := by
  induction h with
  | nil => exact .nil
  | @cons c c' cs cs' hc hrest ih =>
    have htest := hc.test
    rw [List.dropWhile_cons, List.dropWhile_cons]
    generalize hx : c.test = x at htest
    generalize hx' : c'.test = x' at htest
    cases htest with
    | none => exact .cons hc hrest
    | some => exact ih

lemma paired_chooseCase (line : Nat) {v v' : Raw} (hv : W.Raws v v')
    {all all' cs cs' : List CaseAction}
    (hall : List.Forall₂ W.CaseActions all all') (h : List.Forall₂ W.CaseActions cs cs') :
    W.Finishes (chooseCase line v all cs) (chooseCase line v' all' cs') := by
  intro L
  obtain rfl : v' = v := hv.same
  induction h with
  | nil => exact paired_runCases (dropTests hall) L
  | @cons c c' cs cs' hc hrest ih =>
    have htest := hc.test
    unfold chooseCase
    generalize hx : c.test = x at htest
    generalize hx' : c'.test = x' at htest
    cases htest with
    | none => exact ih
    | @some t t' ht =>
      obtain ⟨testLine, test⟩ := t
      obtain ⟨testLine', test'⟩ := t'
      obtain ⟨rfl, htest⟩ := ht
      refine paired_guarded _ (World.Evaluates.value htest) fun t t' ht => .controlled ht.label ?_
      rw [ht.raw.same]
      exact .ite' (fun _ => paired_runCases (.cons hc hrest) L) fun _ => ih

lemma paired_switchOn (line valueLine : Nat) (hp : W.Evaluates p p') {cs cs' : List CaseAction}
    (h : List.Forall₂ W.CaseActions cs cs') :
    W.Finishes (switchOn line valueLine p cs) (switchOn line valueLine p' cs') :=
  fun L => paired_guarded _ hp.value fun _ _ hv => .controlled hv.label
    (paired_chooseCase line hv.raw h h L)

/-! ## Loops -/

lemma paired_pass {t t' : Test} (h : W.Tests t t') (kind : String) (line : Nat) :
    Paired W L (t.pass kind line) (t'.pass kind line) W.Passes := by
  obtain ⟨testLine, action⟩ := t
  obtain ⟨testLine', action'⟩ := t'
  obtain ⟨rfl, haction⟩ := h
  refine .bind (.attempt (World.Evaluates.value haction)) fun r r' hr => ?_
  cases hr with
  | error hf => exact .bind (paired_completionOf _ hf) fun _ _ hc => .pure (.inr hc)
  | ok hr =>
    refine .bind (.raisedPc hr.label) fun pc pc' hpc => ?_
    exact .ite (by rw [hr.raw.same]) (fun _ => .pure (.inl hpc)) fun _ => .pure (.inr .normal)

lemma paired_passTest {t t' : Option Test} (h : Option.Rel W.Tests t t') (kind : String)
    (line : Nat) : Paired W L (passTest? t kind line) (passTest? t' kind line) W.Passes := by
  cases h with
  | none => exact .bind .pc fun _ _ hpc => .pure (.inl hpc)
  | some ht => exact paired_pass ht kind line

lemma paired_repeated {round round' : Action (Label ⊕ Completion)}
    (h : ∀ L, Paired W L round round' W.Passes) : W.Finishes (repeated round) (repeated round') :=
  fun L => .bind .pc fun _ _ hpc => .loop hpc fun _ _ hpc => .withPc hpc (h L)

lemma paired_afterTest (hb : W.Finishes b b') {step step' : Option Test}
    (hstep : Option.Rel W.Tests step step') {pc pc' : Label} (hpc : W.Labels pc pc') :
    Paired W L (afterTest b step pc) (afterTest b' step' pc') W.Passes := by
  refine .bind (hb L) fun x x' hx => ?_
  have hround := hx.afterRound
  generalize x.afterRound = y at hround
  generalize x'.afterRound = y' at hround
  cases hround with
  | some hy => exact .pure (.inr hy)
  | none =>
    cases hstep with
    | none => exact .pure (.inl hpc)
    | @some t t' ht =>
      obtain ⟨testLine, action⟩ := t
      obtain ⟨testLine', action'⟩ := t'
      obtain ⟨rfl, haction⟩ := ht
      refine .bind (.attempt (World.Evaluates.value haction)) fun r r' hr => ?_
      cases hr with
      | ok => exact .pure (.inl hpc)
      | error hf => exact .bind (paired_completionOf _ hf) fun _ _ hc => .pure (.inr hc)

lemma paired_whileLoop (kind : String) (line : Nat) {test test' step step' : Option Test}
    (htest : Option.Rel W.Tests test test') (hb : W.Finishes b b')
    (hstep : Option.Rel W.Tests step step') :
    W.Finishes (whileLoop kind line test b step) (whileLoop kind line test' b' step') := by
  rw [whileLoop_eq, whileLoop_eq]
  refine paired_repeated fun L => .bind (paired_passTest htest kind line) fun r r' hr => ?_
  cases hr with
  | inr hc => exact .pure (.inr hc)
  | inl hpc => exact .withPc hpc (paired_afterTest hb hstep hpc)

lemma paired_doLoop (line : Nat) (hb : W.Finishes b b') {t t' : Test} (ht : W.Tests t t') :
    W.Finishes (doLoop line b t) (doLoop line b' t') := by
  rw [doLoop_eq, doLoop_eq]
  refine paired_repeated fun L => .bind (hb L) fun x x' hx => ?_
  have hround := hx.afterRound
  generalize x.afterRound = y at hround
  generalize x'.afterRound = y' at hround
  cases hround with
  | some hy => exact .pure (.inr hy)
  | none => exact paired_pass ht _ line

lemma paired_eachName (line : Nat) {o : Ref} (ho : W.fits o) {k k' : Label}
    (hk : W.Labels k k') (hp : W.Evaluates p p') (hb : W.Finishes b b') (names : List String) :
    W.Finishes (eachName line o k p b names) (eachName line o k' p' b' names) := by
  intro L
  induction names with
  | nil => exact .pure .normal
  | cons name rest ih =>
    refine .bindEq (.lookEq fun s s' h => h.has (W.fits_object ho) name) fun present =>
      .ite' (fun _ => ?_) fun _ => ih
    refine paired_guarded _ (R := fun _ _ => True) (.bind (hp L) fun t t' ht => ?_) fun _ _ _ =>
      .bind (hb L) fun x x' hx => ?_
    · cases ht with
      | value => exact .referenceError _
      | place hpl hchosen =>
        have hname : W.Ratings ⟨.string name, k⟩ ⟨.string name, k'⟩ := ⟨.primitive rfl, hk⟩
        exact .seq (.abreast (paired_assign line hpl hchosen hname false)) fun _ _ => .done _ _
    · have hround := hx.afterRound
      generalize x.afterRound = y at hround
      generalize x'.afterRound = y' at hround
      cases hround with
      | some hy => exact .pure hy
      | none => exact ih

lemma paired_enumeration (line sourceLine : Nat) (path : Option String) (targetLine : Nat)
    (hp : W.Evaluates p p') (hq : W.Evaluates q q') (hb : W.Finishes b b') :
    W.Finishes (enumeration line sourceLine path p targetLine q b)
      (enumeration line sourceLine path p' targetLine q' b') := by
  refine fun L => paired_guarded _ hp.value fun r r' hr => .bindRealm ?_
  have hobject := paired_toObject (L := L) path hr.raw
  rw [hr.raw.same] at hobject ⊢
  refine .ite' (fun _ => .pure .normal) fun _ => paired_guarded _ hobject fun o o' ho => ?_
  obtain ⟨rfl, ho⟩ := ho
  refine .controlled hr.label
    (.bindEq (.lookEq fun s s' h => h.enumerable (W.fits_object ho)) fun names => ?_)
  exact paired_eachName targetLine ho hr.label hq hb names L

/-! ## Exceptions and scopes -/

lemma World.Bindings.of_values {v v' : Value} (h : W.Values v v') :
    W.Bindings (.data v) (.data v') := ⟨v, v', false, h, rfl, rfl⟩

lemma paired_inside {c c' : Clause} (h : W.Clauses c c') {v v' : Value} (hv : W.Values v v') :
    Paired W L (c.inside v) (c'.inside v') (Option.Rel W.Completions) := by
  obtain ⟨line, param, guard, body⟩ := c
  obtain ⟨line', param', guard', body'⟩ := c'
  obtain ⟨rfl, rfl, hguard, hbody⟩ := h
  dsimp only at hguard hbody
  refine .seq (.define (.of_values hv)) fun _ _ => ?_
  have hrun : Paired W L (body >>= fun x => Pure.pure (some x))
      (body' >>= fun x => Pure.pure (some x)) (Option.Rel W.Completions) :=
    .bind (hbody L) fun _ _ hx => .pure (.some hx)
  cases hguard with
  | none => exact hrun
  | @some g g' hg =>
    obtain ⟨testLine, action⟩ := g
    obtain ⟨testLine', action'⟩ := g'
    obtain ⟨rfl, haction⟩ := hg
    refine .bind (.attempt (World.Evaluates.value haction)) fun r r' hr => ?_
    cases hr with
    | error hf => exact .bind (paired_completionOf _ hf) fun _ _ hx => .pure (.some hx)
    | ok hr => exact .ite (by rw [hr.raw.same]) (fun _ => hrun) fun _ => .pure .none

lemma paired_runClause {c c' : Clause} (h : W.Clauses c c') {v v' : Value} (hv : W.Values v v') :
    Paired W L (c.run v) (c'.run v') (Option.Rel W.Completions) := by
  rw [Clause.run_eq, Clause.run_eq, h.line]
  refine .bind (.raisedPc hv.label) fun pc pc' hpc => .bind .control fun x x' hx => ?_
  rw [hx.scope]
  refine .bind (.newFrame hx.scope_frame) fun frame _ hframe => ?_
  obtain ⟨rfl, hframe⟩ := hframe
  exact .region hpc hframe (paired_inside h hv)

lemma paired_handle {v v' : Value} (hv : W.Values v v') (line : Nat) {cs cs' : List Clause}
    (h : List.Forall₂ W.Clauses cs cs') : W.Finishes (handle v line cs) (handle v' line cs') := by
  intro L
  induction h with
  | nil => exact .pure (.thrown line hv)
  | cons hc _ ih =>
    refine .bind (paired_runClause hc hv) fun r r' hr => ?_
    cases hr with
    | none => exact ih
    | some hx => exact .pure hx

lemma paired_tryStatement {cs cs' : List Clause} {final final' : Option (Action Completion)}
    (hb : W.Finishes b b') (hc : List.Forall₂ W.Clauses cs cs')
    (hf : Option.Rel W.Finishes final final') :
    W.Finishes (tryStatement b cs final) (tryStatement b' cs' final') := by
  refine fun L => .bind (hb L) fun x x' hx => ?_
  extract_lets finished finished'
  have hfinish : ∀ y y', W.Completions y y' → Paired W L (finished y) (finished' y')
      W.Completions := by
    intro y y' hy
    cases hf with
    | none => exact .pure hy
    | some hf =>
      exact .bind (hf L) fun z z' hz =>
        .ite (by rw [hz.isAbrupt]) (fun _ => .pure hz) fun _ => .pure hy
  cases hx with
  | thrown line hv => exact .bind (paired_handle hv line hc L) hfinish
  | normal => exact .bind (.pure .normal) hfinish
  | leave target => exact .bind (.pure (.leave target)) hfinish
  | resume target => exact .bind (.pure (.resume target)) hfinish
  | returned hv => exact .bind (.pure (.returned hv)) hfinish

lemma paired_withStatement (line objectLine : Nat) (path : Option String) (hp : W.Evaluates p p')
    (hb : W.Finishes b b') : W.Finishes (withStatement line objectLine path p b)
      (withStatement line objectLine path p' b') := by
  refine fun L => paired_guarded _ hp.value fun r r' hr =>
    paired_guarded _ (paired_toObject path hr.raw) fun o o' ho => ?_
  obtain ⟨rfl, ho⟩ := ho
  refine .bind (.raisedPc hr.label) fun pc pc' hpc => .bindRealm (.bind .control fun x x' hx => ?_)
  rw [hx.scope]
  exact .withFrame ho hpc hx.scope_frame fun id hid => .region hpc hid (hb L)

lemma paired_returnStatement (line : Nat) (hp : W.Evaluates p p') :
    W.Finishes (returnStatement line (some p)) (returnStatement line (some p')) :=
  fun _ => paired_guarded _ hp.value fun _ _ hr => .bind .pc fun _ _ hpc =>
    .pure (.returned (hr.value.wrap hpc))

lemma paired_throwStatement (line valueLine : Nat) (hp : W.Evaluates p p') :
    W.Finishes (throwStatement line valueLine p) (throwStatement line valueLine p') :=
  fun _ => paired_guarded _ hp.value fun _ _ hr => .bind .pc fun _ _ hpc =>
    .pure (.thrown line (hr.value.wrap hpc))

end

/-! ## Statements of rewritten code -/

lemma initialisers_rebuild (kind : VarKind) (items : List (Declarator Span))
    (h : W.Allows (nodesOfDeclarators true kind items)) :
    List.Forall₂ W.Initialisers (initialisers items)
      (initialisers (rebuildDeclarators id W.rewrite items)) := by
  induction items with
  | nil => exact .nil
  | cons d ds ih =>
    obtain ⟨s, i, init⟩ := d
    obtain ⟨hinit, hds⟩ := Allows.append_iff.1 h.tail.tail
    rw [rebuildDeclarators]
    cases init with
    | none => exact ih hds
    | some e => exact .cons ⟨rfl, rfl, evaluates_expr e hinit⟩ (ih hds)

lemma testOf_rebuild {e : Script.Expr Span} (h : W.Allows (e.nodes true)) :
    W.Tests (testOf e) (testOf (e.rebuild id W.rewrite)) :=
  ⟨by unfold testOf; rw [World.rewrite_span W e h], evaluates_expr e h⟩

lemma testOf?_rebuild {e : Option (Script.Expr Span)} (h : W.Allows (nodesOfExpr? true e)) :
    Option.Rel W.Tests (e.map testOf) ((rebuildExpr? id W.rewrite e).map testOf) := by
  cases e with
  | none => exact .none
  | some e => exact .some (testOf_rebuild h)

/-- Targets of enumerations that correspond. -/
inductive World.EnumTargets (W : World) : EnumTarget → EnumTarget → Prop
  | place {before before' : Action Completion} (line : Nat) {action action' : Action Operand} :
      W.Finishes before before' → W.Evaluates action action' →
      EnumTargets W (.place before line action) (.place before' line action')
  | invalid (message : String) : EnumTargets W (.invalid message) (.invalid message)

lemma enumTarget_ne_invalid {s : Script.Stmt Span} (h : s.takesKeys = true) {message : String} :
    enumTarget s ≠ .invalid message := by
  cases s
  case declare s kind items =>
    cases items with
    | nil => cases h
    | cons d ds =>
      cases d
      rintro ⟨⟩
  case expr e => rintro ⟨⟩
  all_goals cases h

lemma enumTarget_rebuild {s : Script.Stmt Span} (h : W.Allows (s.nodes true)) :
    W.EnumTargets (enumTarget s) (enumTarget (s.rebuild id W.rewrite)) := by
  cases s
  case declare sp kind items =>
    cases items with
    | nil => exact .invalid _
    | cons d ds =>
      obtain ⟨s, i, init⟩ := d
      exact .place _ (paired_initialise kind (initialisers_rebuild kind _ h.tail)) fun L =>
        .bind .placeOf fun _ _ hpl => .pure (.place hpl .none)
  case expr e =>
    rw [Stmt.rebuild, enumTarget, enumTarget, World.rewrite_span W e h]
    exact .place _ (fun L => .pure .normal) (evaluates_expr e h)
  all_goals
    rw [Stmt.rebuild]
    exact .invalid _

mutual

/-- **The statement that becomes of a statement finishes alike.** -/
theorem finishes_stmt : ∀ s : Script.Stmt Span, W.Allows (s.nodes true) →
    W.Finishes s.action (s.rebuild id W.rewrite).action
  | .expr e, h => fun L => by
    rw [Stmt.rebuild, Stmt.action, Stmt.action, World.rewrite_span W e h]
    exact paired_guarded _ (evaluates_expr e h).value fun r r' hr =>
      .seq (.setResult hr.value) fun _ _ => .pure .normal
  | .block b, h => finishes_block b h
  | .declare _ kind items, h => paired_initialise kind (initialisers_rebuild kind items h.tail)
  | .function _ fn, h => paired_functionStatement (.of_nodes h.tail)
  | .branch s test yes no, h => by
    obtain ⟨htest, hno⟩ := Allows.append_iff.1 h.tail
    obtain ⟨htest, hyes⟩ := Allows.append_iff.1 htest
    rw [Stmt.rebuild, Stmt.action, Stmt.action, World.rewrite_span W test htest]
    exact paired_branchOn _ _ (evaluates_expr test htest) (finishes_stmt yes hyes)
      (finishes_alternative no hno)
  | .choose s value cases, h => by
    obtain ⟨hvalue, hcases⟩ := Allows.append_iff.1 h.tail
    rw [Stmt.rebuild, Stmt.action, Stmt.action, World.rewrite_span W value hvalue]
    exact paired_switchOn _ _ (evaluates_expr value hvalue) (finishes_cases cases hcases)
  | .whileLoop s test body, h => by
    obtain ⟨htest, hbody⟩ := Allows.append_iff.1 h.tail
    rw [Stmt.rebuild, Stmt.action, Stmt.action]
    exact paired_whileLoop _ _ (.some (testOf_rebuild htest)) (finishes_stmt body hbody) .none
  | .doLoop s body test, h => by
    obtain ⟨hbody, htest⟩ := Allows.append_iff.1 h.tail
    rw [Stmt.rebuild, Stmt.action, Stmt.action]
    exact paired_doLoop _ (finishes_stmt body hbody) (testOf_rebuild htest)
  | .forLoop s init test step body, h => fun L => by
    obtain ⟨hinit, hbody⟩ := Allows.append_iff.1 h.tail
    obtain ⟨hinit, hstep⟩ := Allows.append_iff.1 hinit
    obtain ⟨hinit, htest⟩ := Allows.append_iff.1 hinit
    rw [Stmt.rebuild, Stmt.action, Stmt.action]
    refine .bind (finishes_init init hinit L) fun x x' hx =>
      .ite (by rw [hx.isAbrupt]) (fun _ => .pure hx.outward) fun _ => ?_
    exact paired_whileLoop _ _ (testOf?_rebuild htest) (finishes_stmt body hbody)
      (testOf?_rebuild hstep) L
  | .forIn s target source body, h => fun L => by
    obtain ⟨htarget, hbody⟩ := Allows.append_iff.1 h.tail
    obtain ⟨htarget, hsource⟩ := Allows.append_iff.1 htarget
    have hplace := enumTarget_rebuild htarget
    have hvalid (hlax : ¬W.lax) : ∀ message, enumTarget target ≠ .invalid message :=
      fun _ => enumTarget_ne_invalid (h.head_voiced hlax)
    rw [Stmt.rebuild, Stmt.action, Stmt.action, World.rewrite_path W source hsource,
      World.rewrite_span W source hsource]
    generalize enumTarget target = t at hplace hvalid
    generalize enumTarget (target.rebuild id W.rewrite) = t' at hplace
    cases hplace with
    | invalid message =>
      exact .fail (.internal (by_contra fun hlax => hvalid hlax message rfl) (.refl _))
    | place line hbefore haction =>
      refine .bind (hbefore L) fun x x' hx =>
        .ite (by rw [hx.isAbrupt]) (fun _ => .pure hx.outward) fun _ => ?_
      exact paired_enumeration _ _ _ _ (evaluates_expr source hsource) haction
        (finishes_stmt body hbody) L
  | .breakTo _ _ target, _ => fun _ => .pure (.leave target)
  | .continueTo _ _ target, _ => fun _ => .pure (.resume target)
  | .giveBack _ none, _ => fun _ => .bind .pc fun _ _ hpc =>
      .pure (.returned (Values.undefined.wrap hpc))
  | .giveBack _ (some e), h => by
    have hreturn := paired_returnStatement e.span.start.line (evaluates_expr e h.tail)
    nth_rewrite 2 [← World.rewrite_span W e h.tail] at hreturn
    exact hreturn
  | .raise _ value, h => by
    rw [Stmt.rebuild, Stmt.action, Stmt.action, World.rewrite_span W value h.tail]
    exact paired_throwStatement _ _ (evaluates_expr value h.tail)
  | .guarded _ body handlers final, h => by
    obtain ⟨hbody, hfinal⟩ := Allows.append_iff.1 h.tail
    obtain ⟨hbody, hhandlers⟩ := Allows.append_iff.1 hbody
    rw [Stmt.rebuild, Stmt.action, Stmt.action]
    exact paired_tryStatement (finishes_block body hbody) (finishes_clauses handlers hhandlers)
      (finishes_final final hfinal)
  | .labeled _ _ body, h => fun L => by
    rw [Stmt.rebuild, Stmt.action, Stmt.action]
    exact .bind (finishes_stmt body h.tail.tail L) fun _ _ hx => .pure hx.afterBreak
  | .within _ object body, h => by
    obtain ⟨hobject, hbody⟩ := Allows.append_iff.1 h.tail
    rw [Stmt.rebuild, Stmt.action, Stmt.action, World.rewrite_path W object hobject,
      World.rewrite_span W object hobject]
    exact paired_withStatement _ _ _ (evaluates_expr object hobject) (finishes_stmt body hbody)
  | .empty _, _ => fun _ => .pure .normal
  | .debugger _, _ => fun _ => paired_completionOf _ (.fault _ (.refl _))

lemma finishes_stmts : ∀ ss : List (Script.Stmt Span), W.Allows (nodesOfStmts true ss) →
    List.Forall₂ W.Finishes (stmtActions ss) (stmtActions (rebuildStmts id W.rewrite ss))
  | [], _ => by
    rw [rebuildStmts, stmtActions]
    exact .nil
  | s :: ss, h => by
    obtain ⟨hs, hss⟩ := Allows.append_iff.1 h
    rw [rebuildStmts, stmtActions, stmtActions]
    exact .cons (finishes_stmt s hs) (finishes_stmts ss hss)

lemma finishes_block : ∀ b : Script.Block Span, W.Allows (b.nodes true) →
    W.Finishes b.action (b.rebuild id W.rewrite).action
  | .mk _ body, h => by
    rw [Block.rebuild, Block.action, Block.action]
    exact paired_inOrder (finishes_stmts body h.tail)

lemma finishes_alternative : ∀ s : Option (Script.Stmt Span),
    W.Allows (nodesOfStmt? true s) →
    W.Finishes (alternative s) (alternative (rebuildStmt? id W.rewrite s))
  | none, _ => fun _ => .pure .normal
  | some s, h => finishes_stmt s h

lemma finishes_init : ∀ s : Option (Script.Stmt Span), W.Allows (nodesOfStmt? true s) →
    W.Finishes (initAction s) (initAction (rebuildStmt? id W.rewrite s))
  | none, _ => fun _ => .pure .normal
  | some s, h => finishes_stmt s h

lemma finishes_final : ∀ b : Option (Script.Block Span), W.Allows (nodesOfBlock? true b) →
    Option.Rel W.Finishes (finalAction b) (finalAction (rebuildBlock? id W.rewrite b))
  | none, _ => .none
  | some b, h => .some (finishes_block b h)

lemma finishes_cases : ∀ cs : List (Case Span), W.Allows (nodesOfCases true cs) →
    List.Forall₂ W.CaseActions (caseActions cs) (caseActions (rebuildCases id W.rewrite cs))
  | [], _ => by
    rw [rebuildCases, caseActions]
    exact .nil
  | .mk _ test body :: cs, h => by
    obtain ⟨htest, hcs⟩ := Allows.append_iff.1 h.tail
    obtain ⟨htest, hbody⟩ := Allows.append_iff.1 htest
    rw [rebuildCases, caseActions, caseActions]
    refine .cons ⟨?_, paired_inOrder (finishes_stmts body hbody)⟩ (finishes_cases cs hcs)
    cases test with
    | none => exact .none
    | some e =>
      refine .some ⟨?_, evaluates_expr e htest⟩
      dsimp only
      rw [World.rewrite_span W e htest]

lemma finishes_clauses : ∀ hs : List (Handler Span), W.Allows (nodesOfHandlers true hs) →
    List.Forall₂ W.Clauses (clauses hs) (clauses (rebuildHandlers id W.rewrite hs))
  | [], _ => by
    rw [rebuildHandlers, clauses]
    exact .nil
  | .mk _ param guard body :: hs, h => by
    obtain ⟨hguard, hhs⟩ := Allows.append_iff.1 h.tail.tail
    obtain ⟨hguard, hbody⟩ := Allows.append_iff.1 hguard
    rw [rebuildHandlers, clauses, clauses]
    exact .cons ⟨rfl, rfl, testOf?_rebuild hguard, finishes_block body hbody⟩
      (finishes_clauses hs hhs)

end

/-! ## Activations -/

lemma paired_bindFunctions (permanent : Bool) (fns : List (Script.Function Span))
    (h : ∀ fn ∈ fns, W.Allows (fn.nodes true)) :
    Abreast W L (bindFunctions permanent fns)
      (bindFunctions permanent (fns.map (·.rebuild id W.rewrite))) := by
  induction fns with
  | nil => exact .done _ _
  | cons fn fns ih =>
    obtain ⟨hfn, hfns⟩ := List.forall_mem_cons.1 h
    rw [List.map_cons]
    unfold bindFunctions
    rw [Script.Function.rebuild_name]
    refine .bind .control fun c c' hc => ?_
    rw [hc.scope]
    exact .bind (paired_newFunction (.of_nodes hfn) hc.scope_frame hc.pc) fun f f' hf =>
      .seq (.define (.of_refs hf permanent)) fun _ _ => ih hfns

section

variable {body : List (Script.Stmt Span)} (h : W.Allows (nodesOfStmts true body))
include h

lemma paired_instantiate :
    Abreast W L (instantiate body) (instantiate (rebuildStmts id W.rewrite body)) := by
  refine .instantiate (fun permanent => ?_) (hoistedVars_rebuild ..)
  rw [hoistedFunctions_rebuild]
  exact paired_bindFunctions permanent _ fun fn hfn node hnode =>
    h node (nodes_hoisted fn hfn hnode)

/-- The bodies of activations of a kind. Where there are no internal errors, what runs there is
known to end as it may. -/
lemma paired_runBody {kind : CodeKind} (hkind : kind ∈ L.kind)
    (hrunnable : ¬W.lax → Runnable (decide (kind = .function)) body) :
    Paired W L (runBody body) (runBody (rebuildStmts id W.rewrite body)) W.Completions := by
  refine paired_guarded _ (paired_instantiate h) fun _ _ _ => ?_
  have hends : Paired W L (inOrder (stmtActions body))
      (inOrder (stmtActions (rebuildStmts id W.rewrite body))) fun x x' =>
        W.Completions x x' ∧ (¬W.lax → x.Lands (decide (kind = .function)) []) :=
    .observed (paired_inOrder (finishes_stmts body h) L) fun serve fuel s x t hrun hlax =>
      lands_body (hrunnable hlax) serve fuel s x t hrun
  refine .bind hends fun x x' ⟨hx, hlands⟩ => .bind .current fun c c' ⟨hc, hkinds⟩ => ?_
  rw [hc.kind]
  cases hx with
  | normal => exact .pure .normal
  | leave target =>
    have hlax : W.lax := by_contra fun hlax => (hlands hlax).not_leave target rfl
    exact .fail (.internal hlax (.refl _))
  | resume target =>
    have hlax : W.lax := by_contra fun hlax => (hlands hlax).not_resume target rfl
    exact .fail (.internal hlax (.refl _))
  | thrown line hv => exact .pure (.thrown line hv)
  | returned hv =>
    refine .ite' (fun _ => .pure (.returned hv)) fun hnot => ?_
    rw [hkinds kind hkind] at hnot
    exact .fail (.internal (by_contra fun hlax => hnot (of_decide_eq_true (hlands hlax))) (.refl _))

/-- An activation of a body. -/
lemma paired_activation {entry entry' : Control} (hentry : W.Controls entry entry')
    (hrunnable : ¬W.lax → Runnable (decide (entry.kind = .function)) body) :
    Paired W L (activation entry (runBody body))
      (activation entry' (runBody (rebuildStmts id W.rewrite body)))
      fun r r' => W.Completions r.1 r'.1 ∧ W.Values r.2 r'.2 :=
  .activation hentry (paired_runBody h rfl hrunnable)

end

lemma paired_callClosure {f : Ref} (hf : W.fits f) {fn fn' : Script.Function Span}
    (hfn : W.Functions fn fn') {scope : Nat} (hscope : W.frame scope) {this this' : Value}
    (hthis : W.Values this this') {args args' : List Value}
    (hargs : List.Forall₂ W.Values args args') :
    Paired W L (callClosure f fn scope this args)
      (callClosure f fn' scope this' args') W.Values := by
  refine .enterFrame hfn hscope hargs (fun _ _ => paired_newArguments hf hargs)
    fun c c' frame hc hframe => ?_
  dsimp only
  rw [hc.depth, hc.realm, hc.realm_right]
  have hglobal : W.Values (Value.plain (.object ⟨W.realm.global, .plain⟩))
      (Value.plain (.object ⟨W.realm.global, .plain⟩)) :=
    .object ⟨rfl, W.fits_plain W.global_object⟩
  have hreceiver : W.Values
      (if this.raw.isAbsent || this.raw.isNullish
        then Value.plain (.object ⟨W.realm.global, .plain⟩) else this)
      (if this'.raw.isAbsent || this'.raw.isNullish
        then Value.plain (.object ⟨W.realm.global, .plain⟩) else this') := by
    rw [hthis.raw.same]
    split_ifs
    · exact hglobal
    · exact hthis
  have hbody : fn'.body = rebuildStmts id W.rewrite fn.body := by
    rw [hfn.code, Script.Function.rebuild_body]
  rw [hbody]
  refine .bind (paired_activation hfn.body ⟨rfl, hframe, ?_, hc.pc, hreceiver⟩
    fun hlax => .of_function (hfn.allowed.all_proper hlax)) ?_
  · rw [hc.rest]
  · rintro ⟨x, v⟩ ⟨x', v'⟩ ⟨hx, -⟩
    cases hx with
    | thrown line hv => exact .bind (paired_thrownFailure hv line) fun _ _ hf => .fail hf
    | returned hv => exact .pure hv
    | normal | leave | resume => exact .pure .undefined

lemma paired_constructClosure {f : Ref} (hf : W.fits f) {fn fn' : Script.Function Span}
    (hfn : W.Functions fn fn') {scope : Nat} (hscope : W.frame scope) {args args' : List Value}
    (hargs : List.Forall₂ W.Values args args') :
    Paired W L (constructClosure f fn scope args)
      (constructClosure f fn' scope args') W.Values := by
  refine .bind (paired_getProperty' hf (by decide)) fun p p' hp => ?_
  extract_lets built built'
  have hbuilt : ∀ proto, ¬W.store proto → Paired W L (built proto) (built' proto) W.Values := by
    intro proto hproto
    refine .bind .pc fun pc pc' hpc => .bind (.make (.blank (by decide)
      (by rintro _ ⟨⟩; exact hproto) hpc)) fun o o' ho => ?_
    refine .bind (paired_callClosure hf hfn hscope (.object ho) hargs) fun r r' hr => ?_
    obtain ⟨rfl, ho⟩ := ho
    rw [hr.raw.same]
    split
    · exact .pure hr
    · exact .pure (.labeled (.object ⟨rfl, ho⟩) hr.label)
  rw [hp.raw.same]
  split
  · rename_i o hraw
    exact .bind (R := fun x x' => x' = x ∧ ¬W.store x)
      (.pure ⟨rfl, W.fits_object (hp.raw.sound o hraw)⟩)
      fun x x' hx => hx.1 ▸ hbuilt x hx.2
  · exact .bindRealm (.bind (R := fun x x' => x' = x ∧ ¬W.store x)
      (.pure ⟨rfl, W.proto (by simp) _ rfl⟩) fun x x' hx => hx.1 ▸ hbuilt x hx.2)

/-- Scripts. -/
lemma paired_runProgram {body : List (Script.Stmt Span)} (h : W.Allows (nodesOfStmts true body))
    (hrunnable : ¬W.lax → Runnable false body) (file : String) : Paired W L (runProgram body file)
      (runProgram (rebuildStmts id W.rewrite body) file) W.Values := by
  refine .bind .control fun c c' hc => ?_
  dsimp only
  rw [hc.realm, hc.realm_right]
  have hglobal : W.Values (Value.plain (.object ⟨W.realm.global, .plain⟩))
      (Value.plain (.object ⟨W.realm.global, .plain⟩)) :=
    .object ⟨rfl, W.fits_plain W.global_object⟩
  refine .bind (paired_activation h ⟨rfl, W.global_frame, ?_, .bottom, hglobal⟩ hrunnable) ?_
  · rw [hc.rest]
  · rintro ⟨x, v⟩ ⟨x', v'⟩ ⟨hx, hv⟩
    cases hx with
    | thrown line hthrown => exact .fail (.thrown _ _ hthrown)
    | normal | leave | resume | returned => exact .pure hv

/-! ## Texts that are read -/

lemma paired_runText {c c' : Control} (hc : W.Controls c c') {body : List (Script.Stmt Span)}
    (h : W.Allows (nodesOfStmts true body)) (hrunnable : ¬W.lax → Runnable false body)
    {k k' : Label} (hk : W.Labels k k') :
    Paired W L (runText c body k) (runText c' (rebuildStmts id W.rewrite body) k') W.Values := by
  refine .noteLeft (.noteRight ?_)
  refine .bind (.attempt (paired_activation h
    ⟨hc.realm, hc.scope_frame, ?_, hc.pc.join hk, hc.this⟩ hrunnable)) ?_
  · rw [hc.rest]
  intro r r' hr
  cases hr with
  | error hf =>
    cases hf with
    | overflow depth => exact .fail (.fault _ (.refl _))
    | thrown file line hv => exact .fail (.thrown file line hv)
    | fault name hm => exact .fail (.fault name hm)
    | violation hl hr hv => exact .fail (.violation hl hr hv)
    | internal hlax hm => exact .fail (.internal hlax hm)
    | script e => exact .fail (.script e)
    | quit code => exact .fail (.quit code)
    | host ht => exact .fail (.host ht)
  | @ok a b hab =>
    obtain ⟨x, v⟩ := a
    obtain ⟨x', v'⟩ := b
    obtain ⟨hx, hresult⟩ := hab
    cases hx with
    | thrown line hv => exact .bind (paired_thrownFailure hv line) fun _ _ hf => .fail hf
    | normal | leave | resume | returned => exact .pure (hresult.wrap hk)

lemma paired_evalText (source : String) {k k' : Label} (hk : W.Labels k k') :
    Paired W L (evalText source k) (evalTextBy W.reader source k') W.Values := by
  refine .evalText fun hadmits => ?_
  rw [evalText_eq]
  refine .bind .control fun c c' hc => ?_
  rw [hc.depth, hc.realm, hc.realm_right, hc.file]
  refine .ite' (fun _ => .fail (.fault _ (.refl _))) fun _ => ?_
  rw [W.reader_eq]
  unfold Reader.usual
  cases hparse : Script.parse defaultIntrinsic c.file source 1 with
  | error e => exact .syntaxError _
  | ok program =>
    have hprogram := hadmits _ _ hparse
    exact paired_runText hc hprogram.tail (fun hlax => .of_program (hprogram.all_proper hlax)) hk

/-- A body that consists of a function is made from one. -/
lemma function_of_rebuild {body : List (Script.Stmt Span)} {fn' : Script.Function Span}
    (h : W.Allows (nodesOfStmts true body))
    (hbody : rebuildStmts id W.rewrite body = [.expr (.function fn')]) :
    ∃ fn, body = [.expr (.function fn)] := by
  rcases body with _ | ⟨s, _ | ⟨s', ss⟩⟩
  · rw [rebuildStmts] at hbody
    cases hbody
  · rw [rebuildStmts, rebuildStmts] at hbody
    have hstmt : s.rebuild id W.rewrite = .expr (.function fn') := List.singleton_inj.1 hbody
    cases s
    case expr e =>
      rw [Stmt.rebuild, Stmt.expr.injEq] at hstmt
      cases e
      case function fn => exact ⟨fn, rfl⟩
      case label s name operand =>
        rw [Expr.rebuild] at hstmt
        obtain ⟨hkept, -⟩ | ⟨hdropped, -⟩ := W.rewrite_label (id s) name
          (operand.rebuild id W.rewrite)
          (W.named_of_allowed (Allows.append_iff.1 h).1.head)
        · rw [hkept] at hstmt
          cases hstmt
        · rw [hdropped] at hstmt
          cases hstmt
      all_goals
        rw [Expr.rebuild, W.rewrite_other _ (by rintro s name operand ⟨⟩)] at hstmt
        cases hstmt
    all_goals
      rw [Stmt.rebuild] at hstmt
      cases hstmt
  · simp [rebuildStmts] at hbody

lemma paired_functionOf {c c' : Control} (hc : W.Controls c c') {body : List (Script.Stmt Span)}
    (h : W.Allows (nodesOfStmts true body)) {k k' : Label} (hk : W.Labels k k') :
    Paired W L (functionOf c body k) (functionOf c' (rebuildStmts id W.rewrite body) k')
      W.Values := by
  have hrealm : c'.realm = c.realm := by rw [hc.rest]
  have hframe : W.frame c.realm.globalFrame := by rw [hc.realm]; exact W.global_frame
  unfold functionOf
  by_cases hfunction : ∃ fn, body = [.expr (.function fn)]
  · obtain ⟨fn, rfl⟩ := hfunction
    rw [rebuildStmts, rebuildStmts, Stmt.rebuild, Expr.rebuild,
      W.rewrite_other _ (by rintro s name operand ⟨⟩), hrealm]
    exact .bind (paired_newFunction (.of_nodes (Allows.append_iff.1 h).1) hframe (hc.pc.join hk))
      fun f f' hf => .pure (.labeled (.object hf) hk)
  · split
    · exact absurd ⟨_, rfl⟩ hfunction
    · split
      · rename_i hbody
        exact absurd (function_of_rebuild h hbody) hfunction
      · exact .syntaxError _

lemma paired_functionFromTexts (texts : List String) {k k' : Label} (hk : W.Labels k k') :
    Paired W L (functionFromTexts texts k) (functionFromTextsBy W.reader texts k') W.Values := by
  refine .functionFromTexts fun hadmits => ?_
  rw [functionFromTexts_eq]
  refine .bind .control fun c c' hc => ?_
  rw [hc.file, W.reader_eq]
  unfold Reader.usual
  cases hparse : Script.parse defaultIntrinsic c.file (functionSource texts) 1 with
  | error e => exact .syntaxError _
  | ok program => exact paired_functionOf hc (hadmits _ _ hparse).tail hk

end Clearance
