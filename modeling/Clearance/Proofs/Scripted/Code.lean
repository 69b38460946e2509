/-
# Statements and activations are formed in these ways

What `Clearance.Proofs.Scripted.Eval` shows for expressions, shown for statements and for the
code of activations.
-/
import Clearance.Proofs.Run
import Clearance.Proofs.Scripted.Eval

namespace Clearance

open Clearance.Action Script

variable {site : Site} {W N : Nat → Prop}

/-! ## Statements -/

lemma neat_inOrder {ps : List (Action Completion)} (h : ∀ p ∈ ps, Neat site W N p) :
    Neat site W N (inOrder ps) := by
  induction ps with
  | nil => exact .done _
  | cons p ps ih =>
    rw [List.forall_mem_cons] at h
    exact .seq h.1 fun _ => .ite (fun _ => .done _) fun _ => ih h.2

/-- Freezing is built where everything may be written. -/
lemma neat_freeze (p : Place) : Neat site (fun _ => True) N (freeze p) := by
  unfold freeze
  split
  · exact .done _
  · refine .change trivial (fun obj => ?_) (fun obj _ h => ?_) (fun obj _ => ?_) fun obj h => ?_
    · split
      · exact Object.sameShell_define ..
      · exact .refl obj
    · split
      · exact h.freeze ‹_›
      · exact h
    · split
      · exact Object.Retains.freeze obj ‹_›
      · exact .refl obj _
    · split
      · rename_i hq
        exact h.redefine hq rfl
      · exact h

lemma neat_declareAt (line : Nat) (kind : VarKind) (p : Place) (r : Rated) :
    Neat site W N (declareAt line kind p r) :=
  .checked (.declareAt ..) <| .seq (neat_assign ..) fun _ =>
    .ite (fun _ => neat_freeze p) fun _ => .done _

lemma neat_initialise (kind : VarKind) {is : List Initialiser}
    (h : ∀ i ∈ is, Neat site W N i.value) : Neat site W N (initialise kind is) := by
  induction is with
  | nil => exact .done _
  | cons i is ih =>
    rw [List.forall_mem_cons] at h
    refine neat_guarded _ ?_ fun _ => ih h.2
    exact .seq (neat_placeOf _) fun _ => .seq (neat_valueOf h.1) fun _ =>
      neat_declareAt ..

lemma neat_functionStatement (fn : Script.Function Span) :
    Neat site W N (functionStatement fn) := by
  refine .ite (fun _ => .done _) fun _ => .current (fun _ _ => rfl) fun _ _ => ?_
  exact .seq (neat_newFunction ..) fun _ => .seq (neat_define _ rfl) fun _ => .done _

lemma neat_branchOn (line testLine : Nat) {test : Action Operand} {yes no : Action Completion}
    (ht : Neat site W N test) (hy : Neat site W N yes) (hn : Neat site W N no) :
    Neat site W N (branchOn line testLine test yes no) :=
  neat_guarded _ (neat_valueOf ht) fun _ =>
    lasting_controlled _ _ _ (.ite (fun _ => hy) fun _ => hn)

/-- The tests and the body of a case are formed in these ways. -/
structure CaseAction.Neat (site : Site) (W N : Nat → Prop) (c : CaseAction) : Prop where
  test : ∀ t, c.test = some t → Clearance.Neat site W N t.2
  body : Clearance.Neat site W N c.body

lemma neat_runCases {cases : List CaseAction} (h : ∀ c ∈ cases, c.Neat site W N) :
    Neat site W N (runCases cases) := by
  refine .seq (neat_inOrder fun p hp => ?_) fun _ => .done _
  obtain ⟨c, hc, rfl⟩ := List.mem_map.1 hp
  exact (h c hc).body

lemma neat_chooseCase (line : Nat) (value : Raw) {all rest : List CaseAction}
    (hall : ∀ c ∈ all, c.Neat site W N) (hrest : ∀ c ∈ rest, c.Neat site W N) :
    Neat site W N (chooseCase line value all rest) := by
  induction rest with
  | nil => exact neat_runCases fun c hc => hall c ((List.dropWhile_sublist _).mem hc)
  | cons c rest ih =>
    have hc := List.forall_mem_cons.1 hrest
    unfold chooseCase
    split
    · exact ih hc.2
    · rename_i testLine test htest
      refine neat_guarded _ (neat_valueOf (hc.1.test _ htest)) fun _ => ?_
      exact lasting_controlled _ _ _
        (.ite (fun _ => neat_runCases hrest) fun _ => ih hc.2)

lemma neat_switchOn (line valueLine : Nat) {value : Action Operand} {cases : List CaseAction}
    (hv : Neat site W N value) (h : ∀ c ∈ cases, c.Neat site W N) :
    Neat site W N (switchOn line valueLine value cases) :=
  neat_guarded _ (neat_valueOf hv) fun _ =>
    lasting_controlled _ _ _ (neat_chooseCase line _ h h)

/-- The program counter of the next round of a loop is not below the floor. -/
def Rising (site : Site) : Label ⊕ Completion → Prop :=
  Sum.elim (fun k => site.floor.leq k = true) fun _ => True

lemma lasting_pass {t : Test} (ht : Neat site W N t.action) (kind : String) (line : Nat) :
    Lasting site W N (t.pass kind line) (Rising site) := by
  refine .pass (neat_valueOf ht) (fun r _ => ?_) (fun f => ?_) fun _ => .andThen .fail
  · refine .bind (lasting_raisedPc ..) fun _ h => .ite (fun _ => .pure h) fun _ => .pure trivial
  · exact .seq (neat_completionOf ..) fun _ => .pure trivial

lemma lasting_passTest {t : Option Test} (ht : ∀ t' ∈ t, Neat site W N t'.action)
    (kind : String) (line : Nat) : Lasting site W N (passTest? t kind line) (Rising site) := by
  cases t with
  | none => exact .bind .pc fun _ h => .pure h
  | some t => exact lasting_pass (ht t rfl) kind line

lemma neat_repeated {round : Action (Label ⊕ Completion)}
    (h : Lasting site W N round (Rising site)) : Neat site W N (repeated round) :=
  .bind .pc fun _ hpc => .loop hpc fun _ hpc => lasting_withPc hpc h

lemma lasting_afterTest {step : Option Test} {body : Action Completion}
    (hb : Neat site W N body) (hs : ∀ t ∈ step, Neat site W N t.action) {pc : Label}
    (hpc : site.floor.leq pc = true) : Lasting site W N (afterTest body step pc) (Rising site) := by
  refine .seq hb fun c => ?_
  split
  · exact .pure trivial
  · split
    · exact .pure hpc
    · rename_i step
      refine .pass (neat_valueOf (hs step rfl)) (fun _ _ => .pure hpc) (fun f => ?_)
        fun _ => .andThen .fail
      exact .seq (neat_completionOf ..) fun _ => .pure trivial

lemma lasting_whileRound (kind : String) (line : Nat) {test step : Option Test}
    {body : Action Completion} (ht : ∀ t ∈ test, Neat site W N t.action)
    (hb : Neat site W N body) (hs : ∀ t ∈ step, Neat site W N t.action) :
    Lasting site W N (whileRound kind line test body step) (Rising site) := by
  refine .bind (lasting_passTest ht kind line) fun r hr => ?_
  split
  · exact .pure trivial
  · exact lasting_withPc hr (lasting_afterTest hb hs hr)

lemma neat_whileLoop (kind : String) (line : Nat) {test step : Option Test}
    {body : Action Completion} (ht : ∀ t ∈ test, Neat site W N t.action)
    (hb : Neat site W N body) (hs : ∀ t ∈ step, Neat site W N t.action) :
    Neat site W N (whileLoop kind line test body step) := by
  rw [whileLoop_eq]
  exact neat_repeated (lasting_whileRound kind line ht hb hs)

lemma lasting_doRound (line : Nat) {body : Action Completion} {test : Test}
    (hb : Neat site W N body) (ht : Neat site W N test.action) :
    Lasting site W N (doRound line body test) (Rising site) := by
  refine .seq hb fun c => ?_
  split
  · exact .pure trivial
  · exact lasting_pass ht ..

lemma neat_doLoop (line : Nat) {body : Action Completion} {test : Test}
    (hb : Neat site W N body) (ht : Neat site W N test.action) :
    Neat site W N (doLoop line body test) := by
  rw [doLoop_eq]
  exact neat_repeated (lasting_doRound line hb ht)

lemma neat_eachName (line : Nat) (o : Ref) (k : Label) {target : Action Operand}
    {body : Action Completion} (ht : Neat site W N target) (hb : Neat site W N body)
    (names : List String) : Neat site W N (eachName line o k target body names) := by
  induction names with
  | nil => exact .done _
  | cons name rest ih =>
    refine .seq (.look _) fun _ => .ite (fun _ => ?_) fun _ => ih
    refine neat_guarded _ (.seq ht fun operand => ?_) fun _ => .seq hb fun c => ?_
    · split
      · exact .fail
      · exact .seq (neat_assign ..) fun _ => .done _
    · split
      · exact .done _
      · exact ih

lemma neat_enumeration (line sourceLine : Nat) (path : Option String) (targetLine : Nat)
    {source target : Action Operand} {body : Action Completion} (hs : Neat site W N source)
    (ht : Neat site W N target) (hb : Neat site W N body) :
    Neat site W N (enumeration line sourceLine path source targetLine target body) := by
  refine neat_guarded _ (neat_valueOf hs) fun r => .realm (fun _ _ => rfl) fun _ => ?_
  refine .ite (fun _ => .done _) fun _ => neat_guarded _ (neat_toObject ..) fun o => ?_
  exact lasting_controlled _ _ _ (.seq (.look _) fun _ => neat_eachName _ _ _ ht hb _)

/-- The guard and the body of a catch clause are formed in these ways. -/
structure Clause.Neat (site : Site) (W N : Nat → Prop) (c : Clause) : Prop where
  guard : ∀ t ∈ c.guard, Clearance.Neat site W N t.action
  body : Clearance.Neat site W N c.body

lemma neat_clauseInside {c : Clause} (h : c.Neat site W N) (thrown : Value) :
    Neat site W N (c.inside thrown) := by
  refine .seq (neat_define _ rfl) fun _ => ?_
  split
  · exact .seq h.body fun _ => .done _
  · rename_i g hg
    refine .pass (neat_valueOf (h.guard g hg)) (fun r _ => ?_) (fun f => ?_)
      fun _ => .andThen .fail
    · exact .ite (fun _ => .seq h.body fun _ => .done _) fun _ => .done _
    · exact .seq (neat_completionOf ..) fun _ => .done _

lemma neat_runClause {c : Clause} (h : c.Neat site W N) (thrown : Value) :
    Neat site W N (c.run thrown) :=
  .bind (lasting_raisedPc ..) fun _ hpc => .current (fun _ _ => rfl) fun _ _ =>
    .seq (neat_newFrame _) fun _ => .region hpc (neat_clauseInside h thrown)

lemma neat_handle (thrown : Value) (line : Nat) {cs : List Clause}
    (h : ∀ c ∈ cs, c.Neat site W N) : Neat site W N (handle thrown line cs) := by
  induction cs with
  | nil => exact .done _
  | cons c cs ih =>
    rw [List.forall_mem_cons] at h
    refine .seq (neat_runClause h.1 thrown) fun r => ?_
    split
    · exact .done _
    · exact ih h.2

lemma neat_tryStatement {body : Action Completion} {cs : List Clause}
    {final : Option (Action Completion)} (hb : Neat site W N body)
    (hc : ∀ c ∈ cs, c.Neat site W N) (hf : ∀ p ∈ final, Neat site W N p) :
    Neat site W N (tryStatement body cs final) := by
  refine .seq hb fun c => ?_
  extract_lets finished
  have finish : ∀ c, Neat site W N (finished c) := by
    intro c
    cases final with
    | none => exact .done _
    | some final =>
      exact .seq (hf final rfl) fun _ => .ite (fun _ => .done _) fun _ => .done _
  split
  · exact .seq (neat_handle _ _ hc) finish
  · exact .seq (.done _) finish

lemma neat_withStatement (line objectLine : Nat) (path : Option String)
    {object : Action Operand} {body : Action Completion} (ho : Neat site W N object)
    (hb : Neat site W N body) :
    Neat site W N (withStatement line objectLine path object body) := by
  refine neat_guarded _ (neat_valueOf ho) fun r =>
    neat_guarded _ (neat_toObject ..) fun o => .bind (lasting_raisedPc ..) fun pc hpc => ?_
  refine .realm (fun _ _ => rfl) fun _ => .current (fun _ _ => rfl) fun _ _ => ?_
  extract_lets scope entered
  have enter : ∀ frame, Neat site W N (entered frame) :=
    fun frame => .seq (neat_addFrame _) fun _ => .region hpc hb
  refine .ite (fun _ => ?_) fun _ => ?_
  all_goals exact .seq (neat_newStore _) fun _ => .seq (.done _) enter

lemma neat_throwStatement (line valueLine : Nat) {value : Action Operand}
    (h : Neat site W N value) : Neat site W N (throwStatement line valueLine value) :=
  neat_guarded _ (neat_valueOf h) fun _ => .seq Lasting.pc.neat fun _ => .done _

lemma neat_initialisers (items : List (Declarator Span)) :
    ∀ i ∈ initialisers items, Neat site W N i.value := by
  intro i hi
  obtain ⟨d, -, hd⟩ := List.mem_filterMap.1 hi
  obtain ⟨span, id, init⟩ := d
  cases init with
  | none => simp at hd
  | some e =>
    rw [Option.some.injEq] at hd
    exact hd ▸ neat_expr e

lemma neat_enumTarget (target : Script.Stmt Span) {before : Action Completion} {line : Nat}
    {action : Action Operand} (h : enumTarget target = .place before line action) :
    Neat site W N before ∧ Neat site W N action := by
  unfold enumTarget at h
  split at h
  · split at h
    · cases h
    · cases h
      exact ⟨neat_initialise _ (neat_initialisers _), neat_expr _⟩
  · cases h
    exact ⟨.done _, neat_expr _⟩
  · cases h

lemma neat_testOf {e : Option (Script.Expr Span)} :
    ∀ t ∈ e.map testOf, Neat site W N t.action := by
  intro t ht
  obtain ⟨e, -, rfl⟩ := Option.map_eq_some_iff.1 ht
  exact neat_expr e

section

-- statements run inside an activation, which remembers the values of expression statements
variable (hrecording : site.recording = true)
include hrecording

set_option linter.unusedSectionVars false

mutual

/-- The action of every statement is formed in these ways. -/
theorem neat_stmt : ∀ s : Script.Stmt Span, Neat site W N s.action
  | .expr e => .expression hrecording (neat_valueOf (neat_expr e)) (neat_completionOf _)
  | .block b => neat_block b
  | .declare _ kind items => neat_initialise kind (neat_initialisers items)
  | .function _ fn => neat_functionStatement fn
  | .branch _ test yes no =>
    neat_branchOn _ _ (neat_expr test) (neat_stmt yes) (neat_alternative no)
  | .choose _ value cases => neat_switchOn _ _ (neat_expr value) (neat_cases cases)
  | .whileLoop _ test body =>
    neat_whileLoop _ _ (by rintro _ ⟨⟩; exact neat_expr test) (neat_stmt body)
      (by rintro _ ⟨⟩)
  | .doLoop _ body test => neat_doLoop _ (neat_stmt body) (neat_expr test)
  | .forLoop _ init _ _ body =>
    .seq (neat_init init) fun _ => .ite (fun _ => .done _) fun _ =>
      neat_whileLoop _ _ neat_testOf (neat_stmt body) neat_testOf
  | .forIn _ target source body => by
    rw [Script.Stmt.action]
    split
    · exact .fail
    · rename_i before line action h
      obtain ⟨hbefore, haction⟩ : Neat site W N before ∧ Neat site W N action :=
        neat_enumTarget target h
      refine .seq hbefore fun c => .ite (fun _ => .done _) fun _ => ?_
      exact neat_enumeration _ _ _ _ (neat_expr source) haction (neat_stmt body)
  | .breakTo .. => .done _
  | .continueTo .. => .done _
  | .giveBack _ none => .seq Lasting.pc.neat fun _ => .done _
  | .giveBack _ (some e) => neat_guarded _ (neat_valueOf (neat_expr e)) fun _ =>
      .seq Lasting.pc.neat fun _ => .done _
  | .raise _ value => neat_throwStatement _ _ (neat_expr value)
  | .guarded _ body handlers final =>
    neat_tryStatement (neat_block body) (neat_clauses handlers) (neat_final final)
  | .labeled _ _ body => .seq (neat_stmt body) fun _ => .done _
  | .within _ object body =>
    neat_withStatement _ _ _ (neat_expr object) (neat_stmt body)
  | .empty _ => .done _
  | .debugger _ => neat_completionOf ..

lemma neat_stmts : ∀ ss : List (Script.Stmt Span), ∀ p ∈ stmtActions ss, Neat site W N p
  | [] => by simp [stmtActions]
  | s :: ss => by
    rw [stmtActions, List.forall_mem_cons]
    exact ⟨neat_stmt s, neat_stmts ss⟩

lemma neat_block : ∀ b : Script.Block Span, Neat site W N b.action
  | .mk _ body => neat_inOrder (neat_stmts body)

lemma neat_alternative : ∀ s : Option (Script.Stmt Span), Neat site W N (alternative s)
  | none => .done _
  | some s => neat_stmt s

lemma neat_init : ∀ s : Option (Script.Stmt Span), Neat site W N (initAction s)
  | none => .done _
  | some s => neat_stmt s

lemma neat_final : ∀ b : Option (Script.Block Span), ∀ p ∈ finalAction b, Neat site W N p
  | none => by rintro _ ⟨⟩
  | some b => by rintro _ ⟨⟩; exact neat_block b

lemma neat_cases : ∀ cs : List (Case Span), ∀ c ∈ caseActions cs, c.Neat site W N
  | [] => by simp [caseActions]
  | c :: cs => by
    rw [caseActions, List.forall_mem_cons]
    exact ⟨neat_case c, neat_cases cs⟩

lemma neat_case : ∀ c : Case Span, (caseAction c).Neat site W N
  | .mk _ test body => by
    refine ⟨fun t ht => ?_, neat_inOrder (neat_stmts body)⟩
    obtain ⟨e, -, rfl⟩ := Option.map_eq_some_iff.1 ht
    exact neat_expr e

lemma neat_clauses : ∀ hs : List (Handler Span), ∀ c ∈ clauses hs, c.Neat site W N
  | [] => by simp [clauses]
  | h :: hs => by
    rw [clauses, List.forall_mem_cons]
    exact ⟨neat_clause h, neat_clauses hs⟩

lemma neat_clause : ∀ h : Handler Span, (clause h).Neat site W N
  | .mk _ _ _ body => ⟨neat_testOf, neat_block body⟩

end

end

/-! ## Activations -/

lemma neat_bindFunctions (permanent : Bool) (fns : List (Script.Function Span)) :
    Neat site W N (bindFunctions permanent fns) := by
  induction fns with
  | nil => exact .done _
  | cons fn fns ih =>
    exact .current (fun _ _ => rfl) fun _ _ => .seq (neat_newFunction ..) fun _ =>
      .seq (neat_define _ rfl) fun _ => ih

lemma neat_bindVars (permanent : Bool) (store : Ref) (vs : List HoistedVar) :
    Neat site W N (bindVars permanent store vs) := by
  induction vs with
  | nil => exact .done _
  | cons v vs ih =>
    refine .seq (.object _) fun _ => .ite (fun _ => .seq .fail fun _ => ?_) fun _ => ?_
    all_goals exact .ite (fun _ => .seq (neat_define _ rfl) fun _ => ih) fun _ => ih

lemma neat_instantiate (body : List (Script.Stmt Span)) :
    Neat site W N (instantiate body) :=
  .current (fun _ _ => rfl) fun _ _ => .seq (neat_bindFunctions ..) fun _ => .seq (.look _) fun _ =>
    neat_bindVars ..

lemma neat_runBody (hrecording : site.recording = true) (body : List (Script.Stmt Span)) :
    Neat site W N (runBody body) := by
  refine neat_guarded _ (neat_instantiate body) fun _ => ?_
  refine .seq (neat_inOrder (neat_stmts hrecording body)) fun c =>
    .current (fun _ _ => rfl) fun _ _ => ?_
  split
  · exact .fail
  · exact .fail
  · exact .ite (fun _ => .done _) fun _ => .fail
  · exact .done _

lemma neat_callClosure (f : Ref) (fn : Script.Function Span) (scope : Nat) (this : Value)
    (args : List Value) : Neat site W N (callClosure f fn scope this args) :=
  .enter (fun _ => neat_activate ..) fun _ h => neat_runBody h fn.body

lemma neat_constructClosure (f : Ref) (fn : Script.Function Span) (scope : Nat)
    (args : List Value) : Neat site W N (constructClosure f fn scope args) := by
  refine .seq (neat_getProperty ..) fun p => ?_
  extract_lets built
  have finish : ∀ proto, Neat site W N (built proto) := by
    intro proto
    refine .seq Lasting.pc.neat fun _ => ?_
    refine .seq (Lasting.create "Object" rfl (by decide) (.blank ..)).neat fun _ => ?_
    refine .seq (neat_callClosure ..) fun result => ?_
    split <;> exact .done _
  split
  · exact .seq (.done _) finish
  · exact .realm (fun _ _ => rfl) fun _ => .seq (.done _) finish

lemma neat_evalText (source : String) (k : Label) : Neat site W N (evalText source k) :=
  .enterText fun _ program _ _ h => neat_runBody h program.body

attribute [local irreducible] Script.parse in
lemma neat_functionFromTexts (texts : List String) (k : Label) :
    Neat site W N (functionFromTexts texts k) := by
  refine .current (fun _ _ => rfl) fun _ _ => ?_
  split
  · exact .fail
  · split
    · exact .seq (neat_newFunction ..) fun _ => .done _
    · exact .fail

lemma neat_runProgram (hfloor : site.floor = .none) (body : List (Script.Stmt Span))
    (file : String) : Neat site W N (runProgram body file) :=
  .enterScript hfloor fun _ h => neat_runBody h body

end Clearance
