/-
# The evaluator is formed in these ways

The actions of expressions and statements, of declarations and of activations are put together
in the ways of `Lasting`. The lemmas follow the definitions: one for each operation, given that
its operands are formed, and then one induction over the syntax trees.
-/
import Clearance.Proofs.Scripted.Access

namespace Clearance

open Clearance.Action Script

variable {site : Site} {W N : Nat → Prop} {α : Type}

/-! ## Flow -/

lemma neat_resolve (op : Operand) : Neat site W N op.resolve := by
  unfold Operand.resolve
  split
  · exact .done _
  · exact .seq (neat_cell _) fun _ => .seq (neat_partition _) fun _ => .done _

lemma neat_violate (line : Nat) (target : String) (source location : Label) :
    Neat site W N (violate line target source location : Action α) :=
  .seq (.trace _) fun _ => .current (fun _ _ => rfl) fun _ _ => .fail

lemma neat_location (p : Place) : Neat site W N p.location := by
  unfold Place.location
  split
  · exact .realm (fun _ _ => rfl) fun _ => .seq (.object _) fun _ => .done _
  · refine .seq (neat_partition _) fun _ => .seq (neat_peek _) fun cell => ?_
    split <;> exact .done _

/-- A write is built where everything may be written. -/
lemma neat_write (p : Place) (v : Value) : Neat site (fun _ => True) N (p.write v) := by
  unfold Place.write
  split
  · exact neat_putProperty trivial ..
  · exact .realm (fun _ _ => rfl) fun _ => neat_putProperty trivial ..

lemma neat_assign (line : Nat) (p : Place) (chosen : Label) (r : Rated) (declare : Bool) :
    Neat site W N (assign line p chosen r declare) := by
  refine .checked (.assign ..) ?_
  refine .seq (neat_location p) fun loc => .seq Lasting.pc.neat fun k => ?_
  refine .ite (fun _ => neat_violate ..) fun _ => .ite (fun _ => neat_violate ..) fun _ => ?_
  refine .ite (fun _ => .seq (.trace _) fun _ => ?_) fun _ => ?_
  all_goals exact .seq (neat_write ..) fun _ => .done _

/-- A region is never entered below the program counter. -/
lemma lasting_raisedPc (kind : String) (line : Nat) (k : Label) :
    Lasting site W N (raisedPc kind line k) fun k' => site.floor.leq k' = true := by
  refine .bind .pc fun pc hpc => .ite (fun _ => .pure hpc) fun _ => ?_
  have hjoin : site.floor.leq (pc.join k) = true := Label.leq_join_left _ hpc
  exact .ite (fun _ => .seq (.trace _) fun _ => .pure hjoin) fun _ => .pure hjoin

lemma lasting_withPc {Q : α → Prop} {pc : Label} {p : Action α} (hpc : site.floor.leq pc = true)
    (hp : Lasting site W N p Q) : Lasting site W N (withPc pc p) Q :=
  .current (fun _ _ => rfl) fun _ _ => .region hpc hp

lemma lasting_controlled {Q : α → Prop} (kind : String) (line : Nat) (k : Label) {p : Action α}
    (hp : Lasting site W N p Q) : Lasting site W N (controlled kind line k p) Q :=
  .bind (lasting_raisedPc ..) fun _ h => lasting_withPc h hp

lemma lasting_above {Q : α → Prop} (k : Label) {p : Action α} (hp : Lasting site W N p Q) :
    Lasting site W N (above k p) Q :=
  .current (fun _ _ => rfl) fun _ h => .region (Label.leq_join_left _ h.floor) hp

lemma neat_makeError (name message : String) (partition : Label) :
    Neat site W N (makeError name message partition) :=
  .realm (fun _ _ => rfl) fun _ =>
    (Lasting.create "Error" rfl (by decide) (.defineNamed (.blank ..) (by decide) _)).neat

lemma neat_completionOf (line : Nat) (f : Failure) :
    Neat site W N (completionOf line f) := by
  unfold completionOf
  split
  · exact .done _
  · exact .seq Lasting.pc.neat fun _ => .seq (neat_makeError ..) fun _ => .done _
  · exact .fail

lemma neat_guarded (line : Nat) {p : Action α} {k : α → Action Completion}
    (hp : Neat site W N p) (hk : ∀ a, Neat site W N (k a)) :
    Neat site W N (guarded line p k) :=
  .pass hp (fun a _ => hk a) (fun f => neat_completionOf line f) fun _ => .fail

lemma neat_forHost {p : Action α} (hp : Neat site W N p) : Neat site W N (forHost p) := by
  refine .pass hp (fun a _ => .done a) (fun f => ?_) fun _ => .fail
  split
  · exact .done _
  · exact .current (fun _ _ => rfl) fun _ _ => .seq (neat_makeError ..) fun _ => .fail
  · exact .fail

lemma neat_thrownText (v : Value) : Neat site W N (thrownText v) := by
  unfold thrownText
  dsimp only
  split
  · refine .seq (.object _) fun obj => .ite (fun _ => ?_) fun _ => ?_
    · exact .seq (neat_errorText _) fun _ => .done _
    · exact .seq (neat_inspect _) fun _ => .done _
  · exact .seq (neat_inspect _) fun _ => .done _

lemma neat_failureText (f : Failure) : Neat site W N f.text := by
  unfold Failure.text
  split
  · exact .seq (neat_thrownText _) fun _ => .done _
  all_goals exact .done _

/-! ## Functions and frames -/

lemma neat_newFunction (fn : Script.Function Span) (scope : Nat) (pc : Label) :
    Neat site W N (newFunction fn scope pc) := by
  refine .realm (fun _ _ => rfl) fun _ =>
    .bind (.create "Function" rfl (by decide) ?_) fun f hf => ?_
  · exact .defineNamed (.of_slots_eq_nil rfl) arrayIndex?_length _
  refine .seq (Lasting.create "Object" rfl (by decide) ?_).neat fun _ => ?_
  · exact .defineNamed (.blank ..) (by decide) _
  refine .seq (.changeOwn hf (fun _ => Object.sameShell_define ..) fun _ h => ?_) fun _ => .done _
  exact h.defineNamed (by decide) _

lemma neat_newStore (partition : Label) : Neat site W N (newStore partition) :=
  (Lasting.store rfl (.blank ..)).neat

lemma neat_addFrame (f : Frame) : Neat site W N (addFrame f) :=
  .note (fun _ => rfl) (fun _ => .push) fun _ => rfl

lemma neat_newFrame (parent : Nat) : Neat site W N (newFrame parent) :=
  .realm (fun _ _ => rfl) fun _ => .seq (neat_newStore _) fun _ => .seq (neat_newStore _) fun _ =>
    neat_addFrame _

lemma neat_bindIn (id : Nat) (name : String) (side : Side) :
    Neat site W N (changeFrame id (·.bind name side)) :=
  .note (fun _ => rfl) (fun _ => .modify fun f => f.links_bind name side) fun _ => rfl

lemma neat_placeOf (name : String) : Neat site W N (placeOf name) :=
  .current (fun _ _ => rfl) fun _ _ => .note (fun _ => rfl) (fun _ => .lookupWithin ..) fun _ => rfl

lemma neat_define (name : String) {p : Property} (hp : p.hidden = false) :
    Neat site W N (define name p) :=
  .whole (.define name hp) <| .checked (.define name p) <|
    .current (fun _ _ => rfl) fun c _ => .touch
    (fun s => ⟨((s.frames.get c.scope).store (Frame.sideAt c.pc)).id, fun o => o.define name _,
      trivial, Object.sameShell_define .., rfl, .inl trivial⟩)
    (fun _ => .set (Frame.links_bind ..)) fun _ => rfl

lemma neat_functionExpression (fn : Script.Function Span) :
    Neat site W N (functionExpression fn) := by
  refine .whole (.functionExpression fn) (.checked (.functionExpression fn) ?_)
  refine .current (fun _ _ => rfl) fun c _ => .ite
    (fun _ => (neat_newFunction ..).built) fun _ => ?_
  refine .seq (neat_newFrame _).built fun frame => .seq (neat_newFunction ..).built fun f => ?_
  refine .seq (.look _) fun store => .seq (.changeOther ⟨trivial, trivial⟩ fun _ => ?_) ?_
  · exact Object.sameShell_define ..
  exact fun _ => .seq (neat_bindIn ..).built fun _ => .done _

lemma sameShell_listed (args : List (Value × Nat)) (o : Object) :
    o.SameShell (args.foldl (fun o (v, i) => o.set (indexName i) v) o) := by
  induction args generalizing o with
  | nil => exact .refl o
  | cons arg args ih => exact (Object.sameShell_set ..).trans (ih _)

lemma listable_arguments (args : List (Value × Nat)) {o : Object} (h : o.Listable) :
    (args.foldl (fun o (v, i) => o.set (indexName i) v) o).Listable :=
  List.foldlRecOn args _ h fun _ ho _ _ => ho.set ..

lemma neat_newArguments (f : Ref) (args : List Value) (pc : Label) :
    Neat site W N (newArguments f args pc) := by
  refine .realm (fun _ _ => rfl) fun _ => ?_
  refine (Lasting.create "Arguments" (sameShell_listed args.zipIdx _).cls (by decide) ?_).neat
  exact ((listable_arguments _ (.blank ..)).defineNamed arrayIndex?_length _).defineNamed
    (by decide) _

lemma sameShell_bindings (bindings : List (String × Value)) (o : Object) :
    o.SameShell (bindings.foldl (fun o (name, v) => o.define name (permanentData v)) o) := by
  induction bindings generalizing o with
  | nil => exact .refl o
  | cons b bs ih => exact (Object.sameShell_define ..).trans (ih _)

lemma listable_bindings (bindings : List (String × Value)) {o : Object} (h : o.Listable) :
    (bindings.foldl (fun o (name, v) => o.define name (permanentData v)) o).Listable :=
  List.foldlRecOn bindings _ h fun _ ho _ _ => ho.defineShown rfl

lemma neat_activate (f : Ref) (fn : Script.Function Span) (scope : Nat) (args : List Value)
    (pc : Label) : Neat site W N (activate f fn scope args pc) := by
  refine .opening (.realm (fun _ _ => rfl) fun realm => ?_)
  refine .bind (.create "Activation" rfl (by decide) (.blank ..)) fun act hact => ?_
  extract_lets bound
  have finish : ∀ side, Trim site W N (bound side) := by
    intro side
    refine .seq (neat_newArguments ..).formed fun _ =>
      .seq (.changeOther hact (fun _ => ?_) fun _ h => ?_) fun _ => ?_
    · exact sameShell_bindings ..
    · exact listable_bindings _ h
    · exact (neat_addFrame _).formed
  refine .ite (fun _ => ?_) fun _ => ?_
  all_goals exact .seq (neat_newStore _).formed fun _ => .seq (.done _) finish

/-- A passed guard admits the object. -/
lemma lasting_guardWrite (o : Ref) (name : String) :
    Lasting site W N (guardWrite o name) fun _ => W o.id := by
  refine .guard (.seq Lasting.pc.neat fun _ => .seq (.object _) fun _ => ?_)
  exact .ite (fun _ => neat_violate ..) fun _ => .done _

lemma neat_newWrapper {cls : String} (hcls : cls ≠ "Array" ∧ cls ≠ "Activation") (proto : Nat)
    (primitive : Raw) : Neat site W N (newWrapper cls proto primitive) :=
  .seq Lasting.pc.neat fun _ => (Lasting.create cls rfl hcls (.of_slots_eq_nil rfl)).neat

/-- The elements of a new array may be written. -/
lemma built_newArray (elements : List Value) :
    Built site W (fun _ => True) (newArray elements) fun r => W r.id :=
  .realm (fun _ _ => rfl) fun _ => .seq Built.pc.ordinary fun _ =>
    .mono (.allocate (.inr fun _ => trivial)) fun _ h => h.1

lemma lasting_newArray (elements : List Value) :
    Lasting site W N (newArray elements) fun r => W r.id :=
  .whole (.newArray elements) (built_newArray elements)

lemma neat_newArray (elements : List Value) : Neat site W N (newArray elements) :=
  (lasting_newArray elements).neat

lemma neat_describe (path : Option String) (v : Raw) : Neat site W N (describe path v) := by
  unfold describe
  split
  · exact .done _
  · exact .ite (fun _ => .done _) fun _ => neat_inspect _

lemma neat_toObject (path : Option String) (v : Raw) : Neat site W N (toObject path v) := by
  refine .realm (fun _ _ => rfl) fun _ => ?_
  split
  · exact .done _
  · exact neat_newWrapper (by decide) ..
  · exact neat_newWrapper (by decide) ..
  · exact neat_newWrapper (by decide) ..
  · exact .seq (neat_describe ..) fun _ => .fail

/-! ## Operators -/

lemma neat_twoNumbers (left right : Raw) : Neat site W N (twoNumbers left right) :=
  .seq (neat_numberOf _) fun _ => .seq (neat_numberOf _) fun _ => .done _

lemma neat_addValues (left right : Raw) : Neat site W N (addValues left right) :=
  .seq (neat_toPrimitive ..) fun _ => .seq (neat_toPrimitive ..) fun _ =>
    .seq (.look _) fun _ => .ite (fun _ => .done _) fun _ => .done _

lemma neat_compareValues (op : BinaryOp) (left right : Raw) :
    Neat site W N (compareValues op left right) := by
  refine .seq (neat_toPrimitive ..) fun _ => .seq (neat_toPrimitive ..) fun _ => ?_
  split
  · exact .done _
  · exact .seq (.look _) fun _ => .done _

lemma neat_binaryOp (op : BinaryOp) (left right : Raw) :
    Neat site W N (binaryOp op left right) := by
  unfold binaryOp
  cases op with
  | add => exact neat_addValues ..
  | sub | mul | div | mod | bitAnd | bitOr | bitXor | shiftLeft | shiftRight | shiftRightZero =>
    exact .seq (neat_twoNumbers ..) fun _ => .done _
  | eq | ne => exact .seq (neat_looseEquals ..) fun _ => .done _
  | same | notSame => exact .done _
  | lt | gt | le | ge => exact neat_compareValues ..
  | isIn =>
    dsimp only
    split
    · exact .seq (neat_inspect _) fun _ => .fail
    · exact .seq (neat_stringOf _) fun _ => .seq (.look _) fun _ => .done _
  | instanceOf =>
    dsimp only
    split
    · exact .seq .invoke fun _ => .done _
    · exact .seq (neat_inspect _) fun _ => .fail
  | other text => exact .fail

/-! ## Expressions -/

lemma neat_valueOf {p : Action Operand} (hp : Neat site W N p) :
    Neat site W N (valueOf p) :=
  .seq hp fun _ => neat_resolve _

lemma neat_newRegExp (pattern flags : String) : Neat site W N (newRegExp pattern flags) := by
  unfold newRegExp
  split
  · exact .fail
  · dsimp only
    split
    · exact .fail
    · refine .realm (fun _ _ => rfl) fun _ => .seq Lasting.pc.neat fun _ =>
        (Lasting.create "RegExp" rfl (by decide) ?_).neat
      iterate 5 refine .defineNamed ?_ (by decide) _
      exact .of_slots_eq_nil rfl

lemma neat_addMember {o : Ref} (ho : W o.id ∧ N o.id) (key : String) (kind : MemberKind)
    (r : Rated) :
    Neat site W N (addMember o key kind r) := by
  refine .changeOwn ho (fun obj => ?_) fun obj h => ?_
  · dsimp only
    split <;> exact Object.sameShell_define ..
  · cases kind with
    | init => exact h.defineShown rfl
    | get | set =>
      dsimp only
      -- an accessor that is completed stays as visible as it was
      split
      · rename_i q hq
        split
        · exact h.redefine hq rfl
        · exact h.defineShown rfl
      · exact h.defineShown rfl

lemma neat_assignment (line : Nat) (op : AssignOp) {target value : Action Operand}
    (ht : Neat site W N target) (hv : Neat site W N value) :
    Neat site W N (assignment line op target value) := by
  refine .seq ht fun operand => ?_
  split
  · exact .fail
  · split
    · exact .seq (neat_valueOf hv) fun _ => .seq (neat_assign ..) fun _ => .done _
    · refine .seq (neat_resolve _) fun _ => .seq (neat_valueOf hv) fun _ => ?_
      exact .seq (neat_binaryOp ..) fun _ => .seq (neat_assign ..) fun _ => .done _

lemma neat_binary (op : BinaryOp) {left right : Action Operand} (hl : Neat site W N left)
    (hr : Neat site W N right) : Neat site W N (binary op left right) :=
  .seq (neat_valueOf hl) fun _ => .seq (neat_valueOf hr) fun _ =>
    .seq (neat_binaryOp ..) fun _ => .done _

lemma neat_logical (kind : String) (line : Nat) (op : LogicalOp) {left right : Action Operand}
    (hl : Neat site W N left) (hr : Neat site W N right) :
    Neat site W N (logical kind line op left right) := by
  refine .seq (neat_valueOf hl) fun l => ?_
  have rest : Neat site W N (controlled kind line l.label do
      let r ← valueOf right
      return Operand.value (r.raw.labeled (l.label.join r.label))) :=
    lasting_controlled _ _ _ (.seq (neat_valueOf hr) fun _ => .done _)
  cases op with
  | and => exact .ite (fun _ => rest) fun _ => .done _
  | or => exact .ite (fun _ => .done _) fun _ => rest
  | other text => exact .fail

lemma neat_conditional (kind : String) (line : Nat) {test yes no : Action Operand}
    (ht : Neat site W N test) (hy : Neat site W N yes) (hn : Neat site W N no) :
    Neat site W N (conditional kind line test yes no) := by
  refine .seq (neat_valueOf ht) fun t => lasting_controlled _ _ _ (.seq ?_ fun _ => .done _)
  exact neat_valueOf (.ite (fun _ => hy) fun _ => hn)

lemma neat_eraseAt (line : Nat) (p : Place) (chosen : Label) :
    Neat site W N (eraseAt line p chosen) := by
  refine .checked (.eraseAt ..) ?_
  unfold eraseAt
  split
  · exact .done _
  · rename_i o _
    refine .seq (neat_partition _) fun k => .seq (neat_peek _) fun cell => ?_
    refine .seq Lasting.pc.neat fun pc => .ite (fun _ => neat_violate ..) fun _ => ?_
    refine .seq (.touch (fun s => ?_) (fun _ => .refl _) fun _ => rfl) fun _ => .done _
    exact ⟨o.id, fun _ => ((s.heap.get o.id).delete p.name).2, trivial,
      Object.sameShell_delete .., rfl,
        .inr ⟨fun _ h => h.delete p.name, Object.Retains.delete _ p.name⟩,
      fun h => h.delete p.name⟩

lemma neat_deletion (line : Nat) {operand : Action Operand} (h : Neat site W N operand) :
    Neat site W N (deletion line operand) := by
  refine .seq h fun op => ?_
  split
  · exact .done _
  · exact neat_eraseAt ..

lemma neat_typeOf {operand : Action Operand} (h : Neat site W N operand) :
    Neat site W N (typeOf operand) := by
  refine .seq h fun op => ?_
  split
  · exact .done _
  · exact .seq (neat_resolve _) fun _ => .done _

lemma neat_unary (line : Nat) (op : UnaryOp) {operand : Action Operand}
    (h : Neat site W N operand) : Neat site W N (unary line op operand) := by
  unfold unary
  cases op with
  | typeOf => exact neat_typeOf h
  | delete => exact neat_deletion line h
  | void => exact .seq (neat_valueOf h) fun _ => .done _
  | not => exact .seq (neat_valueOf h) fun _ => .seq (.done _) fun _ => .done _
  | minus | plus | bitNot =>
    exact .seq (neat_valueOf h) fun _ => .seq (neat_numberOf _) fun _ =>
      .seq (.done _) fun _ => .done _
  | other text => exact .seq (neat_valueOf h) fun _ => .seq .fail fun _ => .done _

lemma neat_increment (line : Nat) (op : String) (before : Bool) {operand : Action Operand}
    (h : Neat site W N operand) : Neat site W N (increment line op before operand) := by
  refine .seq h fun target => ?_
  split
  · exact .fail
  · refine .seq (neat_resolve _) fun _ => .seq (neat_numberOf _) fun _ => ?_
    exact .seq (neat_assign ..) fun _ => .done _

lemma neat_propertyPlace (path : Option String) (obj key : Raw) (k : Label) :
    Neat site W N (propertyPlace path obj key k) :=
  .seq (neat_toObject ..) fun _ => .seq (neat_stringOf _) fun _ => .done _

lemma neat_valuesOf {ps : List (Action Operand)} (h : ∀ p ∈ ps, Neat site W N p) :
    Neat site W N (valuesOf ps) := by
  induction ps with
  | nil => exact .done _
  | cons p ps ih =>
    rw [List.forall_mem_cons] at h
    exact .seq (neat_valueOf h.1) fun _ => .seq (ih h.2) fun _ => .done _

lemma neat_receiverOf (op : Operand) : Neat site W N (receiverOf op) := by
  unfold receiverOf
  split
  · exact .seq (.object _) fun _ => .ite (fun _ => .done _) fun _ => .done _
  · exact .done _

lemma neat_callExpression (kind : String) (line : Nat) (path : Option String)
    {callee : Action Operand} {args : List (Action Operand)} (hc : Neat site W N callee)
    (ha : ∀ p ∈ args, Neat site W N p) :
    Neat site W N (callExpression kind line path callee args) := by
  refine .seq hc fun _ => .seq (neat_resolve _) fun _ => .seq (neat_valuesOf ha) fun _ => ?_
  split
  · exact .seq (neat_describe ..) fun _ => .fail
  · refine .seq (neat_receiverOf _) fun _ => ?_
    exact .seq (lasting_controlled _ _ _ (.call ..)) fun _ => .done _

lemma neat_newExpression (kind : String) (line : Nat) (path : Option String)
    {callee : Action Operand} {args : List (Action Operand)} (hc : Neat site W N callee)
    (ha : ∀ p ∈ args, Neat site W N p) :
    Neat site W N (newExpression kind line path callee args) := by
  refine .seq (neat_valueOf hc) fun _ => .seq (neat_valuesOf ha) fun _ => ?_
  refine .seq (.look _) fun _ => ?_
  split
  · exact .seq (lasting_controlled _ _ _ .invoke) fun _ => .done _
  · exact .seq (neat_describe ..) fun _ => .fail

lemma neat_labelExpression (name : String) {operand : Action Operand}
    (h : Neat site W N operand) : Neat site W N (labelExpression name operand) := by
  refine .realm (fun _ _ => rfl) fun _ => ?_
  split
  · exact .fail
  · exact .seq (neat_valueOf h) fun _ => .done _

lemma neat_sequence {ps : List (Action Operand)} (h : ∀ p ∈ ps, Neat site W N p) (v : Value) :
    Neat site W N (sequence ps v) := by
  induction ps generalizing v with
  | nil => exact .done _
  | cons p ps ih =>
    rw [List.forall_mem_cons] at h
    exact .seq (neat_valueOf h.1) fun _ => ih h.2 _

lemma neat_elementValues {ps : List (Option (Action Operand))}
    (h : ∀ p, some p ∈ ps → Neat site W N p) : Neat site W N (elementValues ps) := by
  induction ps with
  | nil => exact .done _
  | cons p ps ih =>
    have rest := ih fun q hq => h q (List.mem_cons_of_mem _ hq)
    cases p with
    | none => exact .seq rest fun _ => .done _
    | some p =>
      exact .seq (neat_valueOf (h p List.mem_cons_self)) fun _ => .seq rest fun _ => .done _

lemma neat_addMembers {o : Ref} (ho : W o.id ∧ N o.id)
    {ms : List (String × MemberKind × Action Operand)}
    (h : ∀ m ∈ ms, Neat site W N m.2.2) : Neat site W N (addMembers o ms) := by
  induction ms with
  | nil => exact .done _
  | cons m ms ih =>
    rw [List.forall_mem_cons] at h
    exact .seq (neat_valueOf h.1) fun _ => .seq (neat_addMember ho ..) fun _ => ih h.2

mutual

/-- The action of every expression is formed in these ways. -/
theorem neat_expr : ∀ e : Script.Expr Span, Neat site W N e.action
  | .ident _ => .seq (neat_placeOf _) fun _ => .done _
  | .number .. => .done _
  | .string .. => .done _
  | .bool .. => .done _
  | .null _ => .done _
  | .regexp .. => .seq (neat_newRegExp ..) fun _ => .done _
  | .array _ elements =>
    .seq (neat_elementValues (neat_elements elements)) fun _ =>
      .seq (neat_newArray _) fun _ => .done _
  | .object _ members =>
    .realm (fun _ _ => rfl) fun _ => .seq Lasting.pc.neat fun _ =>
      .bind (.create "Object" rfl (by decide) (.blank ..)) fun _ ho =>
      .seq (neat_addMembers ho (neat_members members)) fun _ => .done _
  | .function fn => .seq (neat_functionExpression fn) fun _ => .done _
  | .this _ => .current (fun _ _ => rfl) fun _ _ => .done _
  | .assign _ _ target value => neat_assignment _ _ (neat_expr target) (neat_expr value)
  | .binary _ _ left right => neat_binary _ (neat_expr left) (neat_expr right)
  | .logical _ _ left right => neat_logical _ _ _ (neat_expr left) (neat_expr right)
  | .unary _ _ operand => neat_unary _ _ (neat_expr operand)
  | .update _ _ _ operand => neat_increment _ _ _ (neat_expr operand)
  | .conditional _ test yes no =>
    neat_conditional _ _ (neat_expr test) (neat_expr yes) (neat_expr no)
  | .sequence _ items => neat_sequence (neat_exprs items) _
  | .call _ callee args =>
    neat_callExpression _ _ _ (neat_expr callee) (neat_exprs args)
  | .construct _ callee args =>
    neat_newExpression _ _ _ (neat_expr callee) (neat_exprs args)
  | .member _ object _ =>
    .seq (neat_valueOf (neat_expr object)) fun _ => neat_propertyPlace ..
  | .index _ object key =>
    .seq (neat_valueOf (neat_expr object)) fun _ =>
      .seq (neat_valueOf (neat_expr key)) fun _ => neat_propertyPlace ..
  | .label _ _ operand => neat_labelExpression _ (neat_expr operand)

lemma neat_exprs : ∀ es : List (Script.Expr Span), ∀ p ∈ actions es, Neat site W N p
  | [] => by simp [actions]
  | e :: es => by
    rw [actions, List.forall_mem_cons]
    exact ⟨neat_expr e, neat_exprs es⟩

lemma neat_elements : ∀ es : List (Option (Script.Expr Span)),
    ∀ p, some p ∈ elementActions es → Neat site W N p
  | [] => by simp [elementActions]
  | e :: es => by
    intro p hp
    rw [elementActions, List.mem_cons] at hp
    rcases hp with hp | hp
    · exact neat_element e p hp.symm
    · exact neat_elements es p hp

lemma neat_element : ∀ (e : Option (Script.Expr Span)) (p : Action Operand),
    elementAction e = some p → Neat site W N p
  | none, p, h => by simp [elementAction] at h
  | some e, p, h => by
    rw [elementAction, Option.some.injEq] at h
    exact h ▸ neat_expr e

lemma neat_members : ∀ ms : List (Member Span),
    ∀ m ∈ memberActions ms, Neat site W N m.2.2
  | [] => by simp [memberActions]
  | m :: ms => by
    rw [memberActions, List.forall_mem_cons]
    exact ⟨neat_member m, neat_members ms⟩

lemma neat_member : ∀ m : Member Span, Neat site W N (memberAction m).2.2
  | .mk _ _ value => neat_expr value

end

end Clearance
