/-
# Labels of results

An operation evaluates operands, and its result should carry at least their labels. `Operands` says
which operand values an expression evaluates, with their effective labels: the label of the value or
of the choice of its place, the label of the cell, and the partition of the object. The label of the
result ranks exactly with the join of the labels that the rule of the expression takes together
(`height_of_operands`), so it dominates each of them.

Two rules pass over an operand. A test for instances forgets its right operand, and a deletion
forgets what it deletes; what they forget only shows in the result when it is not above what they
keep.
-/
import Clearance.Proofs.Location

namespace Clearance

open Clearance.Action Script

/-! ## Joins of several labels -/

namespace Label

lemma height_joinAll_one (k : Label) : (joinAll [k]).height = k.height := by
  have hk := one_le_height k
  rw [joinAll, List.foldl_cons, List.foldl_nil, height_join, height_none]
  omega

lemma height_joinAll_two (k l : Label) : (joinAll [k, l]).height = max k.height l.height := by
  have hk := one_le_height k
  rw [joinAll, List.foldl_cons, List.foldl_cons, List.foldl_nil, height_join, height_join,
    height_none]
  omega

lemma leq_foldl_join {k : Label} (ks : List Label) : ∀ {l : Label}, k.leq l = true ∨ k ∈ ks →
    k.leq (ks.foldl join l) = true := by
  induction ks with
  | nil =>
    intro l h
    exact h.resolve_right List.not_mem_nil
  | cons k' ks ih =>
    intro l h
    refine ih ?_
    rcases h with hleq | hmem
    · exact .inl (leq_join_left k' hleq)
    · rcases List.mem_cons.1 hmem with rfl | hmem
      · exact .inl (leq_iff.2 (by rw [height_join]; omega))
      · exact .inr hmem

/-- The join of several labels dominates each of them. -/
lemma leq_joinAll {k : Label} {ks : List Label} (hk : k ∈ ks) : k.leq (joinAll ks) = true :=
  leq_foldl_join ks (.inr hk)

end Label

/-! ## Operands -/

/-- An operation on the values of its operands. The void operation has no result to speak of. -/
def Script.Expr.isOperation : Expr Span → Bool
  | .unary _ op _ => op ≠ .void
  | .binary .. | .logical .. | .conditional .. | .update .. => true
  | .assign _ (.compound _) _ _ => true
  | .sequence _ items => !items.isEmpty
  | _ => false

/-- An operation that forgets the label of an operand. -/
def Script.Expr.forgets : Expr Span → Bool
  | .unary _ op _ => op = .delete
  | .binary _ op _ _ => op = .instanceOf
  | _ => false

/-- A name that is not bound. -/
def Operand.isUnbound : Operand → Bool
  | .place ⟨none, _⟩ _ => true
  | _ => false

/-- The right operand of a short-circuit operation is evaluated after the given left one. -/
def Script.LogicalOp.goesOn (op : LogicalOp) (left : Raw) : Bool :=
  match op with
  | .and => left.truth
  | .or => !left.truth
  | .other _ => false

/-- The effective labels of the operand values that an expression evaluates. The first list are
those that its rule takes together, the second those that it forgets. -/
inductive Operands (serve : Service) (fuel : Nat) :
    Expr Span → State → List Label → List Label → Prop
  | unary {span : Span} {op : UnaryOp} {operand : Expr Span} {s u : State} {r : Rated} :
    op ≠ .typeOf → op ≠ .delete → op ≠ .void →
      (valueOf operand.action).run serve fuel s = .done r u →
        Operands serve fuel (.unary span op operand) s [r.label] []
  | typeOf {span : Span} {operand : Expr Span} {s u t : State} {o : Operand} {r : Rated} :
    operand.action.run serve fuel s = .done o u → o.isUnbound = false →
      o.resolve.run serve fuel u = .done r t →
        Operands serve fuel (.unary span .typeOf operand) s [r.label] []
  | typeOfUnbound {span : Span} {operand : Expr Span} {s u : State} {name : String} {k : Label} :
    operand.action.run serve fuel s = .done (.place ⟨none, name⟩ k) u →
      Operands serve fuel (.unary span .typeOf operand) s [k] []
  | deletedValue {span : Span} {operand : Expr Span} {s u : State} {v : Value} :
    operand.action.run serve fuel s = .done (.value v) u →
      Operands serve fuel (.unary span .delete operand) s [] [v.label]
  | deletedUnbound {span : Span} {operand : Expr Span} {s u : State} {name : String} {k : Label} :
    operand.action.run serve fuel s = .done (.place ⟨none, name⟩ k) u →
      Operands serve fuel (.unary span .delete operand) s [] [k]
  /-- What is deleted is not read. Its label is that of the choice and of the location. -/
  | deleted {span : Span} {operand : Expr Span} {s u : State} {o : Ref} {name : String}
    {k : Label} :
    operand.action.run serve fuel s = .done (.place ⟨some o, name⟩ k) u →
      Operands serve fuel (.unary span .delete operand) s []
        [k, Place.labelIn ⟨some o, name⟩ u]
  | binary {span : Span} {op : BinaryOp} {left right : Expr Span} {s u t : State} {l r : Rated} :
    op ≠ .instanceOf → (valueOf left.action).run serve fuel s = .done l u →
      (valueOf right.action).run serve fuel u = .done r t →
        Operands serve fuel (.binary span op left right) s [l.label, r.label] []
  | instanceOf {span : Span} {left right : Expr Span} {s u t : State} {l r : Rated} :
    (valueOf left.action).run serve fuel s = .done l u →
      (valueOf right.action).run serve fuel u = .done r t →
        Operands serve fuel (.binary span .instanceOf left right) s [l.label] [r.label]
  | decided {span : Span} {op : LogicalOp} {left right : Expr Span} {s u : State} {l : Rated} :
    (valueOf left.action).run serve fuel s = .done l u → op.goesOn l.raw = false →
      Operands serve fuel (.logical span op left right) s [l.label] []
  | both {span : Span} {op : LogicalOp} {left right : Expr Span} {s u t : State} {l r : Rated} :
    (valueOf left.action).run serve fuel s = .done l u → op.goesOn l.raw = true →
      (controlled "LogicalExpression" span.start.line l.label (valueOf right.action)).run serve fuel
        u = .done r t →
      Operands serve fuel (.logical span op left right) s [l.label, r.label] []
  | conditional {span : Span} {test yes no : Expr Span} {s u t : State} {c r : Rated} :
    (valueOf test.action).run serve fuel s = .done c u →
      (controlled "ConditionalExpression" span.start.line c.label
        (valueOf (if c.raw.truth then yes.action else no.action))).run serve fuel u = .done r t →
      Operands serve fuel (.conditional span test yes no) s [c.label, r.label] []
  /-- Only the value of the last expression is kept, and only its label counts. -/
  | sequence {span : Span} {front : List (Expr Span)} {last : Expr Span} {s u t : State}
      {o : Operand} {r : Rated} :
    (sequence (actions front) .undefined).run serve fuel s = .done o u →
      (valueOf last.action).run serve fuel u = .done r t →
        Operands serve fuel (.sequence span (front ++ [last])) s [r.label] []
  | compound {span : Span} {op : BinaryOp} {target value : Expr Span} {s u x t : State} {p : Place}
      {k : Label} {old r : Rated} :
    target.action.run serve fuel s = .done (.place p k) u →
      (Operand.place p k).resolve.run serve fuel u = .done old x →
        (valueOf value.action).run serve fuel x = .done r t →
          Operands serve fuel (.assign span (.compound op) target value) s [old.label, r.label] []
  | update {span : Span} {op : String} {before : Bool} {operand : Expr Span} {s u t : State}
      {p : Place} {k : Label} {old : Rated} :
    operand.action.run serve fuel s = .done (.place p k) u →
      (Operand.place p k).resolve.run serve fuel u = .done old t →
        Operands serve fuel (.update span op before operand) s [old.label] []

/-! ## Runs of operations -/

section

variable {serve : Service} {fuel : Nat} {s t : State}

/-- A region gives what comes of the value of its action. -/
lemma run_controlled_done {α β : Type} {kind : String} {line : Nat} {k : Label} {p : Action α}
    {f : α → β} {b : β} :
    (controlled kind line k (do return f (← p))).run serve fuel s = .done b t ↔
      ∃ a, (controlled kind line k p).run serve fuel s = .done a t ∧ b = f a := by
  simp only [controlled, run_bind]
  cases (raisedPc kind line k).run serve fuel s with
  | done pc u =>
    simp only [run_withPc, run_region, Outcome.mapState_eq_done, run_bind]
    constructor
    · rintro ⟨x, hx, rfl⟩
      cases hp : p.run serve fuel ⟨{ u.control with pc, scope := u.control.scope }, u.store⟩ with
      | done a y =>
        rw [hp] at hx
        cases hx
        exact ⟨a, ⟨_, rfl, rfl⟩, rfl⟩
      | failed | stuck =>
        rw [hp] at hx
        cases hx
    · rintro ⟨a, ⟨x, hx, rfl⟩, rfl⟩
      refine ⟨x, ?_, rfl⟩
      rw [hx]
      rfl
  | failed | stuck => simp

/-- The actions of several expressions are those of the first ones and of the others. -/
lemma actions_append (es es' : List (Expr Span)) :
    actions (es ++ es') = actions es ++ actions es' := by
  induction es with
  | nil => rfl
  | cons e es ih =>
    rw [List.cons_append, actions, ih, actions]
    rfl

/-- A sequence gives the value of its last expression, after the others have been evaluated. -/
lemma run_sequence_append (p : Action Operand) {o : Operand} (ps : List (Action Operand)) :
    ∀ {v : Value} {s : State}, (sequence (ps ++ [p]) v).run serve fuel s = .done o t ↔
      ∃ o' u r, (sequence ps v).run serve fuel s = .done o' u ∧
        (valueOf p).run serve fuel u = .done r t ∧ o = .value r.value := by
  induction ps with
  | nil =>
    intro v s
    constructor
    · intro h
      obtain ⟨r, u, hp, hlast⟩ := run_bind_done.1 h
      cases hlast
      exact ⟨_, s, r, rfl, hp, rfl⟩
    · rintro ⟨o', u, r, ⟨⟩, hp, rfl⟩
      exact run_bind_done.2 ⟨r, t, hp, rfl⟩
  | cons q ps ih =>
    intro v s
    constructor
    · intro h
      obtain ⟨r, u, hq, hrest⟩ := run_bind_done.1 h
      obtain ⟨o', x, r', hps, hp, ho⟩ := ih.1 hrest
      exact ⟨o', x, r', run_bind_done.2 ⟨r, u, hq, hps⟩, hp, ho⟩
    · rintro ⟨o', x, r', hqs, hp, ho⟩
      obtain ⟨r, u, hq, hps⟩ := run_bind_done.1 hqs
      exact run_bind_done.2 ⟨r, u, hq, ih.2 ⟨o', x, r', hps, hp, ho⟩⟩

/-- An expression that gives a value is read as this value. -/
lemma run_valueOf_of_value {p : Action Operand} {v : Value} {u : State} {r : Rated}
    (hp : p.run serve fuel s = .done (.value v) u)
    (hrun : (valueOf p).run serve fuel s = .done r t) : r.label = v.label := by
  unfold valueOf at hrun
  rw [run_bind, hp] at hrun
  cases hrun
  rfl

/-- A deletion gives a truth value without a label. -/
lemma value_of_eraseAt {line : Nat} {p : Place} {k : Label} {o : Operand}
    (hrun : (eraseAt line p k).run serve fuel s = .done o t) :
    ∃ gone, o = .value (Raw.bool gone) := by
  unfold eraseAt at hrun
  split at hrun
  · cases hrun
    exact ⟨true, rfl⟩
  · simp only [run_bind, run_partition, run_peek, run_pc] at hrun
    split_ifs at hrun
    · rw [run_violate] at hrun
      cases hrun
    · obtain ⟨gone, u, -, hlast⟩ := run_bind_done.1 hrun
      cases hlast
      exact ⟨gone, rfl⟩

lemma value_of_deletion {line : Nat} {p : Action Operand} {o : Operand}
    (hrun : (deletion line p).run serve fuel s = .done o t) :
    ∃ gone, o = .value (Raw.bool gone) := by
  obtain ⟨operand, u, -, hrest⟩ := run_bind_done.1 hrun
  cases operand with
  | value v =>
    cases hrest
    exact ⟨true, rfl⟩
  | place p k => exact value_of_eraseAt hrest

/-- The kind of an operand that is not an unbound name is told from its value. -/
lemma run_typeOf_bound {p : Action Operand} {o : Operand} {u : State}
    (hp : p.run serve fuel s = .done o u) (hbound : o.isUnbound = false) :
    (typeOf p).run serve fuel s = (do
      let r ← o.resolve
      return .value ((Raw.string r.raw.typeName).labeled r.label) : Action Operand).run
        serve fuel u := by
  rw [typeOf, run_bind, hp]
  cases o with
  | value v => rfl
  | place p k =>
    obtain ⟨_ | base, name⟩ := p
    · cases hbound
    · rfl

/-- A checked write gives the value of the assignment. -/
lemma value_of_assign {line : Nat} {p : Place} {k : Label} {r : Rated} {declare : Bool} {v : Value}
    (hrun : (assign line p k r declare).run serve fuel s = .done v t) : v = r.value := by
  obtain ⟨⟨_, _, hviolation⟩, -⟩ | ⟨u, hpasses⟩ :
      _ ∨ ∃ u, Passes serve fuel line p k r declare s u := run_assign ..
  · rw [hviolation] at hrun
    cases hrun
  · rw [hpasses.run] at hrun
    obtain ⟨_, _, -, hlast⟩ := run_bind_done.1 hrun
    cases hlast
    rfl

/-- The result of a unary operation carries the label of its operand. -/
lemma value_of_unary {line : Nat} {op : UnaryOp} {p : Action Operand} {u : State} {r : Rated}
    {o : Operand} (htypeOf : op ≠ .typeOf) (hdelete : op ≠ .delete) (hvoid : op ≠ .void)
    (hp : (valueOf p).run serve fuel s = .done r u)
    (hrun : (unary line op p).run serve fuel s = .done o t) :
    ∃ result : Raw, o = .value (result.labeled r.label) := by
  rw [unary, run_bind, hp] at hrun
  · cases op with
    | not =>
      cases hrun
      exact ⟨_, rfl⟩
    | minus | plus | bitNot =>
      obtain ⟨n, x, -, hlast⟩ := run_bind_done.1 hrun
      cases hlast
      exact ⟨_, rfl⟩
    | typeOf => exact absurd rfl htypeOf
    | delete => exact absurd rfl hdelete
    | void => exact absurd rfl hvoid
    | other text => cases hrun
  · exact htypeOf
  · exact hdelete
  · exact hvoid

/-- A short-circuit operation gives the value of its left operand, or goes on with the right one. -/
lemma run_logical_done {kind : String} {line : Nat} {op : LogicalOp} {left right : Action Operand}
    {u : State} {l : Rated} {o : Operand} (hleft : (valueOf left).run serve fuel s = .done l u)
    (hrun : (logical kind line op left right).run serve fuel s = .done o t) :
    op.goesOn l.raw = false ∧ o = .value l.value ∨
    op.goesOn l.raw = true ∧ ∃ r, (controlled kind line l.label (valueOf right)).run serve fuel u =
      .done r t ∧ o = .value (r.raw.labeled (l.label.join r.label)) := by
  rw [logical, run_bind, hleft] at hrun
  cases op with
  | and =>
    dsimp only at hrun
    split_ifs at hrun with htruth
    · exact .inr ⟨htruth, run_controlled_done.1 hrun⟩
    · cases hrun
      exact .inl ⟨by simpa [LogicalOp.goesOn] using htruth, rfl⟩
  | or =>
    dsimp only at hrun
    split_ifs at hrun with htruth
    · cases hrun
      exact .inl ⟨by simpa [LogicalOp.goesOn] using htruth, rfl⟩
    · exact .inr ⟨by simpa [LogicalOp.goesOn] using htruth, run_controlled_done.1 hrun⟩
  | other text => cases hrun

/-- The result of a binary operation carries the labels of its operands, but for the test for
instances. -/
lemma value_of_binary {op : BinaryOp} {left right : Action Operand} {u x : State} {l r : Rated}
    {o : Operand} (hleft : (valueOf left).run serve fuel s = .done l u)
    (hright : (valueOf right).run serve fuel u = .done r x)
    (hrun : (binary op left right).run serve fuel s = .done o t) : ∃ result : Raw,
      o = .value (result.labeled (if op = .instanceOf then l.label else l.label.join r.label)) := by
  rw [binary, run_bind, hleft] at hrun
  dsimp only at hrun
  rw [run_bind, hright] at hrun
  obtain ⟨result, y, -, hlast⟩ := run_bind_done.1 hrun
  cases hlast
  exact ⟨result, rfl⟩

/-- A compound assignment gives a value with the labels of what it takes together. -/
lemma value_of_compound {line : Nat} {op : BinaryOp} {target value : Action Operand}
    {u x y : State} {p : Place} {k : Label} {old r : Rated} {o : Operand}
    (htarget : target.run serve fuel s = .done (.place p k) u)
    (hold : (Operand.place p k).resolve.run serve fuel u = .done old x)
    (hvalue : (valueOf value).run serve fuel x = .done r y)
    (hrun : (assignment line (.compound op) target value).run serve fuel s = .done o t) :
    ∃ result : Raw, o = .value (result.labeled (old.label.join r.label)) := by
  rw [assignment, run_bind, htarget] at hrun
  dsimp only at hrun
  rw [run_bind, hold] at hrun
  dsimp only at hrun
  rw [run_bind, hvalue] at hrun
  obtain ⟨result, z, -, hrest⟩ := run_bind_done.1 hrun
  obtain ⟨v, z, hassign, hlast⟩ := run_bind_done.1 hrest
  cases hlast
  exact ⟨result, by rw [value_of_assign hassign, Rated.value]⟩

/-- An increment gives a number with the label of the old value. -/
lemma value_of_increment {line : Nat} {op : String} {before : Bool} {operand : Action Operand}
    {u x : State} {p : Place} {k : Label} {old : Rated} {o : Operand}
    (hoperand : operand.run serve fuel s = .done (.place p k) u)
    (hold : (Operand.place p k).resolve.run serve fuel u = .done old x)
    (hrun : (increment line op before operand).run serve fuel s = .done o t) :
    ∃ result : Raw, o = .value (result.labeled old.label) := by
  rw [increment, run_bind, hoperand] at hrun
  dsimp only at hrun
  rw [run_bind, hold] at hrun
  obtain ⟨n, y, -, hrest⟩ := run_bind_done.1 hrun
  obtain ⟨v, z, -, hlast⟩ := run_bind_done.1 hrest
  cases hlast
  exact ⟨_, rfl⟩

/-- The results of the operations. -/
lemma height_of_operands {e : Expr Span} {kept lost : List Label} {r : Rated}
    (h : Operands serve fuel e s kept lost)
    (hrun : (valueOf e.action).run serve fuel s = .done r t) :
    r.label.height = (Label.joinAll kept).height := by
  -- the run gives an operand, which turns out to be a value in each case
  obtain ⟨o, x, hexpr, hresolve⟩ := run_bind_done.1 hrun
  have hvalue : ∀ v : Value, o = .value v → r.label = v.label := by
    rintro v rfl
    exact run_valueOf_of_value hexpr hrun
  cases h with
  | @unary _ op _ _ _ a htypeOf hdelete hvoid hoperand =>
    obtain ⟨result, rfl⟩ := value_of_unary htypeOf hdelete hvoid hoperand hexpr
    rw [hvalue _ rfl, Value.height_labeled, Label.height_joinAll_one]
  | @typeOf _ _ _ _ _ _ a hoperand hbound hread =>
    rw [Script.Expr.action, Clearance.unary, run_typeOf_bound hoperand hbound, run_bind,
      hread] at hexpr
    cases hexpr
    rw [hvalue _ rfl, Value.height_labeled, Label.height_joinAll_one]
  | typeOfUnbound hoperand =>
    rw [Script.Expr.action, Clearance.unary, Clearance.typeOf, run_bind, hoperand] at hexpr
    cases hexpr
    rw [hvalue _ rfl, Value.height_labeled, Label.height_joinAll_one]
  | deletedValue | deletedUnbound | deleted =>
    obtain ⟨gone, rfl⟩ := value_of_deletion hexpr
    rw [hvalue _ rfl]
    rfl
  | @binary _ op _ _ _ _ _ l b hop hleft hright =>
    rw [Script.Expr.action] at hexpr
    obtain ⟨result, rfl⟩ := value_of_binary hleft hright hexpr
    rw [hvalue _ rfl, Value.height_labeled, if_neg hop, Label.height_join, Label.height_joinAll_two]
  | @instanceOf _ _ _ _ _ _ l b hleft hright =>
    rw [Script.Expr.action] at hexpr
    obtain ⟨result, rfl⟩ := value_of_binary hleft hright hexpr
    rw [hvalue _ rfl, Value.height_labeled, if_pos rfl, Label.height_joinAll_one]
  | @decided _ op _ _ _ _ l hleft hgoes =>
    rw [Script.Expr.action] at hexpr
    obtain ⟨-, rfl⟩ | ⟨hgoes', -⟩ := run_logical_done hleft hexpr
    · rw [hvalue _ rfl, Rated.value, Value.height_labeled, Label.height_joinAll_one]
    · rw [hgoes] at hgoes'
      cases hgoes'
  | @both _ op _ _ _ _ _ l b hleft hgoes hright =>
    rw [Script.Expr.action] at hexpr
    obtain ⟨hgoes', -⟩ | ⟨-, b', hright', rfl⟩ := run_logical_done hleft hexpr
    · rw [hgoes] at hgoes'
      cases hgoes'
    · rw [hright] at hright'
      cases hright'
      rw [hvalue _ rfl, Value.height_labeled, Label.height_join, Label.height_joinAll_two]
  | @conditional _ _ _ _ _ _ _ c b htest hbranch =>
    rw [Script.Expr.action, Clearance.conditional, run_bind, htest] at hexpr
    obtain ⟨b', hbranch', rfl⟩ := run_controlled_done.1 hexpr
    rw [hbranch] at hbranch'
    cases hbranch'
    rw [hvalue _ rfl, Value.height_labeled, Label.height_join, Label.height_joinAll_two]
  | @sequence _ front last _ u _ o' b hfront hlast =>
    rw [Script.Expr.action, actions_append] at hexpr
    obtain ⟨o'', y, b', hfront', hlast', rfl⟩ :=
      (run_sequence_append last.action (actions front)).1 hexpr
    rw [hfront] at hfront'
    cases hfront'
    rw [hlast] at hlast'
    cases hlast'
    rw [hvalue _ rfl, Rated.value, Value.height_labeled, Label.height_joinAll_one]
  | @compound _ op _ _ _ _ _ _ p k old b htarget hold hright =>
    rw [Script.Expr.action] at hexpr
    obtain ⟨result, rfl⟩ := value_of_compound htarget hold hright hexpr
    rw [hvalue _ rfl, Value.height_labeled, Label.height_join, Label.height_joinAll_two]
  | @update _ op before _ _ _ _ p k old hoperand hold =>
    rw [Script.Expr.action] at hexpr
    obtain ⟨result, rfl⟩ := value_of_increment hoperand hold hexpr
    rw [hvalue _ rfl, Value.height_labeled, Label.height_joinAll_one]

lemma exists_operands_unary {span : Span} {op : UnaryOp} {operand : Expr Span} {o : Operand}
    (hvoid : op ≠ .void)
    (hrun : (unary span.start.line op operand.action).run serve fuel s = .done o t) :
    ∃ kept lost, Operands serve fuel (.unary span op operand) s kept lost := by
  by_cases htypeOf : op = .typeOf
  · subst htypeOf
    obtain ⟨o', u, hoperand, -⟩ := run_bind_done.1 hrun
    cases hbound : o'.isUnbound with
    | true =>
      cases o' with
      | value v => cases hbound
      | place p k =>
        obtain ⟨_ | base, name⟩ := p
        · exact ⟨_, _, .typeOfUnbound hoperand⟩
        · cases hbound
    | false =>
      rw [unary, run_typeOf_bound hoperand hbound] at hrun
      obtain ⟨a, y, hread, -⟩ := run_bind_done.1 hrun
      exact ⟨_, _, .typeOf hoperand hbound hread⟩
  by_cases hdelete : op = .delete
  · subst hdelete
    obtain ⟨o', u, hoperand, -⟩ := run_bind_done.1 hrun
    cases o' with
    | value v => exact ⟨_, _, .deletedValue hoperand⟩
    | place p k =>
      obtain ⟨_ | base, name⟩ := p
      · exact ⟨_, _, .deletedUnbound hoperand⟩
      · exact ⟨_, _, .deleted hoperand⟩
  rw [unary] at hrun
  · obtain ⟨a, u, hoperand, -⟩ := run_bind_done.1 hrun
    exact ⟨_, _, .unary htypeOf hdelete hvoid hoperand⟩
  · exact htypeOf
  · exact hdelete
  · exact hvoid

/-- Every operation that gives a value has evaluated its operands. -/
lemma exists_operands {e : Expr Span} {r : Rated} (he : e.isOperation = true)
    (hrun : (valueOf e.action).run serve fuel s = .done r t) :
    ∃ kept lost, Operands serve fuel e s kept lost := by
  -- the run is taken apart as far as the operands go
  obtain ⟨o, x, hexpr, -⟩ := run_bind_done.1 hrun
  cases e with
  | unary span op operand =>
    rw [Script.Expr.action] at hexpr
    exact exists_operands_unary (of_decide_eq_true he) hexpr
  | binary span op left right =>
    obtain ⟨l, u, hleft, hrest⟩ := run_bind_done.1 (by rwa [Script.Expr.action] at hexpr)
    obtain ⟨b, y, hright, -⟩ := run_bind_done.1 hrest
    by_cases hop : op = .instanceOf
    · subst hop
      exact ⟨_, _, .instanceOf hleft hright⟩
    · exact ⟨_, _, .binary hop hleft hright⟩
  | logical span op left right =>
    rw [Script.Expr.action] at hexpr
    obtain ⟨l, u, hleft, -⟩ := run_bind_done.1 hexpr
    obtain ⟨hgoes, -⟩ | ⟨hgoes, b, hright, -⟩ := run_logical_done hleft hexpr
    · exact ⟨_, _, .decided hleft hgoes⟩
    · exact ⟨_, _, .both hleft hgoes hright⟩
  | conditional span test yes no =>
    rw [Script.Expr.action] at hexpr
    obtain ⟨c, u, htest, hrest⟩ := run_bind_done.1 hexpr
    obtain ⟨b, hbranch, -⟩ := run_controlled_done.1 hrest
    exact ⟨_, _, .conditional htest hbranch⟩
  | sequence span items =>
    rw [Script.Expr.action] at hexpr
    obtain ⟨front, last, rfl⟩ : ∃ front last, items = front ++ [last] := by
      rcases List.eq_nil_or_concat items with rfl | ⟨front, last, hitems⟩
      · cases he
      · exact ⟨front, last, by rw [hitems, List.concat_eq_append]⟩
    rw [actions_append] at hexpr
    obtain ⟨o', u, b, hfront, hlast, -⟩ := (run_sequence_append _ _).1 hexpr
    exact ⟨_, _, .sequence hfront hlast⟩
  | assign span op target value =>
    cases op with
    | plain => cases he
    | compound op =>
      obtain ⟨o', u, htarget, hrest⟩ := run_bind_done.1 (by rwa [Script.Expr.action] at hexpr)
      cases o' with
      | value v => cases hrest
      | place p k =>
        obtain ⟨old, y, hold, hrest⟩ := run_bind_done.1 hrest
        obtain ⟨b, z, hright, -⟩ := run_bind_done.1 hrest
        exact ⟨_, _, .compound htarget hold hright⟩
  | update span op before operand =>
    obtain ⟨o', u, hoperand, hrest⟩ := run_bind_done.1 (by rwa [Script.Expr.action] at hexpr)
    cases o' with
    | value v => cases hrest
    | place p k =>
      obtain ⟨old, y, hold, -⟩ := run_bind_done.1 hrest
      exact ⟨_, _, .update hoperand hold⟩
  | _ => cases he

/-- Only tests for instances and deletions forget labels. -/
lemma Operands.forgets {e : Expr Span} {kept lost : List Label}
    (h : Operands serve fuel e s kept lost) (hlost : lost ≠ []) : e.forgets = true := by
  cases h <;> first | rfl | exact absurd rfl hlost

end

/-- **Results dominate operands.** An operation that gives a value has evaluated operands, and the
label of its result is at least the effective label of each of them, but for the labels that tests
for instances and deletions forget. These are dominated when they are not above what is kept. -/
theorem result_dominates_operands (serve : Service) (fuel : Nat) {e : Expr Span} {s t : State}
    {r : Rated} (he : e.isOperation = true)
    (hrun : (valueOf e.action).run serve fuel s = .done r t) :
    (∃ kept lost, Operands serve fuel e s kept lost) ∧
    ∀ kept lost, Operands serve fuel e s kept lost →
      (∀ k ∈ kept, k.leq r.label = true) ∧
      (∀ k ∈ lost, k.leq r.label = true ↔ k.leq (Label.joinAll kept) = true) ∧
      (lost ≠ [] → e.forgets = true) := by
  refine ⟨exists_operands he hrun, fun kept lost h => ?_⟩
  have hheight := height_of_operands h hrun
  refine ⟨fun k hk => ?_, fun k _ => ?_, h.forgets⟩
  · have hdominated := Label.leq_joinAll hk
    rw [Label.leq_iff] at hdominated ⊢
    omega
  · rw [Label.leq_iff, Label.leq_iff, hheight]

/-- A secret is compared with something. -/
def comparesSecret (e : Expr Span) (bound : Nat) (s : State) : Bool :=
  match e with
  | .binary _ .eq left right =>
    match (valueOf left.action).run (machine .none bound bound) bound s with
    | .done l u =>
      match (valueOf right.action).run (machine .none bound bound) bound u,
        (valueOf e.action).run (machine .none bound bound) bound s with
      | .done _ _, .done _ _ => l.label = ⟨2, "H"⟩
      | _, _ => false
    | _ => false
  | _ => false

set_option maxRecDepth 100000 in
/-- What is compared with a secret is secret. -/
theorem result_dominates_secret : ∃ e r t kept lost, expression? "secret == public" = some e ∧
    e.isOperation = true ∧
    (valueOf e.action).run (machine .none 50 50) 50 secretSession = .done r t ∧
    Operands (machine .none 50 50) 50 e secretSession kept lost ∧ ⟨2, "H"⟩ ∈ kept ∧
    ∀ k ∈ kept, k.leq r.label = true := by
  have hsecret : (expression? "secret == public").any
      (comparesSecret · 50 secretSession) = true := by
    decide +kernel
  cases he : expression? "secret == public" with
  | none => rw [he] at hsecret; cases hsecret
  | some e =>
    rw [he, Option.any_some] at hsecret
    unfold comparesSecret at hsecret
    split at hsecret
    · rename_i span left right
      split at hsecret
      · rename_i l u hleft
        split at hsecret
        · rename_i b x r t hright hrun
          have hlabel : l.label = ⟨2, "H"⟩ := of_decide_eq_true hsecret
          have hop : BinaryOp.eq ≠ .instanceOf := by decide
          have hoperands : Operands (machine .none 50 50) 50 (.binary span .eq left right)
              secretSession [l.label, b.label] [] := .binary hop hleft hright
          exact ⟨_, r, t, _, _, rfl, rfl, hrun, hoperands, hlabel ▸ List.mem_cons_self,
            ((result_dominates_operands _ 50 rfl hrun).2 _ _ hoperands).1⟩
        · cases hsecret
      · cases hsecret
    · cases hsecret

/-- The result of the operation does not dominate the label that it forgets. -/
def hidesForgotten (e : Expr Span) (bound : Nat) (s : State) : Bool :=
  match (valueOf e.action).run (machine .none bound bound) bound s with
  | .done v _ =>
    match e with
    | .binary _ .instanceOf left right =>
      match (valueOf left.action).run (machine .none bound bound) bound s with
      | .done _ u =>
        match (valueOf right.action).run (machine .none bound bound) bound u with
        | .done r _ => !r.label.leq v.label
        | _ => false
      | _ => false
    | .unary _ .delete operand =>
      match operand.action.run (machine .none bound bound) bound s with
      | .done (.place ⟨some _, _⟩ k) _ => !k.leq v.label
      | _ => false
    | _ => false
  | _ => false

lemma exists_forgotten {e : Expr Span} {bound : Nat} {s : State}
    (h : hidesForgotten e bound s = true) : ∃ kept lost k v t, k ∈ lost ∧
      Operands (machine .none bound bound) bound e s kept lost ∧
      (valueOf e.action).run (machine .none bound bound) bound s = .done v t ∧
      ¬k.leq v.label = true := by
  unfold hidesForgotten at h
  split at h
  · rename_i v t hrun
    split at h
    · split at h
      · rename_i l u hleft
        split at h
        · rename_i r x hright
          exact ⟨_, _, r.label, v, t, List.mem_cons_self, .instanceOf hleft hright, hrun,
            by simpa using h⟩
        · cases h
      · cases h
    · split at h
      · rename_i o name k u hoperand
        exact ⟨_, _, k, v, t, List.mem_cons_self, .deleted hoperand, hrun, by simpa using h⟩
      · cases h
    · cases h
  · cases h

/-- The script is an operation whose result does not dominate a label that it forgets. -/
def HidesForgotten (source : String) : Prop :=
  ∃ e kept lost k v t, expression? source = some e ∧ k ∈ lost ∧
    Operands (machine .none 50 50) 50 e (Session.fresh .standard) kept lost ∧
    (valueOf e.action).run (machine .none 50 50) 50 (Session.fresh .standard) = .done v t ∧
    ¬k.leq v.label = true

lemma hidesForgotten_of_any {source : String}
    (h : (expression? source).any (hidesForgotten · 50 (Session.fresh .standard)) = true) :
    HidesForgotten source := by
  cases he : expression? source with
  | none => rw [he] at h; cases h
  | some e =>
    rw [he, Option.any_some] at h
    obtain ⟨kept, lost, k, v, t, hk, hoperands, hrun, hleq⟩ := exists_forgotten h
    exact ⟨e, kept, lost, k, v, t, he, hk, hoperands, hrun, hleq⟩

set_option maxRecDepth 100000 in
/-- The class of a test for instances and the key of a deletion are secret, and the results are
not. -/
theorem forgotten_operands_not_dominated :
    HidesForgotten "(\x7b\x7d) instanceof label('H', Object)" ∧
      HidesForgotten "delete (\x7ba: label('H', true)\x7d)[label('H', 'a')]" := by
  have hhides : ∀ source ∈ ["(\x7b\x7d) instanceof label('H', Object)",
        "delete (\x7ba: label('H', true)\x7d)[label('H', 'a')]"],
      (expression? source).any (hidesForgotten · 50 (Session.fresh .standard)) = true := by
    decide +kernel
  exact ⟨hidesForgotten_of_any (hhides _ (by simp)), hidesForgotten_of_any (hhides _ (by simp))⟩

end Clearance
