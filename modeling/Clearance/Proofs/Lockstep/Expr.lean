/-
# Expressions in step

The expressions of the core do not show above a level, and run in step up to it.
-/
import Clearance.Proofs.Lockstep.Operation

namespace Clearance

open Clearance.Action Script

namespace View

/-- Runs of the expression are not seen above the level, and in step up to it. -/
structure Secure (V : View) (p : Action Operand) : Prop where
  unseen : V.Unseen p V.Known
  lockstep : V.Lockstep p p V.SameOperand Never

/-- The expression is a name: it gives a place. -/
structure Named (V : View) (p : Action Operand) : Prop where
  unseen : V.Unseen p fun op => ∃ pl, op = .place pl .none ∧ V.Known (.place pl .none)
  lockstep : V.Lockstep p p
    (fun op op' => ∃ pl, op = .place pl .none ∧ op' = .place pl .none ∧
      V.Known (.place pl .none)) Never

variable {V : View}

lemma named_ident {id : Ident Span} (hn : id.name ∈ V.names) : V.Named (Expr.ident id).action where
  unseen := .bind (.placeOf hn) fun p hp => .pure ⟨p, rfl, hp⟩
  lockstep := .seq (.placeOf hn) fun p p' ⟨heq, hp⟩ => .pure ⟨p, rfl, by rw [heq], hp⟩

lemma Named.secure {p : Action Operand} (h : V.Named p) : V.Secure p where
  unseen := h.unseen.mono fun _ ⟨_, hop, hp⟩ => hop ▸ hp
  lockstep := h.lockstep.mono fun _ _ ⟨_, hop, hop', hp⟩ => by
    rw [hop, hop']
    exact .place hp

/-- A literal. -/
lemma secure_value {v : Value} (hv : v.raw.isPrimitive = true) :
    V.Secure (pure (.value v)) where
  unseen := .pure (.value hv)
  lockstep := .pure (.value ⟨hv, hv, .inl rfl⟩)

/-! ## Operators -/

/-- What is made of two operands is the same, or classified above the level. -/
lemma SameRated.join {l l' r r' : Rated} (hl : V.SameRated l l') (hr : V.SameRated r r') :
    (l = l' ∧ r = r') ∨ (V.level.less (l.label.join r.label) = true ∧
      V.level.less (l'.label.join r'.label) = true) := by
  simp only [Label.less_iff, Label.height_join]
  rcases hl.agrees with hl | ⟨hless, hless'⟩
  · rcases hr.agrees with hr | ⟨hless, hless'⟩
    · exact .inl ⟨hl, hr⟩
    · rw [Label.less_iff] at hless hless'
      omega
  · rw [Label.less_iff] at hless hless'
    omega

/-- A binary operator on operands that agree. -/
lemma Lockstep.binaryOp {op : BinaryOp} (hop : op.core = true) {l l' r r' : Rated}
    (hl : V.SameRated l l') (hr : V.SameRated r r') :
    V.Lockstep (Clearance.binaryOp op l.raw r.raw) (Clearance.binaryOp op l'.raw r'.raw)
      (fun x x' => V.SameRated ⟨x, l.label.join r.label⟩ ⟨x', l'.label.join r'.label⟩) Never := by
  refine .mono (.of_fixed (fixed_binaryOp hop hl.left hr.left)
    (fixed_binaryOp hop hl.right hr.right)) fun x x' ⟨hx, hx', hsame⟩ => ⟨hx, hx', ?_⟩
  rcases hl.join hr with ⟨rfl, rfl⟩ | hless
  · exact .inl (by rw [hsame rfl])
  · exact .inr hless

lemma secure_binary {op : BinaryOp} (hop : op.core = true) {left right : Action Operand}
    (hl : V.Secure left) (hr : V.Secure right) : V.Secure (binary op left right) := by
  have hne : op ≠ .instanceOf := by
    rintro rfl
    cases hop
  simp only [binary, if_neg hne]
  refine ⟨?_, ?_⟩
  · refine .bind (.valueOf hl.unseen) fun l hl => .bind (.valueOf hr.unseen) fun r hr => ?_
    refine .bind (.of_fixed (fixed_binaryOp hop hl hr)) fun x hx => .pure (.value ?_)
    rwa [Value.labeled_raw]
  · refine .seq (.valueOf hl.lockstep) fun l l' hl => .seq (.valueOf hr.lockstep) fun r r' hr => ?_
    exact .seq (.binaryOp hop hl hr) fun x x' hx => .pure (.value hx.value)

/-- A primitive result that carries the label of an operand. -/
def Carries (k : Label) (op : Operand) : Prop :=
  ∃ x : Raw, x.isPrimitive = true ∧ op = .value (x.labeled k)

/-- An operand that does not look at the state is made from another one. -/
lemma secure_of_fixed {operand : Action Operand} (h : V.Secure operand)
    {f : Rated → Action Operand}
    (hf : ∀ r, r.raw.isPrimitive = true → Fixed (f r) (Carries r.label)) :
    V.Secure (valueOf operand >>= f) := by
  refine ⟨?_, ?_⟩
  · refine .bind (.valueOf h.unseen) fun r hr => .mono (.of_fixed (hf r hr)) ?_
    rintro _ ⟨x, hx, rfl⟩
    exact .value (by rwa [Value.labeled_raw])
  · refine .seq (.valueOf h.lockstep) fun r r' hr => ?_
    rcases hr.cases with ⟨rfl, -⟩ | ⟨hless, hless'⟩
    · refine .mono (.of_fixed (hf r hr.left) (hf r hr.left)) ?_
      rintro _ _ ⟨⟨x, hx, rfl⟩, -, hsame⟩
      rw [← hsame rfl]
      exact .value (sameValue_labeled hx hx (.inl ⟨rfl, rfl⟩))
    · have hhigh : ∀ r : Rated, V.level.less r.label = true → r.raw.isPrimitive = true →
          Fixed (f r) V.High := by
        refine fun r hless hr => (hf r hr).mono ?_
        rintro _ ⟨x, hx, rfl⟩
        exact high_labeled hx hless
      refine .mono (.of_fixed (hhigh r hless hr.left) (hhigh r' hless' hr.right)) ?_
      exact fun _ _ ⟨h, h', _⟩ => h.same h'

lemma secure_typeOf {operand : Action Operand} (h : V.Secure operand) :
    V.Secure (typeOf operand) := by
  have hresolve : ∀ op, V.Known op → V.Unseen (do
      let r ← op.resolve
      return Operand.value ((Raw.string r.raw.typeName).labeled r.label)) V.Known :=
    fun op hop => .bind (.resolve hop) fun r _ => .pure (.value (by rw [Value.labeled_raw]; rfl))
  have hresolve' : ∀ op op', V.SameOperand op op' → V.Lockstep (do
      let r ← op.resolve
      return Operand.value ((Raw.string r.raw.typeName).labeled r.label)) (do
      let r ← op'.resolve
      return Operand.value ((Raw.string r.raw.typeName).labeled r.label)) V.SameOperand Never := by
    refine fun op op' hop => .seq (.resolve hop) fun r r' hr => ?_
    refine .pure (.value (sameValue_labeled rfl rfl ?_))
    rcases hr.cases with ⟨rfl, -⟩ | hless
    · exact .inl ⟨rfl, rfl⟩
    · exact .inr hless
  refine ⟨.bind h.unseen fun op hop => ?_, .seq h.lockstep fun op op' hop => ?_⟩
  · cases hop with
    | value hv => exact hresolve _ (.value hv)
    | global hn => exact hresolve _ (.global hn)
    | nowhere hn => exact .pure (.value (by rw [Value.labeled_raw]; rfl))
  · cases hop with
    | value hv => exact hresolve' _ _ (.value hv)
    | place hp =>
      cases hp with
      | global hn => exact hresolve' _ _ (.place (.global hn))
      | nowhere hn => exact .pure (.value (sameValue_labeled rfl rfl (.inl ⟨rfl, rfl⟩)))

lemma secure_unary (line : Nat) {op : UnaryOp} (hop : op ≠ .delete) {operand : Action Operand}
    (h : V.Secure operand) : V.Secure (unary line op operand) := by
  have hcarries : ∀ (k : Label) {x : Raw}, x.isPrimitive = true →
      Fixed (pure (.value (x.labeled k)) : Action Operand) (Carries k) :=
    fun k x hx => .pure ⟨x, hx, rfl⟩
  cases op with
  | typeOf => exact secure_typeOf h
  | delete => exact absurd rfl hop
  | void =>
    exact ⟨.bind (.valueOf h.unseen) fun _ _ => .pure (.value rfl),
      .seq (.valueOf h.lockstep) fun _ _ _ => .pure (.value ⟨rfl, rfl, .inl rfl⟩)⟩
  | not => exact secure_of_fixed h fun r _ => hcarries r.label rfl
  | minus | plus | bitNot =>
    exact secure_of_fixed h fun r hr => .bind (fixed_numberOf hr) fun _ _ => hcarries r.label rfl
  | other text =>
    exact secure_of_fixed h fun r _ => .bind (.internal _) fun _ (h : False) => h.elim

/-! ## Choices -/

/-- The part of a choice that runs under the label of what decides. -/
lemma unseen_chosen {p : Action Operand} (h : V.Unseen p V.Known) (k : Label) :
    V.Unseen (do
      let r ← valueOf p
      return Operand.value (r.raw.labeled (k.join r.label))) V.Known :=
  .bind (.valueOf h) fun r hr => .pure (.value (by rwa [Value.labeled_raw]))

/-- If what decides is above the level, so is the result. -/
lemma unseen_chosen_high {p : Action Operand} (h : V.Unseen p V.Known) {k : Label}
    (hk : V.level.less k = true) :
    V.Unseen (do
      let r ← valueOf p
      return Operand.value (r.raw.labeled (k.join r.label))) V.High := by
  refine .bind (.valueOf h) fun r hr => .pure (high_labeled hr ?_)
  rw [Label.less_iff, Label.height_join] at *
  omega

lemma lockstep_chosen {p : Action Operand} (h : V.Secure p) (k : Label) :
    V.Lockstep (do
      let r ← valueOf p
      return Operand.value (r.raw.labeled (k.join r.label))) (do
      let r ← valueOf p
      return Operand.value (r.raw.labeled (k.join r.label))) V.SameOperand Never := by
  refine .seq (.valueOf h.lockstep) fun r r' hr =>
    .pure (.value (sameValue_labeled hr.left hr.right ?_))
  rcases hr.cases with ⟨rfl, -⟩ | ⟨hless, hless'⟩
  · exact .inl ⟨rfl, rfl⟩
  · refine .inr ⟨?_, ?_⟩
    · rw [Label.less_iff, Label.height_join] at *
      omega
    · rw [Label.less_iff, Label.height_join] at *
      omega

lemma secure_logical (kind : String) (line : Nat) (op : LogicalOp) {left right : Action Operand}
    (hl : V.Secure left) (hr : V.Secure right) : V.Secure (logical kind line op left right) := by
  refine ⟨.bind (.valueOf hl.unseen) fun l hlv => ?_, .seq (.valueOf hl.lockstep) fun l l' hl => ?_⟩
  · have hrest := (unseen_chosen hr.unseen l.label).controlled kind line l.label
    have hvalue : V.Unseen (pure (.value l.value)) V.Known :=
      .pure (.value (by rwa [Rated.value, Value.labeled_raw]))
    cases op with
    | and => exact .ite (fun _ => hrest) fun _ => hvalue
    | or => exact .ite (fun _ => hvalue) fun _ => hrest
    | other text => exact .fail _
  rcases hl.cases with ⟨rfl, hlow⟩ | ⟨hless, hless'⟩
  · have hrest := (lockstep_chosen hr l.label).controlled kind line hlow
    have hvalue : V.Lockstep (pure (.value l.value)) (pure (.value l.value)) V.SameOperand Never :=
      .pure (.value hl.value)
    cases op with
    | and =>
      dsimp only
      split_ifs
      · exact hrest
      · exact hvalue
    | or =>
      dsimp only
      split_ifs
      · exact hvalue
      · exact hrest
    | other text => exact .fail _
  · -- the runs may part here: one evaluates the right operand, the other one does not
    have haside : ∀ l : Rated, V.level.less l.label = true → l.raw.isPrimitive = true →
        ∀ b : Bool, V.Aside (if b then controlled kind line l.label (do
            let r ← valueOf right
            return Operand.value (r.raw.labeled (l.label.join r.label)))
          else pure (.value l.value)) V.High Never := by
      intro l hless hl b
      split_ifs
      · exact .controlled kind line hless (unseen_chosen_high hr.unseen hless) settles_of_forall
      · exact .pure (high_labeled hl hless)
    cases op with
    | and =>
      exact .of_aside (haside l hless hl.left _) (haside l' hless' hl.right _)
        fun _ _ h h' => h.same h'
    | or =>
      have hswap : ∀ (l : Rated) (p q : Action Operand),
          (if l.raw.truth = true then p else q) = if (!l.raw.truth) = true then q else p := by
        intro l p q
        cases l.raw.truth <;> rfl
      dsimp only
      rw [hswap, hswap]
      exact .of_aside (haside l hless hl.left _) (haside l' hless' hl.right _)
        fun _ _ h h' => h.same h'
    | other text => exact .fail _

lemma secure_conditional (kind : String) (line : Nat) {test yes no : Action Operand}
    (ht : V.Secure test) (hy : V.Secure yes) (hn : V.Secure no) :
    V.Secure (conditional kind line test yes no) := by
  have hchosen : ∀ b : Bool, V.Secure (if b then yes else no) := by
    intro b
    split_ifs
    · exact hy
    · exact hn
  refine ⟨.bind (.valueOf ht.unseen) fun t _ => ?_, .seq (.valueOf ht.lockstep) fun t t' ht => ?_⟩
  · exact (unseen_chosen (hchosen _).unseen t.label).controlled kind line t.label
  rcases ht.cases with ⟨rfl, hlow⟩ | ⟨hless, hless'⟩
  · exact (lockstep_chosen (hchosen _) t.label).controlled kind line hlow
  · exact .of_aside
      (.controlled kind line hless (unseen_chosen_high (hchosen _).unseen hless) settles_of_forall)
      (.controlled kind line hless' (unseen_chosen_high (hchosen _).unseen hless')
        settles_of_forall)
      fun _ _ h h' => h.same h'

/-! ## Assignments -/

lemma secure_assignment (line : Nat) {op : AssignOp} (hop : op.core = true)
    {target value : Action Operand} (ht : V.Named target) (hv : V.Secure value) :
    V.Secure (assignment line op target value) := by
  refine ⟨.bind ht.unseen ?_, .seq ht.lockstep ?_⟩
  · rintro _ ⟨p, rfl, hp⟩
    cases op with
    | plain =>
      exact .bind (.valueOf hv.unseen) fun r hr => .bind (.assign hp line hr false) fun _ hx =>
        .pure (.value hx)
    | compound op =>
      refine .bind (.resolve hp) fun old hold => .bind (.valueOf hv.unseen) fun r hr => ?_
      refine .bind (.of_fixed (fixed_binaryOp hop hold hr)) fun x hx => ?_
      exact .bind (.assign hp line hx false) fun _ hx => .pure (.value hx)
  · rintro _ _ ⟨p, rfl, rfl, hp⟩
    cases op with
    | plain =>
      exact .seq (.valueOf hv.lockstep) fun r r' hr => .seq (.assign hp line hr false)
        fun _ _ hx => .pure (.value hx)
    | compound op =>
      refine .seq (.resolve (.place hp)) fun old old' hold =>
        .seq (.valueOf hv.lockstep) fun r r' hr => ?_
      refine .seq (.binaryOp hop hold hr) fun x x' hx => ?_
      exact .seq (.assign hp line hx false) fun _ _ hx => .pure (.value hx)

lemma secure_increment (line : Nat) (op : String) (before : Bool) {operand : Action Operand}
    (h : V.Named operand) : V.Secure (increment line op before operand) := by
  refine ⟨.bind h.unseen ?_, .seq h.lockstep ?_⟩
  · rintro _ ⟨p, rfl, hp⟩
    refine .bind (.resolve hp) fun old hold => .bind (.of_fixed (fixed_numberOf hold)) fun n _ => ?_
    refine .bind (.assign hp line rfl false) fun _ _ => .pure (.value ?_)
    rw [Value.labeled_raw]
    rfl
  · rintro _ _ ⟨p, rfl, rfl, hp⟩
    refine .seq (.resolve (.place hp)) fun old old' hold => ?_
    refine .seq (.of_fixed (fixed_numberOf hold.left) (fixed_numberOf hold.right))
      fun n n' ⟨_, _, hn⟩ => ?_
    have hsame : ∀ f : Float → Raw, (∀ x, (f x).isPrimitive = true) →
        V.SameRated ⟨f n, old.label⟩ ⟨f n', old'.label⟩ := by
      refine fun f hf => ⟨hf n, hf n', ?_⟩
      rcases hold.cases with ⟨rfl, -⟩ | hless
      · exact .inl (by rw [hn rfl])
      · exact .inr hless
    refine .seq (.assign hp line (hsame (fun n => .number (if op = "--" then n - 1.0 else n + 1.0))
      fun _ => rfl) false) fun _ _ _ => .pure (.value ?_)
    exact (hsame (fun n => .number (if before then (if op = "--" then n - 1.0 else n + 1.0) else n))
      fun _ => rfl).value

/-! ## Sequences and labels -/

lemma secure_sequence {ps : List (Action Operand)} (h : ∀ p ∈ ps, V.Secure p) {v v' : Value}
    (hv : V.SameValue v v') : V.Unseen (sequence ps v) V.Known ∧
      V.Lockstep (sequence ps v) (sequence ps v') V.SameOperand Never := by
  induction ps generalizing v v' with
  | nil => exact ⟨.pure (.value hv.left), .pure (.value hv)⟩
  | cons p ps ih =>
    rw [List.forall_mem_cons] at h
    refine ⟨.bind (.valueOf h.1.unseen) fun r hr => ?_,
      .seq (.valueOf h.1.lockstep) fun r r' hr => (ih h.2 hr.value).2⟩
    have hr' : V.SameRated r r := ⟨hr, hr, .inl rfl⟩
    exact (ih h.2 hr'.value).1

lemma secure_labelExpression (name : String) {operand : Action Operand} (h : V.Secure operand) :
    V.Secure (labelExpression name operand) := by
  have hwrap : ∀ (k : Label) {r r' : Rated}, V.SameRated r r' →
      V.SameValue (r.value.wrap k) (r'.value.wrap k) := by
    intro k r r' hr
    refine ⟨by rw [Value.wrap_raw]; exact hr.value.left,
      by rw [Value.wrap_raw]; exact hr.value.right, ?_⟩
    rcases hr.value.agrees with heq | ⟨hless, hless'⟩
    · exact .inl (by rw [heq])
    · refine .inr ⟨?_, ?_⟩
      · rw [Label.less_iff] at *
        rw [Value.height_wrap]
        omega
      · rw [Label.less_iff] at *
        rw [Value.height_wrap]
        omega
  refine ⟨.bind (R := fun _ => True) (.of_done fun _ s hs _ => ⟨_, s, rfl, .refl hs, trivial⟩)
    fun realm _ => ?_, .seq (S := Eq) (.of_done fun E E' s s' hs _ => ?_) fun realm
      realm' heq => ?_⟩
  · split
    · exact .fail _
    · exact .bind (.valueOf h.unseen) fun r hr => .pure (.value (hwrap _ ⟨hr, hr, .inl rfl⟩).left)
  · exact ⟨_, _, s, s', rfl, rfl, hs, by rw [hs.agrees.control]⟩
  · rw [heq]
    split
    · exact .fail _
    · exact .seq (.valueOf h.lockstep) fun r r' hr => .pure (.value (hwrap _ hr))

/-! ## All expressions -/

lemma named_of_names {e : Expr Span} (h : e.names V.names = true) : V.Named e.action := by
  cases e <;> first | exact absurd h Bool.false_ne_true | skip
  exact named_ident (List.contains_iff_mem.1 h)

mutual

/-- The expressions of the core are secure. -/
theorem secure_expr : ∀ e : Expr Span, e.core V.names = true → V.Secure e.action
  | .ident id, h => (named_ident (List.contains_iff_mem.1 h)).secure
  | .number .., _ => secure_value rfl
  | .string .., _ => secure_value rfl
  | .bool .., _ => secure_value rfl
  | .null .., _ => secure_value rfl
  | .assign _ op target value, h => by
    simp only [Expr.core, Bool.and_eq_true] at h
    exact secure_assignment _ h.1.1 (named_of_names h.1.2) (secure_expr value h.2)
  | .binary _ op left right, h => by
    simp only [Expr.core, Bool.and_eq_true] at h
    exact secure_binary h.1.1 (secure_expr left h.1.2) (secure_expr right h.2)
  | .logical _ op left right, h => by
    simp only [Expr.core, Bool.and_eq_true] at h
    exact secure_logical _ _ op (secure_expr left h.1) (secure_expr right h.2)
  | .unary _ op operand, h => by
    simp only [Expr.core, Bool.and_eq_true, bne_iff_ne] at h
    exact secure_unary _ h.1 (secure_expr operand h.2)
  | .update _ op before operand, h => by
    rw [Expr.core] at h
    exact secure_increment _ op before (named_of_names h)
  | .conditional _ test yes no, h => by
    simp only [Expr.core, Bool.and_eq_true] at h
    exact secure_conditional _ _ (secure_expr test h.1.1) (secure_expr yes h.1.2)
      (secure_expr no h.2)
  | .sequence _ items, h => by
    rw [Expr.core] at h
    have hitems := secure_sequence (secure_exprs items h) (v := .undefined) ⟨rfl, rfl, .inl rfl⟩
    exact ⟨hitems.1, hitems.2⟩
  | .label _ name operand, h => by
    rw [Expr.core] at h
    exact secure_labelExpression name (secure_expr operand h)
  | .regexp .., h | .array .., h | .object .., h | .function .., h | .this .., h | .call .., h
  | .construct .., h | .member .., h | .index .., h => by simp [Expr.core] at h

lemma secure_exprs : ∀ es : List (Expr Span), coreExprs V.names es = true →
    ∀ p ∈ actions es, V.Secure p
  | [], _ => by simp [actions]
  | e :: es, h => by
    rw [coreExprs, Bool.and_eq_true] at h
    rw [actions, List.forall_mem_cons]
    exact ⟨secure_expr e h.1, secure_exprs es h.2⟩

end

end View
end Clearance
