/-
# What the grammar builds

Some trees are never read from a text: there are no label expressions in it, operators that
combine values are operators of the language, the keys of an object run through a variable or an
expression, and values are returned from functions only. Every production keeps to this
(`Rules.Keeps`), and so do the productions of every depth (`rules_keep`), by induction on the depth.

Whether a return statement may stand somewhere depends on the surroundings, which productions leave
as they find them.
-/
import Clearance.Script.Source
import Mathlib.Tactic.Common

namespace Clearance.Script

/-! ## Nodes -/

section

variable {α : Type}

/-- A statement in which the keys of an object may be put. Loops that count may start with it,
too. -/
def Stmt.takesKeys : Stmt α → Bool
  | .declare _ _ items => !items.isEmpty
  | .expr _ => true
  | _ => false

/-- The operator is one of the language. -/
def BinaryOp.named : BinaryOp → Bool
  | .other _ => false
  | _ => true

/-- The operator is one of the language. -/
def LogicalOp.named : LogicalOp → Bool
  | .other _ => false
  | _ => true

/-- The operator is one of the language. -/
def UnaryOp.named : UnaryOp → Bool
  | .other _ => false
  | _ => true

/-- The node can be read from a text. -/
def Node.spoken : Node α → Bool
  | .expr (.label ..) => false
  | .expr (.binary _ op _ _) => op.named
  | .expr (.logical _ op _ _) => op.named
  | .expr (.unary _ op _) => op.named
  | .stmt (.forIn _ target _ _) => target.takesKeys
  | .stmt (.forLoop _ init _ _ _) => init.all Stmt.takesKeys
  | _ => true

/-- The node returns from a function. -/
def Node.returns : Node α → Bool
  | .stmt (.giveBack ..) => true
  | _ => false

/-- Everything in a tree, whose nodes are given with and without the insides of its functions, can
be read from a text. Only what stands inside a function returns from one. -/
structure Spoken (inside : Bool) (nodes : Bool → List (Node α)) : Prop where
  all : ∀ node ∈ nodes true, node.spoken = true
  returns : inside = false → ∀ node ∈ nodes false, node.returns = false

/-- The value of a member. -/
def Member.value : Member α → Expr α
  | .mk _ _ v => v

/-- What a declared variable starts with. -/
def Declarator.init? : Declarator α → Option (Expr α)
  | .mk _ _ init => init

/-- The parts of a case: its test and its statements. -/
def Case.parts : Case α → Option (Expr α) × List (Stmt α)
  | .mk _ test body => (test, body)

/-- The parts of a catch clause: its guard and its block. -/
def Handler.parts : Handler α → Option (Expr α) × Block α
  | .mk _ _ guard body => (guard, body)

namespace Spoken

variable {inside : Bool} {n : Node α} {ns ms : Bool → List (Node α)}

lemma nil : Spoken inside fun _ => ([] : List (Node α)) := ⟨nofun, fun _ => nofun⟩

lemma cons (hn : n.spoken = true) (hreturns : inside = false → n.returns = false)
    (h : Spoken inside ns) : Spoken inside fun into => n :: ns into :=
  ⟨List.forall_mem_cons.2 ⟨hn, h.all⟩, fun hi => List.forall_mem_cons.2 ⟨hreturns hi, h.returns hi⟩⟩

lemma append (h : Spoken inside ns) (h' : Spoken inside ms) :
    Spoken inside fun into => ns into ++ ms into :=
  ⟨List.forall_mem_append.2 ⟨h.all, h'.all⟩,
    fun hi => List.forall_mem_append.2 ⟨h.returns hi, h'.returns hi⟩⟩

lemma idents (ids : List (Ident α)) : Spoken inside fun _ => ids.map Node.ident := by
  induction ids with
  | nil => exact .nil
  | cons id ids ih => exact ih.cons rfl fun _ => rfl

/-- Whatever a function returns stays inside it. -/
lemma function {s : α} {name : Option (Ident α)} {params : List (Ident α)} {body : List (Stmt α)}
    {form : Form} {source : String} (h : Spoken true fun into => nodesOfStmts into body) :
    Spoken inside fun into => (Function.mk s name params body form source).nodes into := by
  refine ⟨?_, fun _ => ?_⟩
  · have hnames : Spoken true fun _ => (name.toList ++ params).map (Node.ident (α := α)) :=
      .idents _
    exact List.forall_mem_cons.2 ⟨rfl, List.forall_mem_append.2 ⟨hnames.all, h.all⟩⟩
  · exact List.forall_mem_cons.2 ⟨rfl, nofun⟩

lemma exprs {es : List (Expr α)} (h : ∀ e ∈ es, Spoken inside fun into => e.nodes into) :
    Spoken inside fun into => nodesOfExprs into es := by
  induction es with
  | nil => exact .nil
  | cons e es ih =>
    obtain ⟨he, hes⟩ := List.forall_mem_cons.1 h
    exact he.append (ih hes)

lemma elements {es : List (Option (Expr α))}
    (h : ∀ e ∈ es, Spoken inside fun into => nodesOfExpr? into e) :
    Spoken inside fun into => nodesOfElements into es := by
  induction es with
  | nil => exact .nil
  | cons e es ih =>
    obtain ⟨he, hes⟩ := List.forall_mem_cons.1 h
    exact he.append (ih hes)

lemma members {ms : List (Member α)}
    (h : ∀ m ∈ ms, Spoken inside fun into => m.value.nodes into) :
    Spoken inside fun into => nodesOfMembers into ms := by
  induction ms with
  | nil => exact .nil
  | cons m ms ih =>
    obtain ⟨hm, hms⟩ := List.forall_mem_cons.1 h
    obtain ⟨k, kind, v⟩ := m
    exact (hm.append (ih hms)).cons rfl fun _ => rfl

lemma stmts {ss : List (Stmt α)} (h : ∀ s ∈ ss, Spoken inside fun into => s.nodes into) :
    Spoken inside fun into => nodesOfStmts into ss := by
  induction ss with
  | nil => exact .nil
  | cons s ss ih =>
    obtain ⟨hs, hss⟩ := List.forall_mem_cons.1 h
    exact hs.append (ih hss)

lemma declarators {kind : VarKind} {ds : List (Declarator α)}
    (h : ∀ d ∈ ds, Spoken inside fun into => nodesOfExpr? into d.init?) :
    Spoken inside fun into => nodesOfDeclarators into kind ds := by
  induction ds with
  | nil => exact .nil
  | cons d ds ih =>
    obtain ⟨hd, hds⟩ := List.forall_mem_cons.1 h
    obtain ⟨s, id, init⟩ := d
    exact ((hd.append (ih hds)).cons rfl fun _ => rfl).cons rfl fun _ => rfl

lemma cases {cs : List (Case α)} (h : ∀ c ∈ cs, Spoken inside fun into =>
      nodesOfExpr? into c.parts.1 ++ nodesOfStmts into c.parts.2) :
    Spoken inside fun into => nodesOfCases into cs := by
  induction cs with
  | nil => exact .nil
  | cons c cs ih =>
    obtain ⟨hc, hcs⟩ := List.forall_mem_cons.1 h
    obtain ⟨s, test, body⟩ := c
    exact (hc.append (ih hcs)).cons rfl fun _ => rfl

lemma handlers {hs : List (Handler α)} (h : ∀ c ∈ hs, Spoken inside fun into =>
      nodesOfExpr? into c.parts.1 ++ c.parts.2.nodes into) :
    Spoken inside fun into => nodesOfHandlers into hs := by
  induction hs with
  | nil => exact .nil
  | cons c hs ih =>
    obtain ⟨hc, hhs⟩ := List.forall_mem_cons.1 h
    obtain ⟨s, param, guard, body⟩ := c
    exact ((hc.append (ih hhs)).cons rfl fun _ => rfl).cons rfl fun _ => rfl

/-- The form of a function does not count. -/
lemma declareDirect {body : List (Stmt α)} (h : Spoken inside fun into => nodesOfStmts into body) :
    Spoken inside fun into => nodesOfStmts into (declareDirect body) := by
  induction body with
  | nil => exact .nil
  | cons s ss ih =>
    have hs : Spoken inside fun into => s.nodes into :=
      ⟨(List.forall_mem_append.1 h.all).1, fun hi => (List.forall_mem_append.1 (h.returns hi)).1⟩
    have hss : Spoken inside fun into => nodesOfStmts into ss :=
      ⟨(List.forall_mem_append.1 h.all).2, fun hi => (List.forall_mem_append.1 (h.returns hi)).2⟩
    cases s
    case function s f =>
      obtain ⟨s', n, ps, b, form, src⟩ := f
      have hdeclared : Spoken inside fun into =>
          (Stmt.function s (.mk s' n ps b .declared src)).nodes into := by
        refine ⟨?_, fun _ => ?_⟩
        · have hinside := (List.forall_mem_cons.1 (List.forall_mem_cons.1 hs.all).2).2
          exact List.forall_mem_cons.2 ⟨rfl, List.forall_mem_cons.2 ⟨rfl, hinside⟩⟩
        · exact List.forall_mem_cons.2 ⟨rfl, List.forall_mem_cons.2 ⟨rfl, nofun⟩⟩
      exact hdeclared.append (ih hss)
    all_goals exact hs.append (ih hss)

end Spoken

end

/-! ## Reading -/

lemma bind_eq_ok {ε A B : Type} {x : Except ε A} {k : A → Except ε B} {b : B} :
    (x >>= k) = .ok b ↔ ∃ a, x = .ok a ∧ k a = .ok b := by
  cases x with
  | error e => exact ⟨nofun, by rintro ⟨_, ⟨⟩, _⟩⟩
  | ok a => exact ⟨fun h => ⟨a, rfl, h⟩, by rintro ⟨_, ⟨⟩, h⟩; exact h⟩

namespace Parse

variable {A B : Type}

/-- What an action reads is as told, and it leaves open whether it reads inside a function. -/
def Yields (inside : Bool) (p : Parse A) (P : A → Prop) : Prop :=
  ∀ s a s', s.around.inFunction = inside → p s = .ok (a, s') →
    s'.around.inFunction = inside ∧ P a

/-- An action that reads no tree. -/
abbrev Moves (p : Parse A) : Prop := ∀ inside, p.Yields inside fun _ => True

namespace Yields

variable {inside : Bool} {p : Parse A} {k : A → Parse B} {P P' : A → Prop} {Q : B → Prop}

lemma mono (h : p.Yields inside P) (hP : ∀ a, P a → P' a) : p.Yields inside P' :=
  fun s a s' hs hp => (h s a s' hs hp).imp_right (hP a)

lemma pure {a : A} (h : P a) : (pure a : Parse A).Yields inside P := by
  rintro s _ _ hs ⟨⟩
  exact ⟨hs, h⟩

lemma throw (f : Fault) : (throw f : Parse A).Yields inside P := by
  rintro s a s' - ⟨⟩

lemma get : (get : Parse Reading).Yields inside fun s => s.around.inFunction = inside := by
  rintro s _ _ hs ⟨⟩
  exact ⟨hs, hs⟩

lemma modify {f : Reading → Reading}
    (hf : ∀ s, s.around.inFunction = inside → (f s).around.inFunction = inside) :
    (modify f : Parse Unit).Yields inside fun _ => True := by
  rintro s _ _ hs ⟨⟩
  exact ⟨hf s hs, trivial⟩

lemma set {s : Reading} (h : s.around.inFunction = inside) :
    (set s : Parse PUnit).Yields inside fun _ => True := by
  rintro _ _ _ - ⟨⟩
  exact ⟨h, trivial⟩

lemma lift (x : Except Fault A) : (liftM x : Parse A).Yields inside fun _ => True := by
  intro s a s' hs hrun
  cases x with
  | error e => cases hrun
  | ok a =>
    cases hrun
    exact ⟨hs, trivial⟩

lemma bind (hp : p.Yields inside P) (hk : ∀ a, P a → (k a).Yields inside Q) :
    (p >>= k).Yields inside Q := by
  intro s b s' hs hrun
  have hbind : (p >>= k) s = p s >>= fun r => k r.1 r.2 := rfl
  rw [hbind] at hrun
  cases hfirst : p s with
  | error e =>
    rw [hfirst] at hrun
    cases hrun
  | ok r =>
    rw [hfirst] at hrun
    obtain ⟨hs', ha⟩ := hp s r.1 r.2 hs hfirst
    exact hk r.1 ha r.2 b s' hs' hrun

lemma map {f : A → B} (hp : p.Yields inside P) (hf : ∀ a, P a → Q (f a)) :
    (f <$> p).Yields inside Q :=
  bind_pure_comp f p ▸ hp.bind fun a ha => .pure (hf a ha)

lemma ite {c : Prop} [Decidable c] {p q : Parse A} (hp : c → p.Yields inside P)
    (hq : ¬c → q.Yields inside P) : (if c then p else q).Yields inside P := by
  split
  · exact hp ‹_›
  · exact hq ‹_›

/-- A check in front of the rest. -/
lemma checked {c : Prop} [Decidable c] {check : Parse Unit} {rest : Unit → Parse A}
    (hcheck : check.Yields inside fun _ => True) (hrest : ∀ u, (rest u).Yields inside P) :
    (if c then check >>= rest else rest ()).Yields inside P :=
  .ite (fun _ => hcheck.bind fun u _ => hrest u) fun _ => hrest ()

lemma within {change : Surroundings → Surroundings} {inside' : Bool}
    (hchange : ∀ a, a.inFunction = inside → (change a).inFunction = inside')
    (hp : p.Yields inside' P) : (Parse.within change p).Yields inside P := by
  intro s a s' hs hrun
  have hwithin : Parse.within change p s = p { s with around := change s.around } >>=
      fun r => .ok (r.1, { r.2 with around := s.around }) := rfl
  rw [hwithin] at hrun
  cases hfirst : p { s with around := change s.around } with
  | error e =>
    rw [hfirst] at hrun
    cases hrun
  | ok r =>
    rw [hfirst] at hrun
    cases hrun
    exact ⟨hs, (hp _ r.1 r.2 (hchange _ hs) hfirst).2⟩

lemma collectUpTo {p : Parse (Option A)} (hp : p.Yields inside fun a => ∀ x ∈ a, P x) :
    ∀ fuel, (Parse.collectUpTo p fuel).Yields inside fun as => ∀ a ∈ as, P a
  | 0 => .pure nofun
  | fuel + 1 => hp.bind fun a ha => by
    cases a with
    | none => exact .pure nofun
    | some a =>
      exact (collectUpTo hp fuel).bind fun as has => .pure (List.forall_mem_cons.2 ⟨ha a rfl, has⟩)

lemma collect {p : Parse (Option A)} (hp : p.Yields inside fun a => ∀ x ∈ a, P x) :
    (Parse.collect p).Yields inside fun as => ∀ a ∈ as, P a :=
  get.bind fun _ _ => collectUpTo hp _

end Yields

/-! ### Tokens -/

lemma moves_token : Moves token := fun _ => Yields.get.bind fun _ _ => .pure trivial

lemma moves_kind : Moves kind := fun _ => (moves_token _).bind fun _ _ => .pure trivial

lemma moves_sees (text : String) : Moves (sees text) :=
  fun _ => (moves_kind _).bind fun _ _ => .pure trivial

lemma moves_next : Moves next := by
  intro inside
  refine Yields.get.bind fun s hs => (Yields.lift s.lex.next).bind fun r _ => ?_
  exact .set hs

lemma yields_unexpected {inside : Bool} {P : A → Prop} :
    (unexpected : Parse A).Yields inside P := by
  refine Yields.get.bind fun s hs => ?_
  dsimp only
  split <;> exact .throw _

lemma moves_expectKind (k : TokenKind) : Moves (expectKind k) := fun _ =>
  (moves_token _).bind fun _ _ =>
    .ite (fun _ => (moves_next _).bind fun _ _ => .pure trivial) fun _ => yields_unexpected

lemma moves_expect (text : String) : Moves (expect text) := moves_expectKind _

lemma moves_accept (text : String) : Moves (accept text) := fun _ =>
  (moves_sees text _).bind fun _ _ =>
    .ite (fun _ => (moves_next _).bind fun _ _ => .pure trivial) fun _ => .pure trivial

lemma moves_lineEnded : Moves lineEnded := fun _ => Yields.get.bind fun _ _ => .pure trivial

lemma moves_setLineEnded (b : Bool) : Moves (setLineEnded b) := fun _ => .modify fun _ hs => hs

lemma moves_discard {p : Parse A} (h : Moves p) : Moves (discard p) :=
  fun _ => (h _).map fun _ _ => trivial

lemma moves_semicolon : Moves semicolon := fun _ =>
  (moves_sees ")" _).bind fun _ _ => (moves_sees "\x7d" _).bind fun _ _ =>
    .ite (fun _ => (moves_lineEnded _).bind fun _ _ =>
      .ite (fun _ => moves_setLineEnded _ _) fun _ => moves_discard (moves_expect _) _)
    fun _ => .pure trivial

lemma moves_optionalSemicolon : Moves optionalSemicolon := fun _ =>
  (moves_sees ";" _).bind fun _ _ => .ite (fun _ => moves_next _) fun _ =>
    (moves_lineEnded _).bind fun _ _ => .ite (fun _ => moves_setLineEnded _ _) fun _ =>
      (moves_kind _).bind fun _ _ => (moves_sees "\x7d" _).bind fun _ _ =>
        .ite (fun _ => moves_discard (moves_expect _) _) fun _ => .pure trivial

lemma moves_skipStatement : ∀ fuel, Moves (skipStatement fuel)
  | 0, _ => .pure trivial
  | fuel + 1, inside => by
    have hskip : (do next; skipStatement fuel : Parse Unit).Yields inside fun _ => True :=
      (moves_next _).bind fun _ _ => moves_skipStatement fuel _
    refine (moves_kind _).bind fun k _ => ?_
    split
    · exact .pure trivial
    · exact .ite (fun _ => .pure trivial) fun _ => hskip
    · exact hskip

end Parse

/-! ## Productions -/

open Parse

/-- The tree of an expression is read from a text. -/
abbrev SpokenExpr (inside : Bool) (e : RawExpr) : Prop := Spoken inside fun into => e.nodes into

/-- The tree of a statement is read from a text. -/
abbrev SpokenStmt (inside : Bool) (s : RawStmt) : Prop := Spoken inside fun into => s.nodes into

/-- The tree of an expression that may be missing is read from a text. -/
abbrev SpokenOption (inside : Bool) (e : Option RawExpr) : Prop :=
  Spoken inside fun into => nodesOfExpr? into e

/-- The trees of statements are read from a text. -/
abbrev SpokenStmts (inside : Bool) (ss : List RawStmt) : Prop :=
  Spoken inside fun into => nodesOfStmts into ss

/-- The productions that contain themselves give trees as they are read. -/
structure Rules.Keeps (r : Rules) : Prop where
  assignment : ∀ inside, r.assignment.Yields inside (SpokenExpr inside)
  relational : ∀ inside, r.relational.Yields inside (SpokenExpr inside)
  unary : ∀ inside, r.unary.Yields inside (SpokenExpr inside)
  construct : ∀ inside, r.construct.Yields inside (SpokenExpr inside)
  statement : ∀ inside, r.statement.Yields inside (SpokenStmt inside)

/-- The spelling between two operands names an operator of the language. -/
def namesOperator (op : String) : Bool :=
  (Node.expr (binaryExpr op (.null .unknown) (.null .unknown))).spoken

lemma SpokenStmts.block {inside : Bool} {b : Block Extent} (h : SpokenStmts inside b.body) :
    Spoken inside fun into => b.nodes into := by
  cases b
  exact h.cons rfl fun _ => rfl

/-- An expression that may be left out. -/
lemma Parse.Yields.optional {A : Type} {inside : Bool} {c : Prop} [Decidable c] {p : Parse RawExpr}
    {rest : Option RawExpr → Parse A} {P : A → Prop} (hp : p.Yields inside (SpokenExpr inside))
    (hrest : ∀ e, SpokenOption inside e → (rest e).Yields inside P) :
    (if c then Pure.pure none >>= rest else some <$> p >>= rest).Yields inside P :=
  .ite (fun _ => (Yields.pure .nil).bind hrest) fun _ =>
    (Yields.map (f := some) (Q := SpokenOption inside) hp fun _ h => h).bind hrest

/-! ### Names and literals -/

lemma moves_parseIdent : Moves parseIdent := fun _ =>
  (moves_token _).bind fun _ _ => (moves_next _).bind fun _ _ => .pure trivial

lemma moves_stringValue (offset : Nat) (literal : String) : Moves (stringValue offset literal) := by
  intro inside
  unfold stringValue
  split
  · exact .pure trivial
  · exact .throw _

lemma moves_parseFlags (after : Cursor) : Moves (parseFlags after) := by
  intro inside
  unfold parseFlags
  refine Yields.bind (Yields.modify fun s hs => hs) fun _ _ => ?_
  exact (moves_next _).bind fun _ _ => (moves_token _).bind fun _ _ =>
    .ite (fun _ => (moves_next _).bind fun _ _ => Yields.get.bind fun _ _ => .pure trivial)
      fun _ => .pure trivial

lemma moves_parseKey : Moves parseKey := by
  intro inside
  refine (moves_token _).bind fun t _ => (moves_next _).bind fun _ _ => ?_
  split
  · exact .pure trivial
  · exact .pure trivial
  · exact (moves_stringValue _ _ _).bind fun _ _ => .pure trivial
  · exact .pure trivial

lemma moves_parseParams : Moves parseParams := by
  intro inside
  refine (moves_discard (moves_expect _) _).bind fun _ _ => ?_
  refine Yields.bind (P := fun _ => True) ?_ fun _ _ =>
    (moves_discard (moves_expect _) _).bind fun _ _ => .pure trivial
  refine (Yields.collect (P := fun _ => True) ?_).mono fun _ _ => trivial
  refine (moves_sees _ _).bind fun _ _ => (moves_kind _).bind fun _ _ =>
    .ite (fun _ => .pure fun _ _ => trivial) fun _ => (moves_kind _).bind fun _ _ => ?_
  refine .checked yields_unexpected fun _ => (moves_parseIdent _).bind fun id _ => ?_
  exact (moves_sees _ _).bind fun _ _ => .checked (moves_discard (moves_expect _) _) fun _ =>
    .pure fun _ _ => trivial

lemma yields_parsePattern {inside : Bool} : parsePattern.Yields inside (SpokenExpr inside) := by
  refine (moves_token _).bind fun t _ => ?_
  extract_lets start rest
  have hrest : ∀ x, (rest x).Yields inside (SpokenExpr inside) := by
    rintro ⟨after, pattern⟩
    refine (moves_parseFlags _ _).bind fun ⟨flags, stop⟩ _ => ?_
    dsimp only
    split
    · exact .throw _
    · exact .pure (Spoken.nil.cons rfl fun _ => rfl)
  split
  · exact (Yields.throw (P := fun _ => True) _).bind fun x _ => hrest x
  · exact (Yields.pure (P := fun _ => True) trivial).bind fun x _ => hrest x
  · exact (Yields.pure (P := fun _ => True) trivial).bind fun x _ => hrest x

section

variable {r : Rules} (hr : r.Keeps) {inside : Bool}

include hr

/-! ### Functions -/

lemma yields_parseStatements : (parseStatements r).Yields inside (SpokenStmts inside) := by
  unfold parseStatements
  refine (Yields.collect (P := SpokenStmt inside) ?_).mono fun ss => Spoken.stmts
  exact (moves_sees _ _).bind fun _ _ => (moves_kind _).bind fun _ _ =>
    .ite (fun _ => .pure nofun) fun _ => (hr.statement _).bind fun _ hs =>
      .pure fun _ h => Option.some.inj h ▸ hs

lemma yields_parseBlock :
    (parseBlock r).Yields inside fun b => SpokenStmts inside b.body :=
  (moves_expect _ _).bind fun _ _ => (yields_parseStatements hr).bind fun _ hbody =>
    (moves_expect _ _).bind fun _ _ => .pure hbody

/-- The body of a function stands inside it, wherever the function stands. -/
lemma yields_parseBody : (parseBody r).Yields inside fun b => SpokenStmts true b.1 :=
  (Yields.within (fun _ _ => rfl) (yields_parseBlock hr)).bind fun _ hbody =>
    .pure hbody.declareDirect

lemma yields_parseFunction (form : Form) :
    (parseFunction r form).Yields inside fun fn => Spoken inside fun into => fn.nodes into := by
  refine (moves_token _).bind fun t _ => (moves_discard (moves_expect _) _).bind fun _ _ =>
    (moves_kind _).bind fun _ _ => ?_
  extract_lets rest
  have hrest : ∀ name, (rest name).Yields inside fun fn => Spoken inside fun i => fn.nodes i :=
    fun name => (moves_parseParams _).bind fun _ _ =>
      (yields_parseBody hr).bind fun ⟨_, _⟩ hbody => .pure (.function hbody)
  refine .ite (fun _ => ?_) fun _ => .ite (fun _ => ?_) fun _ => ?_
  · exact ((moves_parseIdent _).map (Q := fun _ => True) fun _ _ => trivial).bind fun name _ =>
      hrest name
  · exact (yields_unexpected (P := fun _ => True)).bind fun name _ => hrest name
  · exact (Yields.pure (P := fun _ => True) trivial).bind fun name _ => hrest name

/-! ### Expressions -/

lemma yields_parseAccessor (kind : MemberKind) :
    (parseAccessor r kind).Yields inside fun m => SpokenExpr inside m.value := by
  refine (moves_token _).bind fun _ _ => (moves_parseKey _).bind fun ⟨_, _⟩ _ => ?_
  exact (moves_parseParams _).bind fun _ _ => (yields_parseBody hr).bind fun ⟨_, _⟩ hbody =>
    .pure (.function hbody)

lemma yields_parseMember :
    (parseMember r).Yields inside fun m => SpokenExpr inside m.value := by
  refine (moves_parseKey _).bind fun ⟨literal, key⟩ _ => (moves_sees _ _).bind fun _ _ => ?_
  refine .ite (fun _ => yields_parseAccessor hr .get) fun _ => (moves_sees _ _).bind fun _ _ => ?_
  exact .ite (fun _ => yields_parseAccessor hr .set) fun _ =>
    (moves_discard (moves_expect _) _).bind fun _ _ => (hr.assignment _).bind fun _ hv => .pure hv

lemma yields_parseObject : (parseObject r).Yields inside (SpokenExpr inside) := by
  refine (moves_expect _ _).bind fun _ _ => Yields.bind
    (Yields.collect (P := fun m : Member Extent => SpokenExpr inside m.value) ?_) fun ms hms => ?_
  · exact (moves_sees _ _).bind fun _ _ => (moves_kind _).bind fun _ _ =>
      .ite (fun _ => .pure nofun) fun _ => (yields_parseMember hr).bind fun _ hm =>
        (moves_discard (moves_accept _) _).bind fun _ _ => .pure fun _ h => Option.some.inj h ▸ hm
  · exact (moves_expect _ _).bind fun _ _ => .pure ((Spoken.members hms).cons rfl fun _ => rfl)

lemma yields_parseArray : (parseArray r).Yields inside (SpokenExpr inside) := by
  refine (moves_expect _ _).bind fun _ _ => Yields.bind (Yields.collect
    (P := fun e : Option RawExpr => Spoken inside fun into => nodesOfExpr? into e) ?_)
      fun es hes => ?_
  · refine (moves_sees _ _).bind fun _ _ => (moves_kind _).bind fun _ _ =>
      .ite (fun _ => .pure nofun) fun _ => (moves_accept _ _).bind fun _ _ => .ite (fun _ => ?_) ?_
    · exact .pure fun _ h => Option.some.inj h ▸ .nil
    · refine fun _ => (hr.assignment _).bind fun e he => (moves_sees _ _).bind fun _ _ => ?_
      exact .checked (moves_discard (moves_expect _) _) fun _ =>
        .pure fun _ h => Option.some.inj h ▸ he
  · exact (moves_expect _ _).bind fun _ _ => .pure ((Spoken.elements hes).cons rfl fun _ => rfl)

lemma yields_parseItems :
    (parseItems r).Yields inside fun es => ∀ e ∈ es, SpokenExpr inside e := by
  refine (hr.assignment _).bind fun first hfirst => Yields.bind (Yields.collect
    (P := SpokenExpr inside) ?_) fun more hmore => .pure (List.forall_mem_cons.2 ⟨hfirst, hmore⟩)
  exact (moves_accept _ _).bind fun _ _ => .ite (fun _ => (hr.assignment _).bind fun _ he =>
    .pure fun _ h => Option.some.inj h ▸ he) fun _ => .pure nofun

lemma yields_parseExpression : (parseExpression r).Yields inside (SpokenExpr inside) := by
  refine (yields_parseItems hr).bind fun es hes => ?_
  split
  · exact .pure (hes _ (List.mem_singleton.2 rfl))
  · exact .pure ((Spoken.exprs hes).cons rfl fun _ => rfl)

lemma yields_parsePrimary : (parsePrimary r).Yields inside (SpokenExpr inside) := by
  have hleaf : ∀ {e : RawExpr}, (∀ into, e.nodes into = [.expr e]) → (Node.expr e).spoken = true →
      SpokenExpr inside e := by
    intro e hnodes he
    refine ⟨?_, fun _ => ?_⟩
    · rw [hnodes]
      exact List.forall_mem_singleton.2 he
    · rw [hnodes]
      exact List.forall_mem_singleton.2 rfl
  refine (moves_token _).bind fun t _ => ?_
  extract_lets extent
  split
  · exact (moves_parseIdent _).bind fun _ _ => .pure (Spoken.nil.cons rfl fun _ => rfl)
  · exact (moves_next _).bind fun _ _ => .pure (hleaf (fun _ => rfl) rfl)
  · exact (moves_next _).bind fun _ _ => .pure (hleaf (fun _ => rfl) rfl)
  · exact (moves_next _).bind fun _ _ => (moves_stringValue _ _ _).bind fun _ _ =>
      .pure (hleaf (fun _ => rfl) rfl)
  · exact (moves_next _).bind fun _ _ => .pure (hleaf (fun _ => rfl) rfl)
  · exact yields_parsePattern
  · exact yields_parsePattern
  · exact yields_parseObject hr
  · exact yields_parseArray hr
  · exact (moves_next _).bind fun _ _ => (yields_parseExpression hr).bind fun e he =>
      (moves_discard (moves_expect _) _).bind fun _ _ => .pure he
  · exact (moves_next _).bind fun _ _ => .pure (hleaf (fun _ => rfl) rfl)
  · exact (yields_parseFunction hr _).bind fun _ hf => .pure hf
  · exact yields_unexpected

lemma yields_parseArguments :
    (parseArguments r).Yields inside fun a => ∀ e ∈ a.1, SpokenExpr inside e := by
  refine (moves_discard (moves_expect _) _).bind fun _ _ => (moves_sees _ _).bind fun _ _ => ?_
  extract_lets rest
  have hrest : ∀ es, (∀ e ∈ es, SpokenExpr inside e) →
      (rest es).Yields inside fun a => ∀ e ∈ a.1, SpokenExpr inside e :=
    fun es hes => (moves_expect _ _).bind fun _ _ => .pure hes
  refine .ite (fun _ => ?_) fun _ => ?_
  · have hnone : ∀ e ∈ ([] : List RawExpr), SpokenExpr inside e := by simp
    exact (Yields.pure hnone).bind hrest
  · exact (yields_parseItems hr).bind hrest

omit hr in
lemma yields_parseDot {e : RawExpr} (he : SpokenExpr inside e) :
    (parseDot e).Yields inside (SpokenExpr inside) := by
  refine (moves_expect _ _).bind fun _ _ => (moves_token _).bind fun _ _ => ?_
  refine .ite (fun _ => (moves_next _).bind fun _ _ => ?_) fun _ => ?_
  · exact .pure ((he.append (Spoken.nil.cons rfl fun _ => rfl)).cons rfl fun _ => rfl)
  · exact (moves_discard (moves_expectKind _) _).bind fun _ _ => Yields.get.bind fun _ _ =>
      (moves_skipStatement _ _).bind fun _ _ => (moves_token _).bind fun _ _ =>
        .pure (Spoken.nil.cons rfl fun _ => rfl)

lemma yields_parseIndex {e : RawExpr} (he : SpokenExpr inside e) :
    (parseIndex r e).Yields inside (SpokenExpr inside) :=
  (moves_discard (moves_expect _) _).bind fun _ _ => (yields_parseExpression hr).bind fun _ hk =>
    (moves_expect _ _).bind fun _ _ => .pure ((he.append hk).cons rfl fun _ => rfl)

lemma yields_parseSuffixes (calls : Bool) : ∀ (fuel : Nat) {e : RawExpr}, SpokenExpr inside e →
    (parseSuffixes r calls fuel e).Yields inside (SpokenExpr inside)
  | 0, _, he => .pure he
  | fuel + 1, e, he => by
    refine (moves_kind _).bind fun k _ => ?_
    split
    · exact (yields_parseDot he).bind fun _ h => yields_parseSuffixes calls fuel h
    · exact (yields_parseIndex hr he).bind fun _ h => yields_parseSuffixes calls fuel h
    · refine .ite (fun _ => ?_) fun _ => .pure he
      refine (yields_parseArguments hr).bind fun as has => ?_
      exact yields_parseSuffixes calls fuel ((he.append (.exprs has)).cons rfl fun _ => rfl)
    · exact .pure he

lemma yields_parseAccess (calls : Bool) :
    (parseAccess r calls).Yields inside (SpokenExpr inside) := by
  refine (moves_sees _ _).bind fun _ _ => ?_
  extract_lets rest
  have hrest : ∀ e, SpokenExpr inside e → (rest e).Yields inside (SpokenExpr inside) :=
    fun e he => Yields.get.bind fun _ _ => yields_parseSuffixes hr calls _ he
  exact .ite (fun _ => (hr.construct _).bind hrest) fun _ => (yields_parsePrimary hr).bind hrest

lemma yields_parseConstruct : (parseConstruct r).Yields inside (SpokenExpr inside) := by
  refine (moves_expect _ _).bind fun _ _ => (yields_parseAccess hr false).bind fun callee hc =>
    (moves_sees _ _).bind fun _ _ => .ite (fun _ => ?_) fun _ => ?_
  · exact (yields_parseArguments hr).bind fun ⟨_, _⟩ has =>
      .pure ((hc.append (.exprs has)).cons rfl fun _ => rfl)
  · exact .pure ((hc.append .nil).cons rfl fun _ => rfl)

lemma yields_parsePostfix : (parsePostfix r).Yields inside (SpokenExpr inside) := by
  unfold parsePostfix
  refine Yields.bind (.within (fun _ h => h) (yields_parseAccess hr true)) fun e he => ?_
  refine (moves_token _).bind fun t _ => ?_
  split
  · refine (moves_lineEnded _).bind fun _ _ => .ite (fun _ => ?_) fun _ => .pure he
    refine (moves_next _).bind fun _ _ => .checked (.throw _) fun _ => ?_
    exact .pure (he.cons rfl fun _ => rfl)
  · exact .pure he

omit hr in
/-- The words and signs in front of an operand are operators of the language. -/
lemma spoken_unary {op : String} {s : Extent} {e : RawExpr}
    (h : op ∈ ["+", "-", "!", "~", "delete", "void", "typeof"]) :
    (Node.expr (.unary s (.ofText op) e)).spoken = true := by
  have hall : ∀ op ∈ ["+", "-", "!", "~", "delete", "void", "typeof"], ∀ s e,
      (Node.expr (α := Extent) (.unary s (.ofText op) e)).spoken = true := by
    simp only [List.forall_mem_cons]
    exact ⟨fun _ _ => rfl, fun _ _ => rfl, fun _ _ => rfl, fun _ _ => rfl, fun _ _ => rfl,
      fun _ _ => rfl, fun _ _ => rfl, nofun⟩
  exact hall op h s e

lemma yields_parseUnary : (parseUnary r).Yields inside (SpokenExpr inside) := by
  refine (moves_token _).bind fun t _ => ?_
  split
  · refine .ite (fun hop => ?_) fun _ => .ite (fun _ => ?_) fun _ => yields_parsePostfix hr
    · exact (moves_next _).bind fun _ _ => (hr.unary _).bind fun _ he =>
        .pure (he.cons (spoken_unary hop) fun _ => rfl)
    · refine (moves_next _).bind fun _ _ => (hr.unary _).bind fun _ he => ?_
      exact .checked (.throw _) fun _ => .pure (he.cons rfl fun _ => rfl)
  · exact yields_parsePostfix hr

omit hr in
lemma spoken_binaryExpr {op : String} {e e' : RawExpr} (hop : namesOperator op = true)
    (he : SpokenExpr inside e) (he' : SpokenExpr inside e') :
    SpokenExpr inside (binaryExpr op e e') := by
  unfold namesOperator at hop
  unfold binaryExpr at hop ⊢
  split_ifs at hop ⊢
  · exact (he.append he').cons hop fun _ => rfl
  · exact (he.append he').cons hop fun _ => rfl

omit hr in
lemma yields_parseJoined {ops : List String} {operand : Parse RawExpr}
    (hops : ∀ op ∈ ops, namesOperator op = true) (h : operand.Yields inside (SpokenExpr inside)) :
    ∀ (fuel : Nat) {e : RawExpr}, SpokenExpr inside e →
      (parseJoined ops operand fuel e).Yields inside (SpokenExpr inside)
  | 0, _, he => .pure he
  | fuel + 1, e, he => by
    refine (moves_kind _).bind fun k _ => ?_
    split
    · refine .ite (fun hop => ?_) fun _ => .pure he
      exact (moves_next _).bind fun _ _ => h.bind fun _ he' =>
        yields_parseJoined hops h fuel (spoken_binaryExpr (hops _ hop) he he')
    · exact .pure he

omit hr in
/-- All levels of operators, if each is one of operators of the language. -/
lemma yields_levels {levels : List (List String)} {operand : Parse RawExpr}
    (hlevels : ∀ ops ∈ levels, ∀ op ∈ ops, namesOperator op = true)
    (h : operand.Yields inside (SpokenExpr inside)) :
    (levels.foldl parseLevel operand).Yields inside (SpokenExpr inside) := by
  induction levels generalizing operand with
  | nil => exact h
  | cons ops levels ih =>
    obtain ⟨hops, hlevels⟩ := List.forall_mem_cons.1 hlevels
    exact ih hlevels (h.bind fun _ he => Yields.get.bind fun _ _ =>
      yields_parseJoined hops h _ he)

lemma yields_parseRelational : (parseRelational r).Yields inside (SpokenExpr inside) := by
  refine Yields.bind (P := SpokenExpr inside) (yields_levels (by decide) (yields_parseUnary hr))
    fun left hl => (moves_kind _).bind fun k _ => ?_
  split
  · rename_i op
    refine Yields.get.bind fun s _ => .ite (fun hop => ?_) fun _ => .pure hl
    have hnames : namesOperator op = true := by
      rcases Bool.or_eq_true_iff.1 hop with hop | hop
      · exact (show ∀ op ∈ ["<", "<=", ">", ">=", "instanceof"], namesOperator op = true by decide)
          op (of_decide_eq_true hop)
      · rw [eq_of_beq (Bool.and_eq_true_iff.1 hop).1]
        rfl
    exact .within (fun _ h => h) ((moves_next _).bind fun _ _ => (hr.relational _).bind
      fun _ he => .pure (spoken_binaryExpr hnames hl he))
  · exact .pure hl

lemma yields_parseConditional : (parseConditional r).Yields inside (SpokenExpr inside) := by
  refine Yields.bind (P := SpokenExpr inside)
    (yields_levels (by decide) (yields_parseRelational hr)) fun test ht => ?_
  refine (moves_accept _ _).bind fun _ _ => .ite (fun _ => ?_) fun _ => .pure ht
  exact (hr.assignment _).bind fun _ hc => (moves_discard (moves_expect _) _).bind fun _ _ =>
    (hr.assignment _).bind fun _ ha => .pure (((ht.append hc).append ha).cons rfl fun _ => rfl)

lemma yields_parseAssignment : (parseAssignment r).Yields inside (SpokenExpr inside) := by
  refine (yields_parseConditional hr).bind fun left hl => (moves_kind _).bind fun k _ => ?_
  split
  · refine .ite (fun _ => (moves_next _).bind fun _ _ => ?_) fun _ => .pure hl
    refine .checked (.throw _) fun _ => (hr.assignment _).bind fun _ hv => ?_
    exact .pure ((hl.append hv).cons rfl fun _ => rfl)
  · exact .pure hl

/-! ### Statements -/

lemma yields_parseDeclarator : (parseDeclarator r).Yields inside fun d =>
    Spoken inside fun into => nodesOfExpr? into d.init? :=
  (moves_token _).bind fun _ _ => (moves_discard (moves_expectKind _) _).bind fun _ _ =>
    (moves_accept _ _).bind fun _ _ =>
      .ite (fun _ => (hr.assignment _).bind fun _ he => .pure he) fun _ => .pure .nil

/-- A declaration has at least one variable. -/
lemma yields_parseDeclarators : (parseDeclarators r).Yields inside fun ds =>
    ds.isEmpty = false ∧ ∀ d ∈ ds, Spoken inside fun into => nodesOfExpr? into d.init? := by
  refine (yields_parseDeclarator hr).bind fun first hfirst => Yields.bind (Yields.collect
    (P := fun d => Spoken inside fun into => nodesOfExpr? into d.init?) ?_) fun more hmore =>
      .pure ⟨rfl, List.forall_mem_cons.2 ⟨hfirst, hmore⟩⟩
  exact (moves_accept _ _).bind fun _ _ => .ite (fun _ => (yields_parseDeclarator hr).bind
    fun _ hd => .pure fun _ h => Option.some.inj h ▸ hd) fun _ => .pure nofun

lemma yields_parseVar : (parseVar r).Yields inside (SpokenStmt inside) :=
  (moves_expect _ _).bind fun _ _ => (yields_parseDeclarators hr).bind fun _ hds =>
    (moves_semicolon _).bind fun _ _ =>
      .pure ((Spoken.declarators hds.2).cons rfl fun _ => rfl)

lemma yields_parseCondition : (parseCondition r).Yields inside fun c => SpokenExpr inside c.1 :=
  (moves_discard (moves_expect _) _).bind fun _ _ => (yields_parseExpression hr).bind fun _ he =>
    (moves_expect _ _).bind fun _ _ => .pure he

lemma yields_parseLoopBody : (parseLoopBody r).Yields inside (SpokenStmt inside) := by
  unfold parseLoopBody
  exact .within (fun _ h => h) (hr.statement _)

lemma yields_parseIf : (parseIf r).Yields inside (SpokenStmt inside) := by
  refine (moves_expect _ _).bind fun _ _ => (yields_parseCondition hr).bind fun ⟨test, _⟩ ht => ?_
  refine (hr.statement _).bind fun _ hc => (moves_accept _ _).bind fun _ _ =>
    .ite (fun _ => (hr.statement _).bind fun _ ha => ?_) fun _ => ?_
  · exact .pure (((Spoken.append ht hc).append ha).cons rfl fun _ => rfl)
  · exact .pure (((Spoken.append ht hc).append .nil).cons rfl fun _ => rfl)

lemma yields_parseWhile : (parseWhile r).Yields inside (SpokenStmt inside) := by
  refine (moves_expect _ _).bind fun _ _ => (yields_parseCondition hr).bind fun ⟨test, _⟩ ht => ?_
  exact (yields_parseLoopBody hr).bind fun _ hb =>
    .pure ((Spoken.append ht hb).cons rfl fun _ => rfl)

lemma yields_parseDo : (parseDo r).Yields inside (SpokenStmt inside) := by
  refine (moves_expect _ _).bind fun _ _ => Yields.bind
    (P := fun c => SpokenStmt inside c.1 ∧ SpokenExpr inside c.2.1) (.within (fun _ h => h) ?_)
      fun ⟨body, test, stop⟩ hc => ?_
  · exact (hr.statement _).bind fun _ hb => (moves_discard (moves_expect _) _).bind fun _ _ =>
      (yields_parseCondition hr).bind fun ⟨_, _⟩ ht => .pure ⟨hb, ht⟩
  · exact (moves_setLineEnded _ _).bind fun _ _ => (moves_optionalSemicolon _).bind fun _ _ =>
      .pure ((hc.1.append hc.2).cons rfl fun _ => rfl)

omit hr in
/-- What a `for` statement starts with takes keys, and in front of `in` there is something. -/
structure SpokenHead (inside : Bool) (h : ForHead × Bool) : Prop where
  tree : Spoken inside fun into => nodesOfStmt? into h.1.stmt?
  takes : h.1.stmt?.all Stmt.takesKeys = true
  keys : h.2 = true → ∃ s, h.1.stmt? = some s

lemma yields_parseForHead : (parseForHead r).Yields inside (SpokenHead inside) := by
  refine (moves_sees _ _).bind fun _ _ => .ite (fun _ => .pure ⟨.nil, rfl, nofun⟩) fun _ =>
    .within (fun _ h => h) ((moves_accept _ _).bind fun _ _ => .ite (fun _ => ?_) fun _ => ?_)
  · refine (yields_parseDeclarators hr).bind fun ds hds => ?_
    have htree : Spoken inside fun into => nodesOfStmt? into (ForHead.declared ds).stmt? :=
      (Spoken.declarators hds.2).cons rfl fun _ => rfl
    have htakes : (ForHead.declared ds).stmt?.all Stmt.takesKeys = true := congrArg (!·) hds.1
    exact .ite (fun _ => (moves_accept _ _).bind fun _ _ =>
      .pure ⟨htree, htakes, fun _ => ⟨_, rfl⟩⟩)
      fun _ => .pure ⟨htree, htakes, nofun⟩
  · exact (yields_parseExpression hr).bind fun e he => (moves_accept _ _).bind fun _ _ =>
      .pure ⟨he, rfl, fun _ => ⟨_, rfl⟩⟩

lemma yields_parseFor : (parseFor r).Yields inside (SpokenStmt inside) := by
  refine (moves_expect _ _).bind fun start _ => (moves_discard (moves_expect _) _).bind fun _ _ =>
    (yields_parseForHead hr).bind fun ⟨head, overKeys⟩ hhead => .ite (fun hkeys => ?_) fun _ => ?_
  · extract_lets rest
    have hrest : ∀ u, (rest u).Yields inside (SpokenStmt inside) := by
      obtain ⟨target, htarget⟩ := hhead.keys hkeys
      have htree : SpokenStmt inside target := by
        have htree := hhead.tree
        rwa [htarget] at htree
      have htakes : target.takesKeys = true := by
        have htakes := hhead.takes
        rwa [htarget] at htakes
      intro u
      refine (yields_parseExpression hr).bind fun source hs =>
        (moves_discard (moves_expect _) _).bind fun _ _ => (yields_parseLoopBody hr).bind
          fun body hb => .pure ?_
      dsimp only at htarget
      rw [htarget]
      exact ((htree.append hs).append hb).cons htakes fun _ => rfl
    split
    · exact .checked (.throw _) hrest
    · exact hrest ()
  · refine (moves_discard (moves_expect _) _).bind fun _ _ => (moves_sees _ _).bind fun _ _ =>
      .optional (yields_parseExpression hr) fun test ht => ?_
    refine (moves_discard (moves_expect _) _).bind fun _ _ => (moves_sees _ _).bind fun _ _ =>
      .optional (yields_parseExpression hr) fun update hu => ?_
    exact (moves_discard (moves_expect _) _).bind fun _ _ => (yields_parseLoopBody hr).bind
      fun _ hb => .pure ((((hhead.tree.append ht).append hu).append hb).cons hhead.takes
        fun _ => rfl)

omit hr in
lemma moves_parseJump (word : String) (allowed labeled : Surroundings → Bool) :
    Moves (parseJump word allowed labeled) := by
  intro inside
  refine (moves_expect _ _).bind fun _ _ => (moves_lineEnded _).bind fun _ _ =>
    (moves_accept _ _).bind fun _ _ => ?_
  extract_lets -underBinder rest
  have hrest : ∀ ended, (rest ended).Yields inside fun _ => True := by
    refine fun ended => (moves_sees _ _).bind fun _ _ => .ite (fun _ => ?_) fun _ =>
      (moves_kind _).bind fun _ _ => .ite (fun _ => ?_) fun _ => yields_unexpected
    · exact (moves_setLineEnded _ _).bind fun _ _ => Yields.get.bind fun _ _ =>
        .checked (.throw _) fun _ => .pure trivial
    · refine (moves_parseIdent _).bind fun _ _ => Yields.get.bind fun _ _ =>
        .checked (.throw _) fun _ => Yields.get.bind fun _ _ => .checked (.throw _) fun _ => ?_
      exact (moves_semicolon _).bind fun _ _ => .pure trivial
  exact .ite (fun _ => (Yields.pure (P := fun _ => True) trivial).bind fun _ _ => hrest _)
    fun _ => (Yields.pure (P := fun _ => True) trivial).bind fun _ _ => hrest _

/-- The check that a return statement stands inside a function. -/
lemma yields_parseReturn : (parseReturn r).Yields inside (SpokenStmt inside) := by
  refine (moves_expect _ _).bind fun start _ => Yields.get.bind fun s hs => ?_
  extract_lets rest
  refine .ite (fun _ => ?_) fun hinside => ?_
  · exact (Yields.throw (P := fun _ => False) _).bind fun _ h => h.elim
  · rw [hs, Bool.not_eq_true, Bool.not_eq_false'] at hinside
    refine (moves_lineEnded _).bind fun _ _ => (moves_sees _ _).bind fun _ _ =>
      (moves_sees _ _).bind fun _ _ => (moves_kind _).bind fun _ _ =>
        .optional (yields_parseExpression hr) fun value hv => ?_
    exact (moves_semicolon _).bind fun _ _ => .pure
      (hv.cons rfl fun h => absurd h (by simp [hinside]))

lemma yields_parseThrow : (parseThrow r).Yields inside (SpokenStmt inside) := by
  refine (moves_expect _ _).bind fun _ _ => (moves_lineEnded _).bind fun _ _ => ?_
  extract_lets rest
  have hrest : ∀ u, (rest u).Yields inside (SpokenStmt inside) :=
    fun u => (yields_parseExpression hr).bind fun _ hv => (moves_semicolon _).bind fun _ _ =>
      .pure (hv.cons rfl fun _ => rfl)
  refine .ite (fun _ => Yields.get.bind fun _ _ => .ite (fun _ => ?_) fun _ => ?_) fun _ => hrest ()
  · exact (Yields.throw (P := fun _ => True) _).bind fun u _ => hrest u
  · exact (Yields.throw (P := fun _ => True) _).bind fun u _ => hrest u

lemma yields_parseCase : (parseCase r).Yields inside fun c => Spoken inside fun into =>
    nodesOfExpr? into c.1.parts.1 ++ nodesOfStmts into c.1.parts.2 := by
  refine (moves_token _).bind fun _ _ => (moves_accept _ _).bind fun _ _ => ?_
  extract_lets rest
  have hrest : ∀ test, SpokenOption inside test → (rest test).Yields inside fun c =>
      Spoken inside fun into => nodesOfExpr? into c.1.parts.1 ++ nodesOfStmts into c.1.parts.2 := by
    refine fun test ht => (moves_discard (moves_expect _) _).bind fun _ _ => Yields.bind
      (Yields.collect (P := SpokenStmt inside) ?_) fun _ hb => .pure (ht.append (.stmts hb))
    exact (moves_kind _).bind fun _ _ => (moves_sees _ _).bind fun _ _ =>
      (moves_sees _ _).bind fun _ _ => (moves_sees _ _).bind fun _ _ =>
        .ite (fun _ => .pure nofun) fun _ => (hr.statement _).bind fun _ hs =>
          .pure fun _ h => Option.some.inj h ▸ hs
  refine .ite (fun _ => ?_) fun _ => (moves_discard (moves_expect _) _).bind fun _ _ => ?_
  · exact (Yields.pure (P := SpokenOption inside) .nil).bind hrest
  · exact (Yields.map (f := some) (Q := SpokenOption inside) (yields_parseExpression hr)
      fun _ h => h).bind hrest

lemma yields_parseCases : ∀ (fuel : Nat) (seen : Bool), (parseCases r fuel seen).Yields inside
    fun cs => ∀ c ∈ cs.1, Spoken inside fun into =>
      nodesOfExpr? into c.parts.1 ++ nodesOfStmts into c.parts.2
  | 0, _ => .pure (by simp)
  | fuel + 1, seen => by
    refine (moves_kind _).bind fun _ _ => .ite (fun _ => .pure (by simp)) fun _ =>
      (moves_token _).bind fun _ _ => (moves_accept _ _).bind fun _ _ =>
        .ite (fun _ => .pure (by simp)) fun _ => (yields_parseCase hr).bind fun ⟨c, _⟩ hc => ?_
    refine .checked (.throw _) fun _ => (yields_parseCases fuel _).bind fun ⟨cs, _⟩ hcs => ?_
    exact .pure (List.forall_mem_cons.2 ⟨hc, hcs⟩)

lemma yields_parseSwitch : (parseSwitch r).Yields inside (SpokenStmt inside) := by
  refine (moves_expect _ _).bind fun _ _ => (yields_parseCondition hr).bind fun ⟨_, _⟩ hd =>
    (moves_discard (moves_expect _) _).bind fun _ _ => Yields.bind (.within (fun _ h => h)
      (Yields.get.bind fun _ _ => yields_parseCases hr _ _)) fun ⟨_, _⟩ hcs => ?_
  exact .pure ((Spoken.append hd (.cases hcs)).cons rfl fun _ => rfl)

lemma yields_parseHandler :
    (parseHandler r).Yields inside fun h => ∀ c ∈ h, Spoken inside fun into =>
    nodesOfExpr? into c.parts.1 ++ c.parts.2.nodes into := by
  refine (moves_token _).bind fun _ _ => (moves_accept _ _).bind fun _ _ =>
    .ite (fun _ => ?_) fun _ => .pure nofun
  refine (moves_discard (moves_expect _) _).bind fun _ _ => (moves_kind _).bind fun _ _ =>
    .checked yields_unexpected fun _ => (moves_parseIdent _).bind fun _ _ =>
      (moves_discard (moves_expect _) _).bind fun _ _ => (yields_parseBlock hr).bind fun b hb => ?_
  exact .pure fun _ h => Option.some.inj h ▸ Spoken.nil.append hb.block

lemma yields_parseTry : (parseTry r).Yields inside (SpokenStmt inside) := by
  refine (moves_expect _ _).bind fun _ _ => (yields_parseBlock hr).bind fun _ hb =>
    (yields_parseHandler hr).bind fun handler hh => (moves_accept _ _).bind fun _ _ => ?_
  extract_lets rest
  have hrest : ∀ final, (∀ b ∈ final, SpokenStmts inside b.body) →
      (rest final).Yields inside (SpokenStmt inside) := by
    intro final hf
    dsimp only [rest]
    split
    · exact .throw _
    · rename_i b
      have hhandlers : Spoken inside fun into => nodesOfHandlers into handler.toList :=
        .handlers fun c hc => hh c (Option.mem_toList.1 hc)
      exact .pure (((hb.block.append hhandlers).append (hf b rfl).block).cons rfl fun _ => rfl)
    · rename_i h
      have hhandlers : Spoken inside fun into => nodesOfHandlers into [h] :=
        .handlers fun c hc => hh c (List.mem_singleton.1 hc ▸ rfl)
      exact .pure (((hb.block.append hhandlers).append .nil).cons rfl fun _ => rfl)
  refine .ite (fun _ => ?_) fun _ => ?_
  · exact (Yields.map (f := some) (yields_parseBlock hr) fun b hb _ h =>
      Option.some.inj h ▸ hb).bind hrest
  · exact (Yields.pure nofun).bind hrest

lemma yields_parseWith : (parseWith r).Yields inside (SpokenStmt inside) := by
  refine (moves_expect _ _).bind fun _ _ => (yields_parseCondition hr).bind fun ⟨_, _⟩ ho => ?_
  exact (hr.statement _).bind fun _ hb => .pure ((Spoken.append ho hb).cons rfl fun _ => rfl)

lemma yields_parseSimple : (parseSimple r).Yields inside (SpokenStmt inside) := by
  refine (yields_parseExpression hr).bind fun e he => ?_
  split
  · refine (moves_accept _ _).bind fun _ _ => .ite (fun _ => Yields.get.bind fun _ _ => ?_) fun _ =>
      (moves_optionalSemicolon _).bind fun _ _ => .pure he
    refine .checked (.throw _) fun _ => Yields.bind (.within (fun _ h => h) (hr.statement _))
      fun _ hb => .pure ?_
    exact (hb.cons rfl fun _ => rfl).cons rfl fun _ => rfl
  · exact (moves_optionalSemicolon _).bind fun _ _ => .pure he

lemma yields_parseStatement : (parseStatement r).Yields inside (SpokenStmt inside) := by
  refine (moves_token _).bind fun t _ => ?_
  split
  · exact yields_unexpected
  · exact (moves_next _).bind fun _ _ => .pure (Spoken.nil.cons rfl fun _ => rfl)
  · exact (yields_parseBlock hr).bind fun _ hb => .pure hb.block
  · exact yields_parseIf hr
  · exact yields_parseDo hr
  · exact yields_parseWhile hr
  · exact yields_parseFor hr
  · exact (moves_parseJump _ _ _ _).bind fun ⟨_, l⟩ _ =>
      .pure ((Spoken.idents _).cons rfl fun _ => rfl)
  · exact (moves_parseJump _ _ _ _).bind fun ⟨_, l⟩ _ =>
      .pure ((Spoken.idents _).cons rfl fun _ => rfl)
  · exact (moves_next _).bind fun _ _ => (moves_semicolon _).bind fun _ _ =>
      .pure (Spoken.nil.cons rfl fun _ => rfl)
  · exact yields_parseWith hr
  · exact yields_parseVar hr
  · exact yields_parseSwitch hr
  · exact yields_parseReturn hr
  · exact yields_parseThrow hr
  · exact yields_parseTry hr
  · exact (yields_parseFunction hr _).bind fun _ hf => .pure (hf.cons rfl fun _ => rfl)
  · exact yields_parseSimple hr

/-! ### Scripts -/

lemma yields_parseScript : (parseScript r).Yields inside (SpokenStmts inside) := by
  refine Yields.bind (Yields.collect (P := SpokenStmt inside) ?_) fun ss hss =>
    .pure (Spoken.declareDirect (.stmts hss))
  exact (moves_kind _).bind fun _ _ => .ite (fun _ => .pure nofun) fun _ =>
    (hr.statement _).bind fun _ hs => .pure fun _ h => Option.some.inj h ▸ hs

end

/-- The productions of every depth give trees as they are read, by induction on the depth. -/
lemma rules_keep : ∀ n, (rules n).Keeps
  | 0 => ⟨fun _ => yields_unexpected, fun _ => yields_unexpected, fun _ => yields_unexpected,
      fun _ => yields_unexpected, fun _ => yields_unexpected⟩
  | n + 1 => ⟨fun _ => yields_parseAssignment (rules_keep n),
      fun _ => yields_parseRelational (rules_keep n), fun _ => yields_parseUnary (rules_keep n),
      fun _ => yields_parseConstruct (rules_keep n), fun _ => yields_parseStatement (rules_keep n)⟩

/-- What a text is read as: nothing in it returns from a function, except inside one. -/
lemma spoken_readScript {text : String} {body : List RawStmt} (h : readScript text = .ok body) :
    SpokenStmts false body := by
  obtain ⟨first, -, h⟩ := bind_eq_ok.1 h
  obtain ⟨r, hrun, ⟨⟩⟩ := bind_eq_ok.1 h
  exact (yields_parseScript (rules_keep _) _ r.1 r.2 rfl hrun).2

end Clearance.Script
