/-
# Hoisted declarations and the walk

The declarations of a body are collected by a recursion of their own, with a case for every kind of
statement that can hold others. This file shows that it finds what a walk over the body meets, if
the walk stays out of functions: the same declarators, in the same order
(`variables_nodesOfStmts`). Of these, the hoisted variables are the constants and those declared
for the first time (`hoisting_agrees_with_walk`).
-/
import Mathlib.Tactic.Common
import Clearance.Script.Grammar
import Clearance.Script.Hoist
import Clearance.Script.Walk

namespace Clearance.Script

variable {α : Type}

/-- The variable that a declarator declares. -/
def Node.variable? : Node α → Option HoistedVar
  | .declarator kind (.mk _ id _) => some ⟨id.name, kind == .constant⟩
  | _ => none

/-- The function literal that a node is. -/
def Node.function? : Node α → Option (Function α)
  | .expr (.function f) => some f
  | _ => none

namespace Stmt

/-- The function literal of a function declaration. -/
def literal? : Stmt α → Option (Function α)
  | .function _ f => some f
  | _ => none

/-- The function literals in a statement, other than that of a function declaration itself. -/
def inner : Stmt α → List (Function α)
  | .function _ f => (f.nodes true).tail.filterMap Node.function?
  | s => (s.nodes true).filterMap Node.function?

end Stmt

/-! ## Variables that the walk meets -/

section

variable {as bs : List (Node α)} {vs ws : List HoistedVar}

lemma variables_append (ha : as.filterMap Node.variable? = vs)
    (hb : bs.filterMap Node.variable? = ws) :
    (as ++ bs).filterMap Node.variable? = vs ++ ws := by
  rw [List.filterMap_append, ha, hb]

lemma variables_left (ha : as.filterMap Node.variable? = vs)
    (hb : bs.filterMap Node.variable? = []) : (as ++ bs).filterMap Node.variable? = vs :=
  (variables_append ha hb).trans (List.append_nil vs)

/-- Names declare nothing. -/
lemma variables_idents (ids : List (Ident α)) :
    (ids.map Node.ident).filterMap Node.variable? = [] := by
  rw [List.filterMap_map]
  exact List.filterMap_eq_nil_iff.2 fun _ _ => rfl

end

/-! Outside of functions, expressions declare no variables. -/

mutual

lemma Expr.variables : ∀ e : Expr α, (e.nodes false).filterMap Node.variable? = []
  | .ident _ | .number .. | .string .. | .bool .. | .null _ | .regexp .. | .this _ => rfl
  | .function (.mk ..) => rfl
  | .array _ es => variablesOfElements es
  | .object _ ms => variablesOfMembers ms
  | .assign _ _ l r | .binary _ _ l r | .logical _ _ l r | .index _ l r =>
    variables_append l.variables r.variables
  | .unary _ _ e | .update _ _ _ e | .label _ _ e => e.variables
  | .member _ o p => variables_append o.variables (variables_idents [p])
  | .conditional _ t c a =>
    variables_append (variables_append t.variables c.variables) a.variables
  | .sequence _ es => variablesOfExprs es
  | .call _ c as | .construct _ c as => variables_append c.variables (variablesOfExprs as)
termination_by structural x => x

lemma variablesOfExprs : ∀ es : List (Expr α),
    (nodesOfExprs false es).filterMap Node.variable? = []
  | [] => rfl
  | e :: es => variables_append e.variables (variablesOfExprs es)
termination_by structural x => x

lemma variablesOfExpr? : ∀ e : Option (Expr α),
    (nodesOfExpr? false e).filterMap Node.variable? = []
  | none => rfl
  | some e => e.variables
termination_by structural x => x

lemma variablesOfElements : ∀ es : List (Option (Expr α)),
    (nodesOfElements false es).filterMap Node.variable? = []
  | [] => rfl
  | e :: es => variables_append (variablesOfExpr? e) (variablesOfElements es)
termination_by structural x => x

lemma variablesOfMembers : ∀ ms : List (Member α),
    (nodesOfMembers false ms).filterMap Node.variable? = []
  | [] => rfl
  | .mk _ _ v :: ms => variables_append v.variables (variablesOfMembers ms)
termination_by structural x => x

end

/-- A declaration declares what its declarators do. -/
lemma variables_nodesOfDeclarators (kind : VarKind) (ds : List (Declarator α)) :
    (nodesOfDeclarators false kind ds).filterMap Node.variable? = declaredBy kind ds := by
  induction ds with
  | nil => rfl
  | cons d ds ih =>
    obtain ⟨_, _, init⟩ := d
    exact congrArg (List.cons _) (variables_append (variablesOfExpr? init) ih)

mutual

lemma Stmt.variables_nodes : ∀ s : Stmt α, (s.nodes false).filterMap Node.variable? = s.declared
  | .expr e => e.variables
  | .block b => b.variables_nodes
  | .declare _ kind ds => variables_nodesOfDeclarators kind ds
  | .function _ (.mk ..) => rfl
  | .branch _ t c a =>
    variables_append (variables_append t.variables c.variables_nodes) (variables_nodesOfStmt? a)
  | .choose _ d cs => variables_append d.variables (variables_nodesOfCases cs)
  | .whileLoop _ t b => variables_append t.variables b.variables_nodes
  | .doLoop _ b t => variables_left b.variables_nodes t.variables
  | .forLoop _ i t u b =>
    have head := variables_left (variables_left (variables_nodesOfStmt? i) (variablesOfExpr? t))
      (variablesOfExpr? u)
    variables_append head b.variables_nodes
  | .forIn _ t e b =>
    variables_append (variables_left t.variables_nodes e.variables) b.variables_nodes
  | .breakTo _ l _ | .continueTo _ l _ => variables_idents l.toList
  | .giveBack _ v => variablesOfExpr? v
  | .raise _ v => v.variables
  | .guarded _ b hs f =>
    variables_append (variables_append b.variables_nodes (variables_nodesOfHandlers hs))
      (variables_nodesOfBlock? f)
  | .labeled _ _ b => b.variables_nodes
  | .within _ o b => variables_append o.variables b.variables_nodes
  | .empty _ | .debugger _ => rfl
termination_by structural x => x

/-- In a list of statements, the walk meets the declarators of what is declared in it. -/
lemma variables_nodesOfStmts : ∀ ss : List (Stmt α),
    (nodesOfStmts false ss).filterMap Node.variable? = declaredIn ss
  | [] => rfl
  | s :: ss => variables_append s.variables_nodes (variables_nodesOfStmts ss)
termination_by structural x => x

lemma variables_nodesOfStmt? : ∀ s : Option (Stmt α),
    (nodesOfStmt? false s).filterMap Node.variable? = declaredIn? s
  | none => rfl
  | some s => s.variables_nodes
termination_by structural x => x

lemma Block.variables_nodes : ∀ b : Block α, (b.nodes false).filterMap Node.variable? = b.declared
  | .mk _ b => variables_nodesOfStmts b
termination_by structural x => x

lemma variables_nodesOfBlock? : ∀ b : Option (Block α),
    (nodesOfBlock? false b).filterMap Node.variable? = declaredInBlock? b
  | none => rfl
  | some b => b.variables_nodes
termination_by structural x => x

lemma variables_nodesOfCases : ∀ cs : List (Case α),
    (nodesOfCases false cs).filterMap Node.variable? = declaredInCases cs
  | [] => rfl
  | .mk _ t b :: cs => variables_append (variables_append (variablesOfExpr? t)
    (variables_nodesOfStmts b)) (variables_nodesOfCases cs)
termination_by structural x => x

lemma variables_nodesOfHandlers : ∀ hs : List (Handler α),
    (nodesOfHandlers false hs).filterMap Node.variable? = declaredInHandlers hs
  | [] => rfl
  | .mk _ _ guard b :: hs => variables_append (variables_append (variablesOfExpr? guard)
    b.variables_nodes) (variables_nodesOfHandlers hs)
termination_by structural x => x

end

/-! ## Variables declared again -/

/-- The variable at a place of a list is a constant, or its name does not stand before. -/
def HoistedVar.IsFirst (D : List HoistedVar) (v : HoistedVar) (i : Nat) : Prop :=
  v.constant = true ∨ v.name ∉ (D.take i).map HoistedVar.name

instance (D : List HoistedVar) (v : HoistedVar) (i : Nat) : Decidable (v.IsFirst D i) :=
  inferInstanceAs (Decidable (_ ∨ _))

/-- The names seen are those of the variables before, and each variable is judged by them. -/
lemma firstDeclared_eq (vs before : List HoistedVar) (seen : List String)
    (h : ∀ name, name ∈ seen ↔ name ∈ before.map HoistedVar.name) :
    firstDeclared seen vs =
      ((vs.zipIdx before.length).filter fun p => p.1.IsFirst (before ++ vs) p.2).map Prod.fst := by
  induction vs generalizing before seen with
  | nil => rfl
  | cons v vs ih =>
    have htake : (before ++ v :: vs).take before.length = before := List.take_left
    have hlist : before ++ v :: vs = before ++ [v] ++ vs := by simp
    rw [firstDeclared, List.zipIdx_cons]
    by_cases hv : v.IsFirst (before ++ v :: vs) before.length
    · rw [List.filter_cons_of_pos (by simpa using hv), List.map_cons]
      unfold HoistedVar.IsFirst at hv
      rw [htake, ← h] at hv
      have hkeep : (!v.constant && seen.contains v.name) = false := by
        rcases hv with hv | hv <;> simp [hv]
      rw [hkeep, if_neg Bool.false_ne_true, ih (before ++ [v]) (v.name :: seen), hlist,
        List.length_append, List.length_singleton]
      intro name
      simp [h, or_comm]
    · rw [List.filter_cons_of_neg (by simpa using hv)]
      unfold HoistedVar.IsFirst at hv
      rw [htake, ← h, not_or, Bool.not_eq_true, not_not] at hv
      have hdrop : (!v.constant && seen.contains v.name) = true := by simp [hv.1, hv.2]
      rw [if_pos hdrop, ih (before ++ [v]) seen, hlist, List.length_append, List.length_singleton]
      -- the name has been seen before
      intro name
      have hseen : name = v.name → name ∈ before.map HoistedVar.name := by
        rintro rfl
        exact (h _).1 hv.2
      rw [h, List.map_append, List.mem_append, List.map_singleton, List.mem_singleton]
      exact ⟨.inl, fun hname => hname.elim id hseen⟩

/-! ## Declared functions -/

/-- Functions are not entered to find variables, so their forms do not matter. -/
lemma declaredIn_declareDirect (body : List (Stmt α)) :
    declaredIn (declareDirect body) = declaredIn body := by
  induction body with
  | nil => rfl
  | cons s body ih =>
    cases s
    all_goals exact congrArg (_ ++ ·) ih

/-- The functions in a statement are its own literal, if it is a function declaration, and
others. -/
lemma Stmt.functions_nodes (s : Stmt α) :
    (s.nodes true).filterMap Node.function? = s.literal?.toList ++ s.inner := by
  cases s
  case function f =>
    cases f
    rfl
  all_goals rfl

/-- The form of a function literal is not part of what is inside of it. -/
lemma Stmt.inner_withForm (s : α) (f : Function α) (form : Form) :
    (Stmt.function s (f.withForm form)).inner = (Stmt.function s f).inner := by
  cases f
  rfl

lemma functions_nodesOfStmts (body : List (Stmt α)) :
    (nodesOfStmts true body).filterMap Node.function? =
      body.flatMap fun s => s.literal?.toList ++ s.inner := by
  induction body with
  | nil => rfl
  | cons s body ih =>
    rw [nodesOfStmts, List.filterMap_append, s.functions_nodes, ih, List.flatMap_cons]

lemma functions_declareDirect (body : List (Stmt α)) :
    (nodesOfStmts true (declareDirect body)).filterMap Node.function? =
      body.flatMap fun s => (s.literal?.map (Function.withForm .declared)).toList ++ s.inner := by
  rw [functions_nodesOfStmts, declareDirect, List.flatMap_map]
  refine congrArg (List.flatMap · body) (funext fun s => ?_)
  cases s
  case function s f => exact congrArg (List.cons _) (Stmt.inner_withForm s f .declared)
  all_goals rfl

lemma hoistedFunctions_declareDirect (body : List (Stmt α)) :
    hoistedFunctions (declareDirect body) =
      (body.filterMap Stmt.literal?).map (Function.withForm .declared) := by
  rw [hoistedFunctions, declareDirect, List.filterMap_map, List.map_filterMap]
  refine congrArg (List.filterMap · body) (funext fun s => ?_)
  cases s <;> rfl

/-! ## The result -/

/-- The variables bound on entry to a body are those whose declarators a walk over it meets outside
of functions, without those declared before unless they are constants. The functions bound there are
the literals of the function declarations that are elements of the body. The functions of the body
are these and others; only these are marked as declared, and everything else about them and the
others stays. -/
theorem hoisting_agrees_with_walk (body : List (Stmt α)) :
    let D := (nodesOfStmts false body).filterMap Node.variable?
    hoistedVars (declareDirect body) = (D.zipIdx.filter fun p => p.1.IsFirst D p.2).map Prod.fst ∧
      hoistedFunctions (declareDirect body) =
        (body.filterMap Stmt.literal?).map (Function.withForm .declared) ∧
      (∀ f ∈ hoistedFunctions (declareDirect body), f.form = .declared) ∧
      (nodesOfStmts true body).filterMap Node.function? =
        body.flatMap (fun s => s.literal?.toList ++ s.inner) ∧
      (nodesOfStmts true (declareDirect body)).filterMap Node.function? =
        body.flatMap fun s =>
          (s.literal?.map (Function.withForm .declared)).toList ++ s.inner := by
  refine ⟨?_, hoistedFunctions_declareDirect body, ?_, functions_nodesOfStmts body,
    functions_declareDirect body⟩
  · rw [variables_nodesOfStmts, hoistedVars, declaredIn_declareDirect]
    exact firstDeclared_eq _ [] [] fun _ => Iff.rfl
  · rw [hoistedFunctions_declareDirect]
    rintro _ hf
    obtain ⟨⟨⟩, -, rfl⟩ := List.mem_map.1 hf
    rfl

end Clearance.Script
