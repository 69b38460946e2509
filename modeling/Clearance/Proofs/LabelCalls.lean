/-
# Label expressions are calls

A script that is read with the label intrinsic is the script that is read without it, where every
call of the intrinsic has become a label expression (`parse_labeled`). There are no other label
expressions, so putting the calls back leads to the script without the intrinsic.
-/
import Clearance.Proofs.Intrinsic
import Clearance.Proofs.Parsed
import Mathlib.Data.List.Basic

namespace Clearance.Script

/-! ## Two ways to read a text -/

/-- The script with label expressions in the place of calls of the intrinsic. -/
def Program.labeled (intrinsic : String) (p : Program Span) : Program Span :=
  ⟨p.source, rebuildStmts id (labelCall intrinsic) p.body⟩

section

variable {α : Type}

lemma labelCall_empty : labelCall (α := α) "" = id := by
  funext e
  have hnone : e.intrinsicCall? "" = none := by
    unfold Expr.intrinsicCall?
    split
    · rw [if_neg fun h => h.1 rfl]
    · rfl
  rw [labelCall_eq, hnone]
  rfl

lemma rebuildStmts_labelCall {β : Type} (f : α → β) (intrinsic : String) (ss : List (Stmt α)) :
    rebuildStmts f (labelCall intrinsic) ss =
      rebuildStmts id (labelCall intrinsic) (rebuildStmts f id ss) := by
  rw [rebuildStmts_rebuild (k := labelCall intrinsic)]
  · rfl
  · exact fun e => e.rebuild_eq_descend _ _

end

lemma Program.resolve_labeled (intrinsic : String) (p : Program Span) :
    (p.labeled intrinsic).resolve = Resolved.map id (Program.labeled intrinsic) p.resolve := by
  have hbody := resolveStmts_rebuild (f := id) (resolve_labelCall intrinsic) p.body []
  unfold resolve
  rw [labeled, hbody]
  cases resolveStmts [] p.body <;> rfl

/-- What a text without faults is read as is made of what the grammar builds. -/
lemma parse_labeled (intrinsic file text : String) (n : Int) :
    parse intrinsic file text n = (parse "" file text n).map (Program.labeled intrinsic) := by
  unfold parse
  dsimp only
  generalize (n - 1).toNat = d
  cases SourceMap.ofScript file text with
  | error m => rfl
  | ok map =>
    dsimp only
    cases readScript text with
    | error f => rfl
    | ok body =>
      dsimp only
      cases (nodesOfStmts true body).findSome? Node.objection? with
      | some objection => rfl
      | none =>
        dsimp only
        rw [labelCall_empty, rebuildStmts_labelCall]
        have hresolve := Program.resolve_labeled intrinsic
          ⟨file, rebuildStmts ((Layout.of text map).span d) id body⟩
        unfold Program.labeled at hresolve
        rw [hresolve]
        generalize (Program.mk file (rebuildStmts ((Layout.of text map).span d) id body)).resolve =
          resolved
        cases resolved <;> rfl

/-- A script that is read without the intrinsic is made of what the grammar builds. -/
lemma spoken_parse {file text : String} {n : Int} {q : Program Span}
    (h : parse "" file text n = .ok q) : Spoken false fun into => nodesOfStmts into q.body := by
  unfold parse at h
  dsimp only at h
  split at h
  · cases h
  · split at h
    · cases h
    · rename_i body hread
      split at h
      · cases h
      · rw [labelCall_empty] at h
        split at h
        · rename_i p hresolve
          cases h
          obtain ⟨body', hbody, ⟨⟩⟩ := bind_eq_ok.1 hresolve
          exact ((spoken_readScript hread).rebuild _).resolve hbody
        · cases h

/-! ## Putting the calls back -/

/-- A call of the intrinsic in the place of a label expression. The name and the text of the label
have no place. -/
def callOf (intrinsic : String) : Expr Span → Expr Span
  | .label s name e => .call s (.ident ⟨.unknown, intrinsic⟩) [.string .unknown name, e]
  | e => e

/-- The script with calls of the intrinsic in the place of label expressions, without places. -/
def Program.called (intrinsic : String) (p : Program Span) : Program Span :=
  ⟨p.source, rebuildStmts (fun _ => Span.unknown) (callOf intrinsic) p.body⟩

/-- The script without places. -/
def Program.unplaced (p : Program Span) : Program Span :=
  ⟨p.source, rebuildStmts (fun _ => Span.unknown) id p.body⟩

lemma callOf_labelCall (intrinsic : String) (e : Expr Span) :
    (labelCall intrinsic e).rebuild (fun _ => Span.unknown) (callOf intrinsic) =
      callOf intrinsic (e.descend (fun _ => Span.unknown) (callOf intrinsic)) := by
  cases hcall : e.intrinsicCall? intrinsic with
  | some c =>
    obtain ⟨s, name, x⟩ := c
    obtain ⟨id, s', -, rfl, rfl⟩ := Expr.intrinsicCall?_eq_some hcall
    rw [labelCall_eq, hcall]
    rfl
  | none =>
    rw [labelCall_eq, hcall]
    exact e.rebuild_eq_descend _ _

lemma callOf_of_spoken {intrinsic : String} {f : Span → Span} {e : Expr Span}
    (h : e.node.spoken = true) : callOf intrinsic (e.descend f id) = id (e.descend f id) := by
  cases e
  case label => cases h
  all_goals rfl

lemma Program.called_labeled {intrinsic : String} {q : Program Span}
    (h : Spoken false fun into => nodesOfStmts into q.body) :
    (q.labeled intrinsic).called intrinsic = q.unplaced := by
  unfold called labeled unplaced
  rw [rebuildStmts_rebuild (callOf_labelCall intrinsic)]
  exact congrArg (Program.mk q.source) (rebuildStmts_congr (fun e => callOf_of_spoken) _ h.all)

/-! ## Where labels come from -/

/-- The place and the name of a label expression. -/
def Node.labelOf? {α : Type} : Node α → Option (α × String)
  | .expr (.label s name _) => some (s, name)
  | _ => none

/-- The place and the label of a call of the intrinsic. -/
def Node.callOf? {α : Type} (intrinsic : String) : Node α → Option (α × String)
  | .expr e => (e.intrinsicCall? intrinsic).map fun c => (c.1, c.2.1)
  | _ => none

lemma kept_labels (intrinsic : String) (into : Bool) :
    Kept into (id : Span → Span) (labelCall intrinsic)
      (fun node => (node.labelOf?.or (node.callOf? intrinsic)).toList)
      (fun node => node.labelOf?.toList) where
  expr e := by
    have hdescend := e.intrinsicCall?_descend intrinsic id (name?_labelCall intrinsic)
      (literal?_labelCall intrinsic)
    cases hcall : e.intrinsicCall? intrinsic with
    | some c =>
      obtain ⟨s, name, x⟩ := c
      obtain ⟨i, s', hset, hname, rfl⟩ := Expr.intrinsicCall?_eq_some hcall
      -- the name and the text that the call starts with are no labels
      have hbelow : (((Expr.call s (.ident i) [.string s' name, x]).descend id
          (labelCall intrinsic)).nodes into).tail = .ident i :: .expr (.string s' name) ::
            ((x.rebuild id (labelCall intrinsic)).nodes into ++ []) := rfl
      rw [labelCall_eq, hdescend, hcall, hbelow, List.append_nil]
      simp only [Expr.node, Node.labelOf?, Node.callOf?, hcall]
      rfl
    | none =>
      have hroot : (e.descend id (labelCall intrinsic)).node.labelOf? =
          e.node.labelOf?.or (e.node.callOf? intrinsic) := by
        cases e <;> simp [Expr.node, Expr.descend, Node.labelOf?, Node.callOf?, hcall]
      rw [labelCall_eq, hdescend, hcall]
      dsimp only [Option.map_none]
      rw [Expr.nodes_eq_cons, List.flatMap_cons, hroot]
      rfl
  function _ := rfl
  ident _ := rfl
  member _ _ _ := rfl
  stmt s := by cases s <;> rfl
  block _ := rfl
  declarator _ _ _ _ := rfl
  case _ _ _ := rfl
  handler _ _ _ _ := rfl

lemma Node.labelOf?_of_spoken {α : Type} {node : Node α} (h : node.spoken = true) :
    node.labelOf? = none := by
  cases node
  case expr e =>
    cases e
    case label => cases h
    all_goals rfl
  all_goals rfl

/-- The label expressions of a script are the calls of the intrinsic, in the same order. -/
lemma labels_labeled {intrinsic : String} {q : Program Span}
    (h : Spoken false fun into => nodesOfStmts into q.body) :
    ((q.labeled intrinsic).nodes true).filterMap Node.labelOf? =
      (q.nodes true).filterMap (Node.callOf? intrinsic) := by
  have hkept := flatMap_rebuildStmts (kept_labels intrinsic true) q.body
  rw [← List.filterMap_eq_flatMap_toList, ← List.filterMap_eq_flatMap_toList] at hkept
  have hnone : (nodesOfStmts true q.body).filterMap
      (fun node => node.labelOf?.or (node.callOf? intrinsic)) =
        (nodesOfStmts true q.body).filterMap (Node.callOf? intrinsic) :=
    List.filterMap_congr fun node hnode => by
      rw [Node.labelOf?_of_spoken (h.all node hnode), Option.none_or]
  exact hkept.trans hnone

/-- Reading with the intrinsic finds the same faults as reading without it. The script that is read
has label expressions in the place of calls of the intrinsic and is otherwise the same, whatever the
depth: putting the calls back leads to the script without the intrinsic, with all its fields,
hoisted declarations and targets of jumps, and every call of the intrinsic has become a label
expression. -/
theorem intrinsic_rewrites_calls (intrinsic file text : String) (n : Int) :
    parse intrinsic file text n = (parse "" file text n).map (Program.labeled intrinsic) ∧
    ∀ p q, parse intrinsic file text n = .ok p → parse "" file text n = .ok q →
      p.called intrinsic = q.unplaced ∧ hoistedVars p.body = hoistedVars q.body ∧
      hoistedFunctions p.body =
        (hoistedFunctions q.body).map (·.rebuild id (labelCall intrinsic)) ∧
      (p.nodes true).filterMap Node.labelOf? =
        (q.nodes true).filterMap (Node.callOf? intrinsic) := by
  have hlabeled := parse_labeled intrinsic file text n
  refine ⟨hlabeled, fun p q hp hq => ?_⟩
  have hspoken := spoken_parse hq
  have heq : p = q.labeled intrinsic := by
    rw [hp, hq] at hlabeled
    exact Except.ok.inj hlabeled
  subst heq
  exact ⟨Program.called_labeled hspoken, hoistedVars_rebuild .., hoistedFunctions_rebuild ..,
    labels_labeled hspoken⟩

/-- The names of the label expressions of a script, if it was read. -/
def labelNames : Except ParseError (Program Span) → Option (List String)
  | .ok p => some ((p.nodes true).filterMap fun node => node.labelOf?.map Prod.snd)
  | .error _ => none

/-- A call of the intrinsic in the operand of another one, inside a function. -/
def nestedLabels : String :=
  "f(function() \x7breturn label('H', [label('L', x)]);\x7d, label(x, 1));"

theorem intrinsic_rewrites_nested_calls :
    ∃ p q, parse "label" "" nestedLabels 1 = .ok p ∧ parse "" "" nestedLabels 1 = .ok q ∧
      p.called "label" = q.unplaced ∧ labelNames (.ok p) = some ["H", "L"] := by
  have hnames : labelNames (parse "label" "" nestedLabels 1) = some ["H", "L"] := by
    decide +kernel
  obtain ⟨hmap, hread⟩ := intrinsic_rewrites_calls "label" "" nestedLabels 1
  cases hq : parse "" "" nestedLabels 1 with
  | error e =>
    rw [hmap, hq] at hnames
    cases hnames
  | ok q =>
    rw [hq] at hmap
    have hp : parse "label" "" nestedLabels 1 = .ok (q.labeled "label") := hmap
    rw [hp] at hnames
    exact ⟨_, q, hp, rfl, (hread _ _ hp hq).1, hnames⟩

end Clearance.Script
