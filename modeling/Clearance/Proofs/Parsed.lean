/-
# Scripts that have been read

Between the grammar and the script that is run, places are put in and jumps are resolved. Neither
changes what kind of node stands where, so what the grammar builds (`spoken_readScript`) is what the
script is made of. Once jumps have been resolved they stay in their functions, and what is left is a
script whose nodes are `Proper` (`proper_parse`).
-/
import Clearance.Proofs.Landing
import Clearance.Proofs.Walk

namespace Clearance.Script

variable {α β : Type}

/-- A mark for a node that cannot be read. -/
def Node.unspoken (node : Node α) : List Unit := if node.spoken then [] else [()]

/-- A mark for a node that returns from a function. -/
def Node.returning (node : Node α) : List Unit := if node.returns then [()] else []

lemma spoken_iff {inside : Bool} {nodes : Bool → List (Node α)} : Spoken inside nodes ↔
    (nodes true).flatMap Node.unspoken = [] ∧
      (inside = false → (nodes false).flatMap Node.returning = []) := by
  have hall : (nodes true).flatMap Node.unspoken = [] ↔ ∀ node ∈ nodes true,
      node.spoken = true := by
    simp [List.flatMap_eq_nil_iff, Node.unspoken]
  have hreturns : (nodes false).flatMap Node.returning = [] ↔
      ∀ node ∈ nodes false, node.returns = false := by
    simp [List.flatMap_eq_nil_iff, Node.returning]
  rw [hall, hreturns]
  exact ⟨fun h => ⟨h.all, h.returns⟩, fun h => ⟨h.1, h.2⟩⟩

/-! ## Places -/

lemma Stmt.takesKeys_rebuild (f : α → β) (g : Expr β → Expr β) (s : Stmt α) :
    (s.rebuild f g).takesKeys = s.takesKeys := by
  cases s
  case declare s k ds =>
    cases ds with
    | nil => rfl
    | cons d ds =>
      cases d
      rfl
  all_goals rfl

lemma Stmt.spoken_rebuild (f : α → β) (g : Expr β → Expr β) (s : Stmt α) :
    (Node.stmt (s.rebuild f g)).spoken = (Node.stmt s).spoken := by
  cases s
  case forIn s t e b => exact t.takesKeys_rebuild f g
  case forLoop s init t u b =>
    cases init with
    | none => rfl
    | some i => exact i.takesKeys_rebuild f g
  all_goals rfl

lemma kept_unspoken (into : Bool) (f : α → β) : Kept into f id Node.unspoken Node.unspoken where
  expr e := by
    have hroot : (e.descend f id).node.unspoken = e.node.unspoken := by
      cases e <;> rfl
    rw [id, Expr.nodes_eq_cons, List.flatMap_cons, hroot]
    rfl
  function _ := rfl
  ident _ := rfl
  member _ _ _ := rfl
  stmt s := by
    unfold Node.unspoken
    rw [s.spoken_rebuild]
  block _ := rfl
  declarator _ _ _ _ := rfl
  case _ _ _ := rfl
  handler _ _ _ _ := rfl

lemma kept_returning (into : Bool) (f : α → β) {g : Expr β → Expr β}
    (hg : ∀ e, ((g e).nodes into).flatMap Node.returning = (e.nodes into).flatMap Node.returning) :
    Kept into f g Node.returning Node.returning where
  expr e := by
    have hroot : (e.descend f g).node.returning = e.node.returning := by
      cases e <;> rfl
    rw [hg, Expr.nodes_eq_cons, List.flatMap_cons, hroot]
    rfl
  function _ := rfl
  ident _ := rfl
  member _ _ _ := rfl
  stmt s := by cases s <;> rfl
  block _ := rfl
  declarator _ _ _ _ := rfl
  case _ _ _ := rfl
  handler _ _ _ _ := rfl

lemma Spoken.rebuild (f : α → β) {inside : Bool} {body : List (Stmt α)}
    (h : Spoken inside fun into => nodesOfStmts into body) :
    Spoken inside fun into => nodesOfStmts into (rebuildStmts f id body) := by
  rw [spoken_iff] at h ⊢
  rwa [flatMap_rebuildStmts (kept_unspoken true f),
    flatMap_rebuildStmts (kept_returning false f (g := id) fun _ => rfl)]

/-! ## Jumps -/

lemma Expr.spoken_resolve {e e' : Expr α} (h : e.resolve = .ok e') :
    e'.node.spoken = e.node.spoken ∧ e'.node.returns = e.node.returns := by
  cases e <;> simp only [Expr.resolve, bind_eq_ok] at h
  case ident | number | string | bool | null | regexp | this =>
    cases h
    exact ⟨rfl, rfl⟩
  case assign | binary | logical | call | construct | index =>
    obtain ⟨_, -, _, -, ⟨⟩⟩ := h
    exact ⟨rfl, rfl⟩
  case conditional =>
    obtain ⟨_, -, _, -, _, -, ⟨⟩⟩ := h
    exact ⟨rfl, rfl⟩
  all_goals
    obtain ⟨_, -, ⟨⟩⟩ := h
    exact ⟨rfl, rfl⟩

lemma isEmpty_resolveDeclarators {ds ds' : List (Declarator α)}
    (h : resolveDeclarators ds = .ok ds') : ds'.isEmpty = ds.isEmpty := by
  cases ds with
  | nil =>
    cases h
    rfl
  | cons d ds =>
    cases d
    simp only [resolveDeclarators, bind_eq_ok] at h
    obtain ⟨_, -, _, -, ⟨⟩⟩ := h
    rfl

/-- What a statement is stays the same; the target of a `for` over keys is a statement of its
own. -/
lemma Stmt.kept_of_resolve : ∀ {s s' : Stmt α} {stack : List Anchor}, s.resolve stack = .ok s' →
    s'.takesKeys = s.takesKeys ∧ (Node.stmt s').spoken = (Node.stmt s).spoken ∧
      (Node.stmt s').returns = (Node.stmt s).returns
  | .empty _, _, _, h | .debugger _, _, _, h => by
    cases h
    exact ⟨rfl, rfl, rfl⟩
  | .forIn .., _, _, h => by
    simp only [Stmt.resolve, bind_eq_ok] at h
    obtain ⟨t', ht, _, -, _, -, ⟨⟩⟩ := h
    exact ⟨rfl, (kept_of_resolve ht).1, rfl⟩
  | .declare .., _, _, h => by
    simp only [Stmt.resolve, bind_eq_ok] at h
    obtain ⟨ds', hds, ⟨⟩⟩ := h
    exact ⟨congrArg (!·) (isEmpty_resolveDeclarators hds), rfl, rfl⟩
  | .labeled .., _, _, h => by
    rw [Stmt.resolve] at h
    split_ifs at h
    obtain ⟨_, -, ⟨⟩⟩ := bind_eq_ok.1 h
    exact ⟨rfl, rfl, rfl⟩
  | .forLoop _ none .., _, _, h => by
    simp only [Stmt.resolve, bind_eq_ok] at h
    obtain ⟨i', hi, _, -, _, -, _, -, ⟨⟩⟩ := h
    cases hi
    exact ⟨rfl, rfl, rfl⟩
  | .forLoop _ (some _) .., _, _, h => by
    simp only [Stmt.resolve, resolveStmt?, bind_eq_ok] at h
    obtain ⟨i', ⟨i, hi, ⟨⟩⟩, _, -, _, -, _, -, ⟨⟩⟩ := h
    exact ⟨rfl, (kept_of_resolve hi).1, rfl⟩
  | .branch .., _, _, h | .guarded .., _, _, h => by
    simp only [Stmt.resolve, bind_eq_ok] at h
    obtain ⟨_, -, _, -, _, -, ⟨⟩⟩ := h
    exact ⟨rfl, rfl, rfl⟩
  | .choose .., _, _, h | .whileLoop .., _, _, h | .doLoop .., _, _, h | .within .., _, _, h => by
    simp only [Stmt.resolve, bind_eq_ok] at h
    obtain ⟨_, -, _, -, ⟨⟩⟩ := h
    exact ⟨rfl, rfl, rfl⟩
  | .expr _, _, _, h | .block _, _, _, h | .function .., _, _, h | .breakTo .., _, _, h
  | .continueTo .., _, _, h | .giveBack .., _, _, h | .raise .., _, _, h => by
    simp only [Stmt.resolve, bind_eq_ok] at h
    obtain ⟨_, -, ⟨⟩⟩ := h
    exact ⟨rfl, rfl, rfl⟩
termination_by structural s => s

lemma settled_unspoken : Settled (α := α) Node.unspoken Node.unspoken where
  expr e e' h := by
    unfold Node.unspoken
    rw [(Expr.spoken_resolve h).1]
  ident _ := rfl
  member _ _ _ _ _ := rfl
  stmt stack s s' h := by
    unfold Node.unspoken
    rw [(Stmt.kept_of_resolve h).2.1]
  block _ _ _ _ := rfl
  declarator _ _ _ _ _ _ := rfl
  case _ _ _ _ _ _ _ _ := rfl
  handler _ _ _ _ _ _ _ _ _ := rfl

lemma settled_returning : Settled (α := α) Node.returning Node.returning where
  expr e e' h := by
    unfold Node.returning
    rw [(Expr.spoken_resolve h).2]
  ident _ := rfl
  member _ _ _ _ _ := rfl
  stmt stack s s' h := by
    unfold Node.returning
    rw [(Stmt.kept_of_resolve h).2.2]
  block _ _ _ _ := rfl
  declarator _ _ _ _ _ _ := rfl
  case _ _ _ _ _ _ _ _ := rfl
  handler _ _ _ _ _ _ _ _ _ := rfl

lemma Spoken.resolve {inside : Bool} {stack : List Anchor} {body body' : List (Stmt α)}
    (h : Spoken inside fun into => nodesOfStmts into body)
    (hbody : resolveStmts stack body = .ok body') :
    Spoken inside fun into => nodesOfStmts into body' := by
  rw [spoken_iff] at h ⊢
  rwa [flatMap_resolveStmts settled_unspoken _ _ _ hbody,
    flatMap_resolveStmts settled_returning _ _ _ hbody]

/-! ## Scripts -/

/-- A mark for a node that cannot be read where some calls are label expressions. -/
def Node.unvoiced (node : Node α) : List Unit := if node.voiced then [] else [()]

/-- A mark for a function that a jump leaves. -/
def Node.uncontained (node : Node α) : List Unit := if node.contained then [] else [()]

lemma voiced_iff {inside : Bool} {nodes : Bool → List (Node α)} : Voiced inside nodes ↔
    (nodes true).flatMap Node.unvoiced = [] ∧
      (inside = false → (nodes false).flatMap Node.returning = []) := by
  have hall : (nodes true).flatMap Node.unvoiced = [] ↔ ∀ node ∈ nodes true,
      node.voiced = true := by
    simp [List.flatMap_eq_nil_iff, Node.unvoiced]
  have hreturns : (nodes false).flatMap Node.returning = [] ↔
      ∀ node ∈ nodes false, node.returns = false := by
    simp [List.flatMap_eq_nil_iff, Node.returning]
  rw [hall, hreturns]
  exact ⟨fun h => ⟨h.all, h.returns⟩, fun h => ⟨h.1, h.2⟩⟩

lemma Node.voiced_of_spoken {node : Node Extent} (h : node.spoken = true)
    (hobjection : node.objection? = none) : node.voiced = true := by
  unfold voiced
  split
  · rfl
  · rename_i s op t v
    cases op with
    | plain => rfl
    | compound op =>
      cases op with
      | other text => cases hobjection
      | _ => rfl
  · exact h

/-- A call of the intrinsic has the marks of the label expression that it becomes, if neither has
marks of its own. -/
lemma flatMap_labelCall {X : Type} {into : Bool} {M : Node α → List X}
    (hlabel : ∀ s name e, M (.expr (.label s name e)) = [])
    (hcall : ∀ s c as, M (.expr (.call s c as)) = []) (hident : ∀ i, M (.ident i) = [])
    (hstring : ∀ s v, M (.expr (.string s v)) = []) (intrinsic : String) (e : Expr α) :
    ((labelCall intrinsic e).nodes into).flatMap M = (e.nodes into).flatMap M := by
  unfold labelCall
  split
  · split_ifs
    · simp [Expr.nodes, nodesOfExprs, hlabel, hcall, hident, hstring]
    · rfl
  · rfl

lemma kept_unvoiced (into : Bool) (f : α → β) (intrinsic : String) :
    Kept into f (labelCall intrinsic) Node.unvoiced Node.unvoiced where
  expr e := by
    have hroot : (e.descend f (labelCall intrinsic)).node.unvoiced = e.node.unvoiced := by
      cases e <;> rfl
    rw [flatMap_labelCall (fun _ _ _ => rfl) (fun _ _ _ => rfl) (fun _ => rfl) (fun _ _ => rfl),
      Expr.nodes_eq_cons, List.flatMap_cons, hroot]
    rfl
  function _ := rfl
  ident _ := rfl
  member _ _ _ := rfl
  stmt s := by
    have hvoiced : (Node.stmt (s.rebuild f (labelCall intrinsic))).voiced = (Node.stmt s).voiced :=
      s.spoken_rebuild f _
    unfold Node.unvoiced
    rw [hvoiced]
  block _ := rfl
  declarator _ _ _ _ := rfl
  case _ _ _ := rfl
  handler _ _ _ _ := rfl

lemma Expr.voiced_resolve {e e' : Expr α} (h : e.resolve = .ok e') :
    e'.node.voiced = e.node.voiced := by
  cases e <;> simp only [Expr.resolve, bind_eq_ok] at h
  case ident | number | string | bool | null | regexp | this =>
    cases h
    rfl
  case assign | binary | logical | call | construct | index =>
    obtain ⟨_, -, _, -, ⟨⟩⟩ := h
    rfl
  case conditional =>
    obtain ⟨_, -, _, -, _, -, ⟨⟩⟩ := h
    rfl
  all_goals
    obtain ⟨_, -, ⟨⟩⟩ := h
    rfl

lemma settled_unvoiced : Settled (α := α) Node.unvoiced Node.unvoiced where
  expr e e' h := by
    unfold Node.unvoiced
    rw [Expr.voiced_resolve h]
  ident _ := rfl
  member _ _ _ _ _ := rfl
  stmt stack s s' h := by
    have hvoiced : (Node.stmt s').voiced = (Node.stmt s).voiced := (Stmt.kept_of_resolve h).2.1
    unfold Node.unvoiced
    rw [hvoiced]
  block _ _ _ _ := rfl
  declarator _ _ _ _ _ _ := rfl
  case _ _ _ _ _ _ _ _ := rfl
  handler _ _ _ _ _ _ _ _ _ := rfl

lemma Voiced.resolve {inside : Bool} {stack : List Anchor} {body body' : List (Stmt α)}
    (h : Voiced inside fun into => nodesOfStmts into body)
    (hbody : resolveStmts stack body = .ok body') :
    Voiced inside fun into => nodesOfStmts into body' := by
  rw [voiced_iff] at h ⊢
  rwa [flatMap_resolveStmts settled_unvoiced _ _ _ hbody,
    flatMap_resolveStmts settled_returning _ _ _ hbody]

/-- The jumps that have been resolved in a function stay in it. -/
lemma Function.contained_of_resolve {fn fn' : Function α} (h : fn.resolve = .ok fn') :
    (Node.expr (.function fn')).contained = true := by
  obtain ⟨s, n, ps, b, form, src⟩ := fn
  have hbound := Function.bound_resolve _ _ h
  obtain ⟨b', -, ⟨⟩⟩ := bind_eq_ok.1 h
  exact lands_of_bound_stmts b' [] hbound

lemma settled_uncontained : Settled (α := α) (fun _ => []) Node.uncontained where
  expr e e' h := by
    cases e <;> simp only [Expr.resolve, bind_eq_ok] at h
    case function fn =>
      obtain ⟨fn', hfn, ⟨⟩⟩ := h
      exact if_pos (Function.contained_of_resolve hfn)
    case ident | number | string | bool | null | regexp | this =>
      cases h
      rfl
    case assign | binary | logical | call | construct | index =>
      obtain ⟨_, -, _, -, ⟨⟩⟩ := h
      rfl
    case conditional =>
      obtain ⟨_, -, _, -, _, -, ⟨⟩⟩ := h
      rfl
    all_goals
      obtain ⟨_, -, ⟨⟩⟩ := h
      rfl
  ident _ := rfl
  member _ _ _ _ _ := rfl
  stmt _ _ _ _ := rfl
  block _ _ _ _ := rfl
  declarator _ _ _ _ _ _ := rfl
  case _ _ _ _ _ _ _ _ := rfl
  handler _ _ _ _ _ _ _ _ _ := rfl

lemma voiced_readScript {text : String} {body : List (Stmt Extent)}
    (hread : readScript text = .ok body)
    (hobjection : (nodesOfStmts true body).findSome? Node.objection? = none) :
    Voiced false fun into => nodesOfStmts into body where
  all node hnode := Node.voiced_of_spoken ((spoken_readScript hread).all node hnode)
    (List.findSome?_eq_none_iff.1 hobjection node hnode)
  returns := (spoken_readScript hread).returns

lemma Voiced.labeled {inside : Bool} {body : List (Stmt α)} (f : α → β) (intrinsic : String)
    (h : Voiced inside fun into => nodesOfStmts into body) :
    Voiced inside fun into => nodesOfStmts into (rebuildStmts f (labelCall intrinsic) body) := by
  have hreturning (e : Expr β) : ((labelCall intrinsic e).nodes false).flatMap Node.returning =
      (e.nodes false).flatMap Node.returning :=
    flatMap_labelCall (fun _ _ _ => rfl) (fun _ _ _ => rfl) (fun _ => rfl) (fun _ _ => rfl) _ _
  rw [voiced_iff] at h ⊢
  rwa [flatMap_rebuildStmts (kept_unvoiced true f intrinsic),
    flatMap_rebuildStmts (kept_returning false f hreturning)]

/-- A script that has been parsed is made of what scripts can have. -/
lemma proper_parse {intrinsic file text : String} {n : Int} {p : Program Span}
    (h : parse intrinsic file text n = .ok p) : ∀ node ∈ p.nodes true, node.Proper := by
  unfold parse at h
  dsimp only at h
  split at h
  · cases h
  · split at h
    · cases h
    · rename_i body hread
      split at h
      · cases h
      · rename_i hobjection
        split at h
        · rename_i hresolve
          cases h
          obtain ⟨body', hbody, ⟨⟩⟩ := bind_eq_ok.1 hresolve
          have hvoiced := ((voiced_readScript hread hobjection).labeled _ intrinsic).resolve hbody
          have hlands : landsStmts [] body' = true := lands_of_bound_stmts body' []
            (bound_resolveStmts _ _ [] List.nodup_nil (fun _ => .singleton _) hbody)
          have hcontained : (nodesOfStmts true body').flatMap Node.uncontained = [] := by
            rw [flatMap_resolveStmts settled_uncontained _ _ _ hbody]
            simp
          refine List.forall_mem_cons.2 ⟨⟨rfl, ?_⟩, fun node hnode => ⟨hvoiced.all node hnode, ?_⟩⟩
          · refine Bool.and_eq_true_iff.2 ⟨hlands, List.all_eq_true.2 fun node hnode => ?_⟩
            rw [hvoiced.returns rfl node hnode]
            rfl
          · have hmark := List.flatMap_eq_nil_iff.1 hcontained node hnode
            by_contra hnot
            rw [Node.uncontained, if_neg hnot] at hmark
            cases hmark
        · cases h

end Clearance.Script
