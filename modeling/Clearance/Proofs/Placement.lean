/-
# The first line of a script

The number that a script's first line gets is looked at in one place only, where the extents of a
text become spans. So a script that starts further down is the same script further down: every
place is moved, whether it is the place of a node or of a fault, and what has no place has none.

A source map may lead a place to line zero, as if it had none. Such a place is moved all the same,
and these maps are left out here.
-/
import Clearance.Proofs.Intrinsic
import Clearance.Proofs.Started
import Clearance.Script.Outline

namespace Clearance.Script

/-! ## Moving down -/

/-- The place some lines further down. Without a line there is nothing to move. -/
def Position.down (d : Nat) (p : Position) : Position :=
  if p.line = 0 then p else ⟨p.line + d, p.column⟩

/-- The span some lines further down. -/
def Span.down (d : Nat) (s : Span) : Span := ⟨s.start.down d, s.stop.down d⟩

/-- The same script some lines further down. -/
def Program.down (d : Nat) (p : Program Span) : Program Span :=
  ⟨p.source, rebuildStmts (Span.down d) id p.body⟩

/-- The same fault some lines further down. -/
def ParseError.down (d : Nat) : ParseError → ParseError
  | .noParser => .noParser
  | .fault file line column message =>
    let p := Position.down d ⟨line, column⟩
    .fault file p.line p.column message

mutual

/-- The same outline some lines further down. -/
def Outline.down (d : Nat) : Outline → Outline
  | .list items => .list (downItems d items)
  | .node kind span fields => .node kind (span.down d) (downFields d fields)
  | o => o

/-- Outlines some lines further down. -/
def downItems (d : Nat) : List Outline → List Outline
  | [] => []
  | o :: os => o.down d :: downItems d os

/-- The fields of a node some lines further down. -/
def downFields (d : Nat) : List (String × Outline) → List (String × Outline)
  | [] => []
  | (name, o) :: rest => (name, o.down d) :: downFields d rest

end

@[simp] lemma Position.unknown_down (d : Nat) : Position.unknown.down d = .unknown := if_pos rfl

@[simp] lemma Span.unknown_down (d : Nat) : Span.unknown.down d = .unknown := by
  simp [Span.down, Span.unknown]

lemma Position.down_of_line {d line column : Nat} (h : 1 ≤ line) :
    Position.down d ⟨line, column⟩ = ⟨line + d, column⟩ :=
  if_neg (Nat.ne_of_gt h)

/-! ## Places of extents -/

/-- The map leads to lines that there are: they are counted from one. -/
def SourceMap.Proper (m : SourceMap) : Prop := ∀ s ∈ m.segments, 1 ≤ s.sourceLine

lemma SourceMap.Proper.one_le_of_route {m : SourceMap} (h : m.Proper)
    {line column line' column' : Int} (hroute : m.route line column = .mapped line' column') :
    1 ≤ line' := by
  have hsegment : ∀ {i : Nat} {s : Segment}, m.segments[i]? = some s → 1 ≤ s.sourceLine :=
    fun hi => h _ (Array.mem_of_getElem? hi)
  rw [route] at hroute
  split at hroute
  · cases hroute
  · rename_i s hs
    dsimp only at hroute
    split at hroute
    · cases hroute
    · rename_i chosen hchosen
      have hline : 1 ≤ chosen.sourceLine := by
        split at hchosen
        · split at hchosen
          · cases hchosen
          · exact hsegment hchosen
        · cases hchosen
          exact hsegment hs
      split at hroute
      · cases hroute
      · cases hroute
        exact hline

lemma one_le_of_mem_linesFrom {text : List Char} : ∀ {offset : Nat} {acc : List (Nat × Nat)},
    (∀ line ∈ acc, 1 ≤ line.1) → ∀ line ∈ linesFrom text offset acc, 1 ≤ line.1 := by
  induction text with
  | nil => exact fun hacc => hacc
  | cons c cs ih =>
    intro offset acc hacc
    rw [linesFrom]
    split
    · refine ih fun line hline => ?_
      rcases List.mem_cons.mp hline with rfl | hline
      · exact Nat.succ_pos _
      · exact hacc line hline
    · exact ih hacc

/-- The lines of a layout are counted from one, and so are those its map leads to. -/
structure Layout.Proper (l : Layout) : Prop where
  lines : ∀ line ∈ l.lines, 1 ≤ line.1
  map : ∀ m, l.map = some m → m.Proper

lemma Layout.of_proper (text : String) {map : Option SourceMap}
    (hmap : ∀ m, map = some m → m.Proper) : (Layout.of text map).Proper := by
  refine ⟨one_le_of_mem_linesFrom fun line hline => ?_, hmap⟩
  exact (List.mem_singleton.mp hline) ▸ Nat.le_refl 1

section

variable {l : Layout} (h : l.Proper) (d : Nat)

include h

lemma Layout.position?_down (offset : Nat) :
    l.position? d offset = (l.position? 0 offset).map (Position.down d) := by
  unfold position?
  split
  · simp
  · split
    · simp
    · rename_i n first hfind
      have hn : 1 ≤ n := h.lines _ (List.mem_of_find?_eq_some hfind)
      dsimp only
      cases hl : l.map with
      | none => exact congrArg some (Position.down_of_line hn).symm
      | some m =>
        dsimp only [Option.map_some, Option.getD_some]
        cases hroute : m.route n _ with
        | unmapped => exact congrArg some (Position.down_of_line hn).symm
        | broken => rfl
        | mapped line column =>
          have hline := (h.map m hl).one_le_of_route hroute
          have hone : 1 ≤ (line + (0 : Nat)).toNat := by omega
          have hmoved : (line + d).toNat = (line + (0 : Nat)).toNat + d := by omega
          dsimp only [Option.map_some]
          rw [Position.down_of_line hone, hmoved]

lemma Layout.span_down (e : Extent) : l.span d e = (l.span 0 e).down d := by
  cases e with
  | unknown => exact (Span.unknown_down d).symm
  | startsAt a =>
    dsimp only [span]
    rw [position?_down h]
    cases l.position? 0 a with
    | none => exact (Span.unknown_down d).symm
    | some p => simp [Span.down]
  | range a b | skipped a b =>
    dsimp only [span]
    rw [position?_down h d a, position?_down h d b]
    cases l.position? 0 a with
    | none => exact (Span.unknown_down d).symm
    | some p =>
      cases l.position? 0 b with
      | none => exact (Span.unknown_down d).symm
      | some q => rfl

end

/-! ## Outlines -/

section

variable (d : Nat)

lemma Outline.ofIdent?_down (i : Option (Ident Span)) :
    ofIdent? (i.map (Ident.map (Span.down d))) = (ofIdent? i).down d := by
  cases i <;> rfl

lemma downItems_texts (texts : List String) :
    downItems d (texts.map Outline.text) = texts.map Outline.text := by
  induction texts with
  | nil => rfl
  | cons t ts ih => exact congrArg (Outline.text t :: ·) ih

lemma downItems_idents (is : List (Ident Span)) :
    downItems d (is.map Outline.ofIdent) =
      (is.map (Ident.map (Span.down d))).map Outline.ofIdent := by
  induction is with
  | nil => rfl
  | cons i is ih => exact congrArg (Outline.ofIdent (i.map (Span.down d)) :: ·) ih

lemma downFields_append (fs gs : List (String × Outline)) :
    downFields d (fs ++ gs) = downFields d fs ++ downFields d gs := by
  induction fs with
  | nil => rfl
  | cons f fs ih => exact congrArg ((f.1, f.2.down d) :: ·) ih

/-- What is hoisted is the same, and has no place. -/
lemma Outline.hoisted_down (g : Expr Span → Expr Span) (body : List (Stmt Span)) :
    hoisted (rebuildStmts (Span.down d) g body) = downFields d (hoisted body) := by
  have hvars := downItems_texts d
    ((hoistedVars body).map fun v => if v.constant then "const " ++ v.name else v.name)
  have hfunctions := downItems_texts d ((hoistedFunctions body).map Function.name)
  rw [List.map_map] at hvars hfunctions
  have hnames : ((hoistedFunctions body).map (·.rebuild (Span.down d) g)).map
      (fun fn => Outline.text fn.name) = (hoistedFunctions body).map
        (fun fn => Outline.text fn.name) := by
    rw [List.map_map]
    refine List.map_congr_left fun fn _ => ?_
    obtain ⟨_, n, _, _, _, _⟩ := fn
    cases n <;> rfl
  unfold hoisted
  rw [hoistedVars_rebuild, hoistedFunctions_rebuild, hnames]
  exact congrArg₂ (fun vs fs => [("vars", Outline.list vs), ("functions", Outline.list fs)])
    hvars.symm hfunctions.symm

lemma Outline.defaultIndex_down (g : Expr Span → Expr Span) (cs : List (Case Span)) :
    defaultIndex (rebuildCases (Span.down d) g cs) = (defaultIndex cs).down d := by
  have hindex : (rebuildCases (Span.down d) g cs).findIdx? Case.isDefault =
      cs.findIdx? Case.isDefault := by
    induction cs with
    | nil => rfl
    | cons c cs ih =>
      obtain ⟨s, t, b⟩ := c
      rw [rebuildCases, List.findIdx?_cons, List.findIdx?_cons, ih]
      cases t <;> rfl
  unfold defaultIndex
  rw [hindex]
  cases cs.findIdx? Case.isDefault <;> rfl

mutual

lemma Expr.outline_down : ∀ e : Expr Span,
    (e.rebuild (Span.down d) id).outline = e.outline.down d
  | .ident _ | .number .. | .string .. | .bool .. | .null _ | .regexp .. | .this _ => rfl
  | .array s es => by
    rw [Expr.rebuild, id, Expr.outline, outlineElements_down es]; rfl
  | .object s ms => by
    rw [Expr.rebuild, id, Expr.outline, outlineMembers_down ms]; rfl
  | .function fn => by
    rw [Expr.rebuild, id, Expr.outline, fn.outline_down]; rfl
  | .assign s op t v => by
    rw [Expr.rebuild, id, Expr.outline, t.outline_down, v.outline_down]; rfl
  | .binary s op l r => by
    rw [Expr.rebuild, id, Expr.outline, l.outline_down, r.outline_down]; rfl
  | .logical s op l r => by
    rw [Expr.rebuild, id, Expr.outline, l.outline_down, r.outline_down]; rfl
  | .unary s op e => by rw [Expr.rebuild, id, Expr.outline, e.outline_down]; rfl
  | .update s op b e => by rw [Expr.rebuild, id, Expr.outline, e.outline_down]; rfl
  | .conditional s t c a => by
    rw [Expr.rebuild, id, Expr.outline, t.outline_down, c.outline_down, a.outline_down]; rfl
  | .sequence s es => by rw [Expr.rebuild, id, Expr.outline, outlineExprs_down es]; rfl
  | .call s c as => by
    rw [Expr.rebuild, id, Expr.outline, c.outline_down, outlineExprs_down as]; rfl
  | .construct s c as => by
    rw [Expr.rebuild, id, Expr.outline, c.outline_down, outlineExprs_down as]; rfl
  | .member s o p => by rw [Expr.rebuild, id, Expr.outline, o.outline_down]; rfl
  | .index s o k => by
    rw [Expr.rebuild, id, Expr.outline, o.outline_down, k.outline_down]; rfl
  | .label s n e => by rw [Expr.rebuild, id, Expr.outline, e.outline_down]; rfl

lemma outlineExprs_down : ∀ es : List (Expr Span),
    outlineExprs (rebuildExprs (Span.down d) id es) = downItems d (outlineExprs es)
  | [] => rfl
  | e :: es => by
    rw [rebuildExprs, outlineExprs, e.outline_down, outlineExprs_down es]; rfl

lemma outlineExpr?_down : ∀ e : Option (Expr Span),
    outlineExpr? (rebuildExpr? (Span.down d) id e) = (outlineExpr? e).down d
  | none => rfl
  | some e => e.outline_down

lemma outlineElements_down : ∀ es : List (Option (Expr Span)),
    outlineElements (rebuildElements (Span.down d) id es) = downItems d (outlineElements es)
  | [] => rfl
  | e :: es => by
    rw [rebuildElements, outlineElements, outlineExpr?_down e, outlineElements_down es]; rfl

lemma outlineMembers_down : ∀ ms : List (Member Span),
    outlineMembers (rebuildMembers (Span.down d) id ms) = downItems d (outlineMembers ms)
  | [] => rfl
  | .mk k kind v :: ms => by
    rw [rebuildMembers, outlineMembers, v.outline_down, outlineMembers_down ms, outlineMembers]
    cases kind <;> simp [downItems, Outline.down, downFields, Outline.memberKind]

lemma Function.outline_down : ∀ fn : Function Span,
    (fn.rebuild (Span.down d) id).outline = fn.outline.down d
  | .mk s n ps b form src => by
    rw [Function.rebuild, Function.outline, outlineStmts_down b, Outline.hoisted_down,
      Outline.ofIdent?_down, ← downItems_idents]
    rw [Function.outline, Outline.down, downFields_append]
    cases form <;> rfl

lemma Stmt.outline_down : ∀ s : Stmt Span,
    (s.rebuild (Span.down d) id).outline = s.outline.down d
  | .expr e => e.outline_down
  | .block b => b.outline_down
  | .declare s k ds => by
    rw [Stmt.rebuild, Stmt.outline, outlineDeclarators_down ds]; rfl
  | .function s fn => by rw [Stmt.rebuild, Stmt.outline, fn.outline_down]; rfl
  | .branch s t c a => by
    rw [Stmt.rebuild, Stmt.outline, t.outline_down, c.outline_down, outlineStmt?_down a]; rfl
  | .choose s e cs => by
    rw [Stmt.rebuild, Stmt.outline, e.outline_down, outlineCases_down cs,
      Outline.defaultIndex_down]
    rfl
  | .whileLoop s t b => by
    rw [Stmt.rebuild, Stmt.outline, t.outline_down, b.outline_down]; rfl
  | .doLoop s b t => by
    rw [Stmt.rebuild, Stmt.outline, b.outline_down, t.outline_down]; rfl
  | .forLoop s i t u b => by
    rw [Stmt.rebuild, Stmt.outline, outlineStmt?_down i, outlineExpr?_down t,
      outlineExpr?_down u, b.outline_down]
    rfl
  | .forIn s t e b => by
    rw [Stmt.rebuild, Stmt.outline, t.outline_down, e.outline_down, b.outline_down]; rfl
  | .breakTo s l t => by rw [Stmt.rebuild, Stmt.outline, Outline.ofIdent?_down]; rfl
  | .continueTo s l t => by rw [Stmt.rebuild, Stmt.outline, Outline.ofIdent?_down]; rfl
  | .giveBack s v => by rw [Stmt.rebuild, Stmt.outline, outlineExpr?_down v]; rfl
  | .raise s v => by rw [Stmt.rebuild, Stmt.outline, v.outline_down]; rfl
  | .guarded s b hs fin => by
    rw [Stmt.rebuild, Stmt.outline, b.outline_down, outlineHandlers_down hs,
      outlineBlock?_down fin]
    rfl
  | .labeled s l b => by
    rw [Stmt.rebuild, Stmt.outline, b.outline_down]; rfl
  | .within s o b => by
    rw [Stmt.rebuild, Stmt.outline, o.outline_down, b.outline_down]; rfl
  | .empty _ | .debugger _ => rfl

lemma outlineStmts_down : ∀ ss : List (Stmt Span),
    outlineStmts (rebuildStmts (Span.down d) id ss) = downItems d (outlineStmts ss)
  | [] => rfl
  | s :: ss => by
    rw [rebuildStmts, outlineStmts, s.outline_down, outlineStmts_down ss]; rfl

lemma outlineStmt?_down : ∀ s : Option (Stmt Span),
    outlineStmt? (rebuildStmt? (Span.down d) id s) = (outlineStmt? s).down d
  | none => rfl
  | some s => s.outline_down

lemma Block.outline_down : ∀ b : Block Span,
    (b.rebuild (Span.down d) id).outline = b.outline.down d
  | .mk s b => by rw [Block.rebuild, Block.outline, outlineStmts_down b]; rfl

lemma outlineBlock?_down : ∀ b : Option (Block Span),
    outlineBlock? (rebuildBlock? (Span.down d) id b) = (outlineBlock? b).down d
  | none => rfl
  | some b => b.outline_down

lemma outlineDeclarators_down : ∀ ds : List (Declarator Span),
    outlineDeclarators (rebuildDeclarators (Span.down d) id ds) =
      downItems d (outlineDeclarators ds)
  | [] => rfl
  | .mk s i init :: ds => by
    rw [rebuildDeclarators, outlineDeclarators, outlineExpr?_down init,
      outlineDeclarators_down ds]
    rfl

lemma outlineCases_down : ∀ cs : List (Case Span),
    outlineCases (rebuildCases (Span.down d) id cs) = downItems d (outlineCases cs)
  | [] => rfl
  | .mk s t b :: cs => by
    rw [rebuildCases, outlineCases, outlineExpr?_down t, outlineStmts_down b,
      outlineCases_down cs]
    rfl

lemma outlineHandlers_down : ∀ hs : List (Handler Span),
    outlineHandlers (rebuildHandlers (Span.down d) id hs) = downItems d (outlineHandlers hs)
  | [] => rfl
  | .mk s p guard b :: hs => by
    rw [rebuildHandlers, outlineHandlers, outlineExpr?_down guard, b.outline_down,
      outlineHandlers_down hs]
    rfl

end

lemma Program.outline_down (p : Program Span) : (p.down d).outline = p.outline.down d := by
  rw [Program.down, Program.outline, outlineStmts_down, Outline.hoisted_down, Program.outline,
    Outline.down, downFields_append, Span.unknown_down]
  rfl

end

/-! ## Reading -/

/-- What reading comes to, some lines further down. -/
def Parsed.down (d : Nat) : Except ParseError (Program Span) → Except ParseError (Program Span)
  | .ok p => .ok (p.down d)
  | .error e => .error (e.down d)

lemma Fault.one_le_place (f : Fault) (text : List Char) : 1 ≤ (f.place text).1 := by
  unfold place
  split <;> exact Nat.succ_pos _

/-- The tree over spans of lines further down is the tree further down. -/
lemma rebuildStmts_span_down {l : Layout} (h : l.Proper) (d : Nat) (intrinsic : String)
    (body : List (Stmt Extent)) : rebuildStmts (l.span d) (labelCall intrinsic) body =
      rebuildStmts (Span.down d) id (rebuildStmts (l.span 0) (labelCall intrinsic) body) := by
  have hspan : l.span d = Span.down d ∘ l.span 0 := funext fun e => l.span_down h d e
  rw [rebuildStmts_rebuild (k := labelCall intrinsic), hspan]
  intro e
  rw [labelCall_rebuild, Expr.rebuild_eq_descend]
  rfl

lemma Program.resolve_down (d : Nat) (p : Program Span) :
    (p.down d).resolve = Resolved.map (Span.down d) (Program.down d) p.resolve := by
  have hbody := resolveStmts_rebuild (f := Span.down d) (g := id)
    (fun e => (id_map e.resolve).symm) p.body []
  unfold resolve
  rw [Program.down, hbody]
  cases resolveStmts [] p.body <;> rfl

lemma parse_down (intrinsic file text : String) (n : Int)
    (hmap : ∀ m, SourceMap.ofScript file text = .ok (some m) → m.Proper) :
    parse intrinsic file text n =
      Parsed.down (n - 1).toNat (parse intrinsic file text 1) := by
  have hfirst : ((1 : Int) - 1).toNat = 0 := rfl
  unfold parse
  rw [hfirst]
  generalize (n - 1).toNat = d
  dsimp only
  -- the stages of a parse, each of which moves down as a whole
  cases hscript : SourceMap.ofScript file text with
  | error m => rfl
  | ok map =>
    have hl : (Layout.of text map).Proper :=
      Layout.of_proper text fun m hm => hmap m (by rw [hscript, hm])
    dsimp only
    cases readScript text with
    | error f =>
      have hmoved : (ParseError.fault file (f.place text.toList).1 (f.place text.toList).2
          f.message).down d = .fault file ((f.place text.toList).1 + d) (f.place text.toList).2
            f.message := by
        rw [ParseError.down, Position.down_of_line (f.one_le_place text.toList)]
      exact congrArg Except.error hmoved.symm
    | ok body =>
      dsimp only
      cases (nodesOfStmts true body).findSome? Node.objection? with
      | some objection =>
        obtain ⟨extent, message⟩ := objection
        dsimp only
        rw [Layout.span_down hl]
        rfl
      | none =>
        have hplaced : (Program.mk file (rebuildStmts ((Layout.of text map).span d)
            (labelCall intrinsic) body)) = (Program.mk file (rebuildStmts
              ((Layout.of text map).span 0) (labelCall intrinsic) body)).down d :=
          congrArg (Program.mk file) (rebuildStmts_span_down hl d intrinsic body)
        dsimp only
        rw [hplaced, Program.resolve_down]
        generalize (Program.mk file (rebuildStmts ((Layout.of text map).span 0)
          (labelCall intrinsic) body)).resolve = resolved
        cases resolved <;> rfl

/-- A script that starts at line `n` is the script that starts at the first line, moved down by
`n - 1` lines: both are read or neither is, the faults have the same wording and column, and the
trees have the same kinds, fields, hoisted declarations and targets of jumps. -/
theorem start_line_moves_places (intrinsic file text : String) (n : Int)
    (hmap : ∀ m, SourceMap.ofScript file text = .ok (some m) → m.Proper) :
    parse intrinsic file text n = Parsed.down (n - 1).toNat (parse intrinsic file text 1) ∧
      ∀ p q, parse intrinsic file text 1 = .ok p → parse intrinsic file text n = .ok q →
        q.outline = p.outline.down (n - 1).toNat := by
  have hdown := parse_down intrinsic file text n hmap
  refine ⟨hdown, fun p q hp hq => ?_⟩
  have hmoved : q = p.down (n - 1).toNat := by
    rw [hp, hq] at hdown
    exact Except.ok.inj hdown
  rw [hmoved, Program.outline_down]

/-- Where the first statement of a script starts. -/
def firstPlace? : Except ParseError (Program Span) → Option Position
  | .ok p => p.body.head?.map (·.span.start)
  | .error _ => none

/-- The map of a script, if there is one, leads to lines that there are. -/
def properlyMapped (file text : String) : Bool :=
  match SourceMap.ofScript file text with
  | .ok (some m) => m.segments.all fun s => 1 ≤ s.sourceLine
  | _ => true

lemma proper_of_properlyMapped {file text : String} (h : properlyMapped file text = true) :
    ∀ m, SourceMap.ofScript file text = .ok (some m) → m.Proper := by
  intro m hm
  unfold properlyMapped at h
  rw [hm] at h
  intro s hs
  simpa using Array.all_eq_true_iff_forall_mem.mp h s hs

/-- Two names in one line, and a map. -/
def mappedScript (map : String) : String :=
  "x;y\n//# sourceMappingURL=data:application/json;base64," ++ map

/-- A map of the first three columns of the first line to the second line of another text:
`AACA,CAAA,CAAA`. -/
def mapToSecondLine : String :=
  "eyJ2ZXJzaW9uIjozLCJzb3VyY2VzIjpbIiJdLCJtYXBwaW5ncyI6IkFBQ0EsQ0FBQSxDQUFBIn0="

/-- The same to line zero: `AADA,CAAA,CAAA`. -/
def mapToLineZero : String :=
  "eyJ2ZXJzaW9uIjozLCJzb3VyY2VzIjpbIiJdLCJtYXBwaW5ncyI6IkFBREEsQ0FBQSxDQUFBIn0="

theorem start_line_moves_mapped_place :
    (∀ m, SourceMap.ofScript "" (mappedScript mapToSecondLine) = .ok (some m) → m.Proper) ∧
    parse "" "" (mappedScript mapToSecondLine) 3 =
      Parsed.down 2 (parse "" "" (mappedScript mapToSecondLine) 1) ∧
    firstPlace? (parse "" "" (mappedScript mapToSecondLine) 3) = some ⟨4, 0⟩ := by
  have hplaces : properlyMapped "" (mappedScript mapToSecondLine) = true ∧
      firstPlace? (parse "" "" (mappedScript mapToSecondLine) 3) = some ⟨4, 0⟩ := by
    rw [show mappedScript mapToSecondLine = String.ofList _ from String.ofList_append.symm,
      properlyMapped, SourceMap.ofScript_eq_ofChars, String.toList_ofList, parse_ofList]
    decide +kernel
  have hmap := proper_of_properlyMapped hplaces.1
  exact ⟨hmap, (start_line_moves_places "" "" _ 3 hmap).1, hplaces.2⟩

/-- A place that a map leads to line zero is unknown in a script that starts at the first line, and
is moved nevertheless when the script starts further down. -/
theorem place_on_line_zero_moves :
    firstPlace? (parse "" "" (mappedScript mapToLineZero) 3) = some ⟨2, 0⟩ ∧
    firstPlace? (Parsed.down 2 (parse "" "" (mappedScript mapToLineZero) 1)) = some .unknown ∧
    ¬∀ intrinsic file text (n : Int), 1 ≤ n →
      parse intrinsic file text n = Parsed.down (n - 1).toNat (parse intrinsic file text 1) := by
  have hplaces : firstPlace? (parse "" "" (mappedScript mapToLineZero) 3) = some ⟨2, 0⟩ ∧
      firstPlace? (Parsed.down 2 (parse "" "" (mappedScript mapToLineZero) 1)) =
        some .unknown := by
    rw [show mappedScript mapToLineZero = String.ofList _ from String.ofList_append.symm,
      parse_ofList, parse_ofList]
    decide +kernel
  refine ⟨hplaces.1, hplaces.2, fun hall => ?_⟩
  have hmoved := hplaces.1
  rw [hall "" "" _ 3 (by decide), show ((3 : Int) - 1).toNat = 2 from rfl, hplaces.2] at hmoved
  exact absurd hmoved (by decide)

end Clearance.Script
