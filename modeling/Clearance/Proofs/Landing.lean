/-
# Where jumps land

A jump that goes to a statement around it ends there: of the statements that jumps can go to, each
consumes its own jumps and passes on the others, through blocks, clauses and final blocks. So if all
jumps in a body go to statements around them (`landsStmts`), no run of the body ends with a jump
(`gives_body`), whatever is served and however far the run goes.

This is what a parser sees to: a node of a script is `Proper` if its operators are those of the
language, a `for` statement starts with what it can start with, and jumps stay in their functions.
-/
import Clearance.Proofs.Run
import Clearance.Proofs.Targets

namespace Clearance

open Clearance.Action

namespace Script

variable {α : Type}

/-! ## Jumps that stay -/

mutual

/-- All jumps in a statement go to statements around them. `stack` has the statements around the
statement itself that jumps can go to, innermost first, and tells which of them are loops. -/
def Stmt.lands (stack : List Bool) : Stmt α → Bool
  | .block b => b.lands stack
  | .branch _ _ c a => c.lands stack && landsStmt? stack a
  | .choose _ _ cs => landsCases (false :: stack) cs
  | .whileLoop _ _ b | .doLoop _ b _ | .forLoop _ _ _ _ b | .forIn _ _ _ b => b.lands
    (true :: stack)
  | .breakTo _ _ target => target.any fun k => k < stack.length
  | .continueTo _ _ target => target.any fun k => stack[k]? == some true
  | .guarded _ b hs f => b.lands stack && landsHandlers stack hs && landsBlock? stack f
  | .labeled _ _ b => b.lands (false :: stack)
  | .within _ _ b => b.lands stack
  | .expr _ | .declare .. | .function .. | .giveBack .. | .raise .. | .empty _ | .debugger _ => true
termination_by structural x => x

/-- `Stmt.lands` on a list. -/
def landsStmts (stack : List Bool) : List (Stmt α) → Bool
  | [] => true
  | s :: ss => s.lands stack && landsStmts stack ss
termination_by structural x => x

/-- `Stmt.lands` on an optional statement. -/
def landsStmt? (stack : List Bool) : Option (Stmt α) → Bool
  | none => true
  | some s => s.lands stack
termination_by structural x => x

/-- `Stmt.lands` on a block. -/
def Block.lands (stack : List Bool) : Block α → Bool
  | .mk _ b => landsStmts stack b
termination_by structural x => x

/-- `Stmt.lands` on an optional block. -/
def landsBlock? (stack : List Bool) : Option (Block α) → Bool
  | none => true
  | some b => b.lands stack
termination_by structural x => x

/-- `Stmt.lands` on the cases of a switch. -/
def landsCases (stack : List Bool) : List (Case α) → Bool
  | [] => true
  | .mk _ _ b :: cs => landsStmts stack b && landsCases stack cs
termination_by structural x => x

/-- `Stmt.lands` on catch clauses. -/
def landsHandlers (stack : List Bool) : List (Handler α) → Bool
  | [] => true
  | .mk _ _ _ b :: hs => b.lands stack && landsHandlers stack hs
termination_by structural x => x

end

/-! ## Jumps that have been resolved -/

/-- The statements that jumps can go to, among those around a statement: whether they are loops. -/
def kinds (around : List (Stmt α)) : List Bool := (around.filter Stmt.isTarget).map Stmt.isLoop

lemma Site.GoesTo.kind {x : Site α} {target : Option Nat} {before after : List (Stmt α)}
    {t : Stmt α}
    (h : x.GoesTo target before t after) :
    ∃ k, target = some k ∧ (kinds x.around)[k]? = some t.isLoop := by
  refine ⟨_, h.count, ?_⟩
  rw [kinds, h.around, List.filter_append, List.filter_cons_of_pos h.reachable, List.map_append,
    List.map_cons, List.countP_eq_length_filter]
  exact List.getElem?_eq_some_iff.2 ⟨by simp, by simp⟩

section

variable {x : Site α} {s : α} {l : Option (Ident α)} {target : Option Nat}

lemma Site.Bound.lands_break {around : List (Stmt α)}
    (h : Site.Bound ⟨around, .breakTo s l target⟩) :
    (Stmt.breakTo s l target).lands (kinds around) = true := by
  obtain ⟨before, t, after, hgoes⟩ : ∃ before t after,
      Site.GoesTo ⟨around, .breakTo s l target⟩ target before t after := by
    cases l with
    | none =>
      obtain ⟨before, t, after, hgoes, -⟩ := h
      exact ⟨before, t, after, hgoes⟩
    | some l =>
      obtain ⟨before, t, after, hgoes, -⟩ := h
      exact ⟨before, t, after, hgoes⟩
  obtain ⟨k, rfl, hk⟩ := hgoes.kind
  exact decide_eq_true (List.getElem?_eq_some_iff.1 hk).1

lemma Site.Bound.lands_continue {around : List (Stmt α)}
    (h : Site.Bound ⟨around, .continueTo s l target⟩) :
    (Stmt.continueTo s l target).lands (kinds around) = true := by
  obtain ⟨before, t, after, hgoes, hloop⟩ : ∃ before t after,
      Site.GoesTo ⟨around, .continueTo s l target⟩ target before t after ∧ t.isLoop = true := by
    cases l with
    | none =>
      obtain ⟨before, t, after, hgoes, hloop, -⟩ := h
      exact ⟨before, t, after, hgoes, hloop⟩
    | some l =>
      obtain ⟨before, t, labels, outer, after, hgoes, hloop, -⟩ := h
      exact ⟨before, t, _, hgoes, hloop⟩
  obtain ⟨k, rfl, hk⟩ := hgoes.kind
  rw [hloop] at hk
  exact beq_iff_eq.2 hk

end

mutual

/-- Where all jumps go where they should, they go to statements around them. -/
lemma Stmt.lands_of_bound : ∀ (s : Stmt α) (around : List (Stmt α)),
    (∀ x ∈ s.sites around, x.Bound) → s.lands (kinds around) = true
  | .block b, around, h => b.lands_of_bound (.block b :: around) (List.forall_mem_cons.1 h).2
  | .branch s t c a, around, h => by
    obtain ⟨htest, ha⟩ := List.forall_mem_append.1 (List.forall_mem_cons.1 h).2
    obtain ⟨-, hc⟩ := List.forall_mem_append.1 htest
    exact Bool.and_eq_true_iff.2 ⟨c.lands_of_bound (.branch s t c a :: around) hc,
      lands_of_bound_stmt? a (.branch s t c a :: around) ha⟩
  | .choose _ _ cs, _, h => by
    obtain ⟨-, hcs⟩ := List.forall_mem_append.1 (List.forall_mem_cons.1 h).2
    exact lands_of_bound_cases cs _ hcs
  | .whileLoop _ _ b, _, h => by
    obtain ⟨-, hb⟩ := List.forall_mem_append.1 (List.forall_mem_cons.1 h).2
    exact b.lands_of_bound _ hb
  | .doLoop _ b _, _, h => by
    obtain ⟨hb, -⟩ := List.forall_mem_append.1 (List.forall_mem_cons.1 h).2
    exact b.lands_of_bound _ hb
  | .forLoop _ _ _ _ b, _, h => by
    obtain ⟨-, hb⟩ := List.forall_mem_append.1 (List.forall_mem_cons.1 h).2
    exact b.lands_of_bound _ hb
  | .forIn _ _ _ b, _, h => by
    obtain ⟨-, hb⟩ := List.forall_mem_append.1 (List.forall_mem_cons.1 h).2
    exact b.lands_of_bound _ hb
  | .breakTo .., _, h => (List.forall_mem_cons.1 h).1.lands_break
  | .continueTo .., _, h => (List.forall_mem_cons.1 h).1.lands_continue
  | .guarded s b hs f, around, h => by
    obtain ⟨hb, hf⟩ := List.forall_mem_append.1 (List.forall_mem_cons.1 h).2
    obtain ⟨hb, hhs⟩ := List.forall_mem_append.1 hb
    refine Bool.and_eq_true_iff.2 ⟨Bool.and_eq_true_iff.2 ⟨?_, ?_⟩, ?_⟩
    · exact b.lands_of_bound (.guarded s b hs f :: around) hb
    · exact lands_of_bound_handlers hs (.guarded s b hs f :: around) hhs
    · exact lands_of_bound_block? f (.guarded s b hs f :: around) hf
  | .labeled _ _ b, _, h => b.lands_of_bound _ (List.forall_mem_cons.1 h).2
  | .within s o b, around, h => by
    obtain ⟨-, hb⟩ := List.forall_mem_append.1 (List.forall_mem_cons.1 h).2
    exact b.lands_of_bound (.within s o b :: around) hb
  | .expr _, _, _ | .declare .., _, _ | .function .., _, _ | .giveBack .., _, _ | .raise .., _, _
  | .empty _, _, _ | .debugger _, _, _ => rfl
termination_by structural x => x

lemma lands_of_bound_stmts : ∀ (ss : List (Stmt α)) (around : List (Stmt α)),
    (∀ x ∈ sitesOfStmts around ss, x.Bound) → landsStmts (kinds around) ss = true
  | [], _, _ => rfl
  | s :: ss, _, h => by
    obtain ⟨hs, hss⟩ := List.forall_mem_append.1 h
    exact Bool.and_eq_true_iff.2 ⟨s.lands_of_bound _ hs, lands_of_bound_stmts ss _ hss⟩
termination_by structural x => x

lemma lands_of_bound_stmt? : ∀ (s : Option (Stmt α)) (around : List (Stmt α)),
    (∀ x ∈ sitesOfStmt? around s, x.Bound) → landsStmt? (kinds around) s = true
  | none, _, _ => rfl
  | some s, _, h => s.lands_of_bound _ h
termination_by structural x => x

lemma Block.lands_of_bound : ∀ (b : Block α) (around : List (Stmt α)),
    (∀ x ∈ b.sites around, x.Bound) → b.lands (kinds around) = true
  | .mk _ b, _, h => lands_of_bound_stmts b _ h
termination_by structural x => x

lemma lands_of_bound_block? : ∀ (b : Option (Block α)) (around : List (Stmt α)),
    (∀ x ∈ sitesOfBlock? around b, x.Bound) → landsBlock? (kinds around) b = true
  | none, _, _ => rfl
  | some b, _, h => b.lands_of_bound _ h
termination_by structural x => x

lemma lands_of_bound_cases : ∀ (cs : List (Case α)) (around : List (Stmt α)),
    (∀ x ∈ sitesOfCases around cs, x.Bound) → landsCases (kinds around) cs = true
  | [], _, _ => rfl
  | .mk _ _ b :: cs, _, h => by
    obtain ⟨hb, hcs⟩ := List.forall_mem_append.1 h
    obtain ⟨-, hb⟩ := List.forall_mem_append.1 hb
    exact Bool.and_eq_true_iff.2 ⟨lands_of_bound_stmts b _ hb, lands_of_bound_cases cs _ hcs⟩
termination_by structural x => x

lemma lands_of_bound_handlers : ∀ (hs : List (Handler α)) (around : List (Stmt α)),
    (∀ x ∈ sitesOfHandlers around hs, x.Bound) → landsHandlers (kinds around) hs = true
  | [], _, _ => rfl
  | .mk _ _ _ b :: hs, _, h => by
    obtain ⟨hb, hhs⟩ := List.forall_mem_append.1 h
    obtain ⟨-, hb⟩ := List.forall_mem_append.1 hb
    exact Bool.and_eq_true_iff.2 ⟨b.lands_of_bound _ hb, lands_of_bound_handlers hs _ hhs⟩
termination_by structural x => x

end

/-! ## What scripts are made of -/

/-- The assignment is one of the language. -/
def AssignOp.named : AssignOp → Bool
  | .plain => true
  | .compound op => op.named

namespace Node

/-- The node can be read from a text in which some calls are label expressions. -/
def voiced : Node α → Bool
  | .expr (.label ..) => true
  | .expr (.assign _ op _ _) => op.named
  | node => node.spoken

/-- If the node is a function or a script, the jumps in it stay in it, and only a function
returns. -/
def contained : Node α → Bool
  | .expr (.function fn) => landsStmts [] fn.body
  | .program p =>
    landsStmts [] p.body && (nodesOfStmts false p.body).all fun node => !node.returns
  | _ => true

/-- The node is one that a script can have. -/
structure Proper (node : Node α) : Prop where
  voiced : node.voiced = true
  contained : node.contained = true

end Node

/-- Everything in a tree, whose nodes are given with and without the insides of its functions, can
be read from a text. Only what stands inside a function returns from one. -/
structure Voiced (inside : Bool) (nodes : Bool → List (Node α)) : Prop where
  all : ∀ node ∈ nodes true, node.voiced = true
  returns : inside = false → ∀ node ∈ nodes false, node.returns = false

namespace Voiced

variable {inside : Bool} {n : Node α} {ns ms : Bool → List (Node α)}

lemma tail (h : Voiced inside fun into => n :: ns into) : Voiced inside ns :=
  ⟨(List.forall_mem_cons.1 h.all).2, fun hi => (List.forall_mem_cons.1 (h.returns hi)).2⟩

lemma append_iff :
    (Voiced inside fun into => ns into ++ ms into) ↔ Voiced inside ns ∧ Voiced inside ms := by
  refine ⟨fun h => ⟨⟨?_, fun hi => ?_⟩, ⟨?_, fun hi => ?_⟩⟩, fun ⟨h, h'⟩ => ⟨?_, fun hi => ?_⟩⟩
  · exact (List.forall_mem_append.1 h.all).1
  · exact (List.forall_mem_append.1 (h.returns hi)).1
  · exact (List.forall_mem_append.1 h.all).2
  · exact (List.forall_mem_append.1 (h.returns hi)).2
  · exact List.forall_mem_append.2 ⟨h.all, h'.all⟩
  · exact List.forall_mem_append.2 ⟨h.returns hi, h'.returns hi⟩

end Voiced

/-- What can be run in an activation: everything in it can be read from a text, and its jumps stay
in it. Only a function returns. -/
structure Runnable (inside : Bool) (body : List (Stmt α)) : Prop where
  voiced : Voiced inside fun into => nodesOfStmts into body
  lands : landsStmts [] body = true

lemma Runnable.of_function {fn : Function α} (h : ∀ node ∈ fn.nodes true, node.Proper) :
    Runnable true fn.body := by
  obtain ⟨s, n, ps, b, form, src⟩ := fn
  obtain ⟨hfn, hinside⟩ := List.forall_mem_cons.1 h
  exact ⟨⟨fun node hnode => ((List.forall_mem_append.1 hinside).2 node hnode).voiced, nofun⟩,
    hfn.contained⟩

lemma Runnable.of_program {p : Program α} (h : ∀ node ∈ p.nodes true, node.Proper) :
    Runnable false p.body := by
  obtain ⟨hp, hbody⟩ := List.forall_mem_cons.1 h
  obtain ⟨hlands, hreturns⟩ := Bool.and_eq_true_iff.1 hp.contained
  refine ⟨⟨fun node hnode => (hbody node hnode).voiced, fun _ node hnode => ?_⟩, hlands⟩
  exact Bool.not_eq_true' _ ▸ List.all_eq_true.1 hreturns node hnode

end Script

open Script

/-! ## What actions give -/

/-- Whatever an action gives is as told. -/
def Action.Gives {α : Type} (p : Action α) (R : α → Prop) : Prop :=
  ∀ serve fuel s a t, p.run serve fuel s = .done a t → R a

namespace Action.Gives

variable {α β : Type} {p : Action α} {q : Action β} {k : α → Action β} {R : α → Prop} {Q : β → Prop}

lemma any (p : Action α) : p.Gives fun _ => True := fun _ _ _ _ _ _ => trivial

lemma mono {R' : α → Prop} (h : p.Gives R) (hmono : ∀ a, R a → R' a) : p.Gives R' :=
  fun _ _ _ _ _ hrun => hmono _ (h _ _ _ _ _ hrun)

lemma pure {a : α} (h : R a) : (pure a : Action α).Gives R := by
  rintro _ _ _ _ _ ⟨⟩
  exact h

lemma fail (f : Failure) : (Action.fail f : Action α).Gives R := by
  rintro _ _ _ _ _ ⟨⟩

lemma bind (hp : p.Gives R) (hk : ∀ a, R a → (k a).Gives Q) : (p >>= k).Gives Q := by
  intro serve fuel s b t hrun
  obtain ⟨a, u, ho, hrest⟩ := run_bind_done.1 hrun
  exact hk a (hp _ _ _ _ _ ho) _ _ _ _ _ hrest

/-- First steps of whose results nothing is known. -/
lemma after (hk : ∀ a, (k a).Gives Q) : (p >>= k).Gives Q := bind (any p) fun a _ => hk a

lemma ite {c : Prop} [Decidable c] {p p' : Action α} (hp : c → p.Gives R) (hp' : ¬c → p'.Gives R) :
    (if c then p else p').Gives R := by
  split_ifs with h
  · exact hp h
  · exact hp' h

lemma region {pc : Label} {scope : Nat} (hp : p.Gives R) : (Action.region pc scope p).Gives R := by
  intro serve fuel s a t hrun
  rw [run_region, Outcome.mapState_eq_done] at hrun
  obtain ⟨u, ho, -⟩ := hrun
  exact hp _ _ _ _ _ ho

lemma withPc {pc : Label} (hp : p.Gives R) : (Action.withPc pc p).Gives R :=
  after fun _ => region hp

lemma controlled {kind : String} {line : Nat} {label : Label} (hp : p.Gives R) :
    (Clearance.controlled kind line label p).Gives R := after fun _ => withPc hp

/-- The rounds of a loop. -/
lemma loop {σ : Type} {init : σ} {step : σ → Action (σ ⊕ α)}
    (h : ∀ x, (step x).Gives fun r => ∀ a, r = .inr a → R a) : (Action.loop init step).Gives R := by
  intro serve fuel s a t hrun
  rw [run_loop] at hrun
  refine iterate_done (I := fun _ => True) (fun x u r v _ ho => ?_) trivial hrun
  cases r with
  | inl y => trivial
  | inr b => exact h x _ _ _ _ _ ho b rfl

end Action.Gives

/-! ## How statements end -/

/-- A jump goes to one of the statements around. Only in a function something is returned. -/
def Completion.Lands (inside : Bool) (stack : List Bool) : Completion → Prop
  | .leave target => ∃ k, target = some k ∧ k < stack.length
  | .resume target => ∃ k, target = some k ∧ stack[k]? = some true
  | .returned _ => inside = true
  | .normal | .thrown .. => True

namespace Completion.Lands

variable {inside isLoop : Bool} {stack : List Bool} {c d : Completion}

lemma outward (h : c.Lands inside (isLoop :: stack)) (hleave : c ≠ .leave (some 0))
    (hresume : c ≠ .resume (some 0)) : c.outward.Lands inside stack := by
  cases c with
  | leave target =>
    obtain ⟨_ | k, rfl, hk⟩ := h
    · exact absurd rfl hleave
    · exact ⟨k, rfl, Nat.lt_of_succ_lt_succ hk⟩
  | resume target =>
    obtain ⟨_ | k, rfl, hk⟩ := h
    · exact absurd rfl hresume
    · exact ⟨k, rfl, hk⟩
  | normal | returned | thrown => exact h

/-- Outside of a statement that can be left, if it is no loop or the completion goes on with no
round of it. -/
lemma left (h : c.Lands inside (isLoop :: stack)) (hresume : c ≠ .resume (some 0)) :
    c.afterBreak.Lands inside stack := by
  unfold Completion.afterBreak
  split
  · trivial
  · rename_i hleave
    exact h.outward hleave hresume

/-- Outside of a switch or a labeled statement. -/
lemma afterBreak (h : c.Lands inside (false :: stack)) : c.afterBreak.Lands inside stack :=
  h.left (by
    rintro rfl
    obtain ⟨_, ⟨⟩, ⟨⟩⟩ := h)

/-- Outside of a loop. -/
lemma afterRound (h : c.Lands inside (true :: stack)) (hd : c.afterRound = some d) :
    d.Lands inside stack := by
  unfold Completion.afterRound at hd
  split at hd
  · cases hd
  · cases hd
  · rename_i hresume
    cases hd
    exact h.left hresume

/-- What ends normally or with an exception lands anywhere. -/
lemma of_thrown (h : c.Thrown) : c.Lands inside stack := by
  obtain ⟨_, _, rfl⟩ := h
  trivial

/-- What does not jump or return at all ends the statement that it is the first part of. -/
lemma outward_of_nil (h : c.Lands false []) : c.outward.Lands inside stack := by
  cases c with
  | leave target =>
    obtain ⟨k, -, hk⟩ := h
    exact absurd hk (Nat.not_lt_zero k)
  | resume target => obtain ⟨k, -, ⟨⟩⟩ := h
  | returned v => cases h
  | normal | thrown => trivial

/-- Nothing leaves a body but what is returned. -/
lemma not_leave (h : c.Lands inside []) (target : Option Nat) : c ≠ .leave target := by
  rintro rfl
  obtain ⟨k, -, hk⟩ := h
  exact absurd hk (Nat.not_lt_zero k)

lemma not_resume (h : c.Lands inside []) (target : Option Nat) : c ≠ .resume target := by
  rintro rfl
  obtain ⟨k, -, ⟨⟩⟩ := h

end Completion.Lands

section

variable {inside : Bool} {stack : List Bool} {α : Type}

lemma gives_completionOf (line : Nat) (f : Failure) :
    (completionOf line f).Gives Completion.Thrown := by
  cases f with
  | thrown v file line => exact .pure ⟨_, _, rfl⟩
  | fault name message => exact .after fun _ => .after fun _ => .pure ⟨_, _, rfl⟩
  | violation | overflow | internal | script | quit | host => exact .fail _

lemma lands_guarded {p : Action α} {k : α → Action Completion} (line : Nat)
    (hk : ∀ a, (k a).Gives (Completion.Lands inside stack)) :
    (guarded line p k).Gives (Completion.Lands inside stack) := by
  refine .after fun r => ?_
  cases r with
  | ok a => exact hk a
  | error f => exact (gives_completionOf line f).mono fun _ => .of_thrown

lemma lands_inOrder {ps : List (Action Completion)}
    (h : ∀ p ∈ ps, p.Gives (Completion.Lands inside stack)) :
    (inOrder ps).Gives (Completion.Lands inside stack) := by
  induction ps with
  | nil => exact .pure trivial
  | cons p ps ih =>
    obtain ⟨hp, hps⟩ := List.forall_mem_cons.1 h
    exact .bind hp fun c hc => .ite (fun _ => .pure hc) fun _ => ih hps

lemma lands_initialise (kind : VarKind) (items : List Initialiser) :
    (initialise kind items).Gives (Completion.Lands inside stack) := by
  induction items with
  | nil => exact .pure trivial
  | cons i items ih => exact lands_guarded _ fun _ => ih

lemma lands_functionStatement (fn : Script.Function Span) :
    (functionStatement fn).Gives (Completion.Lands inside stack) :=
  .ite (fun _ => .pure trivial) fun _ => .after fun _ => .after fun _ => .after fun _ =>
    .pure trivial

lemma lands_branchOn (line testLine : Nat) (test : Action Operand) {yes no : Action Completion}
    (hyes : yes.Gives (Completion.Lands inside stack))
    (hno : no.Gives (Completion.Lands inside stack)) :
    (branchOn line testLine test yes no).Gives (Completion.Lands inside stack) :=
  lands_guarded _ fun _ => .controlled (.ite (fun _ => hyes) fun _ => hno)

/-! ### Switches -/

lemma lands_runCases {cases : List CaseAction}
    (h : ∀ c ∈ cases, c.body.Gives (Completion.Lands inside (false :: stack))) :
    (runCases cases).Gives (Completion.Lands inside stack) := by
  refine .bind (lands_inOrder fun p hp => ?_) fun c hc => .pure hc.afterBreak
  obtain ⟨c, hc, rfl⟩ := List.mem_map.1 hp
  exact h c hc

lemma lands_chooseCase (line : Nat) (value : Raw) {all rest : List CaseAction}
    (hall : ∀ c ∈ all, c.body.Gives (Completion.Lands inside (false :: stack)))
    (hrest : ∀ c ∈ rest, c.body.Gives (Completion.Lands inside (false :: stack))) :
    (chooseCase line value all rest).Gives (Completion.Lands inside stack) := by
  induction rest with
  | nil => exact lands_runCases fun c hc => hall c ((List.dropWhile_suffix _).subset hc)
  | cons c rest ih =>
    have htail := ih (List.forall_mem_cons.1 hrest).2
    unfold chooseCase
    cases c.test with
    | none => exact htail
    | some t =>
      exact lands_guarded _ fun _ => .controlled
        (.ite (fun _ => lands_runCases hrest) fun _ => htail)

/-! ### Loops -/

/-- If a loop ends with a round, it does so with what lands. -/
def Ends (inside : Bool) (stack : List Bool) (r : Label ⊕ Completion) : Prop :=
  ∀ c, r = .inr c → c.Lands inside stack

lemma Ends.goes (pc : Label) : Ends inside stack (.inl pc) := nofun

lemma Ends.of_lands {c : Completion} (h : c.Lands inside stack) : Ends inside stack (.inr c) := by
  rintro _ ⟨⟩
  exact h

lemma lands_repeated {round : Action (Label ⊕ Completion)} (h : round.Gives (Ends inside stack)) :
    (repeated round).Gives (Completion.Lands inside stack) :=
  .after fun _ => .loop fun _ => .withPc h

/-- A test or a step has failed. -/
lemma ends_throw (line : Nat) (f : Failure) :
    (do return .inr (← completionOf line f) : Action (Label ⊕ Completion)).Gives
      (Ends inside stack) :=
  .bind (gives_completionOf line f) fun _ hc => .pure (.of_lands (.of_thrown hc))

lemma ends_pass (t : Test) (kind : String) (line : Nat) :
    (t.pass kind line).Gives (Ends inside stack) := by
  refine .after fun r => ?_
  cases r with
  | error f => exact ends_throw t.line f
  | ok r =>
    exact .after fun pc => .ite (fun _ => .pure (.goes pc)) fun _ => .pure (.of_lands trivial)

lemma ends_passTest? (t : Option Test) (kind : String) (line : Nat) :
    (passTest? t kind line).Gives (Ends inside stack) := by
  cases t with
  | none => exact .after fun pc => .pure (.goes pc)
  | some t => exact ends_pass t kind line

lemma ends_afterTest {body : Action Completion} (step : Option Test) (pc : Label)
    (h : body.Gives (Completion.Lands inside (true :: stack))) :
    (afterTest body step pc).Gives (Ends inside stack) := by
  refine .bind h fun c hc => ?_
  split
  · rename_i d hd
    exact .pure (.of_lands (hc.afterRound hd))
  · cases step with
    | none => exact .pure (.goes pc)
    | some step =>
      refine .after fun r => ?_
      cases r with
      | ok _ => exact .pure (.goes pc)
      | error f => exact ends_throw step.line f

lemma lands_whileLoop (kind : String) (line : Nat) (test : Option Test) {body : Action Completion}
    (step : Option Test) (h : body.Gives (Completion.Lands inside (true :: stack))) :
    (whileLoop kind line test body step).Gives (Completion.Lands inside stack) := by
  rw [whileLoop_eq, whileRound_eq]
  refine lands_repeated (.bind (R := Ends inside stack)
    (ends_passTest? test kind line) fun r hr => ?_)
  cases r with
  | inl pc => exact .withPc (ends_afterTest step pc h)
  | inr c => exact .pure hr

lemma lands_doLoop (line : Nat) {body : Action Completion} (test : Test)
    (h : body.Gives (Completion.Lands inside (true :: stack))) :
    (doLoop line body test).Gives (Completion.Lands inside stack) := by
  rw [doLoop_eq]
  refine lands_repeated (.bind h fun c hc => ?_)
  split
  · rename_i d hd
    exact .pure (.of_lands (hc.afterRound hd))
  · exact ends_pass test _ line

lemma lands_eachName (line : Nat) (o : Ref) (k : Label) (target : Action Operand)
    {body : Action Completion} (h : body.Gives (Completion.Lands inside (true :: stack)))
    (names : List String) :
    (eachName line o k target body names).Gives (Completion.Lands inside stack) := by
  induction names with
  | nil => exact .pure trivial
  | cons name names ih =>
    refine .after fun present => .ite (fun _ => lands_guarded _ fun _ => .bind h fun c hc => ?_)
      fun _ => ih
    split
    · rename_i d hd
      exact .pure (hc.afterRound hd)
    · exact ih

lemma lands_enumeration (line sourceLine : Nat) (path : Option String) (source : Action Operand)
    (targetLine : Nat) (target : Action Operand) {body : Action Completion}
    (h : body.Gives (Completion.Lands inside (true :: stack))) :
    (enumeration line sourceLine path source targetLine target body).Gives
      (Completion.Lands inside stack) :=
  lands_guarded _ fun _ => .after fun _ => .ite (fun _ => .pure trivial) fun _ =>
    lands_guarded _ fun _ => .controlled (.after fun names => lands_eachName _ _ _ _ h names)

/-! ### Exceptions -/

lemma gives_run {c : Clause} (thrown : Value) (h : c.body.Gives (Completion.Lands inside stack)) :
    (c.run thrown).Gives fun r => ∀ d ∈ r, d.Lands inside stack := by
  have hbody : (do return some (← c.body) : Action (Option Completion)).Gives
      fun r => ∀ d ∈ r, d.Lands inside stack := .bind h fun d hd => .pure (by rintro _ ⟨⟩; exact hd)
  refine .after fun _ => .after fun _ => .after fun _ => .region (.after fun _ => ?_)
  cases c.guard with
  | none => exact hbody
  | some g =>
    refine .after fun r => ?_
    cases r with
    | error f =>
      exact .bind (gives_completionOf g.line f) fun _ hd =>
        .pure (by rintro _ ⟨⟩; exact .of_thrown hd)
    | ok r => exact .ite (fun _ => hbody) fun _ => .pure nofun

lemma lands_handle (thrown : Value) (line : Nat) {cs : List Clause}
    (h : ∀ c ∈ cs, c.body.Gives (Completion.Lands inside stack)) :
    (handle thrown line cs).Gives (Completion.Lands inside stack) := by
  induction cs with
  | nil => exact .pure trivial
  | cons c cs ih =>
    obtain ⟨hc, hcs⟩ := List.forall_mem_cons.1 h
    refine .bind (gives_run thrown hc) fun r hr => ?_
    cases r with
    | none => exact ih hcs
    | some d => exact .pure (hr d rfl)

lemma lands_tryStatement {body : Action Completion} {cs : List Clause}
    {final : Option (Action Completion)} (hbody : body.Gives (Completion.Lands inside stack))
    (hcs : ∀ c ∈ cs, c.body.Gives (Completion.Lands inside stack))
    (hfinal : ∀ p ∈ final, p.Gives (Completion.Lands inside stack)) :
    (tryStatement body cs final).Gives (Completion.Lands inside stack) := by
  refine .bind hbody fun c hc => ?_
  extract_lets finished
  have hfinished : ∀ d, d.Lands inside stack →
      (finished d).Gives (Completion.Lands inside stack) := by
    intro d hd
    cases final with
    | none => exact .pure hd
    | some p =>
      exact .bind (hfinal p rfl) fun e he => .ite (fun _ => .pure he) fun _ => .pure hd
  split
  · exact .bind (lands_handle _ _ hcs) hfinished
  · exact .bind (.pure hc) hfinished

/-! ### Others -/

lemma lands_withStatement (line objectLine : Nat) (path : Option String) (object : Action Operand)
    {body : Action Completion} (h : body.Gives (Completion.Lands inside stack)) :
    (withStatement line objectLine path object body).Gives (Completion.Lands inside stack) := by
  refine lands_guarded _ fun r => lands_guarded _ fun o => .after fun pc => .after fun realm =>
    .after fun c => ?_
  split <;> exact .after fun _ => .after fun _ => .after fun _ => .region h

lemma lands_returnStatement (line : Nat) (value : Option (Action Operand)) (h : inside = true) :
    (returnStatement line value).Gives (Completion.Lands inside stack) := by
  cases value with
  | none => exact .after fun _ => .pure h
  | some p => exact lands_guarded _ fun _ => .after fun _ => .pure h

lemma lands_throwStatement (line valueLine : Nat) (value : Action Operand) :
    (throwStatement line valueLine value).Gives (Completion.Lands inside stack) :=
  lands_guarded _ fun _ => .after fun _ => .pure trivial

end

/-! ## Bodies -/

section

variable {inside : Bool} {stack : List Bool}

/-- What a `for` statement starts with does not jump. -/
lemma lands_initAction {init : Option (Script.Stmt Span)} (h : init.all Stmt.takesKeys = true) :
    (initAction init).Gives (Completion.Lands false []) := by
  cases init with
  | none => exact .pure trivial
  | some s =>
    cases s
    case declare => exact lands_initialise _ _
    case expr => exact lands_guarded _ fun _ => .after fun _ => .pure trivial
    all_goals cases h

/-- What takes the names of an enumeration does not jump. -/
lemma lands_enumTarget {target : Script.Stmt Span} {before : Action Completion} {line : Nat}
    {action : Action Operand} (h : enumTarget target = .place before line action) :
    before.Gives (Completion.Lands false []) := by
  cases target
  case declare s kind items =>
    cases items with
    | nil => cases h
    | cons d ds =>
      cases d
      cases h
      exact lands_initialise _ _
  case expr =>
    cases h
    exact .pure trivial
  all_goals cases h

/-- A value is returned inside of a function. -/
lemma inside_of_returns {s : Span} {value : Option (Script.Expr Span)}
    (h : Voiced inside fun into => (Script.Stmt.giveBack s value).nodes into) : inside = true := by
  by_contra hinside
  cases h.returns (Bool.not_eq_true _ ▸ hinside) _ List.mem_cons_self

mutual

/-- **A statement ends as its jumps say**: each goes to a statement around it. -/
theorem lands_stmt : ∀ (s : Script.Stmt Span) {stack : List Bool},
    (Voiced inside fun into => s.nodes into) → s.lands stack = true →
      s.action.Gives (Completion.Lands inside stack)
  | .expr _, _, _, _ => lands_guarded _ fun _ => .after fun _ => .pure trivial
  | .block b, _, h, hs => lands_block b h hs
  | .declare .., _, _, _ => lands_initialise _ _
  | .function .., _, _, _ => lands_functionStatement _
  | .branch _ _ yes no, _, h, hs => by
    obtain ⟨hyes, hno⟩ := Voiced.append_iff.1 h.tail
    obtain ⟨-, hyes⟩ := Voiced.append_iff.1 hyes
    obtain ⟨hyes', hno'⟩ := Bool.and_eq_true_iff.1 hs
    exact lands_branchOn _ _ _ (lands_stmt yes hyes hyes') (lands_alternative no hno hno')
  | .choose _ _ cases, _, h, hs => by
    obtain ⟨-, hcases⟩ := Voiced.append_iff.1 h.tail
    have hall := lands_cases cases hcases hs
    exact lands_guarded _ fun _ => .controlled (lands_chooseCase _ _ hall hall)
  | .whileLoop _ _ body, _, h, hs => by
    obtain ⟨-, hbody⟩ := Voiced.append_iff.1 h.tail
    exact lands_whileLoop _ _ _ _ (lands_stmt body hbody hs)
  | .doLoop _ body _, _, h, hs => by
    obtain ⟨hbody, -⟩ := Voiced.append_iff.1 h.tail
    exact lands_doLoop _ _ (lands_stmt body hbody hs)
  | .forLoop _ _ _ _ body, _, h, hs => by
    obtain ⟨-, hbody⟩ := Voiced.append_iff.1 h.tail
    rw [Stmt.action]
    exact .bind (lands_initAction (h.all _ List.mem_cons_self)) fun c hc =>
      .ite (fun _ => .pure hc.outward_of_nil) fun _ =>
        lands_whileLoop _ _ _ _ (lands_stmt body hbody hs)
  | .forIn _ target _ body, _, h, hs => by
    obtain ⟨-, hbody⟩ := Voiced.append_iff.1 h.tail
    rw [Stmt.action]
    cases htarget : enumTarget target with
    | invalid message => exact .fail _
    | place before line action =>
      exact .bind (lands_enumTarget htarget) fun c hc =>
        .ite (fun _ => .pure hc.outward_of_nil) fun _ =>
          lands_enumeration _ _ _ _ _ _ (lands_stmt body hbody hs)
  | .breakTo _ _ none, _, _, hs | .continueTo _ _ none, _, _, hs => by cases hs
  | .breakTo _ _ (some k), _, _, hs => .pure ⟨k, rfl, of_decide_eq_true hs⟩
  | .continueTo _ _ (some k), _, _, hs => .pure ⟨k, rfl, eq_of_beq hs⟩
  | .giveBack _ none, _, h, _ | .giveBack _ (some _), _, h, _ => by
    rw [Stmt.action]
    exact lands_returnStatement _ _ (inside_of_returns h)
  | .raise .., _, _, _ => lands_throwStatement _ _ _
  | .guarded _ body handlers final, _, h, hs => by
    obtain ⟨hbody, hfinal⟩ := Voiced.append_iff.1 h.tail
    obtain ⟨hbody, hhandlers⟩ := Voiced.append_iff.1 hbody
    obtain ⟨hbody', hfinal'⟩ := Bool.and_eq_true_iff.1 hs
    obtain ⟨hbody', hhandlers'⟩ := Bool.and_eq_true_iff.1 hbody'
    exact lands_tryStatement (lands_block body hbody hbody')
      (lands_clauses handlers hhandlers hhandlers') (lands_final final hfinal hfinal')
  | .labeled _ _ body, _, h, hs =>
    .bind (lands_stmt body h.tail.tail hs) fun _ hc => .pure hc.afterBreak
  | .within _ _ body, _, h, hs => by
    obtain ⟨-, hbody⟩ := Voiced.append_iff.1 h.tail
    exact lands_withStatement _ _ _ _ (lands_stmt body hbody hs)
  | .empty _, _, _, _ => .pure trivial
  | .debugger _, _, _, _ => (gives_completionOf _ _).mono fun _ => .of_thrown

lemma lands_stmtActions : ∀ (ss : List (Script.Stmt Span)) {stack : List Bool},
    (Voiced inside fun into => nodesOfStmts into ss) → landsStmts stack ss = true →
      ∀ p ∈ stmtActions ss, p.Gives (Completion.Lands inside stack)
  | [], _, _, _ => nofun
  | s :: ss, _, h, hss => by
    obtain ⟨hs, hrest⟩ := Voiced.append_iff.1 h
    obtain ⟨hs', hrest'⟩ := Bool.and_eq_true_iff.1 hss
    exact List.forall_mem_cons.2 ⟨lands_stmt s hs hs', lands_stmtActions ss hrest hrest'⟩

lemma lands_block : ∀ (b : Script.Block Span) {stack : List Bool},
    (Voiced inside fun into => b.nodes into) → b.lands stack = true →
      b.action.Gives (Completion.Lands inside stack)
  | .mk _ body, _, h, hb => lands_inOrder (lands_stmtActions body h.tail hb)

lemma lands_alternative : ∀ (s : Option (Script.Stmt Span)) {stack : List Bool},
    (Voiced inside fun into => nodesOfStmt? into s) → landsStmt? stack s = true →
      (alternative s).Gives (Completion.Lands inside stack)
  | none, _, _, _ => .pure trivial
  | some s, _, h, hs => lands_stmt s h hs

lemma lands_final : ∀ (b : Option (Script.Block Span)) {stack : List Bool},
    (Voiced inside fun into => nodesOfBlock? into b) → landsBlock? stack b = true →
      ∀ p ∈ finalAction b, p.Gives (Completion.Lands inside stack)
  | none, _, _, _ => nofun
  | some b, _, h, hb => by
    rintro _ ⟨⟩
    exact lands_block b h hb

lemma lands_cases : ∀ (cs : List (Case Span)) {stack : List Bool},
    (Voiced inside fun into => nodesOfCases into cs) → landsCases stack cs = true →
      ∀ c ∈ caseActions cs, c.body.Gives (Completion.Lands inside stack)
  | [], _, _, _ => nofun
  | .mk _ _ body :: cs, _, h, hcs => by
    obtain ⟨hbody, hrest⟩ := Voiced.append_iff.1 h.tail
    obtain ⟨-, hbody⟩ := Voiced.append_iff.1 hbody
    obtain ⟨hbody', hrest'⟩ := Bool.and_eq_true_iff.1 hcs
    exact List.forall_mem_cons.2 ⟨lands_inOrder (lands_stmtActions body hbody hbody'),
      lands_cases cs hrest hrest'⟩

lemma lands_clauses : ∀ (hs : List (Handler Span)) {stack : List Bool},
    (Voiced inside fun into => nodesOfHandlers into hs) → landsHandlers stack hs = true →
      ∀ c ∈ clauses hs, c.body.Gives (Completion.Lands inside stack)
  | [], _, _, _ => nofun
  | .mk _ _ _ body :: hs, _, h, hhs => by
    obtain ⟨hbody, hrest⟩ := Voiced.append_iff.1 h.tail.tail
    obtain ⟨-, hbody⟩ := Voiced.append_iff.1 hbody
    obtain ⟨hbody', hrest'⟩ := Bool.and_eq_true_iff.1 hhs
    exact List.forall_mem_cons.2 ⟨lands_block body hbody hbody', lands_clauses hs hrest hrest'⟩

end

/-- **No run of a body ends with a jump**, and where it is not the body of a function it returns
nothing. -/
theorem lands_body {body : List (Script.Stmt Span)} (h : Runnable inside body) :
    (inOrder (stmtActions body)).Gives (Completion.Lands inside []) :=
  lands_inOrder (lands_stmtActions body h.voiced h.lands)

end

end Clearance
