/-
# How the evaluator and the library are built

`Composed` says in which ways actions are put together. The evaluator and the library keep to more
than that, and `Built` says what: no step depends on how many activations the machine admits, but
for the entering of an activation itself, and arrays are changed by steps that keep their lengths
right.

Objects that are no arrays, or of which nobody asks whether they are in order, are in a set `N`. A
few operations are taken as wholes (`Whole`): what they do to arrays cannot be told from their
steps.
-/
import Clearance.Proofs.Tidy

namespace Clearance

open Clearance.Action Script

/-- The control of a machine that admits another number of activations. -/
def Control.bounded (n : Nat) (c : Control) : Control :=
  { c with realm := { c.realm with maxDepth := n } }

/-- The operations that make arrays, assign properties and bind names. -/
inductive Whole : {α : Type} → Action α → Prop
  | newArray (elements : List Value) : Whole (newArray elements)
  | putProperty (o : Ref) (name : String) (v : Value) : Whole (putProperty o name v)
  | define (name : String) (p : Property) : Whole (define name p)
  | functionExpression (fn : Script.Function Span) : Whole (functionExpression fn)

/-- The ways in which the evaluator and the library put actions together. They are those of
`Composed`; in addition the bound on activations is looked at only where one is entered, and arrays
stay in order. -/
inductive Built : Site → (Nat → Prop) → (Nat → Prop) → {α : Type} → Action α → (α → Prop) → Prop
  | give {site : Site} {W N : Nat → Prop} {α : Type} {a : α} {Q : α → Prop} :
      Q a → Built site W N (.give a) Q
  | andThen {site : Site} {W N : Nat → Prop} {α β : Type} {p : Action β} {k : β → Action α}
      {R : β → Prop} {Q : α → Prop} :
      Built site W N p R → (∀ b, R b → Built site W N (k b) Q) → Built site W N (.andThen p k) Q
  | mono {site : Site} {W N : Nat → Prop} {α : Type} {p : Action α} {R Q : α → Prop} :
      Built site W N p R → (∀ a, R a → Q a) → Built site W N p Q
  /-- What is done with the control does not depend on the bound. -/
  | ask {site : Site} {W N : Nat → Prop} {α : Type} {k : Control → Action α} {Q : α → Prop} :
      (∀ c n, k (c.bounded n) = k c) → (∀ c, site.Covers c → Built site W N (k c) Q) →
        Built site W N (.andThen .current k) Q
  /-- Nor does what is done with the fixed part of the machine. -/
  | askRealm {site : Site} {W N : Nat → Prop} {α : Type} {k : Realm → Action α} {Q : α → Prop} :
      (∀ r n, k { r with maxDepth := n } = k r) → (∀ r, Built site W N (k r) Q) →
        Built site W N (.andThen Action.realm k) Q
  | note {site : Site} {W N : Nat → Prop} {α : Type} {f : Store → α × Store} :
      (∀ s, (f s).2.heap = s.heap) → (∀ s : Store, s.frames.Follow (f s).2.frames) →
        (∀ s, (f s).2.result = s.result) → Built site W N (.update f) fun _ => True
  | allocate {site : Site} {W N : Nat → Prop} {face : Face} {o : Object} :
      (o.cls ≠ "Array" ∨ ∀ id, N id) →
        Built site W N (allocate face o) fun r => W r.id ∧ N r.id
  /-- A change that keeps arrays in order, or a change of an object of which this is not asked. -/
  | touch {site : Site} {W N : Nat → Prop} {α : Type} {f : Store → α × Store} :
      (∀ s, ∃ id g, W id ∧ (s.heap.get id).SameShell (g (s.heap.get id)) ∧
        (f s).2.heap = s.heap.update id g ∧
          (N id ∨ ∀ B, (s.heap.get id).Tidy B → (g (s.heap.get id)).Tidy B)) →
        (∀ s : Store, s.frames.Follow (f s).2.frames) → (∀ s, (f s).2.result = s.result) →
          Built site W N (.update f) fun _ => True
  | guard {site : Site} {W N : Nat → Prop} {o : Ref} {name : String} :
      Built site (fun _ => True) N (guardWrite o name) (fun _ => True) →
        Built site W N (guardWrite o name) fun _ => W o.id
  | checked {site : Site} {W N : Nat → Prop} {α : Type} {p : Action α} :
      Checked p → Built site (fun _ => True) N p (fun _ => True) →
        Built site W N p fun _ => True
  | whole {site : Site} {W N : Nat → Prop} {α : Type} {p : Action α} {Q : α → Prop} :
      Whole p → Built site W (fun _ => True) p Q → Built site W N p Q
  | fail {site : Site} {W N : Nat → Prop} {α : Type} {f : Failure} {Q : α → Prop} :
      Built site W N (.fail f) Q
  | pass {site : Site} {W N : Nat → Prop} {α β : Type} {p : Action β}
      {k : Except Failure β → Action α} {R : β → Prop} {Q : α → Prop} :
      Built site W N p R → (∀ b, R b → Built site W N (k (.ok b)) Q) →
        (∀ f, Built site W N (k (.error f)) Q) →
        (∀ v, PassesOn v (k (.error (.violation v)))) → Built site W N (.andThen (.attempt p) k) Q
  | silence {site : Site} {W N : Nat → Prop} {α β : Type} {p : Action β}
      {k : Except Failure β → Action α} {R : β → Prop} {Q : α → Prop} :
      Built site W N p R → (∀ b, R b → Built site W N (k (.ok b)) Q) →
        (∀ f, Built site W N (k (.error f)) Q) →
        Silences ⟨p, k⟩ → Built site W N (.andThen (.attempt p) k) Q
  | region {site : Site} {W N : Nat → Prop} {α : Type} {pc : Label} {scope : Nat} {p : Action α}
      {Q : α → Prop} :
      site.floor.leq pc = true → Built site W N p Q → Built site W N (.region pc scope p) Q
  | invoke {site : Site} {W N : Nat → Prop} {r : Request} :
      Built site W N (.invoke r) fun _ => True
  | loop {site : Site} {W N : Nat → Prop} {σ α : Type} {init : σ} {step : σ → Action (σ ⊕ α)}
      {I : σ → Prop} {Q : α → Prop} :
      I init → (∀ x, I x → Built site W N (step x) (Sum.elim I Q)) →
        Built site W N (.loop init step) Q
  | await {site : Site} {W N : Nat → Prop} {α : Type} {f : Store → Except Stuck α} :
      Built site W N (.await f) fun _ => True
  | expression {site : Site} {W N : Nat → Prop} {e : Script.Expr Span} :
      site.recording = true → Built site W N (valueOf e.action) (fun _ => True) →
        (∀ f, Built site W N (completionOf e.span.start.line f) fun _ => True) →
        Built site W N (Script.Stmt.expr e).action fun _ => True
  /-- A function is entered, if there is room for one more activation. -/
  | enter {site : Site} {W N : Nat → Prop} {f : Ref} {fn : Script.Function Span} {scope : Nat}
      {this : Value} {args : List Value} :
      (∀ pc, Built site W N (activate f fn scope args pc) fun _ => True) →
        (∀ inside : Site, inside.recording = true →
          Built inside W N (runBody fn.body) fun _ => True) →
        Built site W N (callClosure f fn scope this args) fun _ => True
  /-- A text is entered, if there is room for one more activation. -/
  | enterText {site : Site} {W N : Nat → Prop} {source : String} {k : Label} :
      (∀ file program, Script.parse defaultIntrinsic file source 1 = .ok program →
        ∀ inside : Site, inside.recording = true →
          Built inside W N (runBody program.body) fun _ => True) →
        Built site W N (evalText source k) fun _ => True
  /-- A script is entered. -/
  | enterScript {site : Site} {W N : Nat → Prop} {body : List (Script.Stmt Span)} {file : String} :
      site.floor = .none →
        (∀ inside : Site, inside.recording = true →
          Built inside W N (runBody body) fun _ => True) →
        Built site W N (runProgram body file) fun _ => True

/-- A built action of whose result nothing is said. -/
abbrev Ordinary (site : Site) (W N : Nat → Prop) {α : Type} (p : Action α) : Prop :=
  Built site W N p fun _ => True

variable {site : Site} {W N : Nat → Prop} {α β : Type}

namespace Built

variable {Q : α → Prop}

lemma pure {a : α} (h : Q a) : Built site W N (Pure.pure a) Q := .give h

lemma done (a : α) : Ordinary site W N (Pure.pure a : Action α) := .give trivial

/-- An ordinary step tells what follows it nothing. -/
lemma seq {p : Action β} {k : β → Action α} (hp : Ordinary site W N p)
    (hk : ∀ b, Built site W N (k b) Q) : Built site W N (p >>= k) Q :=
  .andThen hp fun b _ => hk b

lemma ordinary {p : Action α} (h : Built site W N p Q) : Ordinary site W N p :=
  .mono h fun _ _ => trivial

lemma ite {c : Prop} [Decidable c] {p q : Action α} (hp : c → Built site W N p Q)
    (hq : ¬c → Built site W N q Q) : Built site W N (if c then p else q) Q := by
  split_ifs with h
  · exact hp h
  · exact hq h

/-! ## Single instructions -/

/-- The machine is asked where it is. -/
lemma current {k : Control → Action α} (hk : ∀ c n, k (c.bounded n) = k c)
    (h : ∀ c, site.Covers c → Built site W N (k c) Q) : Built site W N (Action.current >>= k) Q :=
  .ask hk h

/-- The machine is asked for its fixed part. -/
lemma realm {k : Realm → Action α} (hk : ∀ r n, k { r with maxDepth := n } = k r)
    (h : ∀ r, Built site W N (k r) Q) : Built site W N (Action.realm >>= k) Q := .askRealm hk h

lemma look (f : Store → α) : Ordinary site W N (Action.look f) :=
  .note (fun _ => rfl) (fun _ => .refl _) fun _ => rfl

/-- A change of an object that is no array. -/
lemma changeOther {id : Nat} {f : Object → Object} (hid : W id ∧ N id)
    (hf : ∀ o : Object, o.SameShell (f o)) : Ordinary site W N (Action.change id f) :=
  .touch (fun _ => ⟨id, f, hid.1, hf _, rfl, .inl hid.2⟩) (fun _ => .refl _) fun _ => rfl

lemma object (id : Nat) : Ordinary site W N (Action.object id) := look _

lemma call (f : Ref) (this : Value) (args : List Value) :
    Ordinary site W N (Action.call f this args) := .invoke

/-- The program counter is not below the floor. -/
lemma pc : Built site W N Action.pc fun k => site.floor.leq k = true :=
  .ask (fun _ _ => rfl) fun _ h => pure h.floor

/-! ## Composed actions -/

lemma composed_thrownFailure (v : Value) (line : Nat) : Routine site W (thrownFailure v line) :=
  .bind .current fun _ _ => .done _

lemma composed_enter {f : Ref} {fn : Script.Function Span} {scope : Nat} {this : Value}
    {args : List Value} (hactivate : ∀ pc, Routine site W (activate f fn scope args pc))
    (hbody : ∀ inside : Site, inside.recording = true → Routine inside W (runBody fn.body)) :
    Routine site W (callClosure f fn scope this args) := by
  refine .bind .current fun c hc => .ite (fun _ => .fail) fun hroom => ?_
  refine .seq (hactivate _) fun frame => ?_
  refine .seq (.routine (.activation (hc.opens hc.floor (by rintro ⟨⟩) rfl rfl hroom)
    (hbody _ rfl))) fun r => ?_
  split
  · exact .seq (composed_thrownFailure ..) fun _ => .fail
  · exact .done _
  · exact .done _

lemma composed_enterText {source : String} {k : Label}
    (hbody : ∀ file program, Script.parse defaultIntrinsic file source 1 = .ok program →
      ∀ inside : Site, inside.recording = true → Routine inside W (runBody program.body)) :
    Routine site W (evalText source k) := by
  refine .bind .current fun c hc => .ite (fun _ => .fail) fun hroom => ?_
  have hopens : site.Opens { c with kind := .eval, pc := c.pc.join k, depth := c.depth + 1 } :=
    hc.opens (Label.leq_join_left k hc.floor) (by rintro ⟨⟩) rfl rfl hroom
  split
  · exact .fail
  · rename_i program hprogram
    refine .seq (.trace _) fun _ => .pass
      (Composed.activation hopens (hbody _ _ hprogram _ rfl)).routine
      (fun r _ => ?_) (fun f => ?_) fun _ => .fail
    · split
      · cases ‹Except.ok _ = Except.error _›
      · cases ‹Except.ok _ = Except.error _›
      · exact .seq (composed_thrownFailure ..) fun _ => .fail
      · exact .done _
    · split
      · exact .fail
      · exact .fail
      · cases ‹Except.error _ = Except.ok _›
      · cases ‹Except.error _ = Except.ok _›

/-- A script starts at the bottom, so nothing is known of its program counter. -/
lemma composed_enterScript (hfloor : site.floor = .none) {body : List (Script.Stmt Span)}
    {file : String}
    (hbody : ∀ inside : Site, inside.recording = true → Routine inside W (runBody body)) :
    Routine site W (runProgram body file) := by
  refine .bind .current fun c hc => ?_
  refine .seq (.routine (.activation ⟨?_, fun l hl => ?_⟩ (hbody _ rfl))) fun r => ?_
  · rw [hfloor]
    exact Label.none_leq _
  · obtain rfl := hc.level l hl
    exact ⟨rfl, rfl, fun h => absurd rfl h⟩
  · split
    · exact .fail
    · exact .done _

/-- Built actions are composed, where nobody asks for the order of arrays. -/
theorem composed {p : Action α} (h : Built site W N p Q) (hN : ∀ id, N id) :
    Composed site W p Q := by
  induction h with
  | give h => exact .give h
  | andThen _ _ ihp ihk => exact .andThen (ihp hN) fun b hb => ihk b hb hN
  | mono _ h ih => exact .mono (ih hN) h
  | ask _ _ ih => exact .andThen .current fun c hc => ih c hc hN
  | askRealm _ _ ih => exact .andThen Composed.realm fun r _ => ih r hN
  | note h hframes hresult => exact .note h hframes hresult
  | allocate => exact .mono .allocate fun r h => ⟨h, hN r.id⟩
  | touch h hframes hresult =>
    refine .touch (fun s => ?_) hframes hresult
    obtain ⟨id, g, hid, hshell, hheap, -⟩ := h s
    exact ⟨id, g, hid, hshell, hheap⟩
  | guard _ ih => exact .guard (ih hN)
  | checked h _ ih => exact .checked h (ih hN)
  | whole _ _ ih => exact ih fun _ => trivial
  | fail => exact .fail
  | pass _ _ _ h ihp ihok iherr =>
    exact .pass (ihp hN) (fun b hb => ihok b hb hN) (fun f => iherr f hN) h
  | silence _ _ _ h ihp ihok iherr =>
    exact .silence (ihp hN) (fun b hb => ihok b hb hN) (fun f => iherr f hN) h
  | region h _ ih => exact .region h (ih hN)
  | invoke => exact .invoke
  | loop h _ ih => exact .loop h fun x hx => ih x hx hN
  | await => exact .await
  | expression h _ _ ihp iherr => exact .expression h (ihp hN) fun f => iherr f hN
  | enter _ _ ihactivate ihbody =>
    exact composed_enter (fun pc => ihactivate pc hN) fun inside h => ihbody inside h hN
  | enterText _ ih =>
    exact composed_enterText fun file program hprogram inside h =>
      ih file program hprogram inside h hN
  | enterScript h _ ih => exact composed_enterScript h fun inside h => ih inside h hN

lemma routine {p : Action α} (h : Ordinary site W (fun _ => True) p) : Routine site W p :=
  h.composed fun _ => trivial

end Built

end Clearance
