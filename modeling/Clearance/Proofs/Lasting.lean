/-
# How the evaluator and the library treat properties

`Formed` says of an action what `Built` says, and in addition that every single step keeps objects
listable. An operation that is taken as a whole (`Clean`) does so, although one of its steps on its
own might not: an assignment replaces a property by one that is hidden like it.

`Lasting` says of an action what `Formed` says, and in addition what becomes of properties that
cannot be deleted: every single step leaves them where they are, and as they are if they are
read-only. The steps that do not are those of whole operations, and those on objects that the action
has made itself.
-/
import Clearance.Proofs.Built
import Clearance.Proofs.Listable

namespace Clearance

open Clearance.Action Script

/-! ## Objects stay listable -/

/-- The wholes that keep objects listable. -/
inductive Clean : {α : Type} → Action α → Prop
  | newArray (elements : List Value) : Clean (newArray elements)
  | putProperty (o : Ref) (name : String) (v : Value) : Clean (putProperty o name v)
  | define (name : String) {p : Property} (hp : p.hidden = false) : Clean (define name p)
  | functionExpression (fn : Script.Function Span) : Clean (functionExpression fn)

lemma Clean.whole {α : Type} {p : Action α} (h : Clean p) : Whole p := by
  cases h with
  | newArray elements => exact .newArray elements
  | putProperty o name v => exact .putProperty o name v
  | define name _ => exact .define name _
  | functionExpression fn => exact .functionExpression fn

/-- The ways in which the evaluator and the library put actions together. They are those of `Built`;
in addition new objects are listable, and changed ones stay so. -/
inductive Formed : Site → (Nat → Prop) → (Nat → Prop) → {α : Type} → Action α → (α → Prop) → Prop
  | give {site : Site} {W N : Nat → Prop} {α : Type} {a : α} {Q : α → Prop} :
      Q a → Formed site W N (.give a) Q
  | andThen {site : Site} {W N : Nat → Prop} {α β : Type} {p : Action β} {k : β → Action α}
      {R : β → Prop} {Q : α → Prop} :
      Formed site W N p R → (∀ b, R b → Formed site W N (k b) Q) → Formed site W N (.andThen p k) Q
  | mono {site : Site} {W N : Nat → Prop} {α : Type} {p : Action α} {R Q : α → Prop} :
      Formed site W N p R → (∀ a, R a → Q a) → Formed site W N p Q
  | ask {site : Site} {W N : Nat → Prop} {α : Type} {k : Control → Action α} {Q : α → Prop} :
      (∀ c n, k (c.bounded n) = k c) → (∀ c, site.Covers c → Formed site W N (k c) Q) →
        Formed site W N (.andThen .current k) Q
  | askRealm {site : Site} {W N : Nat → Prop} {α : Type} {k : Realm → Action α} {Q : α → Prop} :
      (∀ r n, k { r with maxDepth := n } = k r) → (∀ r, Formed site W N (k r) Q) →
        Formed site W N (.andThen Action.realm k) Q
  | note {site : Site} {W N : Nat → Prop} {α : Type} {f : Store → α × Store} :
      (∀ s, (f s).2.heap = s.heap) → (∀ s : Store, s.frames.Follow (f s).2.frames) →
        (∀ s, (f s).2.result = s.result) → Formed site W N (.update f) fun _ => True
  | allocate {site : Site} {W N : Nat → Prop} {face : Face} {o : Object} :
      (o.cls ≠ "Array" ∨ ∀ id, N id) → o.Listable →
        Formed site W N (allocate face o) fun r => W r.id ∧ N r.id
  /-- A change keeps objects listable. -/
  | touch {site : Site} {W N : Nat → Prop} {α : Type} {f : Store → α × Store} :
      (∀ s, ∃ id g, W id ∧ (s.heap.get id).SameShell (g (s.heap.get id)) ∧
        (f s).2.heap = s.heap.update id g ∧
          (N id ∨ ∀ B, (s.heap.get id).Tidy B → (g (s.heap.get id)).Tidy B) ∧
          ((s.heap.get id).Listable → (g (s.heap.get id)).Listable)) →
        (∀ s : Store, s.frames.Follow (f s).2.frames) → (∀ s, (f s).2.result = s.result) →
          Formed site W N (.update f) fun _ => True
  | guard {site : Site} {W N : Nat → Prop} {o : Ref} {name : String} :
      Formed site (fun _ => True) N (guardWrite o name) (fun _ => True) →
        Formed site W N (guardWrite o name) fun _ => W o.id
  | checked {site : Site} {W N : Nat → Prop} {α : Type} {p : Action α} :
      Checked p → Formed site (fun _ => True) N p (fun _ => True) →
        Formed site W N p fun _ => True
  | whole {site : Site} {W N : Nat → Prop} {α : Type} {p : Action α} {Q : α → Prop} :
      Clean p → Built site W (fun _ => True) p Q → Formed site W N p Q
  | fail {site : Site} {W N : Nat → Prop} {α : Type} {f : Failure} {Q : α → Prop} :
      Formed site W N (.fail f) Q
  | pass {site : Site} {W N : Nat → Prop} {α β : Type} {p : Action β}
      {k : Except Failure β → Action α} {R : β → Prop} {Q : α → Prop} :
      Formed site W N p R → (∀ b, R b → Formed site W N (k (.ok b)) Q) →
        (∀ f, Formed site W N (k (.error f)) Q) →
        (∀ v, PassesOn v (k (.error (.violation v)))) → Formed site W N (.andThen (.attempt p) k) Q
  | silence {site : Site} {W N : Nat → Prop} {α β : Type} {p : Action β}
      {k : Except Failure β → Action α} {R : β → Prop} {Q : α → Prop} :
      Formed site W N p R → (∀ b, R b → Formed site W N (k (.ok b)) Q) →
        (∀ f, Formed site W N (k (.error f)) Q) →
        Silences ⟨p, k⟩ → Formed site W N (.andThen (.attempt p) k) Q
  | region {site : Site} {W N : Nat → Prop} {α : Type} {pc : Label} {scope : Nat} {p : Action α}
      {Q : α → Prop} :
      site.floor.leq pc = true → Formed site W N p Q → Formed site W N (.region pc scope p) Q
  | invoke {site : Site} {W N : Nat → Prop} {r : Request} :
      Formed site W N (.invoke r) fun _ => True
  | loop {site : Site} {W N : Nat → Prop} {σ α : Type} {init : σ} {step : σ → Action (σ ⊕ α)}
      {I : σ → Prop} {Q : α → Prop} :
      I init → (∀ x, I x → Formed site W N (step x) (Sum.elim I Q)) →
        Formed site W N (.loop init step) Q
  | await {site : Site} {W N : Nat → Prop} {α : Type} {f : Store → Except Stuck α} :
      Formed site W N (.await f) fun _ => True
  | expression {site : Site} {W N : Nat → Prop} {e : Script.Expr Span} :
      site.recording = true → Formed site W N (valueOf e.action) (fun _ => True) →
        (∀ f, Formed site W N (completionOf e.span.start.line f) fun _ => True) →
        Formed site W N (Script.Stmt.expr e).action fun _ => True
  | enter {site : Site} {W N : Nat → Prop} {f : Ref} {fn : Script.Function Span} {scope : Nat}
      {this : Value} {args : List Value} :
      (∀ pc, Formed site W N (activate f fn scope args pc) fun _ => True) →
        (∀ inside : Site, inside.recording = true →
          Formed inside W N (runBody fn.body) fun _ => True) →
        Formed site W N (callClosure f fn scope this args) fun _ => True
  | enterText {site : Site} {W N : Nat → Prop} {source : String} {k : Label} :
      (∀ file program, Script.parse defaultIntrinsic file source 1 = .ok program →
        ∀ inside : Site, inside.recording = true →
          Formed inside W N (runBody program.body) fun _ => True) →
        Formed site W N (evalText source k) fun _ => True
  | enterScript {site : Site} {W N : Nat → Prop} {body : List (Script.Stmt Span)} {file : String} :
      site.floor = .none →
        (∀ inside : Site, inside.recording = true →
          Formed inside W N (runBody body) fun _ => True) →
        Formed site W N (runProgram body file) fun _ => True

/-- A formed action of whose result nothing is said. -/
abbrev Trim (site : Site) (W N : Nat → Prop) {α : Type} (p : Action α) : Prop :=
  Formed site W N p fun _ => True

variable {site : Site} {W N : Nat → Prop} {α β : Type}

namespace Formed

variable {Q : α → Prop}

lemma done (a : α) : Trim site W N (Pure.pure a : Action α) := .give trivial

lemma bind {p : Action β} {k : β → Action α} {R : β → Prop} (hp : Formed site W N p R)
    (hk : ∀ b, R b → Formed site W N (k b) Q) : Formed site W N (p >>= k) Q :=
  .andThen hp hk

/-- An ordinary step tells what follows it nothing. -/
lemma seq {p : Action β} {k : β → Action α} (hp : Trim site W N p)
    (hk : ∀ b, Formed site W N (k b) Q) : Formed site W N (p >>= k) Q :=
  .andThen hp fun b _ => hk b

lemma ite {c : Prop} [Decidable c] {p q : Action α} (hp : c → Formed site W N p Q)
    (hq : ¬c → Formed site W N q Q) : Formed site W N (if c then p else q) Q := by
  split_ifs with h
  · exact hp h
  · exact hq h

/-- The machine is asked for its fixed part. -/
lemma realm {k : Realm → Action α} (hk : ∀ r n, k { r with maxDepth := n } = k r)
    (h : ∀ r, Formed site W N (k r) Q) : Formed site W N (Action.realm >>= k) Q := .askRealm hk h

/-- A change that keeps arrays in order. -/
lemma change {id : Nat} {f : Object → Object} (hid : W id)
    (hf : ∀ o : Object, o.SameShell (f o)) (htidy : ∀ o : Object, ∀ B, o.Tidy B → (f o).Tidy B)
    (hlist : ∀ o : Object, o.Listable → (f o).Listable) :
    Trim site W N (Action.change id f) :=
  .touch (fun _ => ⟨id, f, hid, hf _, rfl, .inr (htidy _), hlist _⟩) (fun _ => .refl _) fun _ => rfl

/-- A change of an object that is no array. -/
lemma changeOther {id : Nat} {f : Object → Object} (hid : W id ∧ N id)
    (hf : ∀ o : Object, o.SameShell (f o)) (hlist : ∀ o : Object, o.Listable → (f o).Listable) :
    Trim site W N (Action.change id f) :=
  .touch (fun _ => ⟨id, f, hid.1, hf _, rfl, .inl hid.2, hlist _⟩) (fun _ => .refl _) fun _ => rfl

/-- A new object that is no array may be written. -/
lemma create {face : Face} {o : Object} (cls : String) (hcls : o.cls = cls) (h : cls ≠ "Array")
    (ho : o.Listable) : Formed site W N (Action.allocate face o) fun r => W r.id ∧ N r.id :=
  .allocate (.inl (hcls ▸ h)) ho

/-- Formed actions are built. -/
theorem built {p : Action α} (h : Formed site W N p Q) : Built site W N p Q := by
  induction h with
  | give h => exact .give h
  | andThen _ _ ihp ihk => exact .andThen ihp ihk
  | mono _ h ih => exact .mono ih h
  | ask h _ ih => exact .ask h ih
  | askRealm h _ ih => exact .askRealm h ih
  | note h hframes hresult => exact .note h hframes hresult
  | allocate hcls _ => exact .allocate hcls
  | touch h hframes hresult =>
    refine .touch (fun s => ?_) hframes hresult
    obtain ⟨id, g, hid, hshell, hheap, htidy, -⟩ := h s
    exact ⟨id, g, hid, hshell, hheap, htidy⟩
  | guard _ ih => exact .guard ih
  | checked h _ ih => exact .checked h ih
  | whole h hp => exact .whole h.whole hp
  | fail => exact .fail
  | pass _ _ _ h ihp ihok iherr => exact .pass ihp ihok iherr h
  | silence _ _ _ h ihp ihok iherr => exact .silence ihp ihok iherr h
  | region h _ ih => exact .region h ih
  | invoke => exact .invoke
  | loop h _ ih => exact .loop h ih
  | await => exact .await
  | expression h _ _ ihp iherr => exact .expression h ihp iherr
  | enter _ _ ihactivate ihbody => exact .enter ihactivate ihbody
  | enterText _ ih => exact .enterText ih
  | enterScript h _ ih => exact .enterScript h ih

end Formed

/-! ## What becomes of properties -/

/-- What may become of a property that cannot be deleted. -/
structure Property.Lasts (q q' : Property) : Prop where
  permanent : q'.permanent = true
  accessor : q'.isAccessor = q.isAccessor
  fixed : q.readOnly = true → q' = q

lemma Property.Lasts.refl {q : Property} (h : q.permanent = true) : q.Lasts q :=
  ⟨h, rfl, fun _ => rfl⟩

lemma Property.Lasts.trans {q q' q'' : Property} (h : q.Lasts q') (h' : q'.Lasts q'') :
    q.Lasts q'' := by
  refine ⟨h'.permanent, h'.accessor.trans h.accessor, fun hq => ?_⟩
  obtain rfl := h.fixed hq
  exact h'.fixed hq

namespace Object

/-- What one object has under a name, and cannot lose, lasts in the other one. -/
def Retains (o o' : Object) (name : String) : Prop :=
  ∀ q, Slots.find? name o.slots = some q → q.permanent = true →
    ∃ q', Slots.find? name o'.slots = some q' ∧ q.Lasts q'

namespace Retains

variable {o o' : Object} {name : String}

lemma of_eq (h : Slots.find? name o'.slots = Slots.find? name o.slots) : o.Retains o' name :=
  fun q hq hpermanent => ⟨q, h.trans hq, .refl hpermanent⟩

lemma refl (o : Object) (name : String) : o.Retains o name := of_eq rfl

/-- Nothing is lost where there is nothing. -/
lemma of_none (h : Slots.find? name o.slots = none) : o.Retains o' name := by
  intro q hq
  rw [h] at hq
  cases hq

/-- A property is installed under another name, or where what was there lasts. -/
lemma define {n : String} {p : Property}
    (h : n = name → ∀ q, Slots.find? name o.slots = some q → q.permanent = true → q.Lasts p) :
    o.Retains (o.define n p) name := by
  intro q hq hpermanent
  rw [find?_define]
  split_ifs with hn
  · exact ⟨p, rfl, h hn.symm q hq hpermanent⟩
  · exact ⟨q, hq, .refl hpermanent⟩

lemma delete (o : Object) (n name : String) : o.Retains (o.delete n).2 name := by
  by_cases hn : name = n
  · subst hn
    intro q hq hpermanent
    refine ⟨q, ?_, .refl hpermanent⟩
    unfold Object.delete
    simp only [hq, hpermanent, if_true]
  · exact of_eq (find?_delete_ne o hn)

/-- A property that becomes read-only lasts. -/
lemma freeze (o : Object) {n name : String} {p : Property} (hp : o.own? n = some p) :
    o.Retains (o.define n { p with readOnly := true }) name := by
  refine define fun hn q hq hpermanent => ?_
  subst hn
  rw [own?_of_find? hq] at hp
  cases hp
  refine ⟨hpermanent, rfl, fun hfixed => ?_⟩
  rw [← hfixed]

end Retains

end Object

/-! ## Actions -/

/-- The ways in which the evaluator and the library put actions together. They are those of
`Formed`; in addition, what cannot be deleted lasts in all objects but those that the action makes.
The stores of frames are not among these, as names are bound in them. -/
inductive Lasting : Site → (Nat → Prop) → (Nat → Prop) → {α : Type} → Action α → (α → Prop) → Prop
  | give {site : Site} {W N : Nat → Prop} {α : Type} {a : α} {Q : α → Prop} :
      Q a → Lasting site W N (.give a) Q
  | andThen {site : Site} {W N : Nat → Prop} {α β : Type} {p : Action β} {k : β → Action α}
      {R : β → Prop} {Q : α → Prop} :
      Lasting site W N p R → (∀ b, R b → Lasting site W N (k b) Q) →
        Lasting site W N (.andThen p k) Q
  | mono {site : Site} {W N : Nat → Prop} {α : Type} {p : Action α} {R Q : α → Prop} :
      Lasting site W N p R → (∀ a, R a → Q a) → Lasting site W N p Q
  | ask {site : Site} {W N : Nat → Prop} {α : Type} {k : Control → Action α} {Q : α → Prop} :
      (∀ c n, k (c.bounded n) = k c) → (∀ c, site.Covers c → Lasting site W N (k c) Q) →
        Lasting site W N (.andThen .current k) Q
  | askRealm {site : Site} {W N : Nat → Prop} {α : Type} {k : Realm → Action α} {Q : α → Prop} :
      (∀ r n, k { r with maxDepth := n } = k r) → (∀ r, Lasting site W N (k r) Q) →
        Lasting site W N (.andThen Action.realm k) Q
  | note {site : Site} {W N : Nat → Prop} {α : Type} {f : Store → α × Store} :
      (∀ s, (f s).2.heap = s.heap) → (∀ s : Store, s.frames.Follow (f s).2.frames) →
        (∀ s, (f s).2.result = s.result) → Lasting site W N (.update f) fun _ => True
  | allocate {site : Site} {W N : Nat → Prop} {face : Face} {o : Object} :
      o.cls ≠ "Array" → o.cls ≠ "Activation" → o.Listable →
        Lasting site W N (allocate face o) fun r => W r.id ∧ N r.id
  /-- A store of a frame is made. -/
  | store {site : Site} {W N : Nat → Prop} {face : Face} {o : Object} :
      o.cls = "Activation" → o.Listable → Lasting site W N (allocate face o) fun r => W r.id
  /-- A change of an object that the action has made, or one that lets last what cannot be
  deleted. -/
  | touch {site : Site} {W N : Nat → Prop} {α : Type} {f : Store → α × Store} :
      (∀ s, ∃ id g, W id ∧ (s.heap.get id).SameShell (g (s.heap.get id)) ∧
        (f s).2.heap = s.heap.update id g ∧
          (N id ∨ (∀ B, (s.heap.get id).Tidy B → (g (s.heap.get id)).Tidy B) ∧
            ∀ name, (s.heap.get id).Retains (g (s.heap.get id)) name) ∧
          ((s.heap.get id).Listable → (g (s.heap.get id)).Listable)) →
        (∀ s : Store, s.frames.Follow (f s).2.frames) → (∀ s, (f s).2.result = s.result) →
          Lasting site W N (.update f) fun _ => True
  | guard {site : Site} {W N : Nat → Prop} {o : Ref} {name : String} :
      Lasting site (fun _ => True) N (guardWrite o name) (fun _ => True) →
        Lasting site W N (guardWrite o name) fun _ => W o.id
  | checked {site : Site} {W N : Nat → Prop} {α : Type} {p : Action α} :
      Checked p → Lasting site (fun _ => True) N p (fun _ => True) →
        Lasting site W N p fun _ => True
  | whole {site : Site} {W N : Nat → Prop} {α : Type} {p : Action α} {Q : α → Prop} :
      Clean p → Built site W (fun _ => True) p Q → Lasting site W N p Q
  /-- A new array is given further properties. -/
  | furnish {site : Site} {W N : Nat → Prop} {α : Type} {elements : List Value}
      {g : Object → Object} {k : Ref → Action α} {Q : α → Prop} :
      Built site W (fun _ => True) (newArray elements) (fun r => W r.id) →
        (∀ o : Object, o.SameShell (g o)) → (∀ o : Object, ∀ B, o.Tidy B → (g o).Tidy B) →
        (∀ o : Object, o.Listable → (g o).Listable) → (∀ r, W r.id → Lasting site W N (k r) Q) →
          Lasting site W N (newArray elements >>= fun r => change r.id g >>= fun _ => k r) Q
  /-- The frame of a call binds the parameters in a store of its own. -/
  | opening {site : Site} {W N : Nat → Prop} {f : Ref} {fn : Script.Function Span} {scope : Nat}
      {args : List Value} {pc : Label} :
      Trim site W N (activate f fn scope args pc) →
        Lasting site W N (activate f fn scope args pc) fun _ => True
  | fail {site : Site} {W N : Nat → Prop} {α : Type} {f : Failure} {Q : α → Prop} :
      Lasting site W N (.fail f) Q
  | pass {site : Site} {W N : Nat → Prop} {α β : Type} {p : Action β}
      {k : Except Failure β → Action α} {R : β → Prop} {Q : α → Prop} :
      Lasting site W N p R → (∀ b, R b → Lasting site W N (k (.ok b)) Q) →
        (∀ f, Lasting site W N (k (.error f)) Q) →
        (∀ v, PassesOn v (k (.error (.violation v)))) →
          Lasting site W N (.andThen (.attempt p) k) Q
  | silence {site : Site} {W N : Nat → Prop} {α β : Type} {p : Action β}
      {k : Except Failure β → Action α} {R : β → Prop} {Q : α → Prop} :
      Lasting site W N p R → (∀ b, R b → Lasting site W N (k (.ok b)) Q) →
        (∀ f, Lasting site W N (k (.error f)) Q) →
        Silences ⟨p, k⟩ → Lasting site W N (.andThen (.attempt p) k) Q
  | region {site : Site} {W N : Nat → Prop} {α : Type} {pc : Label} {scope : Nat} {p : Action α}
      {Q : α → Prop} :
      site.floor.leq pc = true → Lasting site W N p Q → Lasting site W N (.region pc scope p) Q
  | invoke {site : Site} {W N : Nat → Prop} {r : Request} :
      Lasting site W N (.invoke r) fun _ => True
  | loop {site : Site} {W N : Nat → Prop} {σ α : Type} {init : σ} {step : σ → Action (σ ⊕ α)}
      {I : σ → Prop} {Q : α → Prop} :
      I init → (∀ x, I x → Lasting site W N (step x) (Sum.elim I Q)) →
        Lasting site W N (.loop init step) Q
  | await {site : Site} {W N : Nat → Prop} {α : Type} {f : Store → Except Stuck α} :
      Lasting site W N (.await f) fun _ => True
  | expression {site : Site} {W N : Nat → Prop} {e : Script.Expr Span} :
      site.recording = true → Lasting site W N (valueOf e.action) (fun _ => True) →
        (∀ f, Lasting site W N (completionOf e.span.start.line f) fun _ => True) →
        Lasting site W N (Script.Stmt.expr e).action fun _ => True
  | enter {site : Site} {W N : Nat → Prop} {f : Ref} {fn : Script.Function Span} {scope : Nat}
      {this : Value} {args : List Value} :
      (∀ pc, Lasting site W N (activate f fn scope args pc) fun _ => True) →
        (∀ inside : Site, inside.recording = true →
          Lasting inside W N (runBody fn.body) fun _ => True) →
        Lasting site W N (callClosure f fn scope this args) fun _ => True
  | enterText {site : Site} {W N : Nat → Prop} {source : String} {k : Label} :
      (∀ file program, Script.parse defaultIntrinsic file source 1 = .ok program →
        ∀ inside : Site, inside.recording = true →
          Lasting inside W N (runBody program.body) fun _ => True) →
        Lasting site W N (evalText source k) fun _ => True
  | enterScript {site : Site} {W N : Nat → Prop} {body : List (Script.Stmt Span)} {file : String} :
      site.floor = .none →
        (∀ inside : Site, inside.recording = true →
          Lasting inside W N (runBody body) fun _ => True) →
        Lasting site W N (runProgram body file) fun _ => True

/-- A lasting action of whose result nothing is said. -/
abbrev Neat (site : Site) (W N : Nat → Prop) {α : Type} (p : Action α) : Prop :=
  Lasting site W N p fun _ => True

variable {site : Site} {W N : Nat → Prop} {α β : Type}

namespace Lasting

variable {Q : α → Prop}

lemma pure {a : α} (h : Q a) : Lasting site W N (Pure.pure a) Q := .give h

lemma done (a : α) : Neat site W N (Pure.pure a : Action α) := .give trivial

lemma bind {p : Action β} {k : β → Action α} {R : β → Prop} (hp : Lasting site W N p R)
    (hk : ∀ b, R b → Lasting site W N (k b) Q) : Lasting site W N (p >>= k) Q :=
  .andThen hp hk

/-- An ordinary step tells what follows it nothing. -/
lemma seq {p : Action β} {k : β → Action α} (hp : Neat site W N p)
    (hk : ∀ b, Lasting site W N (k b) Q) : Lasting site W N (p >>= k) Q :=
  .andThen hp fun b _ => hk b

lemma neat {p : Action α} (h : Lasting site W N p Q) : Neat site W N p :=
  .mono h fun _ _ => trivial

lemma ite {c : Prop} [Decidable c] {p q : Action α} (hp : c → Lasting site W N p Q)
    (hq : ¬c → Lasting site W N q Q) : Lasting site W N (if c then p else q) Q := by
  split_ifs with h
  · exact hp h
  · exact hq h

lemma rounds {σ : Type} {init : σ} {step : σ → Action (σ ⊕ α)}
    (h : ∀ x, Neat site W N (step x)) : Neat site W N (Action.loop init step) :=
  .loop (I := fun _ => True) trivial fun x _ =>
    .mono (h x) fun r _ => by cases r <;> trivial

/-! ## Single instructions -/

/-- The machine is asked where it is. -/
lemma current {k : Control → Action α} (hk : ∀ c n, k (c.bounded n) = k c)
    (h : ∀ c, site.Covers c → Lasting site W N (k c) Q) :
    Lasting site W N (Action.current >>= k) Q :=
  .ask hk h

/-- The machine is asked for its fixed part. -/
lemma realm {k : Realm → Action α} (hk : ∀ r n, k { r with maxDepth := n } = k r)
    (h : ∀ r, Lasting site W N (k r) Q) : Lasting site W N (Action.realm >>= k) Q := .askRealm hk h

lemma look (f : Store → α) : Neat site W N (Action.look f) :=
  .note (fun _ => rfl) (fun _ => .refl _) fun _ => rfl

lemma revise {f : Store → Store} (h : ∀ s, (f s).heap = s.heap)
    (hframes : ∀ s : Store, s.frames.Follow (f s).frames) (hresult : ∀ s, (f s).result = s.result) :
    Neat site W N (Action.revise f) := .note h hframes hresult

/-- A change that keeps arrays in order and lets last what cannot be deleted. -/
lemma change {id : Nat} {f : Object → Object} (hid : W id)
    (hf : ∀ o : Object, o.SameShell (f o)) (htidy : ∀ o : Object, ∀ B, o.Tidy B → (f o).Tidy B)
    (hretains : ∀ (o : Object) (name : String), o.Retains (f o) name)
    (hlist : ∀ o : Object, o.Listable → (f o).Listable) :
    Neat site W N (Action.change id f) :=
  .touch (fun _ => ⟨id, f, hid, hf _, rfl, .inr ⟨htidy _, hretains _⟩, hlist _⟩) (fun _ => .refl _)
    fun _ => rfl

/-- A change of an object that the action has made. -/
lemma changeOwn {id : Nat} {f : Object → Object} (hid : W id ∧ N id)
    (hf : ∀ o : Object, o.SameShell (f o)) (hlist : ∀ o : Object, o.Listable → (f o).Listable) :
    Neat site W N (Action.change id f) :=
  .touch (fun _ => ⟨id, f, hid.1, hf _, rfl, .inl hid.2, hlist _⟩) (fun _ => .refl _) fun _ => rfl

/-- A new object that is neither an array nor a store may be written. -/
lemma create {face : Face} {o : Object} (cls : String) (hcls : o.cls = cls)
    (h : cls ≠ "Array" ∧ cls ≠ "Activation") (ho : o.Listable) :
    Lasting site W N (Action.allocate face o) fun r => W r.id ∧ N r.id :=
  .allocate (hcls ▸ h.1) (hcls ▸ h.2) ho

lemma object (id : Nat) : Neat site W N (Action.object id) := look _

lemma call (f : Ref) (this : Value) (args : List Value) :
    Neat site W N (Action.call f this args) := .invoke

/-- The program counter is not below the floor. -/
lemma pc : Lasting site W N Action.pc fun k => site.floor.leq k = true :=
  .ask (fun _ _ => rfl) fun _ h => pure h.floor

lemma trace (e : Event) : Neat site W N (Action.trace e) :=
  realm (fun _ _ => rfl) fun _ => ite
    (fun _ => revise (fun _ => rfl) (fun _ => .refl _) fun _ => rfl) fun _ => done _

/-- Lasting actions are formed. -/
theorem formed {p : Action α} (h : Lasting site W N p Q) : Formed site W N p Q := by
  induction h with
  | give h => exact .give h
  | andThen _ _ ihp ihk => exact .andThen ihp ihk
  | mono _ h ih => exact .mono ih h
  | ask h _ ih => exact .ask h ih
  | askRealm h _ ih => exact .askRealm h ih
  | note h hframes hresult => exact .note h hframes hresult
  | allocate hcls _ ho => exact .allocate (.inl hcls) ho
  | store hcls ho => exact .mono (.allocate (.inl (hcls ▸ by decide)) ho) fun _ h => h.1
  | touch h hframes hresult =>
    refine .touch (fun s => ?_) hframes hresult
    obtain ⟨id, g, hid, hshell, hheap, hchange, hlist⟩ := h s
    exact ⟨id, g, hid, hshell, hheap, hchange.imp_right And.left, hlist⟩
  | guard _ ih => exact .guard ih
  | checked h _ ih => exact .checked h ih
  | whole h hp => exact .whole h hp
  | furnish harray hshell htidy hlist _ ih =>
    exact .bind (.whole (.newArray _) harray) fun r hr =>
      .seq (.change hr hshell htidy hlist) fun _ => ih r hr
  | opening h => exact h
  | fail => exact .fail
  | pass _ _ _ h ihp ihok iherr => exact .pass ihp ihok iherr h
  | silence _ _ _ h ihp ihok iherr => exact .silence ihp ihok iherr h
  | region h _ ih => exact .region h ih
  | invoke => exact .invoke
  | loop h _ ih => exact .loop h ih
  | await => exact .await
  | expression h _ _ ihp iherr => exact .expression h ihp iherr
  | enter _ _ ihactivate ihbody => exact .enter ihactivate ihbody
  | enterText _ ih => exact .enterText ih
  | enterScript h _ ih => exact .enterScript h ih

lemma built {p : Action α} (h : Lasting site W N p Q) : Built site W N p Q := h.formed.built

lemma routine {p : Action α} (h : Neat site W (fun _ => True) p) : Routine site W p :=
  h.built.routine

end Lasting

end Clearance
