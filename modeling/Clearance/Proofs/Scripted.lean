/-
# What scripts can make the machine do

Everything a script does is an action, and every action of the evaluator and of the library is
put together in a few ways only. `Scripted` says which: objects are written after a check, or
when they are new, or when a guard has admitted them; the program counter only rises; failures
are passed on, except by a few operations that keep them. A statement about all runs of all
scripts is then one induction over these ways.

The judgment carries what a piece has learned for those that follow it: the set `W` of the
objects that may be written, a `floor` below which the program counter does not sink, and what
is known of the result. `Composed` says more, and is what the modules below this one show: it
also counts the activations, and tells apart the expression statements, whose values are
remembered.
-/
import Clearance.Proofs.Frames
import Clearance.Proofs.Label
import Clearance.Proofs.Visit

namespace Clearance

open Clearance.Action

/-- Two objects that differ in their properties at most. -/
structure Object.SameShell (o o' : Object) : Prop where
  cls : o'.cls = o.cls
  proto : o'.proto = o.proto
  partition : o'.partition = o.partition
  primitive : o'.primitive = o.primitive
  pattern : o'.pattern = o.pattern
  behaviour : o'.behaviour = o.behaviour

/-! ## Changes of an object that keep its shell -/

namespace Object

lemma SameShell.refl (o : Object) : o.SameShell o := ⟨rfl, rfl, rfl, rfl, rfl, rfl⟩

lemma SameShell.symm {o o' : Object} (h : o.SameShell o') : o'.SameShell o :=
  ⟨h.cls.symm, h.proto.symm, h.partition.symm, h.primitive.symm, h.pattern.symm, h.behaviour.symm⟩

lemma SameShell.eq {o o' o'' : Object} (h : o.SameShell o') (h' : o.SameShell o'')
    (hslots : o''.slots = o'.slots) : o'' = o' := by
  obtain ⟨_, _, _, _, _, _, _⟩ := o'
  obtain ⟨_, _, _, _, _, _, _⟩ := o''
  obtain ⟨hcls, hproto, hpartition, hprimitive, hpattern, hbehaviour⟩ := h
  obtain ⟨hcls', hproto', hpartition', hprimitive', hpattern', hbehaviour'⟩ := h'
  simp_all

lemma SameShell.trans {o o' o'' : Object} (h : o.SameShell o') (h' : o'.SameShell o'') :
    o.SameShell o'' :=
  ⟨h'.cls.trans h.cls, h'.proto.trans h.proto, h'.partition.trans h.partition,
    h'.primitive.trans h.primitive, h'.pattern.trans h.pattern, h'.behaviour.trans h.behaviour⟩

lemma sameShell_define (o : Object) (name : String) (p : Property) :
    o.SameShell (o.define name p) := ⟨rfl, rfl, rfl, rfl, rfl, rfl⟩

lemma sameShell_set (o : Object) (name : String) (v : Value) : o.SameShell (o.set name v) := by
  unfold set
  split
  · split_ifs <;> exact sameShell_define ..
  · exact sameShell_define ..

lemma sameShell_delete (o : Object) (name : String) : o.SameShell (o.delete name).2 := by
  unfold delete
  split
  · exact .refl o
  · split_ifs
    · exact .refl o
    · exact ⟨rfl, rfl, rfl, rfl, rfl, rfl⟩

lemma sameShell_recordLength (o : Object) (v : Value) : o.SameShell (Heap.recordLength o v) := by
  unfold Heap.recordLength
  split
  · exact sameShell_define ..
  · exact .refl o

lemma sameShell_dropFrom (o : Object) (n : Nat) : o.SameShell (Heap.dropFrom o n) := by
  unfold Heap.dropFrom
  generalize o.keys = names
  induction names generalizing o with
  | nil => exact .refl o
  | cons name names ih =>
    rw [List.foldl_cons]
    refine SameShell.trans ?_ (ih _)
    split
    · split_ifs
      · exact sameShell_delete o name
      · exact .refl o
    · exact .refl o

lemma sameShell_resize (o : Object) (length : Nat) (k : Label) :
    o.SameShell (Heap.resize o length k) :=
  (sameShell_dropFrom ..).trans (sameShell_recordLength ..)

lemma sameShell_extend (o : Object) (name : String) (v : Value) :
    o.SameShell (Heap.extend o name v) := by
  unfold Heap.extend
  dsimp only
  split_ifs
  · split
    · split_ifs
      · exact (sameShell_define ..).trans (sameShell_recordLength ..)
      · exact sameShell_define ..
    · exact sameShell_define ..
  · exact sameShell_define ..

end Object

/-- The action does nothing but fail with a violation. -/
inductive PassesOn (v : Violation) : {α : Type} → Action α → Prop
  | fail {α : Type} : PassesOn v (.fail (.violation v) : Action α)
  | andThen {α β : Type} {p : Action β} {k : β → Action α} :
      PassesOn v p → PassesOn v (.andThen p k)

/-- The attempts whose failures are kept by the operation that makes them: reading a property
for display, converting the arguments and the result of an adapted function, comparing two
elements of a sort, and measuring the receiver of a map. -/
inductive Silences : Attempt → Prop
  | reading {o : Ref} {name : String} {after : Except Failure Value → Action Value} :
      readQuietly o name = .andThen (.attempt (getProperty o name)) after →
        Silences ⟨getProperty o name, after⟩
  | converting {α : Type} {name : String} {position : Nat} {p : Action α}
      {after : Except Failure α → Action α} :
      converted name position p = .andThen (.attempt p) after → Silences ⟨p, after⟩
  | adapting {α : Type} {name : String} {p : Action α} {after : Except Failure α → Action α} :
      adaptedResult name p = .andThen (.attempt p) after → Silences ⟨p, after⟩
  | comparing {α : Type} {p : Action α} {c : Library.Compared}
      {after : Except Failure α → Action (Except Failure α × Library.Compared)} :
      (StateT.lift (attempt p) : Library.Comparing (Except Failure α)).run c =
        .andThen (.attempt p) after → Silences ⟨p, after⟩
  | measuring {o : Ref} {after : Except Failure Nat → Action Nat} :
      Library.lengthQuietly o = .andThen (.attempt (lengthOf o)) after →
        Silences ⟨lengthOf o, after⟩

/-- The operations that write objects on their own account: all but the last two look at the
labels of the location first. -/
inductive Checked : {α : Type} → Action α → Prop
  | assign (line : Nat) (p : Place) (chosen : Label) (r : Rated) (declare : Bool) :
      Checked (assign line p chosen r declare)
  | declareAt (line : Nat) (kind : Script.VarKind) (p : Place) (r : Rated) :
      Checked (declareAt line kind p r)
  | eraseAt (line : Nat) (p : Place) (chosen : Label) : Checked (eraseAt line p chosen)
  | define (name : String) (p : Property) : Checked (define name p)
  | functionExpression (fn : Script.Function Script.Span) : Checked (functionExpression fn)

/-- The ways in which actions of scripts are put together. -/
inductive Scripted (floor : Label) :
    (Nat → Prop) → {α : Type} → Action α → (α → Prop) → Prop
  | give {W : Nat → Prop} {α : Type} {a : α} {Q : α → Prop} : Q a → Scripted floor W (.give a) Q
  | andThen {W : Nat → Prop} {α β : Type} {p : Action β} {k : β → Action α} {R : β → Prop}
      {Q : α → Prop} :
      Scripted floor W p R → (∀ b, R b → Scripted floor W (k b) Q) →
        Scripted floor W (.andThen p k) Q
  | mono {W : Nat → Prop} {α : Type} {p : Action α} {R Q : α → Prop} :
      Scripted floor W p R → (∀ a, R a → Q a) → Scripted floor W p Q
  | current {W : Nat → Prop} : Scripted floor W .current fun c => floor.leq c.pc = true
  /-- A step that leaves the objects alone. -/
  | note {W : Nat → Prop} {α : Type} {f : Store → α × Store} :
      (∀ s, (f s).2.heap = s.heap) → Scripted floor W (.update f) fun _ => True
  /-- A new object may be written. -/
  | allocate {W : Nat → Prop} {face : Face} {o : Object} :
      Scripted floor W (allocate face o) fun r => W r.id
  /-- A step that changes the properties of one object that may be written. -/
  | touch {W : Nat → Prop} {α : Type} {f : Store → α × Store} :
      (∀ s, ∃ id g, W id ∧ (s.heap.get id).SameShell (g (s.heap.get id)) ∧
        (f s).2.heap = s.heap.update id g) → Scripted floor W (.update f) fun _ => True
  /-- An object that passes the guard may be written. -/
  | guard {W : Nat → Prop} {o : Ref} {name : String} :
      Scripted floor (fun _ => True) (guardWrite o name) (fun _ => True) →
        Scripted floor W (guardWrite o name) fun _ => W o.id
  | checked {W : Nat → Prop} {α : Type} {p : Action α} :
      Checked p → Scripted floor (fun _ => True) p (fun _ => True) →
        Scripted floor W p fun _ => True
  | fail {W : Nat → Prop} {α : Type} {f : Failure} {Q : α → Prop} :
      Scripted floor W (.fail f) Q
  /-- A failure is handled, unless it is a violation. -/
  | pass {W : Nat → Prop} {α β : Type} {p : Action β} {k : Except Failure β → Action α}
      {R : β → Prop} {Q : α → Prop} :
      Scripted floor W p R → (∀ b, R b → Scripted floor W (k (.ok b)) Q) →
        (∀ f, Scripted floor W (k (.error f)) Q) →
        (∀ v, PassesOn v (k (.error (.violation v)))) →
        Scripted floor W (.andThen (.attempt p) k) Q
  /-- A failure of any kind is kept. -/
  | silence {W : Nat → Prop} {α β : Type} {p : Action β} {k : Except Failure β → Action α}
      {R : β → Prop} {Q : α → Prop} :
      Scripted floor W p R → (∀ b, R b → Scripted floor W (k (.ok b)) Q) →
        (∀ f, Scripted floor W (k (.error f)) Q) →
        Silences ⟨p, k⟩ → Scripted floor W (.andThen (.attempt p) k) Q
  | region {W : Nat → Prop} {α : Type} {pc : Label} {scope : Nat} {p : Action α}
      {Q : α → Prop} :
      floor.leq pc = true → Scripted floor W p Q → Scripted floor W (.region pc scope p) Q
  | activation {W : Nat → Prop} {α : Type} {entry : Control} {p : Action α} {Q : α → Prop} :
      floor.leq entry.pc = true → Scripted floor W p Q →
        Scripted floor W (.activation entry p) fun r => Q r.1
  | invoke {W : Nat → Prop} {r : Request} : Scripted floor W (.invoke r) fun _ => True
  | loop {W : Nat → Prop} {σ α : Type} {init : σ} {step : σ → Action (σ ⊕ α)} {I : σ → Prop}
      {Q : α → Prop} :
      I init → (∀ x, I x → Scripted floor W (step x) (Sum.elim I Q)) →
        Scripted floor W (.loop init step) Q
  | await {W : Nat → Prop} {α : Type} {f : Store → Except Stuck α} :
      Scripted floor W (.await f) fun _ => True

/-! ## Where actions run -/

/-- How many activations are in progress, and the realm. -/
structure Level where
  depth : Nat
  realm : Realm

/-- The level of the machine. -/
def Control.level (c : Control) : Level := ⟨c.depth, c.realm⟩

/-- An activation is entered from a level. Those of functions and of evaluated texts are counted,
and there must be room for them; scripts are not counted. -/
structure Level.Opens (l : Level) (entry : Control) : Prop where
  realm : entry.realm = l.realm
  depth : entry.depth = if entry.kind = .global then l.depth else l.depth + 1
  room : entry.kind ≠ .global → l.depth < l.realm.maxDepth

/-- Where an action runs: a label below which the program counter does not sink, the level, if
levels are looked at, and whether expression statements may be run. -/
structure Site where
  floor : Label
  level : Option Level
  recording : Bool

/-- The machine is at a site. -/
structure Site.Covers (site : Site) (c : Control) : Prop where
  floor : site.floor.leq c.pc = true
  level : ∀ l ∈ site.level, c.level = l

/-- An activation may be entered. -/
structure Site.Opens (site : Site) (entry : Control) : Prop where
  floor : site.floor.leq entry.pc = true
  level : ∀ l ∈ site.level, l.Opens entry

/-- There is room for one more activation. -/
lemma Site.Covers.opens {site : Site} {c entry : Control} (hc : site.Covers c)
    (hpc : site.floor.leq entry.pc = true) (hkind : entry.kind ≠ .global)
    (hdepth : entry.depth = c.depth + 1) (hrealm : entry.realm = c.realm)
    (hroom : ¬c.depth ≥ c.realm.maxDepth) : site.Opens entry where
  floor := hpc
  level l hl := by
    obtain rfl := hc.level l hl
    refine ⟨hrealm, ?_, fun _ => Nat.lt_of_not_le hroom⟩
    rw [if_neg hkind, hdepth]
    rfl

/-- The site of an activation. -/
def Site.inside (site : Site) (entry : Control) : Site :=
  ⟨site.floor, site.level.map fun _ => entry.level, true⟩

/-- What an expression statement does: the value of its expression is remembered. -/
lemma expressionStatement_action (e : Script.Expr Script.Span) :
    (Script.Stmt.expr e).action = guarded e.span.start.line (valueOf e.action) fun r => do
      setResult r.value
      return .normal := by
  rw [Script.Stmt.action]

/-- The ways in which the evaluator and the library put actions together. They are those of
`Scripted`, and in addition activations are counted, and values are remembered by expression
statements only. -/
inductive Composed : Site → (Nat → Prop) → {α : Type} → Action α → (α → Prop) → Prop
  | give {site : Site} {W : Nat → Prop} {α : Type} {a : α} {Q : α → Prop} :
      Q a → Composed site W (.give a) Q
  | andThen {site : Site} {W : Nat → Prop} {α β : Type} {p : Action β} {k : β → Action α}
      {R : β → Prop} {Q : α → Prop} :
      Composed site W p R → (∀ b, R b → Composed site W (k b) Q) →
        Composed site W (.andThen p k) Q
  | mono {site : Site} {W : Nat → Prop} {α : Type} {p : Action α} {R Q : α → Prop} :
      Composed site W p R → (∀ a, R a → Q a) → Composed site W p Q
  | current {site : Site} {W : Nat → Prop} : Composed site W .current site.Covers
  /-- A step that leaves the objects and the remembered value alone. -/
  | note {site : Site} {W : Nat → Prop} {α : Type} {f : Store → α × Store} :
      (∀ s, (f s).2.heap = s.heap) → (∀ s : Store, s.frames.Follow (f s).2.frames) →
        (∀ s, (f s).2.result = s.result) → Composed site W (.update f) fun _ => True
  | allocate {site : Site} {W : Nat → Prop} {face : Face} {o : Object} :
      Composed site W (allocate face o) fun r => W r.id
  | touch {site : Site} {W : Nat → Prop} {α : Type} {f : Store → α × Store} :
      (∀ s, ∃ id g, W id ∧ (s.heap.get id).SameShell (g (s.heap.get id)) ∧
        (f s).2.heap = s.heap.update id g) → (∀ s : Store, s.frames.Follow (f s).2.frames) →
        (∀ s, (f s).2.result = s.result) → Composed site W (.update f) fun _ => True
  | guard {site : Site} {W : Nat → Prop} {o : Ref} {name : String} :
      Composed site (fun _ => True) (guardWrite o name) (fun _ => True) →
        Composed site W (guardWrite o name) fun _ => W o.id
  | checked {site : Site} {W : Nat → Prop} {α : Type} {p : Action α} :
      Checked p → Composed site (fun _ => True) p (fun _ => True) →
        Composed site W p fun _ => True
  | fail {site : Site} {W : Nat → Prop} {α : Type} {f : Failure} {Q : α → Prop} :
      Composed site W (.fail f) Q
  | pass {site : Site} {W : Nat → Prop} {α β : Type} {p : Action β}
      {k : Except Failure β → Action α} {R : β → Prop} {Q : α → Prop} :
      Composed site W p R → (∀ b, R b → Composed site W (k (.ok b)) Q) →
        (∀ f, Composed site W (k (.error f)) Q) →
        (∀ v, PassesOn v (k (.error (.violation v)))) →
        Composed site W (.andThen (.attempt p) k) Q
  | silence {site : Site} {W : Nat → Prop} {α β : Type} {p : Action β}
      {k : Except Failure β → Action α} {R : β → Prop} {Q : α → Prop} :
      Composed site W p R → (∀ b, R b → Composed site W (k (.ok b)) Q) →
        (∀ f, Composed site W (k (.error f)) Q) →
        Silences ⟨p, k⟩ → Composed site W (.andThen (.attempt p) k) Q
  | region {site : Site} {W : Nat → Prop} {α : Type} {pc : Label} {scope : Nat} {p : Action α}
      {Q : α → Prop} :
      site.floor.leq pc = true → Composed site W p Q → Composed site W (.region pc scope p) Q
  | activation {site : Site} {W : Nat → Prop} {α : Type} {entry : Control} {p : Action α}
      {Q : α → Prop} :
      site.Opens entry → Composed (site.inside entry) W p Q →
        Composed site W (.activation entry p) fun r => Q r.1
  | invoke {site : Site} {W : Nat → Prop} {r : Request} :
      Composed site W (.invoke r) fun _ => True
  | loop {site : Site} {W : Nat → Prop} {σ α : Type} {init : σ} {step : σ → Action (σ ⊕ α)}
      {I : σ → Prop} {Q : α → Prop} :
      I init → (∀ x, I x → Composed site W (step x) (Sum.elim I Q)) →
        Composed site W (.loop init step) Q
  | await {site : Site} {W : Nat → Prop} {α : Type} {f : Store → Except Stuck α} :
      Composed site W (.await f) fun _ => True
  /-- An expression statement remembers the value of its expression. -/
  | expression {site : Site} {W : Nat → Prop} {e : Script.Expr Script.Span} :
      site.recording = true → Composed site W (valueOf e.action) (fun _ => True) →
        (∀ f, Composed site W (completionOf e.span.start.line f) fun _ => True) →
        Composed site W (Script.Stmt.expr e).action fun _ => True

/-- A composed action of whose result nothing is said. -/
abbrev Routine (site : Site) (W : Nat → Prop) {α : Type} (p : Action α) : Prop :=
  Composed site W p fun _ => True

variable {site : Site} {W : Nat → Prop} {α β : Type}

namespace Composed

variable {Q : α → Prop}

lemma done (a : α) : Routine site W (Pure.pure a : Action α) := .give trivial

lemma bind {p : Action β} {k : β → Action α} {R : β → Prop} (hp : Composed site W p R)
    (hk : ∀ b, R b → Composed site W (k b) Q) : Composed site W (p >>= k) Q :=
  .andThen hp hk

/-- A routine step tells what follows it nothing. -/
lemma seq {p : Action β} {k : β → Action α} (hp : Routine site W p)
    (hk : ∀ b, Composed site W (k b) Q) : Composed site W (p >>= k) Q :=
  .andThen hp fun b _ => hk b

lemma routine {p : Action α} (h : Composed site W p Q) : Routine site W p :=
  .mono h fun _ _ => trivial

lemma ite {c : Prop} [Decidable c] {p q : Action α} (hp : c → Composed site W p Q)
    (hq : ¬c → Composed site W q Q) : Composed site W (if c then p else q) Q := by
  split_ifs with h
  · exact hp h
  · exact hq h

/-! ## Single instructions -/

lemma look (f : Store → α) : Routine site W (Action.look f) :=
  .note (fun _ => rfl) (fun _ => .refl _) fun _ => rfl

lemma revise {f : Store → Store} (h : ∀ s, (f s).heap = s.heap)
    (hframes : ∀ s : Store, s.frames.Follow (f s).frames) (hresult : ∀ s, (f s).result = s.result) :
    Routine site W (Action.revise f) := .note h hframes hresult

lemma change {id : Nat} {f : Object → Object} (hid : W id)
    (hf : ∀ o : Object, o.SameShell (f o)) : Routine site W (Action.change id f) :=
  .touch (fun _ => ⟨id, f, hid, hf _, rfl⟩) (fun _ => .refl _) fun _ => rfl

lemma object (id : Nat) : Routine site W (Action.object id) := look _

lemma realm : Routine site W Action.realm := bind .current fun _ _ => done _

lemma trace (e : Event) : Routine site W (Action.trace e) :=
  seq realm fun _ => ite (fun _ => revise (fun _ => rfl) (fun _ => .refl _) fun _ => rfl)
    fun _ => done _

/-- Composed actions are scripted, if levels are not looked at. -/
theorem scripted {p : Action α} (h : Composed site W p Q) (hlevel : site.level = none) :
    Scripted site.floor W p Q := by
  induction h with
  | give h => exact .give h
  | andThen _ _ ihp ihk => exact .andThen (ihp hlevel) fun b hb => ihk b hb hlevel
  | mono _ h ih => exact .mono (ih hlevel) h
  | current =>
    refine .mono .current fun c hc => ⟨hc, ?_⟩
    rw [hlevel]
    rintro _ ⟨⟩
  | note h => exact .note h
  | allocate => exact .allocate
  | touch h => exact .touch h
  | guard _ ih => exact .guard (ih hlevel)
  | checked h _ ih => exact .checked h (ih hlevel)
  | fail => exact .fail
  | pass _ _ _ h ihp ihok iherr =>
    exact .pass (ihp hlevel) (fun b hb => ihok b hb hlevel) (fun f => iherr f hlevel) h
  | silence _ _ _ h ihp ihok iherr =>
    exact .silence (ihp hlevel) (fun b hb => ihok b hb hlevel) (fun f => iherr f hlevel) h
  | region h _ ih => exact .region h (ih hlevel)
  | activation h _ ih =>
    refine .activation h.floor (ih ?_)
    simp [Site.inside, hlevel]
  | invoke => exact .invoke
  | loop h _ ih => exact .loop h fun x hx => ih x hx hlevel
  | await => exact .await
  | expression _ _ _ ihp iherr =>
    rw [expressionStatement_action]
    exact .pass (ihp hlevel)
      (fun _ _ => .andThen (.note fun _ => rfl) fun _ _ => .give trivial)
      (fun f => iherr f hlevel) fun _ => .fail

end Composed

end Clearance
