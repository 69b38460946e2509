/-
# Actions side by side

`Paired` says how two actions that are run side by side are put together: from the same
instructions, on values that correspond. The instructions for which this is not enough are rules of
their own. Those that bind names or touch bindings look at the stores, which a world says little
about, and are left to whoever knows the stores. A check of a flow may fail in a run that meets
labels; a region may be entered at different labels; and where the two runs do not meet the same
labels, some operations would let a script read a text that shows one.

The judgment carries what is known of the ground the actions run on: some objects that exist, which
matters for the receivers of calls and for what is called, and the kind of the activation.
-/
import Clearance.Proofs.Paired.Heap
import Clearance.Proofs.Run
import Clearance.Proofs.Reader

namespace Clearance

open Clearance.Action Script

/-- Opens the frame of an object, on the side of the program counter. -/
def withFrame {α : Type} (lattice : Lattice) (o : Ref) (pc : Label) (scope : Nat)
    (rest : Nat → Action α) : Action α :=
  if pc.isBottom then do
    let high ← newStore lattice.top
    let frame ← pure (⟨o, high, [], some scope, true⟩ : Frame)
    rest (← addFrame frame)
  else do
    let low ← newStore lattice.bottom
    let frame ← pure (⟨low, o, [], some scope, true⟩ : Frame)
    rest (← addFrame frame)

/-- Opens the frame of a call at the program counter of the caller, unless the calls are too
deep. -/
def enterFrame {α : Type} (f : Ref) (fn : Script.Function Span) (scope : Nat) (args : List Value)
    (rest : Control → Nat → Action α) : Action α := do
  let c ← current
  if c.depth ≥ c.realm.maxDepth then Action.fail (.overflow c.depth)
  else rest c (← activate f fn scope args c.pc)

/-- Changes an object and gives what the change tells. -/
def alter {α : Type} (id : Nat) (f : Object → α × Object) : Action α := .update fun s =>
  let (a, obj) := f (s.heap.get id)
  (a, { s with heap := s.heap.update id fun _ => obj })

/-- The operations that would let a script read a text that shows labels: the text of an error, and
the message of an error that is made of a labeled undefined value. -/
inductive Lapses : {α : Type} → Action α → Prop
  | text (o : Ref) (args : List Raw) : Lapses (Library.errorSource (.object o) args)
  | message {name : String} {args : List Value} : (argAt args 0).isLabeled = true →
      (argAt args 0).raw.isUndefined = true → Lapses (Library.newError name args)

/-- The store that an operand is a binding in. -/
def Operand.store? : Operand → Option Ref
  | .place p _ => p.base
  | .value _ => none

/-- What is known of the ground that actions run on. -/
structure Ground where
  /-- The objects that are known to exist. -/
  known : Nat → Prop
  /-- The kind of the activation in progress. -/
  kind : Option CodeKind

/-- Anywhere. -/
def Ground.any : Ground := ⟨fun _ => False, none⟩

/-- Inside an activation of a kind. -/
def Ground.inside (L : Ground) (kind : CodeKind) : Ground := { L with kind := some kind }

/-- What is known once an operand has given a function: the stores that it may be a binding in
exist. -/
def Ground.called (L : Ground) (t t' : Operand) (r : Rated) : Ground :=
  { L with known := fun id => L.known id ∨ r.raw.callable?.isSome = true ∧
      ((∃ o ∈ t.store?, o.id = id) ∨ ∃ o ∈ t'.store?, o.id = id) }

namespace World

variable (W : World)

/-- The text names no label but those of the world. -/
def Admits (source : String) : Prop :=
  ∀ file program, Script.parse defaultIntrinsic file source 1 = .ok program →
    W.Allows (program.nodes true)

/-- Ordinary bindings. -/
def Bindings (p p' : Property) : Prop :=
  ∃ v v' permanent, W.Values v v' ∧ p = { Property.data v with permanent } ∧
    p' = { Property.data v' with permanent }

end World

/-- Two actions that are put together in the same way. -/
inductive Paired (W : World) :
    Ground → {α β : Type} → Action α → Action β → (α → β → Prop) → Prop
  | give {L : Ground} {α β : Type} {a : α} {b : β} {Q : α → β → Prop} :
      Q a b → Paired W L (.give a) (.give b) Q
  | andThen {L : Ground} {α β γ δ : Type} {p : Action γ} {q : Action δ} {k : γ → Action α}
      {l : δ → Action β} {R : γ → δ → Prop} {Q : α → β → Prop} :
      Paired W L p q R → (∀ x y, R x y → Paired W L (k x) (l y) Q) →
        Paired W L (.andThen p k) (.andThen q l) Q
  | mono {L : Ground} {α β : Type} {p : Action α} {q : Action β} {R Q : α → β → Prop} :
      Paired W L p q R → (∀ a b, R a b → Q a b) → Paired W L p q Q
  | current {L : Ground} : Paired W L .current .current fun c c' =>
      W.Controls c c' ∧ ∀ kind ∈ L.kind, c.kind = kind
  /-- What is looked up in heaps that correspond. -/
  | look {L : Ground} {α β : Type} {f : Store → α} {g : Store → β} {Q : α → β → Prop} :
      (∀ s s' : Store, W.Heaps s.heap s'.heap → Q (f s) (g s')) →
        Paired W L (look f) (look g) Q
  /-- The object that a function's behaviour is read from. -/
  | target {L : Ground} {f : Ref} : W.fits f → (¬W.lax → L.known f.id) →
      Paired W L (object f.id) (object f.id) fun o o' =>
        W.Objects o o' ∧ (¬W.lax → f.face.Suits o.behaviour)
  /-- Something that holds of the result whenever the first action is done. -/
  | observed {L : Ground} {α β : Type} {p : Action α} {q : Action β} {Q : α → β → Prop}
      {R : α → Prop} : Paired W L p q Q →
      (∀ serve fuel s a t, p.run serve fuel s = .done a t → R a) →
        Paired W L p q fun a b => Q a b ∧ R a
  | allocate {L : Ground} {face : Face} {o o' : Object} :
      W.Objects o o' → face.Suits o.behaviour → Paired W L (allocate face o)
        (allocate face o') W.Refs
  /-- A change of one object that is no store. -/
  | change {L : Ground} {id : Nat} {f f' : Object → Object} : ¬W.store id →
      (∀ o : Object, o.SameShell (f o)) → (∀ o o', W.Objects o o' → W.Objects (f o) (f' o')) →
        Paired W L (change id f) (change id f') fun _ _ => True
  | alter {L : Ground} {α β : Type} {id : Nat} {f : Object → α × Object}
      {f' : Object → β × Object} {Q : α → β → Prop} : ¬W.store id →
      (∀ o : Object, o.SameShell (f o).2) →
      (∀ o o', W.Objects o o' → Q (f o).1 (f' o').1 ∧ W.Objects (f o).2 (f' o').2) →
        Paired W L (alter id f) (alter id f') Q
  | fail {L : Ground} {α β : Type} {f f' : Failure} {Q : α → β → Prop} :
      W.Failures f f' → Paired W L (.fail f) (.fail f') Q
  | attempt {L : Ground} {α β : Type} {p : Action α} {q : Action β} {Q : α → β → Prop} :
      Paired W L p q Q → Paired W L (.attempt p) (.attempt q) (W.Attempts Q)
  | region {L : Ground} {α β : Type} {pc pc' : Label} {scope : Nat} {p : Action α}
      {q : Action β} {Q : α → β → Prop} : W.Labels pc pc' → W.frame scope → Paired W L p q Q →
        Paired W L (.region pc scope p) (.region pc' scope q) Q
  | activation {L : Ground} {α β : Type} {entry entry' : Control} {p : Action α}
      {q : Action β} {Q : α → β → Prop} : W.Controls entry entry' →
      Paired W (L.inside entry.kind) p q Q →
        Paired W L (.activation entry p) (.activation entry' q)
          fun r r' => Q r.1 r'.1 ∧ W.Values r.2 r'.2
  | invoke {L : Ground} {r r' : Request} :
      W.Requests r r' → Paired W L (.invoke r) (.invoke r') W.Values
  | loop {L : Ground} {σ τ α β : Type} {init : σ} {init' : τ} {step : σ → Action (σ ⊕ α)}
      {step' : τ → Action (τ ⊕ β)} {I : σ → τ → Prop} {Q : α → β → Prop} : I init init' →
      (∀ x y, I x y → Paired W L (step x) (step' y) (Sum.LiftRel I Q)) →
        Paired W L (.loop init step) (.loop init' step') Q
  /-- Both ask for the same, and both find it missing or neither does. -/
  | await {L : Ground} {α : Type} {f f' : Store → Except Stuck α} :
      (∀ s s' : Store, W.Heaps s.heap s'.heap → s'.files = s.files → f' s' = f s) →
        Paired W L (.await f) (.await f') Eq
  /-- An event that only the first machine records. -/
  | noteLeft {L : Ground} {α β : Type} {e : Event} {k : Unit → Action α} {q : Action β}
      {Q : α → β → Prop} : Paired W L (k ()) q Q → Paired W L (.andThen (trace e) k) q Q
  | noteRight {L : Ground} {α β : Type} {e : Event} {p : Action α} {l : Unit → Action β}
      {Q : α → β → Prop} : Paired W L p (l ()) Q → Paired W L p (.andThen (trace e) l) Q
  /-- The fixed part is known. -/
  | realmLeft {L : Ground} {α β : Type} {k : Realm → Action α} {q : Action β}
      {Q : α → β → Prop} : Paired W L (k W.realm) q Q → Paired W L (.andThen Action.realm k) q Q
  /-- A look at the store on one side only, whatever it shows. -/
  | lookLeft {L : Ground} {α β : Type} {f : Store → α} {b : β} {Q : α → β → Prop} :
      (∀ s, Q (f s) b) → Paired W L (look f) (.give b) Q
  | lookRight {L : Ground} {α β : Type} {a : α} {f : Store → β} {Q : α → β → Prop} :
      (∀ s, Q a (f s)) → Paired W L (.give a) (look f) Q
  /-- The program counters of two regions. -/
  | raisedPc {L : Ground} {kind : String} {line : Nat} {k k' : Label} : W.Labels k k' →
      Paired W L (raisedPc kind line k) (raisedPc kind line k') W.Labels
  /-- A check that only fails where labels are met. -/
  | check {L : Ground} {α β : Type} {c c' : Prop} [Decidable c] [Decidable c'] {line : Nat}
      {target : String} {k k' l l' : Label} {p : Action α} {q : Action β} {Q : α → β → Prop} :
      (W.left.Calm → ¬c) → (W.right.Calm → ¬c') → (W.faithful → (c' ↔ c)) → W.Labels k k' →
      W.Labels l l' → Paired W L p q Q →
        Paired W L (if c then violate line target k l else p)
          (if c' then violate line target k' l' else q) Q
  | setResult {L : Ground} {v v' : Value} : W.Values v v' →
      Paired W L (setResult v) (setResult v') fun _ _ => True
  | emitText {L : Ground} {s s' : String} : W.Texts s s' →
      Paired W L (Library.emitText s) (Library.emitText s') fun _ _ => True
  | random {L : Ground} {this this' : Raw} {args args' : List Raw} :
      Paired W L (Library.random this args) (Library.random this' args') W.Values
  /-- Where a name is bound. -/
  | placeOf {L : Ground} {name : String} :
      Paired W L (placeOf name) (placeOf name) W.Places
  | define {L : Ground} {name : String} {p p' : Property} : W.Bindings p p' →
      Paired W L (define name p) (define name p') fun _ _ => True
  | instantiate {L : Ground} {body body' : List (Stmt Span)} :
      (∀ permanent, Paired W L (bindFunctions permanent (hoistedFunctions body))
        (bindFunctions permanent (hoistedFunctions body')) fun _ _ => True) →
      hoistedVars body' = hoistedVars body →
        Paired W L (instantiate body) (instantiate body') fun _ _ => True
  | newFrame {L : Ground} {parent : Nat} : W.frame parent →
      Paired W L (newFrame parent) (newFrame parent) fun n n' => n' = n ∧ W.frame n
  | withFrame {L : Ground} {α β : Type} {o : Ref} {pc pc' : Label} {scope : Nat}
      {k : Nat → Action α} {l : Nat → Action β} {Q : α → β → Prop} : W.fits o →
      W.Labels pc pc' → W.frame scope → (∀ id, W.frame id → Paired W L (k id) (l id) Q) →
        Paired W L (withFrame W.realm.lattice o pc scope k)
          (withFrame W.realm.lattice o pc' scope l)
          Q
  | functionExpression {L : Ground} {fn fn' : Script.Function Span} : W.Functions fn fn' →
      (∀ scope pc pc', W.frame scope → W.Labels pc pc' →
        Paired W L (newFunction fn scope pc) (newFunction fn' scope pc') W.Refs) →
        Paired W L (functionExpression fn) (functionExpression fn') W.Refs
  | enterFrame {L : Ground} {α β : Type} {f : Ref} {fn fn' : Script.Function Span} {scope : Nat}
      {args args' : List Value} {k : Control → Nat → Action α} {l : Control → Nat → Action β}
      {Q : α → β → Prop} : W.Functions fn fn' → W.frame scope → List.Forall₂ W.Values args args' →
      (∀ pc pc', W.Labels pc pc' →
        Paired W L (newArguments f args pc) (newArguments f args' pc') W.Refs) →
      (∀ c c' n, W.Controls c c' → W.frame n → Paired W L (k c n) (l c' n) Q) →
        Paired W L (enterFrame f fn scope args k) (enterFrame f fn' scope args' l) Q
  | resolve {L : Ground} {S S' : Ref} {name : String} {k k' : Label} : W.partner S S' name →
      W.Labels k k' →
        Paired W L (Operand.place ⟨some S, name⟩ k).resolve
          (Operand.place ⟨some S', name⟩ k').resolve
          W.Ratings
  | assign {L : Ground} {line : Nat} {S S' : Ref} {name : String} {k k' : Label}
      {r r' : Rated} {declare : Bool} : W.partner S S' name → W.Labels k k' → W.Ratings r r' →
        Paired W L (assign line ⟨some S, name⟩ k r declare)
          (assign line ⟨some S', name⟩ k' r' declare)
          W.Values
  | freeze {L : Ground} {S S' : Ref} {name : String} : W.partner S S' name →
      Paired W L (freeze ⟨some S, name⟩) (freeze ⟨some S', name⟩) fun _ _ => True
  | eraseAt {L : Ground} {line : Nat} {S S' : Ref} {name : String} {k k' : Label} :
      W.partner S S' name → W.Labels k k' →
        Paired W L (eraseAt line ⟨some S, name⟩ k) (eraseAt line ⟨some S', name⟩ k') W.Operands
  | receiverOf {L : Ground} {S S' : Ref} {name : String} {k k' : Label} :
      W.partner S S' name → L.known S.id → L.known S'.id →
        Paired W L (receiverOf (.place ⟨some S, name⟩ k)) (receiverOf (.place ⟨some S', name⟩ k'))
          W.Values
  /-- Once an operand has given a function, the store that it is read from is known to exist. -/
  | callee {L : Ground} {α β : Type} {t t' : Operand} {k : Rated → Action α}
      {l : Rated → Action β} {Q : α → β → Prop} : Paired W L t.resolve t'.resolve W.Ratings →
      (∀ r r', W.Ratings r r' → Paired W (L.called t t' r) (k r) (l r') Q) →
        Paired W L (.andThen t.resolve k) (.andThen t'.resolve l) Q
  /-- A text that is read consists of what code may be made of. -/
  | evalText {L : Ground} {source : String} {k : Label} {q : Action Value}
      {Q : Value → Value → Prop} : (W.Admits source → Paired W L (evalText source k) q Q) →
        Paired W L (evalText source k) q Q
  | functionFromTexts {L : Ground} {texts : List String} {k : Label} {q : Action Value}
      {Q : Value → Value → Prop} :
      (W.Admits (functionSource texts) → Paired W L (functionFromTexts texts k) q Q) →
        Paired W L (functionFromTexts texts k) q Q
  | lapse {L : Ground} {α β : Type} {p : Action α} {q : Action β} {Q : α → β → Prop} :
      ¬W.faithful → Lapses p → Paired W L p q Q
  /-- Reading a message, if it is not that of an error. -/
  | message {L : Ground} {o : Ref} {k k' : Label} : ¬W.faithful → W.fits o →
      W.Labels k k' →
        Paired W L (Operand.place ⟨some o, "message"⟩ k).resolve
          (Operand.place ⟨some o, "message"⟩ k').resolve W.Ratings
  /-- Reading the source of a pattern, if it is not a labeled undefined value. -/
  | source {L : Ground} {o : Ref} : ¬W.faithful →
      Paired W L (readQuietly o "source") (readQuietly o "source") W.Cells →
        Paired W L (readQuietly o "source") (readQuietly o "source") fun v v' =>
          W.Cells v v' ∧ v'.isUndefined = v.isUndefined

/-- Two actions of whose results nothing is said. -/
abbrev Abreast (W : World) (L : Ground) {α β : Type} (p : Action α) (q : Action β) : Prop :=
  Paired W L p q fun _ _ => True

variable {W : World} {L : Ground} {α β γ δ : Type}

namespace Paired

variable {Q : α → β → Prop}

lemma pure {a : α} {b : β} (h : Q a b) : Paired W L (Pure.pure a) (Pure.pure b) Q := .give h

lemma done (a : α) (b : β) : Abreast W L (Pure.pure a : Action α) (Pure.pure b : Action β) :=
  .give trivial

lemma bind {p : Action γ} {q : Action δ} {k : γ → Action α} {l : δ → Action β} {R : γ → δ → Prop}
    (hp : Paired W L p q R) (hk : ∀ x y, R x y → Paired W L (k x) (l y) Q) :
    Paired W L (p >>= k) (q >>= l) Q := .andThen hp hk

/-- First steps of whose results nothing is known. -/
lemma seq {p : Action γ} {q : Action δ} {k : γ → Action α} {l : δ → Action β}
    (hp : Abreast W L p q) (hk : ∀ x y, Paired W L (k x) (l y) Q) :
    Paired W L (p >>= k) (q >>= l) Q := .andThen hp fun x y _ => hk x y

/-- First steps with the same result. -/
lemma bindEq {p q : Action γ} {k : γ → Action α} {l : γ → Action β} (hp : Paired W L p q Eq)
    (hk : ∀ x, Paired W L (k x) (l x) Q) : Paired W L (p >>= k) (q >>= l) Q :=
  .andThen hp fun x _ h => h ▸ hk x

lemma readFile (path : String) : Paired W L (readFile path) (readFile path) Eq :=
  .await fun _ _ _ hfiles => by rw [hfiles]

/-- Neither side breaks down, or both do. -/
lemma insist {text : String} {holds holds' : Store → Bool}
    (h : ∀ s s' : Store, W.Heaps s.heap s'.heap → holds' s' = holds s) :
    Abreast W L (insist text holds) (insist text holds') :=
  .mono (.await fun s s' hheaps _ => by rw [h s s' hheaps]) fun _ _ _ => trivial

lemma ite {c c' : Prop} [Decidable c] [Decidable c'] (hc : c' ↔ c) {p p' : Action α}
    {q q' : Action β} (hp : c → Paired W L p q Q) (hp' : ¬c → Paired W L p' q' Q) :
    Paired W L (if c then p else p') (if c' then q else q') Q := by
  by_cases h : c
  · rw [if_pos h, if_pos (hc.2 h)]
    exact hp h
  · rw [if_neg h, if_neg fun h' => h (hc.1 h')]
    exact hp' h

/-- Branches on the same condition. -/
lemma ite' {c : Prop} [Decidable c] {p p' : Action α} {q q' : Action β}
    (hp : c → Paired W L p q Q) (hp' : ¬c → Paired W L p' q' Q) :
    Paired W L (if c then p else p') (if c then q else q') Q := .ite Iff.rfl hp hp'

/-- Branches that do the same in the end. -/
lemma ite_of_all {c c' : Prop} [Decidable c] [Decidable c'] {p p' : Action α} {q q' : Action β}
    (h : Paired W L p q Q) (h1 : Paired W L p q' Q) (h2 : Paired W L p' q Q)
    (h3 : Paired W L p' q' Q) :
    Paired W L (if c then p else p') (if c' then q else q') Q := by
  split_ifs <;> assumption

/-- An event that is recorded on either side or not makes no difference. -/
lemma noted {c c' : Prop} [Decidable c] [Decidable c'] {e e' : Event} {k : Unit → Action α}
    {l : Unit → Action β} (h : Paired W L (k ()) (l ()) Q) :
    Paired W L (if c then Action.trace e >>= k else k ())
      (if c' then Action.trace e' >>= l else l ())
      Q :=
  ite_of_all (noteLeft (noteRight h)) (noteLeft h) (noteRight h) h

/-! ## Single instructions -/

/-- Where the machines are. -/
lemma control : Paired W L .current .current W.Controls := .mono .current fun _ _ h => h.1

lemma realm : Paired W L Action.realm Action.realm fun r r' => r = W.realm ∧ r' = W.realm :=
  bind .control fun _ _ h => .give ⟨h.realm, h.realm_right⟩

/-- Reading the fixed part. -/
lemma bindRealm {k : Realm → Action α} {l : Realm → Action β}
    (h : Paired W L (k W.realm) (l W.realm) Q) :
    Paired W L (Action.realm >>= k) (Action.realm >>= l) Q :=
  bind realm fun _ _ ⟨hr, hr'⟩ => by rw [hr, hr']; exact h

lemma pc : Paired W L Action.pc Action.pc W.Labels := bind .control fun _ _ h => .give h.pc

lemma object {id : Nat} (hid : ¬W.store id) :
    Paired W L (Action.object id) (Action.object id) W.Objects :=
  .look fun _ _ h => h.object id hid

/-- An object that is seen as a mere record. -/
lemma make {o o' : Object} (h : W.Objects o o') :
    Paired W L (Action.allocate .plain o) (Action.allocate .plain o') W.Refs := .allocate h trivial

/-- The same answer of both heaps. -/
lemma lookEq {f g : Store → γ} (h : ∀ s s' : Store, W.Heaps s.heap s'.heap → g s' = f s) :
    Paired W L (Action.look f) (Action.look g) Eq :=
  .look fun s s' hs => (h s s' hs).symm

lemma call {fn : Ref} {this this' : Value} {args args' : List Value} (hfn : W.Callee fn)
    (hthis : W.Values this this') (hargs : List.Forall₂ W.Values args args') :
    Paired W L (Action.call fn this args) (Action.call fn this' args') W.Values :=
  .invoke (.call hfn hthis hargs)

lemma typeError {m m' : String} (h : W.Texts m m') :
    Paired W L (Action.typeError m : Action α) (Action.typeError m' : Action β) Q :=
  .fail (.fault _ h)

lemma rangeError (m : String) :
    Paired W L (Action.rangeError m : Action α) (Action.rangeError m : Action β) Q :=
  .fail (.fault _ (.refl m))

lemma syntaxError (m : String) :
    Paired W L (Action.syntaxError m : Action α) (Action.syntaxError m : Action β) Q :=
  .fail (.fault _ (.refl m))

lemma referenceError (m : String) :
    Paired W L (Action.referenceError m : Action α) (Action.referenceError m : Action β) Q :=
  .fail (.fault _ (.refl m))

lemma abreast {p : Action α} {q : Action β} (h : Paired W L p q Q) : Abreast W L p q :=
  .mono h fun _ _ _ => trivial

lemma withPc {pc pc' : Label} {p : Action α} {q : Action β} (hpc : W.Labels pc pc')
    (hp : Paired W L p q Q) : Paired W L (Action.withPc pc p) (Action.withPc pc' q) Q :=
  bind .control fun c c' hc => by
    rw [hc.scope]
    exact .region hpc hc.scope_frame hp

lemma above {k k' : Label} {p : Action α} {q : Action β} (hk : W.Labels k k')
    (hp : Paired W L p q Q) : Paired W L (Action.above k p) (Action.above k' q) Q :=
  bind .control fun c c' hc => by
    rw [hc.scope]
    exact .region (hc.pc.join hk) hc.scope_frame hp

lemma controlled {kind : String} {line : Nat} {k k' : Label} {p : Action α} {q : Action β}
    (hk : W.Labels k k') (hp : Paired W L p q Q) :
    Paired W L (Clearance.controlled kind line k p) (Clearance.controlled kind line k' q) Q :=
  bind (.raisedPc hk) fun _ _ hpc => withPc hpc hp

end Paired
end Clearance
