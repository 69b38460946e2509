/-
# Two runs side by side

A script is run twice, perhaps on two machines that differ a little, and the two runs are followed
step by step. A `World` says what the two have in common: which labels the one and the other meet,
whether they show the same texts, which references scripts may hold, what code may be made of and
what becomes of a label expression in the code of the second. Everything else that corresponds is
derived from these: values, properties, objects and heaps, controls, places, failures and requests.

Some objects are set apart: the stores of bindings, to which scripts hold no reference. What is
known of the stores is said elsewhere, where it is known how names are bound; here two places in
stores correspond when the world says that the two stores are partners for the name. Objects that
are not there yet may be set apart as well.

With the same machine twice, and labels that stay in some set, this says what one run meets. With a
second machine that drops labels it says how labels influence what is computed.
-/
import Clearance.Machine.Serve
import Clearance.Proofs.Label
import Clearance.Proofs.Landing
import Clearance.Script.Rebuild
import Clearance.Script.Walk
import Mathlib.Data.List.Forall2

namespace Clearance

open Script

/-! ## Worlds -/

/-- Labels that one of two runs meets. -/
structure Grade (l : Lattice) where
  mem : Label → Prop
  none : mem .none
  bottom : mem l.bottom
  join : ∀ {k k'}, mem k → mem k' → mem (k.join k')
  below : ∀ {k}, mem k → k.leq l.top = true

/-- No label of the grade is above the bottom. -/
def Grade.Calm {l : Lattice} (g : Grade l) : Prop := ∀ k, g.mem k → k.height = 1

lemma Grade.Calm.not_less {l : Lattice} {g : Grade l} (h : g.Calm) {k k' : Label} (hk' : g.mem k') :
    ¬k.less k' = true :=
  Label.not_less_of_leq (Label.leq_iff.2 (by rw [h k' hk']; exact Label.one_le_height k))

/-- What a reference shows of what an object does. -/
def Face.Suits : Face → Behaviour → Prop
  | .plain, _ | .closure, .closure .. | .native, .native .. | .host, .host _ => True
  | _, _ => False

/-- The function that is asked. -/
def Request.target : Request → Ref
  | .call fn _ _ | .construct fn _ | .hasInstance fn _ => fn

/-- The objects that the machine itself refers to. The frame of a number that there is none of yet
refers to the first object. -/
def Realm.landmarks (r : Realm) : List Nat :=
  [0, r.global, r.objectProto, r.functionProto, r.arrayProto, r.stringProto, r.numberProto,
    r.booleanProto, r.regexpProto] ++ r.errorProtos.map Prod.snd

/-- What two runs have in common. -/
structure World where
  /-- The fixed part of both machines. -/
  realm : Realm
  /-- The labels of the first run. -/
  left : Grade realm.lattice
  /-- The labels of the second run. -/
  right : Grade realm.lattice
  /-- Both runs meet the same labels, and so show the same texts. -/
  faithful : Prop
  /-- Internal errors may occur. -/
  lax : Prop
  /-- The objects that are set apart, by number: the stores of bindings are among them. -/
  store : Nat → Prop
  /-- The references that scripts may hold. -/
  fits : Ref → Prop
  /-- The frames that may be current. -/
  frame : Nat → Prop
  /-- Two stores in which a name has the same binding. -/
  partner : Ref → Ref → String → Prop
  /-- The names that label expressions may have. -/
  named : String → Prop
  /-- The nodes that code may have. -/
  allowed : Node Span → Prop
  /-- What becomes of an expression in the code of the second run. -/
  rewrite : Expr Span → Expr Span
  /-- The reader of texts of the second machine. -/
  reader : String → String → Except ParseError (Program Span)
  fits_object : ∀ {o}, fits o → ¬store o.id
  fits_plain : ∀ {id}, ¬store id → fits ⟨id, .plain⟩
  global_object : ¬store realm.global
  global_frame : frame realm.globalFrame
  protos_objects : ∀ id ∈ [realm.objectProto, realm.functionProto, realm.arrayProto,
    realm.stringProto, realm.numberProto, realm.booleanProto, realm.regexpProto] ++
      realm.errorProtos.map Prod.snd, ¬store id
  /-- Where the runs meet different labels, the second meets none. -/
  right_calm : ¬faithful → right.Calm
  partner_store : ∀ {S S' name}, partner S S' name → store S.id ∧ store S'.id
  rewrite_other : ∀ e, (∀ s name operand, e ≠ .label s name operand) → rewrite e = e
  named_of_allowed : ∀ {s name operand}, allowed (.expr (.label s name operand)) → named name
  /-- Where no internal errors may occur, code is made of what scripts can have. -/
  proper : ¬lax → ∀ {node}, allowed node → node.Proper
  /-- A label expression is kept, or it is dropped where its name is known. -/
  rewrite_label : ∀ s name operand, named name →
    (rewrite (.label s name operand) = .label s name operand ∧
      ∀ k, realm.lattice.lookup? name = some k → left.mem k ∧ right.mem k) ∨
    (rewrite (.label s name operand) = .sequence s [operand] ∧ ¬faithful ∧
      ∃ k, realm.lattice.lookup? name = some k ∧ left.mem k)
  reader_eq : ∀ file text, reader file text = (Script.parse defaultIntrinsic file text 1).map
    fun program => ⟨program.source, rebuildStmts id rewrite program.body⟩

namespace World

variable (W : World)

/-- All nodes may occur. -/
def Allows (nodes : List (Node Span)) : Prop := ∀ node ∈ nodes, W.allowed node

variable {W} in
/-- What cannot be where there are no internal errors is only where there are some. -/
lemma lax_of_absurd (h : ¬W.lax → false = true) : W.lax :=
  Classical.byContradiction fun hlax => Bool.false_ne_true (h hlax)

/-! ## What corresponds -/

/-- Labels that correspond. -/
structure Labels (k k' : Label) : Prop where
  left : W.left.mem k
  right : W.right.mem k'
  same : W.faithful → k' = k

/-- Texts that are shown. -/
def Texts (s s' : String) : Prop := W.faithful → s' = s

/-- A raw value that is no reference that scripts may not hold. -/
def Sound (r : Raw) : Prop := ∀ o, r = .object o → W.fits o

/-- References that scripts may hold. -/
def Refs (o o' : Ref) : Prop := o' = o ∧ W.fits o

/-- A reference to a function that can be called. -/
structure Callee (f : Ref) : Prop where
  fits : W.fits f
  callable : (Raw.object f).callable? = some f

/-- A reference to what knows its instances. -/
structure Maker (f : Ref) : Prop where
  fits : W.fits f
  constructor : (Raw.object f).constructor? = some f

/-- Raw values that scripts may hold. -/
structure Raws (r r' : Raw) : Prop where
  same : r' = r
  sound : W.Sound r
  present : r.isAbsent = false

/-- Values that scripts may hold. Labels at the bottom have been dropped in the first run. -/
structure Values (v v' : Value) : Prop where
  raw : W.Raws v.raw v'.raw
  label : W.Labels v.label v'.label
  settled : v.isLabeled = false → v.label = .none

/-- Values, or no values at all. -/
def Cells (v v' : Value) : Prop := W.Values v v' ∨ (v = .absent ∧ v' = .absent)

/-- Two texts whose wording may differ: the messages of errors. -/
structure Wordings (v v' : Value) : Prop where
  texts : ∃ s s', v.raw = .string s ∧ v'.raw = .string s' ∧ W.Texts s s'
  label : W.Labels v.label v'.label
  settled : v.isLabeled = false → v.label = .none

/-- What data properties hold. -/
def Contents (cls name : String) (v v' : Value) : Prop :=
  W.Values v v' ∨ (cls = "Error" ∧ name = "message" ∧ W.Wordings v v')

/-- Properties of a name of objects of a class. -/
structure Properties (cls name : String) (p p' : Property) : Prop where
  getter : p'.getter = p.getter
  getter_sound : W.Sound p.getter
  setter : p'.setter = p.setter
  setter_sound : W.Sound p.setter
  hidden : p'.hidden = p.hidden
  readOnly : p'.readOnly = p.readOnly
  permanent : p'.permanent = p.permanent
  value : W.Contents cls name p.value p'.value ∨
    (p.isAccessor = true ∧ p.value = .absent ∧ p'.value = .absent)

/-- The properties of objects of a class. -/
def Listings (cls : String) (slots slots' : Slots) : Prop :=
  List.Forall₂ (fun a b => b.1 = a.1 ∧ W.Properties cls a.1 a.2 b.2) slots slots'

/-- Functions: the code of the second run is rewritten. -/
structure Functions (fn fn' : Script.Function Span) : Prop where
  code : fn' = fn.rebuild id W.rewrite
  allowed : W.Allows (fn.nodes true)

/-- What objects do when they are called. -/
inductive Behaviours : Behaviour → Behaviour → Prop
  | none : Behaviours .none .none
  | closure {fn fn' : Script.Function Span} {scope : Nat} : W.Functions fn fn' → W.frame scope →
      Behaviours (.closure fn scope) (.closure fn' scope)
  | native (name : String) (arity : Nat) (fn ctor : Option Native) :
      Behaviours (.native name arity fn ctor) (.native name arity fn ctor)
  | host (n : Nat) : Behaviours (.host n) (.host n)

/-- Objects other than stores. -/
structure Objects (o o' : Object) : Prop where
  cls : o'.cls = o.cls
  ordinary : o.cls ≠ "Activation"
  proto : o'.proto = o.proto
  proto_object : ∀ q ∈ o.proto, ¬W.store q
  partition : W.Labels o.partition o'.partition
  primitive : o'.primitive = o.primitive
  wrapped : ∀ v ∈ o.primitive, v.label = .none ∧ v.raw.isPrimitive = true
  pattern : o'.pattern = o.pattern
  behaviour : W.Behaviours o.behaviour o'.behaviour
  slots : W.Listings o.cls o.slots o'.slots

/-- Heaps whose objects correspond, stores apart. -/
structure Heaps (h h' : Heap) : Prop where
  size : h'.size = h.size
  object : ∀ id, ¬W.store id → W.Objects (h.get id) (h'.get id)

/-- The two machines are at the same point. -/
structure Controls (c c' : Control) : Prop where
  realm : c.realm = W.realm
  scope_frame : W.frame c.scope
  rest : c' = { c with pc := c'.pc, this := c'.this }
  pc : W.Labels c.pc c'.pc
  this : W.Values c.this c'.this

/-- Places: of a name that is not bound, of a property of an object, and of a binding. -/
inductive Places : Place → Place → Prop
  | unbound (name : String) : Places ⟨none, name⟩ ⟨none, name⟩
  | member {o : Ref} (name : String) : W.fits o → Places ⟨some o, name⟩ ⟨some o, name⟩
  | binding {S S' : Ref} {name : String} :
      W.partner S S' name → Places ⟨some S, name⟩ ⟨some S', name⟩

/-- What expressions evaluate to. -/
inductive Operands : Operand → Operand → Prop
  | value {v v' : Value} : W.Values v v' → Operands (.value v) (.value v')
  | place {p p' : Place} {k k' : Label} :
      W.Places p p' → W.Labels k k' → Operands (.place p k) (.place p' k')

/-- Raw values and their effective labels. -/
structure Ratings (r r' : Rated) : Prop where
  raw : W.Raws r.raw r'.raw
  label : W.Labels r.label r'.label

/-- How statements finish. -/
inductive Completions : Completion → Completion → Prop
  | normal : Completions .normal .normal
  | leave (target : Option Nat) : Completions (.leave target) (.leave target)
  | resume (target : Option Nat) : Completions (.resume target) (.resume target)
  | returned {v v' : Value} : W.Values v v' → Completions (.returned v) (.returned v')
  | thrown {v v' : Value} (line : Nat) :
      W.Values v v' → Completions (.thrown v line) (.thrown v' line)

/-- How actions fail. A run that meets no label above the bottom violates nothing. -/
inductive Failures : Failure → Failure → Prop
  | thrown {v v' : Value} (file : String) (line : Nat) :
      W.Values v v' → Failures (.thrown v file line) (.thrown v' file line)
  | fault (name : String) {message message' : String} :
      W.Texts message message' → Failures (.fault name message) (.fault name message')
  | violation {v v' : Violation} : ¬W.left.Calm → ¬W.right.Calm → (W.faithful → v' = v) →
      Failures (.violation v) (.violation v')
  | overflow (depth : Nat) : Failures (.overflow depth) (.overflow depth)
  | internal {message message' : String} : W.lax → W.Texts message message' →
      Failures (.internal message) (.internal message')
  | script (e : ParseError) : Failures (.script e) (.script e)
  | quit (code : Int) : Failures (.quit code) (.quit code)
  | host {text text' : String} : W.Texts text text' → Failures (.host text) (.host text')

/-- What is asked of functions. -/
inductive Requests : Request → Request → Prop
  | call {fn : Ref} {this this' : Value} {args args' : List Value} : W.Callee fn →
      W.Values this this' → List.Forall₂ W.Values args args' →
      Requests (.call fn this args) (.call fn this' args')
  | construct {fn : Ref} {args args' : List Value} : W.Maker fn →
      List.Forall₂ W.Values args args' → Requests (.construct fn args) (.construct fn args')
  | hasInstance {fn : Ref} {v v' : Value} : W.Maker fn → W.Values v v' →
      Requests (.hasInstance fn v) (.hasInstance fn v')

/-- The results of attempts. -/
inductive Attempts {α β : Type} (Q : α → β → Prop) : Except Failure α → Except Failure β → Prop
  | ok {a : α} {b : β} : Q a b → Attempts Q (.ok a) (.ok b)
  | error {f f' : Failure} : W.Failures f f' → Attempts Q (.error f) (.error f')

variable {W}

/-- An object may be seen as a mere record. -/
lemma fits_record {o : Ref} (h : W.fits o) : W.fits ⟨o.id, .plain⟩ := W.fits_plain (W.fits_object h)

/-- What can be called does something when it is called. -/
lemma Callee.not_idle {f : Ref} (h : W.Callee f) {b : Behaviour} (hb : f.face.Suits b) :
    ¬(b = .none ∨ ∃ n, b = .host n) := by
  have hcallable := h.callable
  obtain ⟨id, face⟩ := f
  rintro (rfl | ⟨n, rfl⟩) <;> cases face <;> first | exact False.elim hb | cases hcallable

/-- What knows its instances is a function or a host object. -/
lemma Maker.not_idle {f : Ref} (h : W.Maker f) (hb : f.face.Suits .none) : False := by
  have hconstructor := h.constructor
  obtain ⟨id, face⟩ := f
  cases face <;> first | exact False.elim hb | cases hconstructor

/-! ## Code -/

namespace Allows

variable {node : Node Span} {xs ys : List (Node Span)}

@[simp] lemma nil : W.Allows [] := List.forall_mem_nil _

@[simp] lemma append_iff : W.Allows (xs ++ ys) ↔ W.Allows xs ∧ W.Allows ys :=
  List.forall_mem_append

lemma head (h : W.Allows (node :: xs)) : W.allowed node := h node List.mem_cons_self

lemma tail (h : W.Allows (node :: xs)) : W.Allows xs := (List.forall_mem_cons.1 h).2

lemma head_voiced (h : W.Allows (node :: xs)) (hlax : ¬W.lax) : node.voiced = true :=
  (W.proper hlax h.head).voiced

lemma all_proper (h : W.Allows xs) (hlax : ¬W.lax) : ∀ node ∈ xs, node.Proper :=
  fun node hnode => W.proper hlax (h node hnode)

end Allows

lemma Functions.body {fn fn' : Script.Function Span} (h : W.Functions fn fn') :
    W.Allows (nodesOfStmts true fn.body) := by
  obtain ⟨-, hallowed⟩ := h
  obtain ⟨_, _, _, _, _, _⟩ := fn
  rw [Script.Function.nodes, if_pos rfl] at hallowed
  exact (Allows.append_iff.1 hallowed.tail).2

/-! ## Labels and values -/

namespace Labels

variable {k k' l l' : Label}

lemma none : W.Labels .none .none := ⟨W.left.none, W.right.none, fun _ => rfl⟩

lemma bottom : W.Labels W.realm.lattice.bottom W.realm.lattice.bottom :=
  ⟨W.left.bottom, W.right.bottom, fun _ => rfl⟩

lemma join (h : W.Labels k k') (h' : W.Labels l l') : W.Labels (k.join l) (k'.join l') :=
  ⟨W.left.join h.left h'.left, W.right.join h.right h'.right,
    fun hf => by rw [h.same hf, h'.same hf]⟩

/-- Choosing between two labels by labels. -/
lemma ite {c c' : Prop} [Decidable c] [Decidable c'] (h : W.Labels k k') (h' : W.Labels l l')
    (hc : W.faithful → (c ↔ c')) :
    W.Labels (if c then k else l) (if c' then k' else l') := by
  by_cases h1 : c <;> by_cases h2 : c' <;> simp only [h1, h2, if_true, if_false]
  · exact h
  · exact ⟨h.left, h'.right, fun hf => absurd ((hc hf).1 h1) h2⟩
  · exact ⟨h'.left, h.right, fun hf => absurd ((hc hf).2 h2) h1⟩
  · exact h'

/-- Labels at the bottom are dropped. -/
lemma dropped (h : W.Labels k k') :
    W.Labels (if Label.none.less k then k else .none) (if Label.none.less k' then k' else .none) :=
  .ite h .none fun hf => by rw [h.same hf]

/-- Where no label is above the bottom, no label is above another one. -/
lemma not_less_left (hcalm : W.left.Calm) (h : W.Labels k k') : ¬l.less k = true :=
  hcalm.not_less h.left

lemma not_less_right (hcalm : W.right.Calm) (h : W.Labels k k') : ¬l.less k' = true :=
  hcalm.not_less h.right

end Labels

lemma Texts.refl (s : String) : W.Texts s s := fun _ => rfl

lemma Texts.append {s s' t t' : String} (h : W.Texts s s') (h' : W.Texts t t') :
    W.Texts (s ++ t) (s' ++ t') := fun hf => by rw [h hf, h' hf]

namespace Raws

variable {r r' : Raw}

lemma primitive (h : r.isPrimitive = true) : W.Raws r r := by
  refine ⟨rfl, ?_, ?_⟩
  · rintro o rfl
    cases h
  · cases r
    case absent => cases h
    all_goals rfl

lemma object {o o' : Ref} (h : W.Refs o o') : W.Raws (.object o) (.object o') := by
  obtain ⟨rfl, ho⟩ := h
  exact ⟨rfl, by rintro _ ⟨⟩; exact ho, rfl⟩

lemma refs {o : Ref} (h : W.Raws (.object o) r') : W.fits o := h.sound o rfl

lemma callable (h : W.Raws r r') {f : Ref} (hf : r.callable? = some f) : W.Callee f := by
  obtain rfl : r = .object f := by
    unfold Raw.callable? at hf
    split at hf
    · split at hf
      all_goals cases hf
      all_goals rfl
    · cases hf
  exact ⟨h.refs, hf⟩

lemma constructor (h : W.Raws r r') {f : Ref} (hf : r.constructor? = some f) : W.Maker f := by
  obtain rfl : r = .object f := by
    unfold Raw.constructor? at hf
    split at hf
    · split at hf
      all_goals cases hf
      all_goals rfl
    · cases hf
  exact ⟨h.refs, hf⟩

end Raws

namespace Values

variable {v v' : Value} {k k' : Label} {r r' : Raw}

lemma plain (h : W.Raws r r') : W.Values (.plain r) (.plain r') :=
  ⟨h, .none, fun _ => rfl⟩

lemma primitive (h : r.isPrimitive = true) : W.Values (.plain r) (.plain r) := plain (.primitive h)

lemma object {o o' : Ref} (h : W.Refs o o') :
    W.Values (Value.plain (.object o)) (Value.plain (.object o')) := plain (.object h)

lemma undefined : W.Values .undefined .undefined := primitive rfl

lemma isUndefined_raw (h : W.Values v v') : v'.raw.isUndefined = v.raw.isUndefined := by
  rw [h.raw.same]

/-- Attaching labels that correspond. -/
lemma wrap (h : W.Values v v') (hk : W.Labels k k') : W.Values (v.wrap k) (v'.wrap k') := by
  refine ⟨?_, ?_, ?_⟩
  · rw [Value.wrap_raw, Value.wrap_raw]
    exact h.raw
  · have hjoin := (h.label.join hk).dropped
    have hlabel : ∀ (v : Value) (k : Label), (v.wrap k).label =
        if Label.none.less (v.label.join k) then v.label.join k else .none := by
      intro v k
      unfold Value.wrap
      dsimp only
      split_ifs <;> rfl
    rw [hlabel, hlabel]
    exact hjoin
  · intro hunlabeled
    unfold Value.isLabeled Value.wrap at hunlabeled
    unfold Value.wrap
    dsimp only at hunlabeled ⊢
    split_ifs with hless
    · rw [if_pos hless] at hunlabeled
      rw [hless] at hunlabeled
      cases hunlabeled
    · rfl

/-- A label on the first side only. -/
lemma wrap_left (h : W.Values v v') (hk : W.left.mem k) (hf : ¬W.faithful) :
    W.Values (v.wrap k) v' := by
  have hwrap := h.wrap ⟨hk, W.right.none, fun hf' => absurd hf' hf⟩
  refine ⟨?_, ⟨hwrap.label.left, h.label.right, fun hf' => absurd hf' hf⟩, hwrap.settled⟩
  rw [Value.wrap_raw]
  exact h.raw

lemma labeled (h : W.Raws r r') (hk : W.Labels k k') : W.Values (r.labeled k) (r'.labeled k') :=
  (plain h).wrap hk

/-- Choosing between two values by labels. -/
lemma ite {u u' : Value} {c c' : Prop} [Decidable c] [Decidable c'] (h : W.Values v v')
    (hu : W.Values u u') (hraw : u.raw = v.raw) (hc : W.faithful → (c ↔ c')) :
    W.Values (if c then v else u) (if c' then v' else u') := by
  by_cases h1 : c <;> by_cases h2 : c' <;> simp only [h1, h2, if_true, if_false]
  · exact h
  · exact ⟨⟨hu.raw.same.trans hraw, h.raw.sound, h.raw.present⟩,
      ⟨h.label.left, hu.label.right, fun hf => absurd ((hc hf).1 h1) h2⟩, h.settled⟩
  · exact ⟨⟨h.raw.same.trans hraw.symm, hu.raw.sound, hu.raw.present⟩,
      ⟨hu.label.left, h.label.right, fun hf => absurd ((hc hf).2 h2) h1⟩, hu.settled⟩
  · exact hu

end Values

lemma Cells.absent : W.Cells .absent .absent := .inr ⟨rfl, rfl⟩

lemma Cells.raw {v v' : Value} (h : W.Cells v v') : v'.raw = v.raw := by
  rcases h with h | ⟨rfl, rfl⟩
  · exact h.raw.same
  · rfl

lemma Cells.label {v v' : Value} (h : W.Cells v v') : W.Labels v.label v'.label := by
  rcases h with h | ⟨rfl, rfl⟩
  · exact h.label
  · exact .none

lemma Cells.sound {v v' : Value} (h : W.Cells v v') : W.Sound v.raw := by
  rcases h with h | ⟨rfl, rfl⟩
  · exact h.raw.sound
  · rintro o ⟨⟩

namespace Ratings

variable {r r' : Rated}

lemma value (h : W.Ratings r r') : W.Values r.value r'.value := .labeled h.raw h.label

lemma of_values {v v' : Value} (h : W.Values v v') :
    W.Ratings ⟨v.raw, v.label⟩ ⟨v'.raw, v'.label⟩ :=
  ⟨h.raw, h.label⟩

end Ratings

/-- The labels of lists of values. -/
lemma labels_joinLabels {vs vs' : List Value} (h : List.Forall₂ W.Cells vs vs') :
    W.Labels (Value.joinLabels vs) (Value.joinLabels vs') := by
  have hfold : ∀ {k k' : Label}, W.Labels k k' → W.Labels
      (vs.foldl (fun k v => k.join v.label) k) (vs'.foldl (fun k v => k.join v.label) k') := by
    induction h with
    | nil => exact fun hk => hk
    | cons hv _ ih => exact fun hk => ih (hk.join hv.label)
  exact hfold .none

lemma cells_of_values {vs vs' : List Value} (h : List.Forall₂ W.Values vs vs') :
    List.Forall₂ W.Cells vs vs' := h.imp fun _ _ => .inl

/-- Values where faithful runs show them: the texts are the same. -/
lemma Wordings.values {v v' : Value} (h : W.Wordings v v') (hf : W.faithful) : W.Values v v' := by
  obtain ⟨s, s', hs, hs', htexts⟩ := h.texts
  refine ⟨⟨?_, ?_, ?_⟩, h.label, h.settled⟩
  · rw [hs, hs', htexts hf]
  · rw [hs]
    rintro o ⟨⟩
  · rw [hs]
    rfl

/-! ## Controls -/

namespace Controls

variable {c c' : Control}

lemma kind (h : W.Controls c c') : c'.kind = c.kind := by rw [h.rest]

lemma scope (h : W.Controls c c') : c'.scope = c.scope := by rw [h.rest]

lemma depth (h : W.Controls c c') : c'.depth = c.depth := by rw [h.rest]

lemma file (h : W.Controls c c') : c'.file = c.file := by rw [h.rest]

lemma realm_right (h : W.Controls c c') : c'.realm = W.realm := by rw [h.rest, h.realm]

end Controls

end World
end Clearance
