/-
# Labels of locations

The effective label of a location joins the label of what it holds with the partition of its
object. A checked write does not lower it: what is stored keeps the label of the cell. This holds
of every write to a data property, own or inherited, whatever has been declared, deleted or written
since the place was found, with one exception. A name that was not bound then is checked against
the partition of the global object alone, even if the global object has come to hold the name
under a label above it (`Place.Settled`).

All forms of assignment come to this write at their end: assignments and compound assignments,
increments, initial values of variables, and the names that an enumeration assigns.
-/
import Clearance.Proofs.Assign
import Clearance.Proofs.Heap
import Clearance.Proofs.Moment
import Clearance.Proofs.Started

namespace Clearance

open Clearance.Action Script

/-! ## Effective labels -/

/-- The object that a place belongs to. A name that is not bound belongs to the global object. -/
def Place.owner (p : Place) (s : State) : Ref := p.base.getD ⟨s.control.realm.global, .plain⟩

/-- The property that a place denotes, own or inherited. -/
def Place.property? (p : Place) (s : State) : Option Property :=
  (s.store.heap.find? (p.owner s).id p.name).map Prod.snd

/-- The classification of the object that a place belongs to. -/
def Place.partitionIn (p : Place) (s : State) : Label :=
  (s.store.heap.get (p.owner s).id).partition

/-- The effective label of a place. -/
def Place.labelIn (p : Place) (s : State) : Label :=
  match p.property? s with
  | none => p.partitionIn s
  | some q => q.peeked.label.join (p.partitionIn s)

/-- The place holds no accessor. -/
def Place.HoldsData (p : Place) (s : State) : Prop :=
  ∀ q, p.property? s = some q → q.isAccessor = false

/-- A name that was not bound when the place was found is not bound under a label above the
partition of the global object now. -/
def Place.Settled (p : Place) (s : State) : Prop :=
  p.base = none → (p.labelIn s).leq (p.partitionIn s) = true

instance (p : Place) (s : State) : Decidable (p.HoldsData s) :=
  decidable_of_iff ((p.property? s).all (!·.isAccessor) = true) (by
    unfold Place.HoldsData
    cases p.property? s <;> simp)

instance (p : Place) (s : State) : Decidable (p.Settled s) := inferInstanceAs (Decidable (_ → _))

/-! ## Installed properties -/

/-- An object with a data property that carries at least a label, and otherwise its shell. -/
structure Object.Installs (o o' : Object) (name : String) (k : Label) : Prop where
  shell : o.SameShell o'
  installed : ∃ q, Slots.find? name o'.slots = some q ∧ q.isAccessor = false ∧
    k.leq q.value.label = true

/-- Recording the length of an array leaves the other properties alone. -/
lemma Object.find?_recordLength (o : Object) (v : Value) {name : String} (h : name ≠ "length") :
    Slots.find? name (Heap.recordLength o v).slots = Slots.find? name o.slots := by
  unfold Heap.recordLength
  split
  · rw [find?_define, if_neg h]
  · rfl

lemma Object.installs_extend (o : Object) (name : String) (v : Value) :
    o.Installs (Heap.extend o name v) name v.label := by
  have hdefine : Slots.find? name (o.define name (.data v)).slots = some (.data v) := by
    rw [find?_define, if_pos rfl]
  refine ⟨sameShell_extend .., .data v, ?_, rfl, Label.leq_refl _⟩
  unfold Heap.extend
  dsimp only
  split_ifs
  · split
    · rename_i i hi
      have hname : name ≠ "length" := by
        rintro rfl
        rw [arrayIndex?_length] at hi
        cases hi
      split_ifs
      · rw [find?_recordLength _ _ hname, hdefine]
      · exact hdefine
    · exact hdefine
  · exact hdefine

/-- A data property takes a new value. -/
lemma Object.installs_define {o : Object} {name : String} {q : Property} (v : Value)
    (hq : q.isAccessor = false) : o.Installs (o.define name { q with value := v }) name v.label :=
  ⟨sameShell_define .., { q with value := v }, by rw [find?_define, if_pos rfl], hq,
    Label.leq_refl _⟩

lemma Object.installs_resize {o : Object} {q : Property} (n : Nat) (k : Label)
    (hfind : Slots.find? "length" o.slots = some q) (hq : q.isAccessor = false) :
    o.Installs (Heap.resize o n k) "length" k := by
  have hdrop : Slots.find? "length" (Heap.dropFrom o n).slots = some q := by
    rw [find?_dropFrom o n arrayIndex?_length, hfind]
  refine ⟨sameShell_resize .., { q with value := (Raw.ofNat n).labeled k }, ?_, hq, ?_⟩
  · unfold Heap.resize Heap.recordLength
    rw [hdrop]
    exact (find?_define ..).trans (if_pos rfl)
  · rw [Label.leq_iff]
    exact Nat.le_of_eq (Value.height_labeled ..).symm

/-- An own slot of the name is what a lookup finds, unless that is read-only. -/
lemma Heap.slot_of_find? {h : Heap} {id owner : Nat} {name : String} {own q : Property}
    (hfind : h.find? id name = some (owner, q))
    (hown : Slots.find? name (h.get id).slots = some own) (hro : q.readOnly = false) : own = q := by
  rcases find?_cases hfind with ⟨-, hq⟩ | hnone
  · have hslot := Object.find?_of_own? hq hro
    rw [hown] at hslot
    exact Option.some.inj hslot
  · rw [Object.own?_of_find? hown] at hnone
    cases hnone

section

variable {serve : Service} {chronicle : Chronicle} {fuel : Nat}

/-- A property is put, unless the object is an array that has lost its length. -/
lemma putOwn_installs {o : Ref} {name : String} (v : Value) {s : State} :
    (∃ g, (putOwn o name v).run serve fuel s =
        .done () ⟨s.control, { s.store with heap := s.store.heap.update o.id g }⟩ ∧
      (s.store.heap.get o.id).Installs (g (s.store.heap.get o.id)) name v.label) ∨
    Heap.counts (s.store.heap.get o.id) name = false ∧
      (putOwn o name v).run serve fuel s = .stuck (.panic missingText) (s.extended o name v) := by
  cases h : Heap.counts (s.store.heap.get o.id) name with
  | true => exact .inl ⟨_, run_putOwn serve fuel v h, Object.installs_extend ..⟩
  | false => exact .inr ⟨rfl, run_putOwn_lost serve fuel v h⟩

/-- What a write to a property does, unless the property is an accessor: it is ignored, it fails,
it installs the value in the object, or the program breaks down at an array without a length. -/
lemma run_putProperty_data {o : Ref} {name : String} (v : Value) {s : State}
    (hdata : ∀ found, s.store.heap.find? o.id name = some found → found.2.isAccessor = false) :
    (putProperty o name v).run serve fuel s = .done () s ∨
    (∃ kind message, (putProperty o name v).run serve fuel s = .failed (.fault kind message) s) ∨
    (∃ g, (putProperty o name v).run serve fuel s =
        .done () ⟨s.control, { s.store with heap := s.store.heap.update o.id g }⟩ ∧
      (s.store.heap.get o.id).Installs (g (s.store.heap.get o.id)) name v.label) ∨
    Heap.counts (s.store.heap.get o.id) name = false ∧
      (putProperty o name v).run serve fuel s =
        .stuck (.panic missingText) (s.extended o name v) := by
  unfold putProperty
  simp only [run_bind, run_look]
  cases hfind : s.store.heap.find? o.id name with
  | none => exact .inr (.inr (putOwn_installs v))
  | some found =>
    obtain ⟨owner, q⟩ := found
    have hacc : q.isAccessor = false := hdata _ hfind
    simp only [hacc, Bool.false_eq_true, if_false]
    by_cases hro : q.readOnly = true
    · simp only [if_pos hro]
      exact .inl rfl
    simp only [if_neg hro, run_bind, run_object]
    split
    · rename_i own howner hown
      obtain rfl := Heap.slot_of_find? hfind hown (by simpa using hro)
      split_ifs with hlength
      · obtain ⟨-, rfl⟩ := hlength
        simp only [setLength, run_bind, run_look]
        split_ifs
        · exact .inr (.inl ⟨_, _, rfl⟩)
        · exact .inr (.inr (.inl ⟨_, run_change .., Object.installs_resize _ _ hown hacc⟩))
      · exact .inr (.inr (.inl ⟨_, run_change .., Object.installs_define v hacc⟩))
    · exact .inr (.inr (putOwn_installs v))

/-- The effective label of a place in whose object a property has been installed. -/
lemma Place.labelIn_installed {p : Place} {s t : State} {g : Object → Object} {k : Label}
    (hcontrol : t.control = s.control)
    (hheap : t.store.heap = s.store.heap.update (p.owner s).id g)
    (hg : (s.store.heap.get (p.owner s).id).Installs (g (s.store.heap.get (p.owner s).id))
      p.name k) (hbound : (p.owner s).id < s.store.heap.size) :
    (k.join (p.partitionIn s)).leq (p.labelIn t) = true := by
  have howner : p.owner t = p.owner s := by simp only [owner, hcontrol]
  have hget : t.store.heap.get (p.owner t).id = g (s.store.heap.get (p.owner s).id) := by
    rw [hheap, howner, Heap.get_update_self hbound]
  obtain ⟨q, hq, hacc, hk⟩ := hg.installed
  have hfind : p.property? t = some q := by
    have hown : (t.store.heap.get (p.owner t).id).own? p.name = some q := by
      rw [hget]
      exact Object.own?_of_find? hq
    rw [property?, Heap.find?_of_own? hown]
    rfl
  have hpartition : p.partitionIn t = p.partitionIn s := by
    rw [partitionIn, hget]
    exact hg.shell.partition
  have hpeek : q.peeked = q.value := by simp [Property.peeked, hacc]
  unfold labelIn
  rw [hfind, hpartition]
  simp only [hpeek, Label.leq_iff, Label.height_join] at hk ⊢
  omega

/-- The location of a bound place has the cell and the partition of the effective label. -/
lemma Place.height_labelIn {p : Place} {o : Ref} (hbase : p.base = some o) (s : State) :
    (p.labelIn s).height = max (p.locationIn s).cell.height (p.partitionIn s).height := by
  have howner : p.owner s = o := by simp [owner, hbase]
  unfold labelIn locationIn property? partitionIn
  rw [howner, hbase]
  dsimp only
  have hone := Label.one_le_height (s.store.heap.get o.id).partition
  cases s.store.heap.find? o.id p.name with
  | none =>
    simp only [Option.map_none, Label.height_none]
    omega
  | some found => simp only [Option.map_some, Label.height_join]

/-- The effective label is that of the heap and the realm. -/
lemma Place.labelIn_congr (p : Place) {s u : State} (hcontrol : u.control = s.control)
    (hheap : u.store.heap = s.store.heap) : p.labelIn u = p.labelIn s := by
  simp only [labelIn, property?, partitionIn, owner, hcontrol, hheap]

lemma Place.run_write (p : Place) (v : Value) (s : State) :
    (p.write v).run serve fuel s = (putProperty (p.owner s) p.name v).run serve fuel s := by
  unfold Place.write owner
  cases p.base with
  | none => simp only [run_bind, run_realm, Option.getD_none]
  | some o => rfl

/-- The check: what is stored at a settled place carries its effective label, up to the
partition. -/
lemma Place.labelIn_leq_stored {p : Place} {s : State} (hsettled : p.Settled s) (chosen : Label)
    (r : Rated) :
    (p.labelIn s).leq (((p.locationIn s).stored s.control.pc chosen r).label.join
      (p.partitionIn s)) = true := by
  rw [Label.leq_iff, Label.height_join]
  cases hbase : p.base with
  | none =>
    have hleq := Label.leq_iff.1 (hsettled hbase)
    omega
  | some o =>
    have hcell := Label.leq_iff.1 ((p.locationIn s).cell_leq_stored s.control.pc chosen r)
    rw [p.height_labelIn hbase]
    omega

/-- A checked write that is done has not lowered the label of its location. -/
lemma labelIn_leq_of_assign {line : Nat} {p : Place} {chosen : Label} {r : Rated} {declare : Bool}
    {s t : State} {v : Value}
    (hrun : (assign line p chosen r declare).run serve fuel s = .done v t)
    (hdata : p.HoldsData s) (hsettled : p.Settled s) :
    (p.labelIn s).leq (p.labelIn t) = true := by
  obtain ⟨⟨_, _, hviolation⟩, -⟩ | ⟨u, hpass⟩ : _ ∨ ∃ u,
      Passes serve fuel line p chosen r declare s u :=
    run_assign ..
  · rw [hviolation] at hrun
    cases hrun
  rw [hpass.run] at hrun
  obtain ⟨_, _, hwrite, ⟨⟩⟩ := run_bind_done.1 hrun
  rw [p.run_write] at hwrite
  have hsame : p.labelIn u = p.labelIn s := p.labelIn_congr hpass.control hpass.heap
  have howner : p.owner u = p.owner s := by simp only [Place.owner, hpass.control]
  have hplain : ∀ found, u.store.heap.find? (p.owner u).id p.name = some found →
      found.2.isAccessor = false := by
    intro found hfound
    refine hdata found.2 ?_
    rw [howner, hpass.heap] at hfound
    rw [Place.property?, hfound]
    rfl
  rcases run_putProperty_data ((p.locationIn s).stored s.control.pc chosen r) hplain with
    hignored | ⟨_, _, hfailed⟩ | ⟨g, hdone, hinstalls⟩ | ⟨-, hlost⟩
  · rw [hignored] at hwrite
    cases hwrite
    rw [hsame]
    exact Label.leq_refl _
  · rw [hfailed] at hwrite
    cases hwrite
  · rw [hdone] at hwrite
    have hcontrol : t.control = u.control := by cases hwrite; rfl
    have hheap : t.store.heap = u.store.heap.update (p.owner u).id g := by cases hwrite; rfl
    by_cases hbound : (p.owner u).id < u.store.heap.size
    · have hinstalled := Place.labelIn_installed hcontrol hheap hinstalls hbound
      rw [Place.partitionIn, howner, hpass.heap] at hinstalled
      exact Label.leq_trans (Place.labelIn_leq_stored hsettled chosen r) hinstalled
    · rw [Heap.update_eq_self fun hlt => absurd hlt hbound] at hheap
      rw [← hsame, p.labelIn_congr hcontrol hheap]
      exact Label.leq_refl _
  · rw [hlost] at hwrite
    cases hwrite

/-! ## The forms of assignment -/

/-- A checked write that is carried out in the course of a run. -/
structure Write where
  line : Nat
  place : Place
  chosen : Label
  rated : Rated
  declare : Bool
  /-- The state just before the write. -/
  before : State
  result : Value
  /-- The state just after the write. -/
  after : State

/-- The start of the write. -/
def Write.moment (w : Write) (cs : List Control) : Moment :=
  ⟨assign w.line w.place w.chosen w.rated w.declare, w.before, cs, .done w.result w.after⟩

/-- The forms of assignment. -/
inductive Assigning : {α : Type} → Action α → Prop
  | assignment (line : Nat) (op : AssignOp) (target value : Action Operand) :
      Assigning (assignment line op target value)
  | increment (line : Nat) (op : String) (before : Bool) (operand : Action Operand) :
      Assigning (increment line op before operand)
  | initial (i : Initialiser) (kind : VarKind) : Assigning (i.write kind)
  | enumerated (line : Nat) (k : Label) (target : Action Operand) (name : String) :
      Assigning (writeName line k target name)

/-- Freezing changes the one property, if its object has it. -/
lemma freeze_done {p : Place} {o : Ref} {s t : State} (hbase : p.base = some o)
    (hrun : (freeze p).run serve fuel s = .done () t) :
    ∃ f : Object → Object,
      t = ⟨s.control, { s.store with heap := s.store.heap.update o.id f }⟩ ∧
      (∀ obj q, obj.own? p.name = some q → f obj = obj.define p.name { q with readOnly := true }) ∧
      ∀ obj, obj.own? p.name = none → f obj = obj := by
  unfold freeze at hrun
  rw [hbase, run_change] at hrun
  cases hrun
  exact ⟨_, rfl, fun obj q hown => by simp only [hown], fun obj hown => by simp only [hown]⟩

/-- A constant is frozen with its label. -/
lemma Place.labelIn_freeze {p : Place} {s t : State}
    (hrun : (freeze p).run serve fuel s = .done () t) : p.labelIn t = p.labelIn s := by
  cases hbase : p.base with
  | none =>
    unfold freeze at hrun
    rw [hbase] at hrun
    cases hrun
    rfl
  | some o =>
    obtain ⟨f, rfl, hfrozen, hkept⟩ := freeze_done hbase hrun
    by_cases hbound : o.id < s.store.heap.size
    · cases hown : (s.store.heap.get o.id).own? p.name with
      | none => exact p.labelIn_congr rfl (Heap.update_eq_self fun _ => hkept _ hown)
      | some q =>
        have hget : (s.store.heap.update o.id f).get o.id =
            (s.store.heap.get o.id).define p.name { q with readOnly := true } := by
          rw [Heap.get_update_self hbound, hfrozen _ q hown]
        have hnew : ((s.store.heap.update o.id f).get o.id).own? p.name =
            some { q with readOnly := true } := by
          rw [hget]
          exact Object.own?_of_find? ((Object.find?_define ..).trans (if_pos rfl))
        have howner : ∀ u, p.owner u = o := fun u => by simp [owner, hbase]
        simp only [labelIn, property?, partitionIn, howner, Heap.find?_of_own? hown,
          Heap.find?_of_own? hnew, hget]
        rfl
    · exact p.labelIn_congr rfl (Heap.update_eq_self fun h => absurd h hbound)

lemma mem_moments_write {line : Nat} {p : Place} {chosen : Label} {r : Rated} {declare : Bool}
    {s t : State} {v : Value} (cs : List Control)
    (hassign : (assign line p chosen r declare).run serve fuel s = .done v t) :
    Write.moment ⟨line, p, chosen, r, declare, s, v, t⟩ cs ∈
      (assign line p chosen r declare).moments serve chronicle fuel cs s := by
  rw [Write.moment, ← hassign]
  exact mem_moments_self _ cs s

/-- A form of assignment that is done has come to its write, and the label of the location has not
changed since then. -/
lemma Assigning.writes {α : Type} {q : Action α} (hq : Assigning q) (cs : List Control)
    {s t : State} {a : α} (hrun : q.run serve fuel s = .done a t) :
    ∃ w : Write, w.moment cs ∈ q.moments serve chronicle fuel cs s ∧
      w.place.labelIn t = w.place.labelIn w.after := by
  -- each assignment ends in a checked write to the place that it has found first
  cases hq with
  | assignment line op target value =>
    obtain ⟨operand, u, htarget, hrest⟩ := run_bind_done.1 hrun
    cases operand with
    | value v => cases hrest
    | place p k =>
      cases op with
      | plain =>
        obtain ⟨r, x, hvalue, hlast⟩ := run_bind_done.1 hrest
        obtain ⟨v, y, hassign, ⟨⟩⟩ := run_bind_done.1 hlast
        exact ⟨_, mem_moments_rest htarget (mem_moments_rest hvalue
          (mem_moments_first _ (mem_moments_write cs hassign))), rfl⟩
      | compound op =>
        obtain ⟨old, x, hold, hrest⟩ := run_bind_done.1 hrest
        obtain ⟨right, y, hvalue, hrest⟩ := run_bind_done.1 hrest
        obtain ⟨r, z, hop, hlast⟩ := run_bind_done.1 hrest
        obtain ⟨v, _, hassign, ⟨⟩⟩ := run_bind_done.1 hlast
        exact ⟨_, mem_moments_rest htarget (mem_moments_rest hold (mem_moments_rest hvalue
          (mem_moments_rest hop (mem_moments_first _ (mem_moments_write cs hassign))))), rfl⟩
  | increment line op before operand =>
    obtain ⟨operand, u, htarget, hrest⟩ := run_bind_done.1 hrun
    cases operand with
    | value v => cases hrest
    | place p k =>
      obtain ⟨old, x, hold, hrest⟩ := run_bind_done.1 hrest
      obtain ⟨n, y, hnumber, hlast⟩ := run_bind_done.1 hrest
      obtain ⟨v, _, hassign, ⟨⟩⟩ := run_bind_done.1 hlast
      exact ⟨_, mem_moments_rest htarget (mem_moments_rest hold (mem_moments_rest hnumber
        (mem_moments_first _ (mem_moments_write cs hassign)))), rfl⟩
  | initial i kind =>
    obtain ⟨p, u, hplace, hrest⟩ := run_bind_done.1 hrun
    obtain ⟨r, x, hvalue, hdeclare⟩ := run_bind_done.1 hrest
    obtain ⟨v, y, hassign, hfreeze⟩ := run_bind_done.1 hdeclare
    refine ⟨_, mem_moments_rest hplace (mem_moments_rest hvalue
      (mem_moments_first _ (mem_moments_write cs hassign))), ?_⟩
    split_ifs at hfreeze
    · exact p.labelIn_freeze hfreeze
    · cases hfreeze
      rfl
  | enumerated line k target name =>
    obtain ⟨operand, u, htarget, hrest⟩ := run_bind_done.1 hrun
    cases operand with
    | value v => cases hrest
    | place p chosen =>
      obtain ⟨v, _, hassign, ⟨⟩⟩ := run_bind_done.1 hrest
      exact ⟨_, mem_moments_rest htarget (mem_moments_first _ (mem_moments_write cs hassign)), rfl⟩

end

/-- **No assignment lowers a label.** In every run, every form of assignment that is done has come
to a checked write. Whenever such a write to a data property is carried out, at a place that was
bound or is settled, the effective label of the location just after the write is at least the one
just before it. -/
theorem assignment_keeps_label (hosts : Hosts) (rounds levels : Nat) {α : Type} (p : Action α)
    (cs : List Control) (s : State) :
    (∀ {β : Type} {q : Action β} {u t : State} {ds : List Control} {b : β}, Assigning q →
      ⟨q, u, ds, .done b t⟩ ∈ p.momentsOn hosts rounds levels cs s →
      ∃ w : Write, w.moment ds ∈ p.momentsOn hosts rounds levels cs s ∧
        w.place.labelIn t = w.place.labelIn w.after) ∧
    ∀ (w : Write) (ds : List Control), w.moment ds ∈ p.momentsOn hosts rounds levels cs s →
      w.place.HoldsData w.before → w.place.Settled w.before →
      (w.place.labelIn w.before).leq (w.place.labelIn w.after) = true := by
  constructor
  · intro β q u t ds b hq hm
    obtain ⟨n, hwithin⟩ := mem_momentsOn hm
    obtain ⟨w, hw, hlabel⟩ := hq.writes ds hwithin.outcome.symm
    exact ⟨w, hwithin.moments hw, hlabel⟩
  · intro w ds hm hdata hsettled
    obtain ⟨n, hwithin⟩ := mem_momentsOn hm
    exact labelIn_leq_of_assign hwithin.outcome.symm hdata hsettled

/-- The write that an assignment comes to. -/
def writeOf? (e : Expr Span) (bound : Nat) (s : State) : Option Write :=
  match e with
  | .assign span .plain target value =>
    match target.action.run (machine .none bound bound) bound s with
    | .done (.place p k) u =>
      match (valueOf value.action).run (machine .none bound bound) bound u with
      | .done r x =>
        match (assign span.start.line p k r false).run (machine .none bound bound) bound x with
        | .done v t => some ⟨span.start.line, p, k, r, false, x, v, t⟩
        | _ => none
      | _ => none
    | _ => none
  | _ => none

lemma mem_of_writeOf? {e : Expr Span} {bound : Nat} {s : State} {w : Write}
    (h : writeOf? e bound s = some w) (cs : List Control) :
    w.moment cs ∈ e.action.momentsOn .none bound bound cs s := by
  unfold writeOf? at h
  split at h
  · rename_i span target value
    split at h
    · rename_i p k u htarget
      split at h
      · rename_i r x hvalue
        split at h
        · rename_i v t hassign
          cases h
          rw [Script.Expr.action]
          exact mem_moments_rest htarget (mem_moments_rest hvalue
            (mem_moments_first _ (mem_moments_write cs hassign)))
        · cases h
      · cases h
    · cases h
  · cases h

/-- The write that a script comes to has a property that can be decided. -/
lemma exists_write (source : String) (bound : Nat) (s : State) (P : Write → Prop)
    [DecidablePred P]
    (h : ((expression? source).bind (writeOf? · bound s)).any (fun w => P w) = true) :
    ∃ (e : Expr Span) (w : Write), expression? source = some e ∧
      w.moment [] ∈ e.action.momentsOn .none bound bound [] s ∧ P w := by
  cases he : expression? source with
  | none => rw [he] at h; cases h
  | some e =>
    rw [he, Option.bind_some] at h
    cases hw : writeOf? e bound s with
    | none => rw [hw] at h; cases h
    | some w =>
      rw [hw, Option.any_some] at h
      exact ⟨e, w, rfl, mem_of_writeOf? hw [], of_decide_eq_true h⟩

set_option maxRecDepth 100000 in
/-- A public value is written to the location of a secret, which stays secret. -/
theorem assignment_keeps_label_of_secret : ∃ (e : Expr Span) (w : Write),
    expression? "secret = false" = some e ∧
    w.moment [] ∈ e.action.momentsOn .none 50 50 [] secretSession ∧
    w.place.HoldsData w.before ∧ w.place.Settled w.before ∧
    w.place.labelIn w.before = ⟨2, "H"⟩ ∧
    (w.place.labelIn w.before).leq (w.place.labelIn w.after) = true := by
  obtain ⟨e, w, he, hw, hdata, hsettled, hsecret⟩ := exists_write "secret = false" 50 secretSession
    (fun w => w.place.HoldsData w.before ∧ w.place.Settled w.before ∧
      w.place.labelIn w.before = ⟨2, "H"⟩) (by decide +kernel)
  exact ⟨e, w, he, hw, hdata, hsettled, hsecret,
    (assignment_keeps_label .none 50 50 e.action [] secretSession).2 w [] hw hdata hsettled⟩

/-- The right-hand side declares the variable, under a label. -/
def unboundScript : String := "x = (eval(\"var x = label('H', 1)\"), 5)"

set_option maxRecDepth 100000 in
/-- The name is not bound when the target is found. The write is not checked against the location,
and lowers its label. -/
theorem unbound_assignment_lowers_label : ∃ (e : Expr Span) (w : Write),
    expression? unboundScript = some e ∧
    w.moment [] ∈ e.action.momentsOn .none 50 50 [] (Session.fresh .standard) ∧
    w.place.HoldsData w.before ∧
    ¬(w.place.labelIn w.before).leq (w.place.labelIn w.after) = true :=
  exists_write unboundScript 50 (Session.fresh .standard)
    (fun w => w.place.HoldsData w.before ∧
      ¬(w.place.labelIn w.before).leq (w.place.labelIn w.after) = true) (by
    rw [show unboundScript = String.ofList _ from rfl, expression?, statement?,
      Script.parse_ofList]
    decide +kernel)

end Clearance
