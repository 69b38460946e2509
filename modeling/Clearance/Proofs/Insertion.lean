/-
# Names in the order of their insertion

The objects of the heap hold their properties in one list. As a table of properties next to a list
of names (`Object.record`), they change in the way of such records: each change of an object is the
change of the same kind of its record (`Object.record_define` and its like). This file follows all
objects through sequences of changes: direct ones, assignments, which may run setters that change
objects in turn, the cutting of arrays, and new objects (`Edits`). Whatever the machine makes of the
heap is what the operations on records make of the records (`Edits.records`), so that the names of
every object are at any moment those of its table, each once, in the order of their most recent
insertion.
-/
import Clearance.Proofs.Elements
import Clearance.Proofs.Index
import Clearance.Proofs.Listable
import Clearance.Proofs.Record
import Clearance.Proofs.Write

namespace Clearance

open Clearance.Action

/-! ## Objects as records -/

namespace Object

variable {o : Object} {name : String}

/-- The object as a table of properties and a list of names. -/
def record (o : Object) : Record :=
  ⟨o.cls, o.proto, o.text?, fun name => Slots.find? name o.slots, o.keys⟩

lemma mem_keys_iff : name ∈ o.keys ↔ (Slots.find? name o.slots).isSome = true := by
  rw [Option.isSome_iff_ne_none, ne_eq, Slots.find?_eq_none_iff, not_not]
  rfl

/-- The record of an object is sound if the object has no name twice. -/
lemma sound_record_iff : o.record.Sound ↔ o.keys.Nodup :=
  ⟨fun h => h.once, fun h => ⟨h, fun _ => mem_keys_iff⟩⟩

lemma own?_record (o : Object) (name : String) : o.record.own? name = o.own? name := by
  show (Slots.find? name o.slots).or _ = _
  unfold own? Record.wrapped?
  cases Slots.find? name o.slots <;> rfl

lemma hasOwn_record (o : Object) (name : String) : o.record.hasOwn name = o.hasOwn name :=
  congrArg Option.isSome (own?_record o name)

lemma record_define (o : Object) (name : String) (p : Property) :
    (o.define name p).record = o.record.define name p := by
  have htable : (o.define name p).record.table =
      Function.update o.record.table name (some p) := by
    funext n
    rw [Function.update_apply]
    exact find?_define ..
  have hnames : (o.define name p).record.names =
      if (o.record.table name).isSome then o.record.names else o.record.names ++ [name] :=
    keys_define o name p
  unfold Record.define
  split_ifs with hname
  · rw [if_pos hname] at hnames
    exact Record.ext rfl rfl rfl htable hnames
  · rw [if_neg hname] at hnames
    exact Record.ext rfl rfl rfl htable hnames

/-- A property that is there is replaced in the table only. -/
lemma record_define_of_find? {q : Property} (hq : Slots.find? name o.slots = some q)
    (p : Property) :
    (o.define name p).record = o.record.store name p := by
  have hsome : (o.record.table name).isSome = true := by
    rw [show o.record.table name = some q from hq]
    rfl
  rw [record_define, Record.define, if_pos hsome]

lemma record_set (o : Object) (name : String) (v : Value) :
    (o.set name v).record = o.record.set name v := by
  unfold set Record.set
  rw [show o.record.table name = Slots.find? name o.slots from rfl]
  cases hq : Slots.find? name o.slots with
  | none => exact record_define ..
  | some q =>
    dsimp only
    split_ifs
    · exact record_define ..
    · exact record_define_of_find? hq _

lemma record_delete (h : o.keys.Nodup) (name : String) :
    o.record.delete name = (o.delete name).map id record := by
  unfold delete Record.delete
  rw [show o.record.table name = Slots.find? name o.slots from rfl, hasOwn_record]
  cases hq : Slots.find? name o.slots with
  | none => rfl
  | some q =>
    dsimp only
    split_ifs
    · rfl
    · have htable : (o.record.erase name).table = fun n => Slots.find? n (o.slots.erase name) := by
        funext n
        exact (Record.table_erase ..).trans (Slots.find?_erase ..).symm
      have hnames : o.keys.erase name = Slots.names (o.slots.erase name) := by
        rw [h.erase_eq_filter, Slots.erase_eq_filter, Slots.names_filter (fun n => n ≠ name)]
        exact List.filter_congr fun n _ => by by_cases hn : n = name <;> simp [hn]
      exact congrArg (Prod.mk true) (Record.ext rfl rfl rfl htable hnames)

lemma record_recordLength (o : Object) (v : Value) :
    (Heap.recordLength o v).record = o.record.assign "length" v := by
  unfold Heap.recordLength Record.assign
  rw [show o.record.table "length" = Slots.find? "length" o.slots from rfl]
  cases hq : Slots.find? "length" o.slots with
  | none => rfl
  | some q => exact record_define_of_find? hq _

/-- The names are walked in the same order, by induction on them. -/
lemma record_dropFrom (h : o.keys.Nodup) (length : Nat) :
    (Heap.dropFrom o length).record = o.record.cut length := by
  have hone : ∀ (o : Object) (name : String), o.keys.Nodup →
      (Heap.dropOne length o name).record = o.record.deleteBeyond length name := by
    intro o name h
    unfold Heap.dropOne Record.deleteBeyond
    cases arrayIndex? name with
    | none => rfl
    | some i =>
      dsimp only
      split_ifs
      · rw [record_delete h, Prod.map_snd]
      · rfl
  have hwalk : ∀ (names : List String) (o : Object), o.keys.Nodup →
      (names.foldl (Heap.dropOne length) o).record =
        names.foldl (Record.deleteBeyond length) o.record := by
    intro names
    induction names with
    | nil => exact fun _ _ => rfl
    | cons name names ih =>
      intro o h
      have hnext := (sound_record_iff.2 h).deleteBeyond length name
      rw [List.foldl_cons, List.foldl_cons, ← hone o name h]
      rw [← hone o name h] at hnext
      exact ih _ (sound_record_iff.1 hnext)
  rw [Heap.dropFrom_eq]
  exact hwalk o.keys o h

lemma record_resize (h : o.keys.Nodup) (length : Nat) (k : Label) :
    (Heap.resize o length k).record = o.record.resize length k := by
  rw [Heap.resize, record_recordLength, record_dropFrom h, Record.resize]

lemma record_extend (o : Object) (name : String) (v : Value) :
    (Heap.extend o name v).record = o.record.extend name v := by
  have hlength : ∀ o : Object, Heap.arrayLength o = o.record.arrayLength := fun _ => rfl
  unfold Heap.extend Record.extend
  dsimp only
  rw [← record_define, ← hlength]
  show _ = if (o.define name (.data v)).cls = "Array" then _ else _
  cases arrayIndex? name with
  | none => split_ifs <;> rfl
  | some i =>
    dsimp only
    split_ifs
    · exact record_recordLength ..
    · rfl
    · rfl

/-- The elements of a new array come one after the other behind what is there, by induction on
them. -/
lemma record_elements {o : Object} {k : Nat} (elements : List Value)
    (h : ∀ i, k ≤ i → indexName i ∉ o.keys) :
    ({ o with slots := o.slots ++ (elements.zipIdx k).filterMap fun (v, i) =>
        if v.raw.isAbsent && !v.isLabeled then none else some (indexName i, Property.data v) } :
        Object).record =
      (elements.zipIdx k).foldl (fun r (v, i) =>
        if v.raw.isAbsent && !v.isLabeled then r else r.define (indexName i) (.data v))
          o.record := by
  induction elements generalizing o k with
  | nil => simp
  | cons v elements ih =>
    rw [List.zipIdx_cons, List.filterMap_cons, List.foldl_cons]
    dsimp only
    split_ifs with habsent
    · exact ih fun i hi => h i (by omega)
    · have hput : o.define (indexName k) (.data v) =
          { o with slots := o.slots ++ [(indexName k, .data v)] } := by
        have hnew : ∀ slots : Slots, indexName k ∉ slots.names →
            slots.put (indexName k) (.data v) = slots ++ [(indexName k, .data v)] := by
          intro slots
          induction slots with
          | nil => exact fun _ => rfl
          | cons slot slots ih =>
            intro hnot
            obtain ⟨hfirst, hrest⟩ := not_or.1 (mt List.mem_cons.2 hnot)
            rw [Slots.put, if_neg (Ne.symm hfirst), ih hrest]
            rfl
        unfold define
        rw [hnew o.slots (h k (Nat.le_refl k))]
      rw [← record_define, ← ih fun i hi => ?_]
      · rw [hput]
        simp
      · rw [hput]
        show indexName i ∉ Slots.names (o.slots ++ [_])
        rw [Slots.names, List.map_append, List.mem_append, not_or]
        refine ⟨h i (by omega), fun hi' => ?_⟩
        have hsame := indexName_injective (List.mem_singleton.1 hi')
        omega

/-- A new array is made in the steps of a new record. -/
lemma record_arrayOf (proto : Option Nat) (partition : Label) (elements : List Value) :
    (Heap.arrayOf proto partition elements).record = Record.newArray proto elements := by
  have hfilled := record_elements (k := 0)
    (o := (blank "Array" proto partition).define "length"
      { Property.hiddenData (Raw.ofNat 0) with permanent := true })
    elements fun i _ hi => indexName_ne_length i (List.mem_singleton.1 hi)
  rw [record_define] at hfilled
  unfold Record.newArray
  dsimp only
  rw [show Record.blank "Array" proto none = (blank "Array" proto partition).record from rfl,
    ← hfilled, ← record_recordLength]
  rfl

end Object

/-! ## Heaps as records -/

namespace Heap

variable {h : Heap}

/-- All objects as records. -/
def records (h : Heap) : Records := h.map Object.record

lemma get_records (h : Heap) (id : Nat) : h.records.get id = (h.get id).record := by
  unfold Records.get Heap.get records
  rw [Array.getD_eq_getD_getElem?, Array.getD_eq_getD_getElem?, Array.getElem?_map]
  cases h[id]? <;> rfl

lemma sound_records_iff : h.records.Sound ↔ ∀ id, (h.get id).keys.Nodup :=
  forall_congr' fun id => by rw [get_records, Object.sound_record_iff]

lemma find?_records (h : Heap) (id : Nat) (name : String) :
    h.records.find? id name = h.find? id name := by
  have hwithin : ∀ fuel id, h.records.findWithin name fuel id = h.findWithin name fuel id := by
    intro fuel
    induction fuel with
    | zero => exact fun _ => rfl
    | succ fuel ih =>
      intro id
      unfold Records.findWithin findWithin
      simp only [get_records, Object.own?_record, ih]
      rfl
  exact hwithin (id + 1) id

/-- A change of an object that is the one of its record. -/
lemma records_update {id : Nat} {f : Object → Object} {g : Record → Record}
    (hf : (f (h.get id)).record = g (h.get id).record) :
    (h.update id f).records = h.records.modify id g := by
  refine Array.ext_getElem? fun j => ?_
  unfold records update
  rw [Array.getElem?_map, Array.getElem?_modify, Array.getElem?_modify, Array.getElem?_map]
  split_ifs with hj
  · subst hj
    cases hget : h[id]? with
    | none => rfl
    | some o =>
      have ho : h.get id = o := by rw [Heap.get, Array.getD_eq_getD_getElem?, hget]; rfl
      rw [ho] at hf
      exact congrArg some hf
  · rfl

lemma records_push (h : Heap) (o : Object) :
    records (h.push o) = h.records.push o.record :=
  Array.map_push ..

/-- The setter that an assignment calls. -/
def setter? (h : Heap) (id : Nat) (name : String) : Option Ref :=
  (h.find? id name).bind fun found =>
    if found.2.isAccessor then found.2.setter.callable? else none

/-- The length that a value stands for, if it stands for one. -/
def lengthOf? (h : Heap) (v : Value) : Option Nat :=
  let length := (Decimal.toWord (h.number v.raw)).toNat
  if Decimal.ofNat length != h.number v.raw then none else some length

end Heap

/-! ## Changes of heaps -/

/-- A direct change of an object. -/
inductive Edit where
  | define (name : String) (p : Property)
  | set (name : String) (v : Value)
  | setHidden (name : String) (v : Value)
  | delete (name : String)

/-- What a direct change makes of an object. -/
def Edit.apply : Edit → Object → Object
  | .define name p, o => o.define name p
  | .set name v, o => o.set name v
  | .setHidden name v, o => o.setHidden name v
  | .delete name, o => (o.delete name).2

/-- The same change of a record. -/
def Edit.change : Edit → Record.Change
  | .define name p => .define name p
  | .set name v => .set name v
  | .setHidden name v => .setHidden name v
  | .delete name => .delete name

lemma Edit.record_apply {o : Object} (h : o.keys.Nodup) (e : Edit) :
    (e.apply o).record = e.change.apply o.record := by
  cases e with
  | define name p => exact Object.record_define o name p
  | set name v => exact Object.record_set o name v
  | setHidden name v => exact Object.record_define o name _
  | delete name => exact (congrArg Prod.snd (Object.record_delete h name)).symm

/-- Actions that change an object without running other functions, or make one, with the operations
on records that they come to. -/
inductive SingleEdit (s : State) : {α : Type} → Action α → Records.Operation → Prop
  | direct (id : Nat) (e : Edit) : SingleEdit s (change id e.apply) (.change id e.change)
  | cut (o : Ref) (v : Value) :
      SingleEdit s (setLength o v) (.cut o.id (s.store.heap.lengthOf? v) v.label)
  | assign (o : Ref) (name : String) (v : Value) : s.store.heap.setter? o.id name = none →
      SingleEdit s (putProperty o name v) (.put o.id name v (s.store.heap.lengthOf? v))
  | create (face : Face) (o : Object) : o.slots = [] →
      SingleEdit s (allocate face o) (.create o.cls o.proto o.text?)

/-- Changes of any objects one after the other, the operations on records that they come to, and the
heaps that they lead to. Each of them may run on a machine of its own, as setters do. -/
inductive Edits : State → List Records.Operation → List Heap → State → Prop
  /-- Something else happens. -/
  | aside {s t : State} : t.store.heap = s.store.heap → Edits s [] [] t
  | append {s t u : State} {ops more : List Records.Operation} {hs ks : List Heap} :
      Edits s ops hs t → Edits t more ks u → Edits s (ops ++ more) (hs ++ ks) u
  | single (serve : Service) (fuel : Nat) {s : State} {α : Type} {p : Action α}
      {op : Records.Operation} : SingleEdit s p op →
      Edits s [op] [(p.run serve fuel s).state.store.heap] (p.run serve fuel s).state
  /-- An assignment calls a setter, which makes changes in turn. -/
  | setter (serve : Service) (fuel : Nat) {s : State} {o f : Ref} {name : String} {v : Value}
      {ops : List Records.Operation} {hs : List Heap} :
      s.store.heap.setter? o.id name = some f →
      Edits s ops hs (serve (.call f (Raw.object o) [v]) s).state →
        Edits s ops hs ((putProperty o name v).run serve fuel s).state

section

variable {serve : Service} {fuel : Nat} {s t : State} {ops : List Records.Operation}
  {hs : List Heap}

/-- What cutting an array makes of the records. -/
lemma records_setLength (hsound : s.store.heap.records.Sound) (o : Ref) (v : Value) :
    ((setLength o v).run serve fuel s).state.store.heap.records =
      s.store.heap.records.cut o.id (s.store.heap.lengthOf? v) v.label := by
  unfold setLength Heap.lengthOf?
  simp only [run_bind, run_look]
  split_ifs
  · rfl
  · exact Heap.records_update (f := (Heap.resize · _ _)) (g := (·.resize _ _))
      (Object.record_resize (Heap.sound_records_iff.1 hsound o.id) _ _)

/-- What an assignment that calls no setter makes of the records. -/
lemma records_putProperty (serve : Service) (fuel : Nat) (hsound : s.store.heap.records.Sound)
    {o : Ref} {name : String} (v : Value) (h : s.store.heap.setter? o.id name = none) :
    ((putProperty o name v).run serve fuel s).state.store.heap.records =
      s.store.heap.records.put o.id name v (s.store.heap.lengthOf? v) := by
  have hown : ((putOwn o name v).run serve fuel s).state.store.heap.records =
      s.store.heap.records.modify o.id (·.extend name v) := by
    rw [state_run_putOwn]
    exact Heap.records_update (f := (Heap.extend · name v)) (g := (·.extend name v))
      (Object.record_extend ..)
  unfold Heap.setter? at h
  unfold putProperty Records.put
  rw [Heap.find?_records, Heap.get_records]
  simp only [run_bind, run_look]
  cases hfind : s.store.heap.find? o.id name with
  | none => exact hown
  | some found =>
    obtain ⟨owner, q⟩ := found
    rw [hfind, Option.bind_some] at h
    dsimp only at h ⊢
    split_ifs at h ⊢ with hacc hro hslot harray
    · rw [h]
      rfl
    · rfl
    · obtain ⟨rfl, hsome⟩ := hslot
      obtain ⟨own, hq⟩ := Option.isSome_iff_exists.1 hsome
      replace hq : Slots.find? name (s.store.heap.get o.id).slots = some own := hq
      simp only [run_bind, run_object, hq, beq_self_eq_true]
      rw [if_pos (show (s.store.heap.get o.id).cls = "Array" ∧ _ from harray)]
      exact records_setLength hsound o v
    · obtain ⟨rfl, hsome⟩ := hslot
      obtain ⟨own, hq⟩ := Option.isSome_iff_exists.1 hsome
      replace hq : Slots.find? name (s.store.heap.get o.id).slots = some own := hq
      simp only [run_bind, run_object, hq, beq_self_eq_true]
      rw [if_neg (show ¬((s.store.heap.get o.id).cls = "Array" ∧ _) from harray)]
      refine Heap.records_update (f := (·.define name { own with value := v }))
        (g := (·.assign name v)) ((Object.record_define_of_find? hq _).trans ?_)
      unfold Record.assign
      rw [show (s.store.heap.get o.id).record.table name = some own from hq]
    · simp only [run_bind, run_object]
      split
      · rename_i own howner hq
        exact absurd ⟨eq_of_beq howner, Option.isSome_iff_exists.2 ⟨own, hq⟩⟩ hslot
      · exact hown

lemma state_putProperty_setter {o f : Ref} {name : String} (v : Value)
    (h : s.store.heap.setter? o.id name = some f) :
    ((putProperty o name v).run serve fuel s).state =
      (serve (.call f (Raw.object o) [v]) s).state := by
  obtain ⟨⟨owner, q⟩, hfind, hsetter⟩ := Option.bind_eq_some_iff.1 h
  dsimp only at hsetter
  split_ifs at hsetter with hacc
  rw [run_putProperty_accessor v hfind hacc, hsetter]
  dsimp only
  rw [run_bind, run_call]
  cases serve (.call f (Raw.object o) [v]) s <;> rfl

/-- One action makes of the heap what its operation makes of the records. -/
lemma SingleEdit.records {α : Type} {p : Action α} {op : Records.Operation} (h : SingleEdit s p op)
    (hsound : s.store.heap.records.Sound) :
    (p.run serve fuel s).state.store.heap.records = op.apply s.store.heap.records := by
  cases h with
  | direct id e =>
    exact Heap.records_update (e.record_apply (Heap.sound_records_iff.1 hsound id))
  | cut o v => exact records_setLength hsound o v
  | assign o name v hsetter => exact records_putProperty _ _ hsound v hsetter
  | create face o ho =>
    refine (Heap.records_push ..).trans (congrArg _ ?_)
    unfold Object.record Object.keys
    rw [ho]
    rfl

/-- The heaps are those that the operations make of the records, by induction on the changes. -/
lemma Edits.records (h : Edits s ops hs t) (hsound : s.store.heap.records.Sound) :
    t.store.heap = hs.getLastD s.store.heap ∧
      hs.map Heap.records = s.store.heap.records.history ops := by
  induction h with
  | aside hheap => exact ⟨hheap, rfl⟩
  | @append s t u ops more hs ks _ _ ih ih' =>
    obtain ⟨hlast, hrecords⟩ := ih hsound
    have hmiddle : t.store.heap.records =
        (s.store.heap.records.history ops).getLastD s.store.heap.records := by
      rw [hlast, ← hrecords, List.getLastD_map]
    obtain ⟨hlast', hrecords'⟩ := ih' (hmiddle ▸ hsound.getLastD ops)
    refine ⟨?_, ?_⟩
    · rw [hlast', hlast, getLastD_append]
    · rw [List.map_append, hrecords, hrecords', Records.history_append, hmiddle]
  | single serve fuel h => exact ⟨rfl, congrArg (fun R => [R]) (h.records hsound)⟩
  | setter serve fuel hsetter _ ih =>
    rw [state_putProperty_setter _ hsetter]
    exact ih hsound

/-- **The names of an object are in the order of their insertion.** -/
theorem names_in_order_of_insertion (h : Edits s ops hs t)
    (hstart : ∀ id, (s.store.heap.get id).keys.Nodup) :
    t.store.heap = hs.getLastD s.store.heap ∧
      hs.map Heap.records = s.store.heap.records.history ops ∧
      (∀ id, (s.store.heap.records.get id).Course
        ((s.store.heap.records.history ops).map (·.get id))) ∧
      (∀ k ∈ s.store.heap :: hs, ∀ j name,
        (k.get j).record.delete name = ((k.get j).delete name).map id Object.record) ∧
      (∀ proto partition elements,
        (Heap.arrayOf proto partition elements).record = Record.newArray proto elements ∧
          (Record.newArray proto elements).Sound) ∧
      ∀ serve fuel (o : Ref) name v, name ∈ (t.store.heap.get o.id).keys →
        t.store.heap.setter? o.id name = none →
        ¬((t.store.heap.get o.id).cls = "Array" ∧ name = "length") →
        (((putProperty o name v).run serve fuel t).state.store.heap.get o.id).keys =
          (t.store.heap.get o.id).keys := by
  have hsound := Heap.sound_records_iff.2 hstart
  obtain ⟨hlast, hrecords⟩ := h.records hsound
  have hcourse := hsound.course ops
  have hall : ∀ k ∈ s.store.heap :: hs, k.records.Sound := by
    rintro k hk id
    refine (hcourse id).orderly _ ?_ |>.toSound
    rcases List.mem_cons.1 hk with rfl | hk
    · exact List.mem_cons_self
    · rw [← hrecords, List.map_map]
      exact List.mem_cons_of_mem _ (List.mem_map_of_mem (f := (·.get id) ∘ Heap.records) hk)
  refine ⟨hlast, hrecords, hcourse, fun k hk j name => ?_, fun proto partition elements =>
    ⟨Object.record_arrayOf .., Record.sound_newArray ..⟩,
      fun serve fuel o name v hname hsetter hplain => ?_⟩
  · exact Object.record_delete (Heap.sound_records_iff.1 (hall k hk) j) name
  · have hend : t.store.heap.records.Sound := by
      rw [hlast]
      exact hall _ (List.getLastD_mem_cons ..)
    have hput := records_putProperty serve fuel hend v hsetter
    have hnames :
        ((t.store.heap.records.put o.id name v (t.store.heap.lengthOf? v)).get o.id).names =
          (t.store.heap.records.get o.id).names :=
      Records.names_put v _ (by rw [Heap.get_records]; exact Object.mem_keys_iff.1 hname)
        (by rw [Heap.get_records]; exact hplain)
    rwa [← hput, Heap.get_records, Heap.get_records] at hnames

end

/-- An object with an accessor under one name, and its setter. -/
def accessorPair : Heap :=
  #[{ Object.blank "Object" none .none with
      slots := [("x", { Property.noAccessor with setter := .object ⟨1, .native⟩ }),
        ("a", .data (Raw.bool true)), ("b", .constant (Raw.bool true))] },
    { Object.blank "Function" none .none with
      behaviour := .native "set" 1 (some (.host 0)) none }]

/-- A host whose function deletes a name of the first object and assigns to it again. -/
def renewing : Hosts :=
  { Hosts.none with call := fun _ _ args => do
      change 0 (Edit.delete "a").apply
      putProperty ⟨0, .plain⟩ "a" (args.headD Raw.undefined)
      return .undefined }

/-- An assignment to a name runs a setter that moves another name to the end. -/
theorem renewed_name_is_last : ∃ ops hs t,
    Edits ((Session.fresh .standard).withHeap accessorPair) ops hs t ∧
      (∀ id, (accessorPair.get id).keys.Nodup) ∧
      (accessorPair.records.get 0).Course ((accessorPair.records.history ops).map (·.get 0)) ∧
      (accessorPair.get 0).keys = ["x", "a", "b"] ∧
      (t.store.heap.get 0).keys = ["x", "b", "a"] := by
  have hedits : Edits ((Session.fresh .standard).withHeap accessorPair) _ _
      ((putProperty ⟨0, .plain⟩ "x" Raw.null).run (machine renewing 5 5) 5
        ((Session.fresh .standard).withHeap accessorPair)).state :=
    .setter _ _ (f := ⟨1, .native⟩) rfl (.append
      (.single (machine renewing 5 4) 5 (.direct 0 (.delete "a")))
      (.append (.single (machine renewing 5 4) 5 (.assign ⟨0, .plain⟩ "a" Raw.null rfl))
        (.aside rfl)))
  have hstart : ∀ id, (accessorPair.get id).keys.Nodup := by
    rintro (_ | _ | id)
    · decide
    · exact List.nodup_nil
    · exact List.nodup_nil
  exact ⟨_, _, _, hedits, hstart, (names_in_order_of_insertion hedits hstart).2.2.1 0, rfl, rfl⟩

end Clearance
