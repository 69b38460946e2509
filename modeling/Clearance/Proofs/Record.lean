/-
# Objects as tables with lists of names

An object can be kept as a table of its properties next to a list of their names. A change then has
to work on both: a new property goes into the table and its name behind the other names, a deleted
one is taken out of the table and its name out of the list, and the cutting of an array walks a copy
of the names and deletes from the object meanwhile. That the list has exactly the names of the
table, each once, is an invariant that every change has to keep (`Record.Sound`).

The names are in the order of their most recent insertion. A name that is there keeps its place when
something else is installed under it or assigned to it, one that is deleted and comes again is the
last one (`Record.Orderly`). One change inserts at most one name into an object, behind those that
stay, which keep their order (`Record.Advances`). So the names that have been inserted form a log,
and the names of the object are those of the log that are still there, each at its last occurrence
(`Record.Course`). No change removes a property that cannot be deleted.
-/
import Clearance.Heap
import Mathlib.Data.List.Dedup
import Mathlib.Data.List.Chain
import Mathlib.Logic.Function.Basic

namespace Clearance

/-! ## Lists -/

section Lists

variable {α : Type} [DecidableEq α]

/-- Of two lists, the last occurrences are in the second one, if it has any. -/
lemma dedup_append_eq (xs ys : List α) :
    (xs ++ ys).dedup = xs.dedup.filter (· ∉ ys) ++ ys.dedup := by
  induction xs with
  | nil => simp
  | cons x xs ih =>
    by_cases hxs : x ∈ xs
    · rw [List.cons_append, List.dedup_cons_of_mem (List.mem_append_left _ hxs), ih,
        List.dedup_cons_of_mem hxs]
    by_cases hys : x ∈ ys
    · rw [List.cons_append, List.dedup_cons_of_mem (List.mem_append_right _ hys), ih,
        List.dedup_cons_of_notMem hxs, List.filter_cons_of_neg (by simpa using hys)]
    · have hnot : x ∉ xs ++ ys := by simp [hxs, hys]
      rw [List.cons_append, List.dedup_cons_of_notMem hnot, ih, List.dedup_cons_of_notMem hxs,
        List.filter_cons_of_pos (by simpa using hys), List.cons_append]

/-- If the elements of a list are the last occurrences in a log, then so are those of the next list,
where what stays keeps its order and what is new is logged. -/
lemma eq_filter_dedup {log before after : List α} (hlog : before = log.dedup.filter (· ∈ before))
    (hafter : after = before.filter (· ∈ after) ++ after.filter (· ∉ before))
    (hnew : (after.filter (· ∉ before)).Nodup) :
    after = (log ++ after.filter (· ∉ before)).dedup.filter (· ∈ after) := by
  have hstay : before.filter (· ∈ after) =
      (log.dedup.filter (· ∉ after.filter (· ∉ before))).filter (· ∈ after) := by
    conv_lhs => rw [hlog]
    rw [List.filter_filter, List.filter_filter]
    refine List.filter_congr fun x _ => ?_
    by_cases hx : x ∈ after <;> simp [hx]
  have hcome : after.filter (· ∉ before) = (after.filter (· ∉ before)).filter (· ∈ after) := by
    rw [List.filter_filter]
    exact List.filter_congr fun x hx => by simp [hx]
  calc
    after = before.filter (· ∈ after) ++ after.filter (· ∉ before) := hafter
    _ = _ := congrArg₂ (· ++ ·) hstay hcome
    _ = _ := by rw [dedup_append_eq, hnew.dedup, List.filter_append]

omit [DecidableEq α] in
/-- A chain can be taken apart anywhere. -/
lemma isChain_cons_append_iff {R : α → α → Prop} {a : α} {xs ys : List α} :
    (a :: (xs ++ ys)).IsChain R ↔ (a :: xs).IsChain R ∧ (xs.getLastD a :: ys).IsChain R := by
  induction xs generalizing a with
  | nil => simp
  | cons x xs ih =>
    rw [List.cons_append, List.isChain_cons_cons, List.isChain_cons_cons, ih, List.getLastD_cons,
      and_assoc]

omit [DecidableEq α] in
lemma getLastD_append (xs ys : List α) (a : α) :
    (xs ++ ys).getLastD a = ys.getLastD (xs.getLastD a) := by
  induction xs generalizing a with
  | nil => rfl
  | cons x xs ih => rw [List.cons_append, List.getLastD_cons, List.getLastD_cons, ih]

end Lists

/-! ## Records -/

/-- An object as a table of properties and a list of names. -/
@[ext]
structure Record where
  cls : String
  proto : Option Nat
  /-- The wrapped text of a string wrapper. -/
  text? : Option String
  table : String → Option Property
  names : List String

namespace Record

/-- An object without properties. -/
def blank (cls : String) (proto : Option Nat) (text? : Option String) : Record :=
  ⟨cls, proto, text?, fun _ => none, []⟩

instance : Inhabited Record := ⟨blank "Object" none none⟩

/-- The properties that a wrapped text has besides those in the table. -/
def wrapped? (text? : Option String) (name : String) : Option Property :=
  match text? with
  | none => none
  | some s =>
    if name = "length" then some (.constant (Raw.ofNat s.length))
    else match arrayIndex? name with
      | some i =>
        (s.toList[i]?).map fun c =>
          { Property.data (Raw.string c.toString) with readOnly := true, permanent := true }
      | none => none

/-- An own property. -/
def own? (r : Record) (name : String) : Option Property :=
  (r.table name).or (wrapped? r.text? name)

/-- The object has a property of its own. -/
def hasOwn (r : Record) (name : String) : Bool := (r.own? name).isSome

/-- Puts a property into the table. -/
def store (r : Record) (name : String) (p : Property) : Record :=
  { r with table := Function.update r.table name (some p) }

/-- Installs a property. A name that is not in the table is appended to the names. -/
def define (r : Record) (name : String) (p : Property) : Record :=
  if (r.table name).isSome then r.store name p
  else { r.store name p with names := r.names ++ [name] }

/-- Gives a property in the table another value. -/
def assign (r : Record) (name : String) (v : Value) : Record :=
  match r.table name with
  | some p => r.store name { p with value := v }
  | none => r

/-- Assigns an ordinary data property, keeping the attributes of an existing one. -/
def set (r : Record) (name : String) (v : Value) : Record :=
  match r.table name with
  | some p => if p.isAccessor then r.define name (.data v) else r.store name { p with value := v }
  | none => r.define name (.data v)

/-- Installs a data property that enumerations skip. -/
def setHidden (r : Record) (name : String) (v : Value) : Record := r.define name (.hiddenData v)

/-- Takes a property out of the table, and the first occurrence of its name out of the names. -/
def erase (r : Record) (name : String) : Record :=
  { r with table := Function.update r.table name none, names := r.names.erase name }

/-- Deletes an own property. The result tells whether the name is gone. -/
def delete (r : Record) (name : String) : Bool × Record :=
  match r.table name with
  | none => (!r.hasOwn name, r)
  | some p => if p.permanent then (false, r) else (true, r.erase name)

/-- Deletes a name if it is an index from `length` on. -/
def deleteBeyond (length : Nat) (r : Record) (name : String) : Record :=
  match arrayIndex? name with
  | some i => if i ≥ length then (r.delete name).2 else r
  | none => r

/-- Cuts an array: of a copy of its names, those of indices from `length` on are deleted. -/
def cut (r : Record) (length : Nat) : Record := r.names.foldl (deleteBeyond length) r

/-- Cuts or stretches an array to a length, which is recorded with a label. -/
def resize (r : Record) (length : Nat) (k : Label) : Record :=
  (r.cut length).assign "length" ((Raw.ofNat length).labeled k)

/-- The length that an array records. -/
def arrayLength (r : Record) : Float :=
  match r.table "length" with
  | some p => match p.value.raw with
    | .number n => n
    | _ => 0.0
  | none => 0.0

/-- Installs a data property. An array grows to hold a new index. -/
def extend (r : Record) (name : String) (v : Value) : Record :=
  let r := r.define name (.data v)
  if r.cls = "Array" then
    match arrayIndex? name with
    | some i =>
      if Decimal.ofNat i >= r.arrayLength then r.assign "length" (Raw.ofNat (i + 1)) else r
    | none => r
  else r

/-- A new array of elements: first a length, then the elements that are there, one by one, and at
last the value of the length. -/
def newArray (proto : Option Nat) (elements : List Value) : Record :=
  let length : Property := { Property.hiddenData (Raw.ofNat 0) with permanent := true }
  let filled := elements.zipIdx.foldl
    (fun r (v, i) => if v.raw.isAbsent && !v.isLabeled then r else r.define (indexName i) (.data v))
    ((blank "Array" proto none).define "length" length)
  filled.assign "length" (Raw.ofNat elements.length)

/-! ## The invariant -/

/-- The names are those of the table, each once. -/
structure Sound (r : Record) : Prop where
  once : r.names.Nodup
  exact : ∀ name, name ∈ r.names ↔ (r.table name).isSome = true

variable {r r' r'' : Record} {name : String}

lemma sound_blank (cls : String) (proto : Option Nat) (text? : Option String) :
    (blank cls proto text?).Sound :=
  ⟨List.nodup_nil, fun _ => by simp [blank]⟩

lemma table_store (r : Record) (name n : String) (p : Property) :
    (r.store name p).table n = if n = name then some p else r.table n :=
  Function.update_apply ..

lemma table_define (r : Record) (name n : String) (p : Property) :
    (r.define name p).table n = if n = name then some p else r.table n := by
  rw [← table_store]
  unfold define
  split_ifs <;> rfl

lemma table_erase (r : Record) (name n : String) :
    (r.erase name).table n = if n = name then none else r.table n :=
  Function.update_apply ..

lemma table_assign_ne {n : String} (h : n ≠ name) (v : Value) :
    (r.assign name v).table n = r.table n := by
  unfold assign
  split
  · rw [table_store, if_neg h]
  · rfl

lemma names_assign (r : Record) (name : String) (v : Value) :
    (r.assign name v).names = r.names := by
  unfold assign
  split <;> rfl

lemma delete_of_none (h : r.table name = none) : r.delete name = (!r.hasOwn name, r) := by
  unfold delete
  rw [h]

namespace Sound

lemma names_define (h : r.Sound) (name : String) (p : Property) :
    (r.define name p).names = if name ∈ r.names then r.names else r.names ++ [name] := by
  unfold define
  by_cases hname : name ∈ r.names
  · rw [if_pos ((h.exact name).1 hname), if_pos hname]
    rfl
  · rw [if_neg (mt (h.exact name).2 hname), if_neg hname]

lemma names_set (h : r.Sound) (name : String) (v : Value) :
    (r.set name v).names = if name ∈ r.names then r.names else r.names ++ [name] := by
  unfold set
  split
  · rename_i p hp
    split_ifs with hacc hname
    · rw [h.names_define, if_pos hname]
    · rw [h.names_define, if_neg hname]
    · rfl
    · exact absurd ((h.exact name).2 (by simp [hp])) ‹_›
  · exact h.names_define ..

lemma store (h : r.Sound) (p : Property) (hname : (r.table name).isSome = true) :
    (r.store name p).Sound := by
  refine ⟨h.once, fun n => ?_⟩
  rw [table_store]
  split_ifs with hn
  · rw [hn]
    exact iff_of_true ((h.exact name).2 hname) rfl
  · exact h.exact n

lemma define (h : r.Sound) (name : String) (p : Property) : (r.define name p).Sound := by
  have hnames := h.names_define name p
  by_cases hname : name ∈ r.names
  · unfold Record.define
    rw [if_pos ((h.exact name).1 hname)]
    exact h.store p ((h.exact name).1 hname)
  · rw [if_neg hname] at hnames
    refine ⟨?_, fun n => ?_⟩
    · rw [hnames]
      exact h.once.append (List.nodup_singleton name) (by simpa using hname)
    · rw [hnames, table_define, List.mem_append, List.mem_singleton, h.exact]
      split_ifs with hn
      · simp [hn]
      · simp [hn]

lemma assign (h : r.Sound) (name : String) (v : Value) : (r.assign name v).Sound := by
  unfold Record.assign
  split
  · rename_i p hp
    exact h.store _ (by rw [hp]; rfl)
  · exact h

lemma set (h : r.Sound) (name : String) (v : Value) : (r.set name v).Sound := by
  unfold Record.set
  split
  · rename_i p hp
    split_ifs
    · exact h.define ..
    · exact h.store _ (by rw [hp]; rfl)
  · exact h.define ..

lemma erase (h : r.Sound) (name : String) : (r.erase name).Sound := by
  refine ⟨h.once.erase name, fun n => ?_⟩
  show n ∈ r.names.erase name ↔ _
  rw [h.once.mem_erase_iff, table_erase, h.exact]
  by_cases hn : n = name <;> simp [hn]

lemma delete (h : r.Sound) (name : String) : (r.delete name).2.Sound := by
  unfold Record.delete
  split
  · exact h
  · split_ifs
    · exact h
    · exact h.erase name

lemma deleteBeyond (h : r.Sound) (length : Nat) (name : String) :
    (r.deleteBeyond length name).Sound := by
  unfold Record.deleteBeyond
  split
  · split_ifs
    · exact h.delete name
    · exact h
  · exact h

/-- The names that are walked are those of an earlier moment: they do not matter. -/
lemma cut (h : r.Sound) (length : Nat) : (r.cut length).Sound :=
  List.foldlRecOn (motive := Sound) r.names _ h fun _ h name _ => h.deleteBeyond length name

lemma resize (h : r.Sound) (length : Nat) (k : Label) : (r.resize length k).Sound :=
  (h.cut length).assign ..

lemma extend (h : r.Sound) (name : String) (v : Value) : (r.extend name v).Sound := by
  have hdefine := h.define name (.data v)
  unfold Record.extend
  dsimp only
  split_ifs
  · split
    · split_ifs
      · exact hdefine.assign ..
      · exact hdefine
    · exact hdefine
  · exact hdefine

end Sound

lemma sound_newArray (proto : Option Nat) (elements : List Value) :
    (newArray proto elements).Sound := by
  refine Sound.assign (List.foldlRecOn (motive := Sound) _ _ ((sound_blank ..).define ..)
    fun r h v _ => ?_) ..
  dsimp only
  split_ifs
  · exact h
  · exact h.define ..

/-! ## Permanent properties -/

/-- There is a property of the name that cannot be deleted. -/
def Fixed (r : Record) (name : String) : Prop := ∃ q ∈ r.table name, q.permanent = true

instance (r : Record) (name : String) : Decidable (r.Fixed name) :=
  inferInstanceAs (Decidable (∃ q ∈ _, _))

lemma Sound.mem_names_of_fixed (h : r.Sound) (hname : r.Fixed name) : name ∈ r.names := by
  obtain ⟨q, hq, -⟩ := hname
  rw [h.exact, Option.mem_def.1 hq]
  rfl

lemma delete_of_fixed (h : r.Fixed name) : r.delete name = (false, r) := by
  obtain ⟨q, hq, hpermanent⟩ := h
  unfold delete
  rw [Option.mem_def.1 hq]
  exact if_pos hpermanent

lemma delete_of_loose {q : Property} (hq : r.table name = some q) (h : ¬r.Fixed name) :
    r.delete name = (true, r.erase name) := by
  unfold delete
  rw [hq]
  exact if_neg fun hpermanent => h ⟨q, hq, hpermanent⟩

/-- What only deletes leaves some of the names, in their order, and all properties that cannot be
deleted. -/
structure Thins (r r' : Record) : Prop where
  filtered : ∃ keep : String → Bool, r'.names = r.names.filter keep
  kept : ∀ n q, r.table n = some q → q.permanent = true → r'.table n = some q

namespace Thins

lemma refl (r : Record) : r.Thins r := ⟨⟨fun _ => true, by simp⟩, fun _ _ hq _ => hq⟩

lemma trans (h : r.Thins r') (h' : r'.Thins r'') : r.Thins r'' := by
  obtain ⟨⟨keep, hkeep⟩, hkept⟩ := h
  obtain ⟨⟨keep', hkeep'⟩, hkept'⟩ := h'
  refine ⟨⟨fun n => keep' n && keep n, ?_⟩, fun n q hq hpermanent => ?_⟩
  · rw [hkeep', hkeep, List.filter_filter]
  · exact hkept' n q (hkept n q hq hpermanent) hpermanent

lemma delete (h : r.Sound) (name : String) : r.Thins (r.delete name).2 := by
  by_cases hfixed : r.Fixed name
  · rw [delete_of_fixed hfixed]
    exact .refl r
  · cases hq : r.table name with
    | none =>
      rw [delete_of_none hq]
      exact .refl r
    | some q =>
      rw [delete_of_loose hq hfixed]
      refine ⟨⟨(· != name), h.once.erase_eq_filter name⟩, fun n q' hq' hpermanent => ?_⟩
      have hn : n ≠ name := by
        rintro rfl
        exact hfixed ⟨q', hq', hpermanent⟩
      exact (table_erase ..).trans ((if_neg hn).trans hq')

lemma deleteBeyond (h : r.Sound) (length : Nat) (name : String) :
    r.Thins (r.deleteBeyond length name) := by
  unfold Record.deleteBeyond
  split
  · split_ifs
    · exact delete h name
    · exact .refl r
  · exact .refl r

lemma cut (h : r.Sound) (length : Nat) : r.Thins (r.cut length) :=
  (List.foldlRecOn (motive := fun r' => r.Thins r' ∧ r'.Sound) r.names _ ⟨.refl r, h⟩
    fun _ h name _ => ⟨h.1.trans (deleteBeyond h.2 length name), h.2.deleteBeyond length name⟩).1

end Thins

/-! ## The order of the names -/

/-- An object that lists the names of its table once, in an order that changes respect. -/
structure Orderly (r : Record) : Prop extends Sound r where
  /-- A name that is there keeps its place, whatever is installed under it. A new one is the
  last. -/
  defined : ∀ name p, (r.define name p).names = if name ∈ r.names then r.names
    else r.names ++ [name]
  assigned : ∀ name v, (r.set name v).names = if name ∈ r.names then r.names else r.names ++ [name]
  reassigned : ∀ name v, (r.assign name v).names = r.names
  deleted : ∀ name, (r.delete name).2.names = if r.Fixed name then r.names else r.names.erase name
  readded : ∀ name p, name ∈ r.names → ¬r.Fixed name →
    ((r.delete name).2.define name p).names = r.names.erase name ++ [name]
  /-- What cannot be deleted is not deleted, and it is not cut off. -/
  undeleted : ∀ name n q, r.table n = some q → q.permanent = true →
    (r.delete name).2.table n = some q
  uncut : ∀ length k n q, r.table n = some q → q.permanent = true →
    (r.resize length k).table n =
      some (if n = "length" then { q with value := (Raw.ofNat length).labeled k } else q)
  /-- Unless the object wraps a text, the answer to a deletion tells whether the name is gone. -/
  answer : r.text? = none → ∀ name, (r.delete name).1 = false ↔ (r.delete name).2.hasOwn name = true

lemma Sound.names_delete_of_loose (h : r.Sound) (hname : ¬r.Fixed name) :
    (r.delete name).2.names = r.names.erase name := by
  cases hq : r.table name with
  | none =>
    have hnot : name ∉ r.names := by
      rw [h.exact, hq]
      simp
    rw [delete_of_none hq, List.erase_of_not_mem hnot]
  | some q =>
    rw [delete_of_loose hq hname]
    rfl

lemma Sound.not_mem_names_delete (h : r.Sound) (hname : ¬r.Fixed name) :
    name ∉ (r.delete name).2.names := by
  rw [h.names_delete_of_loose hname]
  exact h.once.not_mem_erase

lemma Sound.table_resize_of_permanent (h : r.Sound) {n : String} {q : Property}
    (hq : r.table n = some q) (hpermanent : q.permanent = true) (length : Nat) (k : Label) :
    (r.resize length k).table n =
      some (if n = "length" then { q with value := (Raw.ofNat length).labeled k } else q) := by
  have hkept := (Thins.cut h length).kept n q hq hpermanent
  unfold Record.resize
  split_ifs with hn
  · subst hn
    unfold Record.assign
    rw [hkept]
    exact (table_store ..).trans (if_pos rfl)
  · rw [table_assign_ne hn, hkept]

lemma hasOwn_iff (h : r.text? = none) (name : String) :
    r.hasOwn name = true ↔ (r.table name).isSome = true := by
  rw [hasOwn, own?, h, wrapped?, Option.or_none]

lemma delete_answer (htext : r.text? = none) (name : String) :
    (r.delete name).1 = false ↔ (r.delete name).2.hasOwn name = true := by
  by_cases hfixed : r.Fixed name
  · rw [delete_of_fixed hfixed, hasOwn_iff htext]
    obtain ⟨q, hq, -⟩ := hfixed
    simp [Option.mem_def.1 hq]
  · cases hq : r.table name with
    | none =>
      rw [delete_of_none hq]
      simp
    | some q =>
      have hgone : ((r.erase name).table name).isSome = false := by simp [table_erase]
      rw [delete_of_loose hq hfixed, hasOwn_iff
        (show (r.erase name).text? = none from htext), hgone]
      simp

/-- An object that lists the names of its table once is orderly. -/
lemma Sound.orderly (h : r.Sound) : r.Orderly where
  toSound := h
  defined := h.names_define
  assigned := h.names_set
  reassigned := names_assign r
  deleted name := by
    split_ifs with hfixed
    · rw [delete_of_fixed hfixed]
    · exact h.names_delete_of_loose hfixed
  readded name p _ hfixed := by
    rw [(h.delete name).names_define, if_neg (h.not_mem_names_delete hfixed),
      h.names_delete_of_loose hfixed]
  undeleted name := (Thins.delete h name).kept
  uncut length k _ _ hq hpermanent := h.table_resize_of_permanent hq hpermanent length k
  answer := delete_answer

/-! ## One moment after the other -/

/-- The names that the second object has and the first one has not. -/
def inserted (r r' : Record) : List String := r'.names.filter fun n => (r.table n).isNone

/-- What one change makes of an object. -/
structure Advances (r r' : Record) : Prop where
  /-- The names stay those of the table. -/
  sound : r'.Sound
  /-- Names that stay keep their order, and a new one comes after them. -/
  order : r'.names = r.names.filter (· ∈ r'.names) ++ r.inserted r'
  single : (r.inserted r').length ≤ 1
  /-- What cannot be deleted is still there. -/
  fixed : ∀ name, r.Fixed name → name ∈ r'.names

lemma Sound.inserted_eq (h : r.Sound) (r' : Record) :
    r.inserted r' = r'.names.filter (· ∉ r.names) := by
  refine List.filter_congr fun n _ => ?_
  rw [Bool.eq_iff_iff, decide_eq_true_iff, h.exact]
  cases r.table n <;> simp

namespace Sound

lemma advances_of_thins (h : r.Sound) (h' : r'.Sound) (hthins : r.Thins r') : r.Advances r' := by
  obtain ⟨⟨keep, hkeep⟩, hkept⟩ := hthins
  have hnone : r.inserted r' = [] := by
    rw [h.inserted_eq, List.filter_eq_nil_iff, hkeep]
    intro n hn
    simp [List.mem_of_mem_filter hn]
  refine ⟨h', ?_, by simp [hnone], fun name hname => ?_⟩
  · rw [hnone, List.append_nil, hkeep]
    exact List.filter_congr fun n hn => by simp [hn]
  · obtain ⟨q, hq, hpermanent⟩ := hname
    rw [h'.exact, hkept name q hq hpermanent]
    rfl

lemma advances_of_names_eq (h : r.Sound) (h' : r'.Sound) (hnames : r'.names = r.names) :
    r.Advances r' := by
  have hnone : r.inserted r' = [] := by
    rw [h.inserted_eq, List.filter_eq_nil_iff, hnames]
    simp
  refine ⟨h', ?_, by simp [hnone], fun name hname => ?_⟩
  · rw [hnone, List.append_nil, hnames, List.filter_eq_self.2 (by simp)]
  · rw [hnames]
    exact h.mem_names_of_fixed hname

lemma advances_refl (h : r.Sound) : r.Advances r := h.advances_of_names_eq h rfl

end Sound

lemma Advances.congr (h : r.Advances r') (h' : r''.Sound) (hnames : r''.names = r'.names) :
    r.Advances r'' := by
  obtain ⟨-, horder, hsingle, hfixed⟩ := h
  have hinserted : r.inserted r'' = r.inserted r' := by rw [inserted, hnames, inserted]
  exact ⟨h', by rwa [hinserted, hnames], by rwa [hinserted],
    fun name hname => hnames ▸ hfixed name hname⟩

namespace Sound

lemma advances_define (h : r.Sound) (name : String) (p : Property) :
    r.Advances (r.define name p) := by
  have hnames := h.names_define name p
  by_cases hname : name ∈ r.names
  · rw [if_pos hname] at hnames
    exact h.advances_of_names_eq (h.define name p) hnames
  · rw [if_neg hname] at hnames
    have hnew : r.inserted (r.define name p) = [name] := by
      rw [h.inserted_eq, hnames, List.filter_append, List.filter_eq_nil_iff.2 (by simp)]
      simp [hname]
    refine ⟨h.define name p, ?_, by simp [hnew], fun n hn => ?_⟩
    · rw [hnew, hnames, List.filter_eq_self.2]
      intro n hn
      simp [hn]
    · rw [hnames]
      exact List.mem_append_left _ (h.mem_names_of_fixed hn)

lemma advances_set (h : r.Sound) (name : String) (v : Value) : r.Advances (r.set name v) :=
  (h.advances_define name (.data v)).congr (h.set name v)
    ((h.names_set ..).trans (h.names_define ..).symm)

lemma advances_assign (h : r.Sound) (name : String) (v : Value) : r.Advances (r.assign name v) :=
  h.advances_of_names_eq (h.assign name v) (names_assign ..)

lemma advances_delete (h : r.Sound) (name : String) : r.Advances (r.delete name).2 :=
  h.advances_of_thins (h.delete name) (.delete h name)

lemma advances_resize (h : r.Sound) (length : Nat) (k : Label) : r.Advances (r.resize length k) :=
  (h.advances_of_thins (h.cut length) (.cut h length)).congr (h.resize length k) (names_assign ..)

/-- An array that grows gets no further name: its length is there, or nothing is recorded. -/
lemma advances_extend (h : r.Sound) (name : String) (v : Value) : r.Advances (r.extend name v) := by
  refine (h.advances_define name (.data v)).congr (h.extend name v) ?_
  unfold Record.extend
  dsimp only
  split_ifs
  · split
    · split_ifs
      · exact names_assign ..
      · rfl
    · rfl
  · rfl

end Sound

/-! ## Changes -/

/-- A change of one object. -/
inductive Change where
  | define (name : String) (p : Property)
  | set (name : String) (v : Value)
  | setHidden (name : String) (v : Value)
  | delete (name : String)
  | assign (name : String) (v : Value)
  | extend (name : String) (v : Value)
  | resize (length : Nat) (k : Label)

/-- What a change makes of an object. -/
def Change.apply : Change → Record → Record
  | .define name p, r => r.define name p
  | .set name v, r => r.set name v
  | .setHidden name v, r => r.setHidden name v
  | .delete name, r => (r.delete name).2
  | .assign name v, r => r.assign name v
  | .extend name v, r => r.extend name v
  | .resize length k, r => r.resize length k

lemma Sound.advances (h : r.Sound) (c : Change) : r.Advances (c.apply r) := by
  cases c with
  | define name p => exact h.advances_define name p
  | set name v => exact h.advances_set name v
  | setHidden name v => exact h.advances_define name _
  | delete name => exact h.advances_delete name
  | assign name v => exact h.advances_assign name v
  | extend name v => exact h.advances_extend name v
  | resize length k => exact h.advances_resize length k

/-! ## Courses -/

/-- The names that are inserted into an object, in order, when it is changed again and again. -/
def insertions (r : Record) : List Record → List String
  | [] => []
  | r' :: rs => r.inserted r' ++ r'.insertions rs

/-- What becomes of an object that is changed again and again. -/
structure Course (r : Record) (rs : List Record) : Prop where
  orderly : ∀ r' ∈ r :: rs, r'.Orderly
  advances : (r :: rs).IsChain Advances
  /-- At every moment, the names are those that have been inserted and are still there, in the order
  of their last insertion. -/
  ordered : ∀ past, past <+: rs → (past.getLastD r).names =
    (r.names ++ r.insertions past).dedup.filter
      fun name => ((past.getLastD r).table name).isSome

lemma insertions_append (r : Record) (rs rs' : List Record) :
    r.insertions (rs ++ rs') = r.insertions rs ++ (rs.getLastD r).insertions rs' := by
  induction rs generalizing r with
  | nil => rfl
  | cons r' rs ih =>
    rw [List.cons_append, insertions, insertions, ih, List.append_assoc, List.getLastD_cons]

/-- The order of the names, by induction on the changes. -/
lemma Sound.names_eq_of_isChain {rs : List Record} (hr : r.Sound)
    (h : (r :: rs).IsChain Advances) : (rs.getLastD r).Sound ∧ (rs.getLastD r).names =
      (r.names ++ r.insertions rs).dedup.filter (· ∈ (rs.getLastD r).names) := by
  induction rs using List.reverseRecOn with
  | nil =>
    refine ⟨hr, ?_⟩
    show r.names = (r.names ++ []).dedup.filter (· ∈ r.names)
    rw [List.append_nil, hr.once.dedup, List.filter_eq_self.2 (by simp)]
  | append_singleton rs r' ih =>
    obtain ⟨hrs, hlast⟩ := isChain_cons_append_iff.1 h
    obtain ⟨hsound, horder⟩ := ih hrs
    have hadvances : (rs.getLastD r).Advances r' := (List.isChain_cons_cons.1 hlast).1
    have hnext := hadvances.order
    have hnew : ((rs.getLastD r).inserted r').Nodup := hadvances.sound.once.filter _
    rw [hsound.inserted_eq] at hnext hnew
    rw [List.getLastD_concat, insertions_append, ← List.append_assoc]
    refine ⟨hadvances.sound, ?_⟩
    show _ = (_ ++ ((rs.getLastD r).inserted r' ++ [])).dedup.filter _
    rw [List.append_nil, hsound.inserted_eq]
    exact eq_filter_dedup horder hnext hnew

/-- The course of an object whose changes follow each other. -/
lemma Sound.course {rs : List Record} (hr : r.Sound) (h : (r :: rs).IsChain Advances) :
    r.Course rs := by
  have hpast : ∀ past, past <+: rs → (past.getLastD r).Sound ∧ (past.getLastD r).names =
      (r.names ++ r.insertions past).dedup.filter (· ∈ (past.getLastD r).names) := by
    rintro past ⟨rest, rfl⟩
    exact hr.names_eq_of_isChain (isChain_cons_append_iff.1 h).1
  refine ⟨fun r' hr' => Sound.orderly ?_, h, fun past hpre => ?_⟩
  · rcases List.mem_cons.1 hr' with rfl | hr'
    · exact hr
    · obtain ⟨before, after, rfl⟩ := List.append_of_mem hr'
      have hlast := (hpast (before ++ [r']) ⟨after, by simp⟩).1
      rwa [List.getLastD_concat] at hlast
  · obtain ⟨hsound, horder⟩ := hpast past hpre
    simpa only [hsound.exact, Bool.decide_eq_true] using horder

end Record

/-! ## Tables of objects -/

/-- All objects, by number. -/
abbrev Records := Array Record

namespace Records

/-- The object of a number. -/
def get (R : Records) (id : Nat) : Record := R.getD id default

/-- The first property of a name along the prototypes, and the object that owns it. The fuel
bounds the length of the chain. -/
def findWithin (R : Records) (name : String) : Nat → Nat → Option (Nat × Property)
  | 0, _ => none
  | fuel + 1, id =>
    match (R.get id).own? name with
    | some p => some (id, p)
    | none =>
      match (R.get id).proto with
      | some q => if q < id then findWithin R name fuel q else none
      | none => none

/-- The first property of a name along the prototypes, and the object that owns it. -/
def find? (R : Records) (id : Nat) (name : String) : Option (Nat × Property) :=
  R.findWithin name (id + 1) id

/-- Sets the length of an array. What is no length changes nothing. -/
def cut (R : Records) (id : Nat) (length? : Option Nat) (k : Label) : Records :=
  match length? with
  | some length => R.modify id (·.resize length k)
  | none => R

/-- Assigns a property, unless this calls a setter. The length is the one that the value stands for,
if it stands for one. -/
def put (R : Records) (id : Nat) (name : String) (v : Value) (length? : Option Nat) : Records :=
  match R.find? id name with
  | none => R.modify id (·.extend name v)
  | some (owner, p) =>
    if p.isAccessor then R
    else if p.readOnly then R
    else if owner = id ∧ ((R.get id).table name).isSome then
      if (R.get id).cls = "Array" ∧ name = "length" then R.cut id length? v.label
      else R.modify id (·.assign name v)
    else R.modify id (·.extend name v)

/-- A change of all objects. -/
inductive Operation where
  | change (id : Nat) (c : Record.Change)
  | cut (id : Nat) (length? : Option Nat) (k : Label)
  | put (id : Nat) (name : String) (v : Value) (length? : Option Nat)
  | create (cls : String) (proto : Option Nat) (text? : Option String)

/-- What a change makes of all objects. -/
def Operation.apply : Operation → Records → Records
  | .change id c, R => R.modify id c.apply
  | .cut id length? k, R => R.cut id length? k
  | .put id name v length?, R => R.put id name v length?
  | .create cls proto text?, R => R.push (.blank cls proto text?)

/-- The objects after each of the changes. -/
def history (R : Records) : List Operation → List Records
  | [] => []
  | op :: ops => op.apply R :: history (op.apply R) ops

/-- All objects list the names of their tables once. -/
def Sound (R : Records) : Prop := ∀ id, (R.get id).Sound

variable {R : Records}

lemma get_modify (R : Records) (id j : Nat) (f : Record → Record) :
    get (R.modify id f) j = if j = id ∧ id < R.size then f (R.get id) else R.get j := by
  unfold get
  rw [Array.getD_eq_getD_getElem?, Array.getD_eq_getD_getElem?, Array.getD_eq_getD_getElem?,
    Array.getElem?_modify]
  by_cases hj : id = j
  · subst hj
    by_cases hlt : id < R.size
    · simp [hlt]
    · simp [hlt]
  · simp [hj, Ne.symm hj]

lemma get_push (R : Records) (r : Record) (j : Nat) :
    get (R.push r) j = if j = R.size then r else R.get j := by
  unfold get
  rw [Array.getD_eq_getD_getElem?, Array.getD_eq_getD_getElem?, Array.getElem?_push]
  split_ifs <;> rfl

/-- One object is changed in one of the ways, or none at all. -/
def Modifies (R R' : Records) (id : Nat) : Prop :=
  R' = R ∨ ∃ c : Record.Change, R' = R.modify id c.apply

lemma modifies_cut (R : Records) (id : Nat) (length? : Option Nat) (k : Label) :
    R.Modifies (R.cut id length? k) id := by
  cases length? with
  | some length => exact .inr ⟨.resize length k, rfl⟩
  | none => exact .inl rfl

lemma modifies_put (R : Records) (id : Nat) (name : String) (v : Value) (length? : Option Nat) :
    R.Modifies (R.put id name v length?) id := by
  unfold put
  split
  · exact .inr ⟨.extend name v, rfl⟩
  · split_ifs
    · exact .inl rfl
    · exact .inl rfl
    · exact modifies_cut ..
    · exact .inr ⟨.assign name v, rfl⟩
    · exact .inr ⟨.extend name v, rfl⟩

lemma find?_of_table {id : Nat} {name : String} {p : Property}
    (hp : (R.get id).table name = some p) : R.find? id name = some (id, p) := by
  unfold find? findWithin
  rw [Record.own?, hp]
  rfl

/-- An assignment to a name of the object itself leaves all names in their places, unless it cuts an
array. -/
lemma names_put {id : Nat} {name : String} (v : Value) (length? : Option Nat)
    (hname : ((R.get id).table name).isSome = true)
    (hplain : ¬((R.get id).cls = "Array" ∧ name = "length")) :
    ((R.put id name v length?).get id).names = (R.get id).names := by
  obtain ⟨p, hp⟩ := Option.isSome_iff_exists.1 hname
  unfold put
  rw [find?_of_table hp]
  simp only [hname, hplain, and_self, if_true, if_false]
  split_ifs
  · rfl
  · rfl
  · rw [get_modify]
    split_ifs
    · exact Record.names_assign ..
    · rfl

/-- Every change advances every object. -/
lemma Sound.advances (h : R.Sound) (op : Operation) (j : Nat) :
    (R.get j).Advances ((op.apply R).get j) := by
  have hmodify : ∀ {id : Nat} {R' : Records}, R.Modifies R' id →
      (R.get j).Advances (R'.get j) := by
    rintro id R' (rfl | ⟨c, rfl⟩)
    · exact (h j).advances_refl
    · rw [get_modify]
      split_ifs with hj
      · rw [hj.1]
        exact (h id).advances c
      · exact (h j).advances_refl
  cases op with
  | change id c => exact hmodify (.inr ⟨c, rfl⟩)
  | cut id length? k => exact hmodify (modifies_cut ..)
  | put id name v length? => exact hmodify (modifies_put ..)
  | create cls proto text? =>
    show (R.get j).Advances (get (R.push _) j)
    rw [get_push]
    split_ifs with hj
    · have hdefault : R.get j = default := by
        unfold get
        rw [Array.getD_eq_getD_getElem?, Array.getElem?_eq_none (Nat.le_of_eq hj.symm)]
        rfl
      exact (h j).advances_of_names_eq (Record.sound_blank ..) (by rw [hdefault]; rfl)
    · exact (h j).advances_refl

lemma Sound.apply (h : R.Sound) (op : Operation) : (op.apply R).Sound :=
  fun j => (h.advances op j).sound

/-- The course of every object through any changes, by induction on the changes. -/
lemma Sound.course (h : R.Sound) (ops : List Operation) (id : Nat) :
    (R.get id).Course ((R.history ops).map (·.get id)) := by
  refine (h id).course ?_
  induction ops generalizing R with
  | nil => exact .singleton _
  | cons op ops ih => exact .cons_cons (h.advances op id) (ih (h.apply op))

lemma history_append (R : Records) (ops ops' : List Operation) :
    R.history (ops ++ ops') = R.history ops ++ ((R.history ops).getLastD R).history ops' := by
  induction ops generalizing R with
  | nil => rfl
  | cons op ops ih =>
    rw [List.cons_append, history, history, ih, List.cons_append, List.getLastD_cons]

lemma Sound.getLastD (h : R.Sound) (ops : List Operation) : ((R.history ops).getLastD R).Sound := by
  induction ops generalizing R with
  | nil => exact h
  | cons op ops ih =>
    rw [history, List.getLastD_cons]
    exact ih (h.apply op)

end Records
end Clearance
