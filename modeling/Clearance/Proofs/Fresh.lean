/-
# Fresh sessions

The library is installed in a fixed order: first the prototypes, the global object and the store
for its classified bindings, then the functions. From then on the first nine objects keep their
shells, and nothing is put into that store. So every session starts as a `Stage`, whatever its
lattice and whatever globals its host sets.
-/
import Clearance.Proofs.Scene
import Clearance.Proofs.Scripted.Access
import Clearance.Proofs.Started

namespace Clearance

/-- A later heap of an installation: the first nine objects keep their shells, and the last of
them is left alone. -/
structure Heap.Furnished (h h' : Heap) : Prop where
  size : h.size ≤ h'.size
  shell : ∀ id < 9, (h.get id).SameShell (h'.get id)
  spare : h'.get 8 = h.get 8

namespace Heap.Furnished

variable {h h' h'' : Heap}

lemma refl (h : Heap) : h.Furnished h := ⟨Nat.le_refl _, fun _ _ => .refl _, rfl⟩

lemma trans (hh : h.Furnished h') (hh' : h'.Furnished h'') : h.Furnished h'' :=
  ⟨Nat.le_trans hh.size hh'.size, fun id hid => (hh.shell id hid).trans (hh'.shell id hid),
    hh'.spare.trans hh.spare⟩

end Heap.Furnished

namespace Library

variable {α β : Type}

/-- A step of an installation that goes on from the first nine objects, and what it gives. -/
def Build.Furnishes (b : Build α) (Q : α → Prop) : Prop :=
  ∀ h : Heap, 9 ≤ h.size → h.Furnished (b.run h).2 ∧ Q (b.run h).1

namespace Build.Furnishes

variable {Q : α → Prop}

lemma pure {a : α} (h : Q a) : (Pure.pure a : Build α).Furnishes Q :=
  fun heap _ => ⟨.refl heap, h⟩

lemma bind {b : Build β} {k : β → Build α} {R : β → Prop} (hb : b.Furnishes R)
    (hk : ∀ x, R x → (k x).Furnishes Q) : (b >>= k).Furnishes Q := by
  intro h hsize
  obtain ⟨hh, hR⟩ := hb h hsize
  obtain ⟨hh', hQ⟩ := hk _ hR (b.run h).2 (Nat.le_trans hsize hh.size)
  exact ⟨hh.trans hh', hQ⟩

/-- A step that gives nothing of interest. -/
lemma seq {b : Build β} {k : β → Build α} (hb : b.Furnishes fun _ => True)
    (hk : ∀ x, (k x).Furnishes Q) : (b >>= k).Furnishes Q := bind hb fun x _ => hk x

end Build.Furnishes

open Build

lemma furnishes_add (o : Object) : (add o).Furnishes (9 ≤ ·) := by
  intro h hsize
  refine ⟨⟨?_, fun id hid => ?_, ?_⟩, hsize⟩
  · show h.size ≤ (h.push o).size
    rw [Array.size_push]
    omega
  · show (h.get id).SameShell (Heap.get (h.push o) id)
    rw [Heap.get_push_lt (by omega)]
    exact .refl _
  · show Heap.get (h.push o) 8 = h.get 8
    rw [Heap.get_push_lt (by omega)]

lemma furnishes_put {id : Nat} (hid : id ≠ 8) (name : String) (p : Property) :
    (put id name p).Furnishes fun _ => True := by
  intro h _
  refine ⟨⟨?_, fun j _ => ?_, ?_⟩, trivial⟩
  · show h.size ≤ (h.update id _).size
    exact Nat.le_of_eq (Heap.size_update h id _).symm
  · show (h.get j).SameShell ((h.update id _).get j)
    rw [Heap.get_update]
    split_ifs with hj
    · rw [hj.1]
      exact Object.sameShell_define ..
    · exact .refl _
  · exact Heap.get_update_ne (Ne.symm hid) _

lemma furnishes_methods (fp : Nat) {id : Nat} (hid : id ≠ 8) (ms : List (String × Nat × Builtin)) :
    (methods fp id ms).Furnishes fun _ => True := by
  induction ms with
  | nil => exact .pure trivial
  | cons m ms ih =>
    obtain ⟨name, arity, b⟩ := m
    exact .seq (.bind (furnishes_add _) fun _ _ => furnishes_put hid _ _) fun _ => ih

lemma furnishes_constants {id : Nat} (hid : id ≠ 8) (cs : List (String × Float)) :
    (constants id cs).Furnishes fun _ => True := by
  induction cs with
  | nil => exact .pure trivial
  | cons c cs ih =>
    obtain ⟨name, x⟩ := c
    exact .seq (furnishes_put hid _ _) fun _ => ih

lemma furnishes_constructor (fp : Nat) {global proto : Nat} (hglobal : global ≠ 8)
    (hproto : proto ≠ 8) (name : String) (arity : Nat) (fn ctor : Builtin) :
    (constructor fp global name arity proto fn ctor).Furnishes (9 ≤ ·) :=
  .bind (furnishes_add _) fun _ hf => .seq (furnishes_put hproto _ _) fun _ =>
    .seq (furnishes_put hglobal _ _) fun _ => .pure hf

lemma furnishes_errorClass (fp : Nat) {global : Nat} (hglobal : global ≠ 8) (parent : Nat)
    (name : String) : (errorClass fp global parent name).Furnishes (9 ≤ ·.2) := by
  refine .bind (furnishes_add _) fun proto hproto => ?_
  have hne : proto ≠ 8 := by omega
  exact .bind (furnishes_constructor fp hglobal hne _ _ _ _) fun _ _ => .pure hproto

lemma furnishes_errorClasses (fp : Nat) {global : Nat} (hglobal : global ≠ 8) (parent : Nat)
    (names : List String) :
    (errorClasses fp global parent names).Furnishes fun _ => True := by
  induction names with
  | nil => exact .pure trivial
  | cons name names ih =>
    exact .bind (furnishes_errorClass fp hglobal parent name) fun _ _ => .seq ih fun _ =>
      .pure trivial

/-- The first nine objects of every session. -/
def foundation (l : Lattice) : Heap :=
  let plain := Object.blank "Object" (some 0) .none
  #[.blank "Object" none .none, .blank "Function" (some 0) .none, plain, plain, plain, plain, plain,
    .blank "global" (some 0) l.bottom, .blank "Activation" none l.top]

/-- What a step gives and leaves behind on a heap. -/
def Build.Gives (b : Build α) (h : Heap) (Q : α → Heap → Prop) : Prop := Q (b.run h).1 (b.run h).2

lemma gives_add {o : Object} {k : Nat → Build α} {h : Heap} {Q : α → Heap → Prop}
    (hk : (k h.size).Gives (h.push o) Q) : (add o >>= k).Gives h Q := hk

lemma gives_of_furnishes {b : Build α} {h : Heap} {Q : α → Prop} (hb : b.Furnishes Q)
    (hsize : 9 ≤ h.size) : b.Gives h fun a h' => h.Furnished h' ∧ Q a := hb h hsize

/-- What is installed on the foundation. -/
lemma gives_install (o : Options) : (install o).Gives #[] fun realm heap =>
    (foundation o.lattice).Furnished heap ∧ realm.global = 7 ∧ realm.globalFrame = 0 := by
  have h0 : (0 : Nat) ≠ 8 := by decide
  have h1 : (1 : Nat) ≠ 8 := by decide
  have h2 : (2 : Nat) ≠ 8 := by decide
  have h3 : (3 : Nat) ≠ 8 := by decide
  have h4 : (4 : Nat) ≠ 8 := by decide
  have h5 : (5 : Nat) ≠ 8 := by decide
  have h6 : (6 : Nat) ≠ 8 := by decide
  have h7 : (7 : Nat) ≠ 8 := by decide
  have hnew : ∀ {id : Nat}, 9 ≤ id → id ≠ 8 := by omega
  -- in the order of the installation; no step reaches the store of classified globals, number 8
  unfold install
  dsimp only
  refine gives_add (gives_add (gives_add (gives_add (gives_add (gives_add (gives_add (gives_add
    (gives_add (gives_of_furnishes ?_ (Nat.le_refl 9))))))))))
  refine .seq (furnishes_put h7 _ _) fun _ => .seq (furnishes_put h7 _ _) fun _ =>
    .seq (furnishes_put h7 _ _) fun _ => ?_
  refine .bind (furnishes_constructor _ h7 h0 _ _ _ _) fun object hobject => ?_
  refine .seq (furnishes_methods _ (hnew hobject) _) fun _ =>
    .seq (furnishes_methods _ h0 _) fun _ => ?_
  refine .bind (furnishes_constructor _ h7 h1 _ _ _ _) fun _ _ =>
    .seq (furnishes_methods _ h1 _) fun _ => ?_
  refine .bind (furnishes_errorClass _ h7 _ _) fun base hbase =>
    .seq (furnishes_methods _ (hnew hbase) _) fun _ =>
    .seq (furnishes_errorClasses _ h7 _ _) fun _ => ?_
  refine .bind (furnishes_constructor _ h7 h2 _ _ _ _) fun array harray =>
    .seq (furnishes_methods _ (hnew harray) _) fun _ => .seq (furnishes_methods _ h2 _) fun _ => ?_
  refine .bind (furnishes_constructor _ h7 h3 _ _ _ _) fun string hstring =>
    .seq (furnishes_methods _ (hnew hstring) _) fun _ => .seq (furnishes_methods _ h3 _) fun _ => ?_
  refine .bind (furnishes_constructor _ h7 h4 _ _ _ _) fun number hnumber =>
    .seq (furnishes_constants (hnew hnumber) _) fun _ => .seq (furnishes_methods _ h4 _) fun _ => ?_
  refine .bind (furnishes_constructor _ h7 h5 _ _ _ _) fun _ _ =>
    .seq (furnishes_methods _ h5 _) fun _ => ?_
  refine .bind (furnishes_add _) fun math hmath =>
    .seq (furnishes_constants (hnew hmath) _) fun _ =>
    .seq (furnishes_methods _ (hnew hmath) _) fun _ => .seq (furnishes_put h7 _ _) fun _ => ?_
  refine .bind (furnishes_constructor _ h7 h6 _ _ _ _) fun _ _ =>
    .seq (furnishes_methods _ h6 _) fun _ => .seq (furnishes_methods _ h3 _) fun _ =>
    .seq (furnishes_methods _ h7 _) fun _ => ?_
  exact .pure ⟨rfl, rfl⟩

end Library

namespace Session

open Clearance.Action Library

variable (o : Options)

lemma fresh_realm : (fresh o).control.realm = ((install o).run #[]).1 := by
  unfold fresh
  generalize (install o).run #[] = r
  rfl

lemma fresh_heap : (fresh o).store.heap = ((install o).run #[]).2 := by
  unfold fresh
  generalize (install o).run #[] = r
  rfl

lemma fresh_global : (fresh o).control.realm.global = 7 := by
  rw [fresh_realm]
  exact (gives_install o).2.1

lemma fresh_globalFrame : (fresh o).control.realm.globalFrame = 0 := by
  rw [fresh_realm]
  exact (gives_install o).2.2

lemma furnished_fresh : (foundation o.lattice).Furnished (fresh o).store.heap := by
  rw [fresh_heap]
  exact (gives_install o).1

/-- The store for classified bindings comes after the global object. -/
lemma fresh_frame : (fresh o).store.frames.get 0 =
    ⟨⟨(fresh o).control.realm.global, .plain⟩, ⟨(fresh o).control.realm.global + 1, .plain⟩, [],
      none, true⟩ := by
  unfold fresh
  generalize (install o).run #[] = r
  rfl

lemma size_fresh : 9 ≤ (fresh o).store.heap.size := (furnished_fresh o).size

/-- A session in which nothing has run is a stage for every name. -/
lemma stage_fresh (ns : List String) : Stage ns (fresh o).control.realm (fresh o).store := by
  have hglobal := fresh_global o
  have hsize := size_fresh o
  have hframe : (fresh o).store.frames.get (fresh o).control.realm.globalFrame =
      ⟨⟨7, .plain⟩, ⟨8, .plain⟩, [], none, true⟩ := by
    rw [fresh_globalFrame, fresh_frame, hglobal]
  have hshell := (furnished_fresh o).shell 7 (by decide)
  have hspare : (fresh o).store.heap.get 8 = Object.blank "Activation" none o.lattice.top :=
    (furnished_fresh o).spare
  constructor <;> simp only [hframe, hglobal]
  case apart => decide
  case allocated => omega
  case inside => omega
  case proto => rw [hspare]; rfl
  case vacant =>
    intro n _
    rw [hspare]
    rfl
  case cls =>
    rw [hshell.cls]
    show "global" ≠ "Array"
    decide
  case primitive => rw [hshell.primitive]; rfl
  case bottom => rw [hshell.partition]; rfl

lemma run_setGlobal (serve : Service) (fuel : Nat) (s : State) (name : String) (v : Value) :
    (setGlobal name v).run serve fuel s = .done () ⟨s.control, { s.store with
      heap := s.store.heap.update s.control.realm.global (·.set name v)
      frames := s.store.frames.modify s.control.realm.globalFrame (·.bind name .low) }⟩ := rfl

/-- A stage does not depend on which names the global frame lists. -/
lemma stage_bind {ns : List String} {realm : Realm} {s : Store} (h : Stage ns realm s)
    (name : String) (side : Side) : Stage ns realm
      { s with frames := s.frames.modify realm.globalFrame (·.bind name side) } := by
  have hget : Frames.get (s.frames.modify realm.globalFrame (·.bind name side)) realm.globalFrame =
      (s.frames.get realm.globalFrame).bind name side ∨
      Frames.get (s.frames.modify realm.globalFrame (·.bind name side)) realm.globalFrame =
        s.frames.get realm.globalFrame := by
    unfold Frames.get
    by_cases hid : realm.globalFrame < s.frames.size
    · exact .inl (by simp [Array.getD, hid, Array.getElem_modify])
    · exact .inr (by simp [Array.getD, hid])
  rcases hget with hget | hget <;> refine h.frames ?_ ?_ ?_ ?_ <;> rw [hget] <;> rfl

/-- Setting globals keeps the stage. -/
lemma stage_setGlobals {ns : List String} {s : State} (h : Stage ns s.control.realm s.store)
    (gs : List (String × Value)) (serve : Service) (fuel : Nat) :
    ∃ t, (setGlobals gs).run serve fuel s = .done () t ∧ t.control = s.control ∧
      Stage ns s.control.realm t.store := by
  induction gs generalizing s with
  | nil => exact ⟨s, rfl, rfl, h⟩
  | cons g gs ih =>
    obtain ⟨name, v⟩ := g
    have hshell := Object.sameShell_set (s.store.heap.get s.control.realm.global) name v
    have hset := stage_bind (h.update (f := (·.set name v)) hshell.cls hshell.primitive
      hshell.partition) name .low
    rw [setGlobals, run_bind, run_setGlobal]
    exact ih hset

/-- Every session that a host has started is a stage for every name. -/
lemma stage_started (ns : List String) (gs : List (String × Value)) :
    Stage ns (started o gs).control.realm (started o gs).store := by
  obtain ⟨t, hrun, hcontrol, ht⟩ := stage_setGlobals (stage_fresh o ns) gs (machine .none 0 0) 0
  unfold started
  rw [hrun]
  show Stage ns t.control.realm t.store
  rw [hcontrol]
  exact ht

end Session
end Clearance
