/-
# Agreement of two runs

Two states agree up to a level if the control is the same and the global objects agree. Reading a
name in both gives the same, or something classified above the level in both; assigning to it
keeps the agreement. At a program counter above the level, an assignment keeps the agreement of
the state with itself.
-/
import Clearance.Proofs.Scene

namespace Clearance

open Clearance.Action

/-- The same in both, or classified above a level in both. -/
def Value.Agrees (l : Label) (v v' : Value) : Prop :=
  v = v' ∨ l.less v.label = true ∧ l.less v'.label = true

/-- The same in both, or classified above a level in both. -/
def Rated.Agrees (l : Label) (r r' : Rated) : Prop :=
  r = r' ∨ l.less r.label = true ∧ l.less r'.label = true

/-- Two states in which the same code runs on globals that agree. -/
structure State.Agrees (l : Label) (s s' : State) : Prop where
  control : s'.control = s.control
  globals : s.globals.Agrees l s'.globals

variable {l : Label} {s s' s'' t t' : State}

namespace State.Agrees

lemma refl (s : State) : s.Agrees l s := ⟨rfl, .refl _⟩

lemma symm (h : s.Agrees l s') : s'.Agrees l s := ⟨h.control.symm, h.globals.symm⟩

lemma trans (h : s.Agrees l s') (h' : s'.Agrees l s'') : s.Agrees l s'' :=
  ⟨h'.control.trans h.control, h.globals.trans h'.globals⟩

/-- A change of anything but the control and the global object. -/
lemma of_globals (hcontrol : s'.control = s.control) (hglobals : s'.globals = s.globals) :
    s.Agrees l s' := ⟨hcontrol, by rw [hglobals]; exact .refl _⟩

end State.Agrees

/-! ## Labels -/

namespace Label

variable {a b k : Label}

/-- Labels with the same classification are the same, but for those at the bottom. -/
lemma eq_or_of_join_eq (h : a.join k = b.join k) (hk : k.height = 1) :
    a = b ∨ a.height = 1 ∧ b.height = 1 := by
  unfold join at h
  unfold height at *
  grind

/-- Reading drops the name of a missing label. -/
lemma none_join_join (h : a.join k = b.join k) :
    (Label.none.join a).join k = (Label.none.join b).join k := by
  unfold join none at *
  grind

end Label

/-- Values only carry labels that are above the bottom. -/
lemma Value.wrap_congr {a b k : Label} (h : a.join k = b.join k) (hk : k.height = 1) (v : Value) :
    v.wrap a = v.wrap b := by
  rcases Label.eq_or_of_join_eq h hk with rfl | ⟨ha, hb⟩
  · rfl
  · unfold wrap Label.less Label.join
    unfold Label.height at *
    grind [Label.none]

namespace Location

/-- What is stored carries the label of the data. -/
lemma label_leq_stored (loc : Location) (pc chosen : Label) (r : Rated) :
    r.label.leq (loc.stored pc chosen r).label = true := by
  rw [Label.leq_iff]
  unfold stored Value.raiseAbove Rated.value
  split_ifs <;> simp only [Value.height_wrap, Value.height_labeled] <;> omega

/-- What is stored in a classified location is classified. -/
lemma less_stored_of_cell {loc : Location} (h : l.less loc.cell = true) (pc chosen : Label)
    (r : Rated) : l.less (loc.stored pc chosen r).label = true :=
  Label.less_of_less_of_leq h (loc.cell_leq_stored pc chosen r)

/-- What is stored of classified data is classified. -/
lemma less_stored_of_label (loc : Location) (pc chosen : Label) {r : Rated}
    (h : l.less r.label = true) : l.less (loc.stored pc chosen r).label = true :=
  Label.less_of_less_of_leq h (loc.label_leq_stored pc chosen r)

/-- What is stored depends on the classification of the location. -/
lemma stored_congr {loc loc' : Location} {k : Label} (hlabel : loc'.label = loc.label)
    (hcell : loc'.cell.join k = loc.cell.join k) (hk : k.height = 1) (pc chosen : Label)
    (r : Rated) : loc'.stored pc chosen r = loc.stored pc chosen r := by
  unfold stored
  rw [hlabel, Value.wrap_congr hcell hk]

end Location

/-! ## Reading -/

section

variable {ns : List String}

/-- A name reads the same in both, or as something classified above the level in both. -/
lemma rated_agrees (h : s.Agrees l s') (n : String) : (s.rated n).Agrees l (s'.rated n) := by
  unfold State.rated
  rcases h.globals.cases_find? n with ⟨hq, hq'⟩ | ⟨q, q', hq, hq', hagrees⟩
  · rw [hq, hq', h.globals.partition]
    exact .inl rfl
  · rw [hq, hq', h.globals.partition]
    rcases hagrees.cell with ⟨-, hraw, hlabel⟩ | ⟨hless, hless'⟩
    · exact .inl (by simp only [hraw, Label.none_join_join hlabel])
    · refine .inr ⟨?_, ?_⟩
      · simp only [Label.less_iff, Label.height_join, Label.height_none] at hless ⊢
        omega
      · simp only [Label.less_iff, Label.height_join, Label.height_none] at hless' ⊢
        omega

/-- The same names have places in both. -/
lemma placed_eq (h : s.Agrees l s') (n : String) : s'.placed n = s.placed n := by
  unfold State.placed
  rw [h.control]
  rcases h.globals.cases_find? n with ⟨hq, hq'⟩ | ⟨q, q', hq, hq', -⟩
  · rw [hq, hq']
  · rw [hq, hq']
    rfl

lemma core_placed (n : String) (hn : n ∈ ns) :
    Operand.Core ns s.control.realm (.place (s.placed n) .none) := by
  unfold State.placed
  cases Slots.find? n s.globals.slots
  · exact .nowhere hn
  · exact .global hn

/-! ## Writing -/

lemma Value.agrees_of_rated {r r' : Rated} (h : r.Agrees l r') : r.value.Agrees l r'.value := by
  rcases h with rfl | ⟨hless, hless'⟩
  · exact .inl rfl
  · refine .inr ⟨?_, ?_⟩
    · rw [Label.less_iff] at *
      unfold Rated.value
      rwa [Value.height_labeled]
    · rw [Label.less_iff] at *
      unfold Rated.value
      rwa [Value.height_labeled]

/-- Properties that are written in both. -/
lemma Wrote.agrees {n : String} {q q' : Property} (h : s.Agrees l s') (hs : Wrote ns s t n q)
    (hs' : Wrote ns s' t' n q') (hq : q.Agrees l s.globals.partition q') : t.Agrees l t' := by
  refine ⟨by rw [hs.control, hs'.control, h.control], ?_, fun m => ?_⟩
  · rw [hs.partition, hs'.partition, h.globals.partition]
  · rw [hs.find?, hs'.find?, hs.partition]
    split_ifs with hm
    · exact .some hq
    · exact h.globals.properties m

/-- A property that is written in one. -/
lemma Wrote.agrees_self {n : String} {q q' : Property} (hs : Wrote ns s t n q')
    (hq : Slots.find? n s.globals.slots = some q) (hagrees : q.Agrees l s.globals.partition q') :
    s.Agrees l t := by
  refine ⟨hs.control, hs.partition, fun m => ?_⟩
  rw [hs.find?]
  split_ifs with hm
  · rw [hm, hq]
    exact .some hagrees
  · exact (Object.Agrees.refl s.globals).properties m

/-- Properties with the same attributes agree if their values do. -/
lemma Property.Agrees.of_value {k : Label} {q q' : Property}
    (hattributes : { q' with value := q.value } = q) (hv : q.value.Agrees l q'.value) :
    q.Agrees l k q' := by
  rcases hv with heq | ⟨hless, hless'⟩
  · exact .of_eq hattributes (by rw [heq]) (by rw [heq])
  · refine ⟨hattributes, .inr ⟨?_, ?_⟩⟩
    · rw [Label.less_iff, Label.height_join] at *
      omega
    · rw [Label.less_iff, Label.height_join] at *
      omega

lemma Property.Agrees.assigned {k : Label} {old old' : Option Property} {v v' : Value}
    (hold : Option.Rel (Property.Agrees l k) old old') (hv : v.Agrees l v') :
    (Property.assigned old v).Agrees l k (.assigned old' v') := by
  unfold Property.assigned
  cases hold with
  | none => exact .of_value rfl hv
  | @some q q' hq =>
    have hro : q'.readOnly = q.readOnly := by rw [← hq.attributes]
    dsimp only
    rw [hro]
    split_ifs
    · exact hq
    · refine .of_value ?_ hv
      rw [← hq.attributes]

/-- The location of a name that the global object may hold. -/
lemma locationIn_global (h : s.Staged ns) {n : String} (hn : n ∈ ns) :
    Place.locationIn ⟨some ⟨s.control.realm.global, .plain⟩, n⟩ s =
      match Slots.find? n s.globals.slots with
      | none => ⟨.none, s.globals.partition, false⟩
      | some q => ⟨q.value.label, q.value.label.join s.globals.partition,
          !q.value.raw.isUndefined⟩ := by
  unfold Place.locationIn State.globals
  dsimp only
  rw [h.scene.find?_global hn]
  cases hq : Slots.find? n (s.store.heap.get s.control.realm.global).slots with
  | none => rfl
  | some q =>
    have hpeek : q.peeked = q.value := by simp [Property.peeked, (h.scene.of_find? hn hq).1]
    simp only [Option.map_some, hpeek]

/-- What an assignment stores is the same in both, or classified above the level in both. -/
lemma stored_agrees (h : s.Agrees l s') (hs : s.Staged ns) (hs' : s'.Staged ns) {p : Place}
    (hp : Operand.Core ns s.control.realm (.place p .none)) {r r' : Rated} (hr : r.Agrees l r') :
    ((p.locationIn s).stored s.control.pc .none r).Agrees l
      ((p.locationIn s').stored s'.control.pc .none r') := by
  rw [h.control]
  rcases hr with rfl | ⟨hless, hless'⟩
  · cases hp with
    | nowhere =>
      refine .inl ?_
      have hloc : ∀ n, Place.locationIn ⟨none, n⟩ s' = Place.locationIn ⟨none, n⟩ s := by
        intro n
        show (⟨.none, s'.globals.partition, false⟩ : Location) = ⟨.none, s.globals.partition, false⟩
        rw [h.globals.partition]
      rw [hloc]
    | @global n hn =>
      rw [locationIn_global hs hn, ← h.control, locationIn_global hs' hn]
      rcases h.globals.cases_find? n with ⟨hq, hq'⟩ | ⟨q, q', hq, hq', hagrees⟩
      · rw [hq, hq', h.globals.partition]
        exact .inl rfl
      · rw [hq, hq', h.globals.partition]
        dsimp only
        rcases hagrees.cell with ⟨-, -, hlabel⟩ | ⟨hlow, hlow'⟩
        · exact .inl (Location.stored_congr hlabel hlabel hs.scene.bottom ..).symm
        · have hcell : ∀ {k : Label}, l.less (k.join s.globals.partition) = true →
              l.less k = true := by
            intro k hk
            have hbottom : s.globals.partition.height = 1 := hs.scene.bottom
            have hone := Label.one_le_height k
            rw [Label.less_iff, Label.height_join] at *
            omega
          have hbelow := hcell hlow
          have hbelow' := hcell hlow'
          refine .inr ⟨Location.less_stored_of_cell ?_ .., Location.less_stored_of_cell ?_ ..⟩
          · exact hbelow
          · exact hbelow'
  · refine .inr ⟨?_, ?_⟩
    · exact Location.less_stored_of_label _ _ _ hless
    · exact Location.less_stored_of_label _ _ _ hless'

/-- An assignment that is made at a program counter above the level, and permitted there, changes
a property above the level. -/
lemma assigned_agrees_of_less (hs : s.Staged ns) (hpc : l.less s.control.pc = true) {p : Place}
    (hp : Operand.Core ns s.control.realm (.place p .none)) (r : Rated)
    (hcontext : (s.control.pc.join (Label.none.join (p.locationIn s).label)).leq
      ((p.locationIn s).label.join (p.locationIn s).cell) = true) :
    ∃ q, Slots.find? p.name s.globals.slots = some q ∧
      q.Agrees l s.globals.partition (.assigned (some q)
        ((p.locationIn s).stored s.control.pc .none r)) := by
  have hbottom : s.globals.partition.height = 1 := hs.scene.bottom
  have hone := Label.one_le_height l
  have hcell := (p.locationIn s).cell_leq_stored s.control.pc .none r
  rw [Label.less_iff] at hpc
  rw [Label.leq_iff, Label.height_join, Label.height_join, Label.height_join,
    Label.height_none] at hcontext
  cases hp with
  | @nowhere n _ =>
    -- a name that is nowhere is not classified
    have hlabel : (Place.locationIn ⟨none, n⟩ s).label = s.globals.partition := rfl
    have hnone : (Place.locationIn ⟨none, n⟩ s).cell = Label.none := rfl
    rw [hlabel, hnone, hbottom, Label.height_none] at hcontext
    omega
  | @global n hn =>
    rw [locationIn_global hs hn] at hcontext hcell ⊢
    cases hq : Slots.find? n s.globals.slots with
    | none =>
      simp only [hq, hbottom, Label.height_none] at hcontext
      omega
    | some q =>
      simp only [hq, Label.height_join, hbottom] at hcontext hcell
      refine ⟨q, rfl, ?_⟩
      unfold Property.assigned
      dsimp only
      split_ifs
      · exact .refl q
      · refine ⟨rfl, .inr ⟨?_, ?_⟩⟩
        · rw [Label.less_iff, Label.height_join]
          omega
        · rw [Label.leq_iff] at hcell
          rw [Label.less_iff, Label.height_join]
          dsimp only
          omega

end

end Clearance
