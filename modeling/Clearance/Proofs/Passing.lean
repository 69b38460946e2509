/-
# What passes through a session

Values are in the heap, in the activations in progress and in the register for results; they are
handed over with requests and come back as answers; expressions and statements come to them, and
they are thrown. `Moment.Passes` lists the ways in which a value passes through a moment. Whatever
does so in the course of a session has been in a run that goes beside itself, and so its label is
one that may be met, and none at all unless it is above the bottom (`Lived.passes`).

A value has one label at most: attaching another one joins it to the label that is there, and a
label at the bottom is dropped. So attaching labels one after the other attaches their join, and
nothing is gained by values that carry labels around labels (`Layered`), of which wrapping only ever
looks at the outermost label: values with one label become values with one label.
-/
import Clearance.Proofs.Paired.Course

namespace Clearance

open Clearance.Action Script

/-! ## Values that pass -/

/-- The values that are handed over with a request. -/
def Request.values : Request → List Value
  | .call _ this args => this :: args
  | .construct _ args => args
  | .hasInstance _ v => [v]

/-- What a state holds, together with the activations in progress. -/
inductive State.Holds (cs : List Control) (s : State) : Value → Prop
  | slot {id : Nat} {slot : String × Property} :
      slot ∈ (s.store.heap.get id).slots → Holds cs s slot.2.value
  | wrapped {id : Nat} {v : Value} : v ∈ (s.store.heap.get id).primitive → Holds cs s v
  | this {c : Control} : c ∈ s.control :: cs → Holds cs s c.this
  | result : Holds cs s s.store.result

/-- The value that a completion carries. -/
inductive Completion.Carries : Completion → Value → Prop
  | returned (v : Value) : Carries (.returned v) v
  | thrown (v : Value) (line : Nat) : Carries (.thrown v line) v

/-- The value passes through the moment: it is there before or after, it is thrown, asked with or
answered, code of the grade comes to it, or a host gets it back. -/
inductive Moment.Passes {l : Lattice} (g : Grade l) : Moment → Value → Prop
  | before {m : Moment} {v : Value} : m.state.Holds m.contexts v → Passes g m v
  | after {m : Moment} {v : Value} : m.outcome.state.Holds m.contexts v → Passes g m v
  | thrown {m : Moment} {v : Value} {file : String} {line : Nat} {t : State} :
      m.outcome = .failed (.thrown v file line) t → Passes g m v
  | asked {m : Moment} {r : Request} {v : Value} : r ∈ m.action.asks? → v ∈ r.values → Passes g m v
  | answered {r : Request} {s t : State} {cs : List Control} {v : Value} :
      Passes g ⟨.invoke r, s, cs, .done v t⟩ v
  | operand {e : Expr Span} {s t : State} {cs : List Control} {v : Value} :
      (∀ node ∈ e.nodes true, g.Allows node) → Passes g ⟨e.action, s, cs, .done (.value v) t⟩ v
  | completed {st : Stmt Span} {s t : State} {cs : List Control} {c : Completion} {v : Value} :
      (∀ node ∈ st.nodes true, g.Allows node) → c.Carries v →
        Passes g ⟨st.action, s, cs, .done c t⟩ v
  | returned {p : Action Value} {s t : State} {cs : List Control} {v : Value} :
      Deed g s.store p → Passes g ⟨p, s, cs, .done v t⟩ v

/-! ## Values of a grade -/

/-- A label that is carried is above the bottom. -/
def Value.Normal (v : Value) : Prop := v.isLabeled = false → v.label = .none

/-- A value whose label is none at all, or one of the grade above the bottom. -/
structure Value.Graded {l : Lattice} (g : Grade l) (v : Value) : Prop where
  label : g.mem v.label
  normal : v.Normal

/-- If no label of the grade is above the bottom, its values carry none. -/
lemma Value.Graded.unlabeled {l : Lattice} {g : Grade l} {v : Value} (h : v.Graded g)
    (hcalm : g.Calm) : v.label = .none :=
  h.normal (Bool.eq_false_iff.2 fun hless => hcalm.not_less h.label hless)

namespace World

variable {W : World}

lemma Values.graded {v v' : Value} (h : W.Values v v') : v.Graded W.left :=
  ⟨h.label.left, h.settled⟩

lemma Properties.graded {cls name : String} {p p' : Property} (h : W.Properties cls name p p') :
    p.value.Graded W.left := by
  rcases h.value with (hv | ⟨-, -, hv⟩) | ⟨-, hv, -⟩
  · exact hv.graded
  · exact ⟨hv.label.left, hv.settled⟩
  · rw [hv]
    exact ⟨W.left.none, fun _ => rfl⟩

lemma Requests.graded {r r' : Request} (h : W.Requests r r') : ∀ v ∈ r.values, v.Graded W.left := by
  have hvalues : ∀ {vs vs' : List Value}, List.Forall₂ W.Values vs vs' →
      ∀ v ∈ vs, v.Graded W.left := by
    intro vs vs' hvs
    induction hvs with
    | nil => exact List.forall_mem_nil _
    | cons hv _ ih => exact List.forall_mem_cons.2 ⟨hv.graded, ih⟩
  cases h with
  | call _ hthis hargs => exact List.forall_mem_cons.2 ⟨hthis.graded, hvalues hargs⟩
  | construct _ hargs => exact hvalues hargs
  | hasInstance _ hv => exact List.forall_mem_singleton.2 hv.graded

lemma Completions.graded {c c' : Completion} {v : Value} (h : W.Completions c c')
    (hv : c.Carries v) : v.Graded W.left := by
  cases hv <;> cases h <;> (rename_i hv; exact hv.graded)

end World

namespace Origin

variable {O : Origin} {cs : List Control} {s : State}

/-! ## Regular states -/

section

variable {A : Setting} {t u : Store}

lemma exists_listing {cls : String} {W : World} {slots slots' : Slots}
    (h : W.Listings cls slots slots') {slot : String × Property} (hslot : slot ∈ slots) :
    ∃ p', W.Properties cls slot.1 slot.2 p' := by
  induction h with
  | nil => cases hslot
  | @cons a b _ _ hab _ ih =>
    rcases List.mem_cons.1 hslot with rfl | hslot
    · exact ⟨_, hab.2⟩
    · exact ih hslot

/-- All properties there are, of objects and of stores. -/
lemma exists_properties (hheaps : A.world.Heaps t.heap u.heap) (hkept : A.Kept t u) {id : Nat}
    {slot : String × Property} (hslot : slot ∈ (t.heap.get id).slots) :
    ∃ cls p', A.world.Properties cls slot.1 slot.2 p' := by
  by_cases hid : A.store id
  · exact ⟨"", _, (hkept.slots id hid slot hslot).properties⟩
  · exact ⟨_, exists_listing (hheaps.object id hid).slots hslot⟩

end

/-- The values of a regular state are of the grade. -/
lemma Regular.graded (hs : O.Regular cs s) {v : Value} (hv : s.Holds cs v) : v.Graded O.grade := by
  obtain ⟨h, -, ⟨hcontrol, hheaps, hresult, -, -, hkept⟩, hcontexts, -⟩ := hs
  cases hv with
  | slot hslot =>
    obtain ⟨_, _, hp⟩ := exists_properties hheaps hkept hslot
    exact hp.graded
  | @wrapped id v hv =>
    by_cases hid : (O.upTo s.store h).store id
    · -- stores wrap nothing
      rw [(Setting.Kept.bare hkept id hid).primitive] at hv
      cases hv
    · have hlabel : v.label = .none := ((hheaps.object id hid).wrapped v hv).1
      exact ⟨hlabel ▸ O.grade.none, fun _ => hlabel⟩
  | @this c hc =>
    rcases List.mem_cons.1 hc with rfl | hc
    · exact hcontrol.this.graded
    · obtain ⟨c', hc'⟩ := hcontexts c hc
      exact hc'.this.graded
  | result => exact hresult.graded

/-! ## Moments -/

/-- What a moment of a session comes to, seen from its end. -/
lemma Lived.result {hosts : Hosts} {ms : List Moment} (h : O.Lived hosts ms s)
    (hhosts : O.Welcomes hosts) (hlax : O.lax) (hreads : O.grade.Reads ms)
    {m : Moment} (hm : m ∈ ms) {Q : ∀ u, O.base.Precedes u → m.α → m.α → Prop}
    (hp : ∀ u hu, m.state.store.Precedes u →
      Paired (O.upTo u hu).world .any m.action m.action (Q u hu)) {a : m.α} {t : State}
    (ha : m.outcome = .done a t) : ∃ hu b, Q t.store hu a b := by
  obtain ⟨rounds, n, hrun, hepisode⟩ := h.episode hlax hreads hm fun u hu hs => ⟨_, hp u hu hs⟩
  obtain ⟨hbase, -⟩ := (h.sees m hm).final
  have hduring := (h.sees m hm).during
  rw [ha] at hbase hduring hrun
  obtain ⟨b, hb⟩ := hepisode.ends hhosts hrun.symm rfl (hp t.store hbase hduring)
  exact ⟨hbase, b, hb⟩

/-- A request goes beside itself from where it is made. -/
lemma paired_request {r : Request} {o : Outcome Value} (h : O.Sees ⟨.invoke r, s, cs, o⟩)
    {u : Store} (hu : O.base.Precedes u) (hs : s.store.Precedes u) :
    Paired (O.upTo u hu).world .any (.invoke r) (.invoke r) (O.upTo u hu).world.Values := by
  obtain ⟨hbase, -⟩ := h.start
  obtain ⟨r', hr⟩ := h.request s.store hbase rfl r rfl
  obtain rfl : r' = r := hr.eq trivial
  exact .invoke (requests_widen hs hr)

section

variable {u : Store} {hu : O.base.Precedes u}

lemma evaluates_code {e : Expr Span} (he : ∀ node ∈ e.nodes true, O.allowed node) :
    (O.upTo u hu).world.Evaluates e.action e.action := by
  have hrebuild := evaluates_expr (W := (O.upTo u hu).world) e he
  have hid : e.rebuild id (O.upTo u hu).world.rewrite = e := e.rebuild_id
  rwa [hid] at hrebuild

lemma finishes_code {st : Stmt Span} (hst : ∀ node ∈ st.nodes true, O.allowed node) :
    (O.upTo u hu).world.Finishes st.action st.action := by
  have hrebuild := finishes_stmt (W := (O.upTo u hu).world) st hst
  have hid : st.rebuild id (O.upTo u hu).world.rewrite = st := st.rebuild_id
  rwa [hid] at hrebuild

end

/-- **Whatever passes through the moments of a session is of its grade.** -/
theorem Lived.passes {hosts : Hosts} {ms : List Moment} (h : O.Lived hosts ms s)
    (hhosts : O.Welcomes hosts) (hlax : O.lax) (hreads : O.grade.Reads ms)
    {m : Moment} (hm : m ∈ ms) {v : Value} (hv : m.Passes O.grade v) : v.Graded O.grade := by
  have hsees := h.sees m hm
  cases hv with
  | before hv => exact hsees.start.graded hv
  | after hv => exact hsees.final.graded hv
  | thrown ho =>
    obtain ⟨hbase', -⟩ := hsees.final
    obtain ⟨_, hf⟩ := hsees.failure _ hbase' rfl _ _ ho
    cases hf with
    | thrown _ _ hv => exact hv.graded
  | asked hr hv =>
    obtain ⟨hbase, -⟩ := hsees.start
    obtain ⟨_, hr'⟩ := hsees.request _ hbase rfl _ hr
    exact hr'.graded _ hv
  | answered =>
    obtain ⟨_, _, hv⟩ := h.result hhosts hlax hreads hm
      (fun u hu hs => paired_request hsees hu hs) rfl
    exact hv.graded
  | operand he =>
    obtain ⟨_, _, hx⟩ := h.result hhosts hlax hreads hm
      (fun u hu _ => evaluates_code (fun node hnode => allowed_of_lax hlax (he node hnode)) .any)
        rfl
    cases hx with
    | value hv => exact hv.graded
  | completed hst hc =>
    obtain ⟨_, _, hc'⟩ := h.result hhosts hlax hreads hm
      (fun u hu _ => finishes_code (fun node hnode => allowed_of_lax hlax (hst node hnode)) .any)
        rfl
    exact hc'.graded hc
  | returned hp =>
    obtain ⟨hbase, -⟩ := hsees.start
    obtain ⟨_, _, hv⟩ := h.result hhosts hlax hreads hm
      (fun u hu hs => paired_of_deed hbase hp (absurd hlax) hs) rfl
    exact hv.graded

end Origin

/-! ## Joins of labels -/

namespace Label

lemma join_assoc (a b c : Label) : (a.join b).join c = a.join (b.join c) := by
  unfold join
  split_ifs <;> first | rfl | omega

lemma none_less_iff {k : Label} : none.less k = true ↔ 1 < k.rank := by
  rw [less_iff, height_none, height]
  split_ifs <;> omega

/-- A join is above the bottom if one of the labels is. -/
lemma none_less_join_iff {a b : Label} :
    none.less (a.join b) = true ↔ none.less a = true ∨ none.less b = true := by
  simp only [none_less_iff, rank_join]
  omega

/-- A label at the bottom adds nothing to one above it. -/
lemma join_of_not_less {a b : Label} (ha : ¬none.less a = true) (hb : none.less b = true) :
    a.join b = b := by
  rw [none_less_iff] at ha hb
  exact if_neg (by omega)

end Label

/-! ## Values with labels around labels -/

/-- A value in which labels may be around labels. -/
inductive Layered where
  | raw (r : Raw)
  | labeled (v : Layered) (k : Label)

namespace Layered

/-- Attaches a label. Only the outermost label is looked at. -/
def wrap : Layered → Label → Layered
  | .labeled v k, k' => if Label.none.less (k.join k') then .labeled v (k.join k') else v
  | .raw r, k => if Label.none.less k then .labeled (.raw r) k else .raw r

/-- What the outermost label is around, and that label. -/
def unlabel : Layered → Layered × Label
  | .labeled v k => (v, k)
  | .raw r => (.raw r, .none)

end Layered

namespace Value

/-- The value with its label around it, if it has one. -/
def layered (v : Value) : Layered :=
  if v.label = .none then .raw v.raw else .labeled (.raw v.raw) v.label

lemma layered_plain (r : Raw) : layered ⟨r, .none⟩ = .raw r := if_pos rfl

lemma layered_of_less {r : Raw} {k : Label} (h : Label.none.less k = true) :
    layered ⟨r, k⟩ = .labeled (.raw r) k := by
  refine if_neg ?_
  rintro rfl
  cases h

lemma unlabel_layered (v : Value) : v.layered.unlabel = (.raw v.raw, v.label) := by
  unfold layered
  split_ifs with hlabel
  · rw [hlabel]
    rfl
  · rfl

lemma wrap_eq (v : Value) (k : Label) :
    v.wrap k = if Label.none.less (v.label.join k) then ⟨v.raw, v.label.join k⟩ else
      ⟨v.raw, .none⟩ :=
  rfl

lemma normal_wrap (v : Value) (k : Label) : (v.wrap k).Normal := by
  rw [wrap_eq]
  split_ifs with hless
  · intro hlow
    exact absurd (hless.symm.trans hlow) (by decide)
  · exact fun _ => rfl

/-- Attaching labels one after the other attaches their join. -/
lemma wrap_wrap (v : Value) (a b : Label) : (v.wrap a).wrap b = v.wrap (a.join b) := by
  rw [wrap_eq v a]
  split_ifs with hless
  · rw [wrap_eq, wrap_eq, Label.join_assoc]
  · -- what has been dropped was at the bottom
    obtain ⟨hv, ha⟩ := not_or.1 (mt Label.none_less_join_iff.2 hless)
    rw [wrap_eq, wrap_eq]
    by_cases hb : Label.none.less b = true
    · rw [Label.join_of_not_less ha hb, Label.join_of_not_less hv hb,
        Label.join_of_not_less (a := Label.none) (by decide) hb]
    · simp only [Label.none_less_join_iff]
      rw [if_neg (by simpa [hb] using show Label.none.less .none = false from rfl),
        if_neg (by simp [hv, ha, hb])]

/-- Wrapping does the same to a value as to the value with its label around it. -/
lemma layered_wrap (v : Value) (k : Label) : (v.wrap k).layered = v.layered.wrap k := by
  obtain ⟨r, l⟩ := v
  by_cases hl : l = .none
  · subst hl
    rw [layered_plain, wrap_eq, Layered.wrap]
    by_cases hk : Label.none.less k = true
    · simp only [Label.join_of_not_less (show ¬Label.none.less .none = true by decide) hk,
        hk, if_true]
      exact layered_of_less hk
    · simp only [Label.none_less_join_iff, hk, show Label.none.less .none = false from rfl]
      exact layered_plain r
  · rw [wrap_eq, show layered ⟨r, l⟩ = .labeled (.raw r) l from if_neg hl, Layered.wrap]
    dsimp only
    split_ifs with hless
    · exact layered_of_less hless
    · exact layered_plain r

end Value

/-! ## Single labels -/

/-- There is no label, or a single one above the bottom. -/
inductive Layered.Single (l : Lattice) : Layered → Prop
  | raw (r : Raw) : Single l (.raw r)
  | labeled (r : Raw) {k : Label} : l.bottom.less k = true → Single l (.labeled (.raw r) k)

lemma Value.Normal.single {v : Value} (h : v.Normal) (l : Lattice) : v.layered.Single l := by
  cases hless : v.isLabeled with
  | true =>
    rw [show v.layered = .labeled (.raw v.raw) v.label from layered_of_less hless]
    exact .labeled v.raw hless
  | false =>
    rw [show v.layered = .raw v.raw from if_pos (h hless)]
    exact .raw v.raw

/-- How a label is attached to a value and taken off. -/
structure Value.JoinsLabels (l : Lattice) (v : Value) : Prop where
  /-- Attaching labels one after the other attaches their join. -/
  twice : ∀ a b : Label, (v.wrap a).wrap b = v.wrap (a.join b)
  /-- What is taken off is the join with the label that was there, unless it is at the bottom. -/
  unlabel : ∀ a : Label, (v.wrap a).layered.unlabel = (.raw v.raw,
    if l.bottom.less (v.label.join a) then v.label.join a else .none)
  /-- Nothing else would come of values with labels around labels. -/
  flat : ∀ a : Label, v.layered.wrap a = (v.wrap a).layered
  single : ∀ a : Label, (v.layered.wrap a).Single l

lemma Value.joinsLabels (l : Lattice) (v : Value) : v.JoinsLabels l where
  twice := v.wrap_wrap
  unlabel a := by
    rw [unlabel_layered, wrap_raw, wrap_eq]
    change _ = (_, if Label.none.less (v.label.join a) then _ else _)
    split_ifs <;> rfl
  flat a := (v.layered_wrap a).symm
  single a := v.layered_wrap a ▸ (v.normal_wrap a).single l

/-! ## Labels in the course of sessions -/

section

variable {hosts : Hosts} (hhosts : hosts.Modest) {s₀ : State} (h₀ : Library.Untouched s₀)
  {ms : List Moment} {s : State} (h : Course hosts s₀ (Grade.full s₀.control.realm.lattice) ms s)
include hhosts h₀ h

lemma Course.single (l : Lattice) : (∀ v, s.Holds [] v → v.layered.Single l) ∧
    ∀ m ∈ ms, ∀ v, m.Passes (Grade.full s₀.control.realm.lattice) v → v.layered.Single l := by
  have hlived := Course.lived_full hhosts h₀ h
  have hwelcome : (h₀.origin .full).Welcomes hosts :=
    ⟨hhosts.composed, fun _ _ => hhosts.alike _ trivial trivial⟩
  refine ⟨fun v hv => (hlived.regular.graded hv).normal.single l, fun m hm v hv => ?_⟩
  exact (hlived.passes hwelcome trivial (Grade.reads_full ms) hm hv).normal.single l

end

/-- **Labels never nest.** Attaching a label joins it to the one that is there. And however a host
uses a fresh session: whatever is in the heap, in the activations in progress and in the register
for results, whatever code comes to, and whatever is thrown, asked with, answered and given to the
host, has no label, or a single one above the bottom. -/
theorem labels_never_nest {hosts : Hosts} (hhosts : hosts.Modest) {o : Library.Options}
    {ms : List Moment} {s : State}
    (h : Course hosts (Session.fresh o) (Grade.full (Session.fresh o).control.realm.lattice) ms s) :
    (∀ v : Value, v.JoinsLabels (Session.fresh o).control.realm.lattice) ∧
      (∀ v, s.Holds [] v → v.layered.Single (Session.fresh o).control.realm.lattice) ∧
      ∀ m ∈ ms, ∀ v, m.Passes (Grade.full (Session.fresh o).control.realm.lattice) v →
        v.layered.Single (Session.fresh o).control.realm.lattice :=
  ⟨Value.joinsLabels _, Course.single hhosts (Session.untouched_fresh o) h _⟩

/-- A script that attaches labels to what carries labels, in objects and in calls. -/
def relabelingScript : Action Value :=
  evaluate ("var o = \x7ba: label('L', label('H', 1))\x7d; " ++
    "function f(x) \x7b return label('H', x); \x7d f(o.a)") "" 1

/-- The session after the script. -/
def relabelingSession : State :=
  (relabelingScript.run (machine .none 50 50) 50 (Session.fresh .standard)).state

/-- Some property holds a value with a label. -/
def State.keepsLabel (s : State) : Bool :=
  (List.range s.store.heap.size).any fun id =>
    (s.store.heap.get id).slots.any fun slot => slot.2.value.isLabeled

set_option maxRecDepth 100000 in
/-- The script leaves a label behind, and all labels are single ones above the bottom. -/
theorem labels_never_nest_after_relabeling : relabelingSession.keepsLabel = true ∧
    ∀ v, relabelingSession.Holds [] v →
      v.layered.Single (Session.fresh .standard).control.realm.lattice := by
  -- the object of the first statement
  have hkeeps : 110 < relabelingSession.store.heap.size ∧
      ((relabelingSession.store.heap.get 110).slots.any fun slot => slot.2.value.isLabeled) =
        true := by
    rw [relabelingSession, relabelingScript, ← String.ofList_append, evaluate_ofList]
    decide +kernel
  refine ⟨List.any_eq_true.2 ⟨110, List.mem_range.2 hkeeps.1, hkeeps.2⟩, ?_⟩
  have hcourse : Course .none (Session.fresh .standard) (Grade.full _) _ relabelingSession :=
    .deed 50 50 .start (.evaluate _ _ _ fun _ _ node _ => Grade.allows_full node)
  exact (labels_never_nest Hosts.modest_none hcourse).2.1

end Clearance
