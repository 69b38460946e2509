/-
# Two runs in step

The same code of the core runs twice, on globals that agree up to a level. While the program
counter is not above the level, both runs do the same: `View.Lockstep` says that they end in the
same way, in states that agree again. Where a label above the level decides, the runs part; each
of them then runs on its own at a raised program counter, where nothing it does shows
(`View.Unseen`), and they meet again at the end of the region.

They do not meet if one of them leaves the region by a jump or by an exception. A program that does
not jump can only throw there, and throws until its end. A program that jumps must not leave a
region in this way: it is calm if no region `Escapes`.
-/
import Clearance.Proofs.Unseen

namespace Clearance

open Clearance.Action

/-- A region above a level is entered from below it and left by an exception or by a jump. -/
inductive Escapes (E : Engine) (l : Label) : Visit → Prop
  | failed {α : Type} {pc : Label} {scope : Nat} {p : Action α} {s t : State} {cs : List Attempt}
      {f : Failure} :
      s.control.pc.leq l = true → l.less pc = true → f.catchable = true →
      (region pc scope p).run E.serve E.fuel s = .failed f t →
      Escapes E l ⟨region pc scope p, s, cs⟩
  | jumped {pc : Label} {scope : Nat} {p : Action Completion} {s t : State} {cs : List Attempt}
      {c : Completion} :
      s.control.pc.leq l = true → l.less pc = true → c.isAbrupt = true →
      (region pc scope p).run E.serve E.fuel s = .done c t →
      Escapes E l ⟨region pc scope p, s, cs⟩
  /-- A loop ends in this way. -/
  | ended {pc : Label} {scope : Nat} {p : Action (Label ⊕ Completion)} {s t : State}
      {cs : List Attempt} {c : Completion} :
      s.control.pc.leq l = true → l.less pc = true → c.isAbrupt = true →
      (region pc scope p).run E.serve E.fuel s = .done (.inr c) t →
      Escapes E l ⟨region pc scope p, s, cs⟩

namespace View

/-- If the program jumps, then no region escapes in the course of a run. -/
def Calm (V : View) (E : Engine) {α : Type} (p : Action α) (next : Next α) (cs : List Attempt)
    (s : State) : Prop :=
  V.jumps = true → ∀ w ∈ p.visits E.serve E.watch E.fuel next cs s, ¬Escapes E V.level w

/-- An outcome after which the program does not end normally. -/
inductive Ends (V : View) {α : Type} (D : α → Prop) : Outcome α → Prop
  | stuck {w : Stuck} {s : State} : Ends V D (.stuck w s)
  | final {f : Failure} {s : State} : f.catchable = false → Ends V D (.failed f s)
  | thrown {f : Failure} {s : State} : V.jumps = false → Ends V D (.failed f s)
  | doomed {x : α} {s : State} : V.jumps = false → D x → Ends V D (.done x s)

/-- Two states of the same program. -/
structure Twins (V : View) (s s' : State) : Prop where
  left : V.Shows s
  right : V.Shows s'
  agrees : s.Agrees V.level s'

/-- Two outcomes that look the same, unless one of the programs does not end normally. -/
inductive Meets (V : View) {α : Type} (R : α → α → Prop) (D : α → Prop) :
    Outcome α → Outcome α → Prop
  | left {o o' : Outcome α} : V.Ends D o → Meets V R D o o'
  | right {o o' : Outcome α} : V.Ends D o' → Meets V R D o o'
  | done {x x' : α} {t t' : State} : R x x' → V.Twins t t' → Meets V R D (.done x t) (.done x' t')
  | failed {f f' : Failure} {t t' : State} : f.catchable = true → f'.catchable = true →
      V.Twins t t' → Meets V R D (.failed f t) (.failed f' t')

/-- Up to the level, two calm runs do the same. -/
def Lockstep (V : View) {α : Type} (p p' : Action α) (R : α → α → Prop) (D : α → Prop) : Prop :=
  ∀ (E E' : Engine) (next next' : Next α) (cs cs' : List Attempt) (s s' : State),
    V.Twins s s' → s.control.pc.leq V.level = true → V.Calm E p next cs s →
    V.Calm E' p' next' cs' s' →
    V.Meets R D (p.run E.serve E.fuel s) (p'.run E'.serve E'.fuel s')

/-- Nothing is doomed. -/
abbrev Never {α : Type} (_ : α) : Prop := False

end View

variable {V : View} {α β : Type}

namespace View

/-- Each of the twins goes on unseen. -/
lemma Twins.of_follows {s s' t t' : State} (h : V.Twins s s') (ht : V.Follows s t)
    (ht' : V.Follows s' t') : V.Twins t t' :=
  ⟨h.left.of_follows ht, h.right.of_follows ht', (ht.agrees.symm.trans h.agrees).trans ht'.agrees⟩

namespace Calm

variable {E : Engine} {next : Next α} {cs : List Attempt} {s u : State}

lemma first {p : Action β} {k : β → Action α} (h : V.Calm E (p >>= k) next cs s) :
    V.Calm E p ⟨k⟩ cs s := fun hj w hw => h hj w (mem_visits_first hw)

lemma rest {p : Action β} {k : β → Action α} {x : β} (h : V.Calm E (p >>= k) next cs s)
    (hp : p.run E.serve E.fuel s = .done x u) : V.Calm E (k x) .nothing cs u :=
  fun hj w hw => h hj w (mem_visits_rest hp hw)

lemma attempt {p : Action β} {next : Next (Except Failure β)}
    (h : V.Calm E (Action.attempt p) next cs s) :
    V.Calm E p .nothing (⟨p, next.action⟩ :: cs) s :=
  fun hj w hw => h hj w (List.mem_cons_of_mem _ hw)

lemma region {pc : Label} {scope : Nat} {p : Action α}
    (h : V.Calm E (.region pc scope p) next cs s) :
    V.Calm E p .nothing cs ⟨{ s.control with pc, scope }, s.store⟩ :=
  fun hj w hw => h hj w (List.mem_cons_of_mem _ hw)

end Calm

namespace Lockstep

variable {R : α → α → Prop} {D : α → Prop}

lemma pure {x x' : α} (h : R x x') : V.Lockstep (Pure.pure x) (Pure.pure x') R D :=
  fun _ _ _ _ _ _ _ _ hs _ _ _ => .done h hs

/-- Both runs fail with the same kind of error. -/
lemma fail (f : Failure) : V.Lockstep (.fail f : Action α) (.fail f) R D := by
  intro E E' _ _ _ _ s s' hs _ _ _
  cases hf : f.catchable with
  | true => exact .failed hf hf hs
  | false => exact .left (.final hf)

lemma mono {p p' : Action α} {S : α → α → Prop} (h : V.Lockstep p p' S D)
    (hS : ∀ x x', S x x' → R x x') : V.Lockstep p p' R D := by
  intro E E' next next' cs cs' s s' hs hpc hcalm hcalm'
  have hmeets := h E E' next next' cs cs' s s' hs hpc hcalm hcalm'
  generalize p.run E.serve E.fuel s = o at hmeets ⊢
  generalize p'.run E'.serve E'.fuel s' = o' at hmeets ⊢
  cases hmeets with
  | left h => exact .left h
  | right h => exact .right h
  | done h ht => exact .done (hS _ _ h) ht
  | failed hf hf' ht => exact .failed hf hf' ht

/-- Runs that meet go on in step. What follows a result that dooms the program must not save
it. -/
lemma bind {p p' : Action β} {k k' : β → Action α} {S : β → β → Prop} {C : β → Prop}
    (hp : V.Lockstep p p' S C) (hk : ∀ x x', S x x' → V.Lockstep (k x) (k' x') R D)
    (hC : ∀ x, C x → V.jumps = false → ∀ (E : Engine) (s : State),
      V.Ends D ((k x).run E.serve E.fuel s) ∧ V.Ends D ((k' x).run E.serve E.fuel s)) :
    V.Lockstep (p >>= k) (p' >>= k') R D := by
  intro E E' next next' cs cs' s s' hs hpc hcalm hcalm'
  have hmeets := hp E E' ⟨k⟩ ⟨k'⟩ cs cs' s s' hs hpc hcalm.first hcalm'.first
  have hcontrol : ∀ x u, p.run E.serve E.fuel s = .done x u → u.control = s.control :=
    fun x u h => run_done_control E.keeps h
  have hrest : ∀ x u, p.run E.serve E.fuel s = .done x u → V.Calm E (k x) .nothing cs u :=
    fun x u h => hcalm.rest h
  have hrest' : ∀ x u, p'.run E'.serve E'.fuel s' = .done x u → V.Calm E' (k' x) .nothing cs' u :=
    fun x u h => hcalm'.rest h
  rw [run_bind, run_bind]
  generalize p.run E.serve E.fuel s = o at hmeets hcontrol hrest ⊢
  generalize p'.run E'.serve E'.fuel s' = o' at hmeets hrest' ⊢
  cases hmeets with
  | left h =>
    refine .left ?_
    cases h with
    | stuck => exact .stuck
    | final hf => exact .final hf
    | thrown hj => exact .thrown hj
    | doomed hj hx => exact (hC _ hx hj E _).1
  | right h =>
    refine .right ?_
    cases h with
    | stuck => exact .stuck
    | final hf => exact .final hf
    | thrown hj => exact .thrown hj
    | doomed hj hx => exact (hC _ hx hj E' _).2
  | @done x x' t t' hx ht =>
    refine hk x x' hx E E' .nothing .nothing cs cs' t t' ht ?_ (hrest x t rfl) (hrest' x' t' rfl)
    rw [hcontrol x t rfl]
    exact hpc
  | failed hf hf' ht => exact .failed hf hf' ht

/-- The common case: no result of the first part dooms the program. -/
lemma seq {p p' : Action β} {k k' : β → Action α} {S : β → β → Prop}
    (hp : V.Lockstep p p' S Never) (hk : ∀ x x', S x x' → V.Lockstep (k x) (k' x') R D) :
    V.Lockstep (p >>= k) (p' >>= k') R D :=
  bind hp hk fun _ hx => hx.elim

/-- Catchable failures are handled in step. -/
lemma attempt {p p' : Action β} {k k' : Except Failure β → Action α} {S : β → β → Prop}
    (hp : V.Lockstep p p' S Never)
    (hok : ∀ x x', S x x' → V.Lockstep (k (.ok x)) (k' (.ok x')) R D)
    (herr : ∀ f f', f.catchable = true → f'.catchable = true →
      V.Lockstep (k (.error f)) (k' (.error f')) R D)
    (hend : ∀ f, f.catchable = false ∨ V.jumps = false → ∀ (E : Engine) (s : State),
      V.Ends D ((k (.error f)).run E.serve E.fuel s) ∧
        V.Ends D ((k' (.error f)).run E.serve E.fuel s)) :
    V.Lockstep (Action.attempt p >>= k) (Action.attempt p' >>= k') R D := by
  intro E E' next next' cs cs' s s' hs hpc hcalm hcalm'
  have hmeets := hp E E' .nothing .nothing _ _ s s' hs hpc hcalm.first.attempt hcalm'.first.attempt
  have hattempt := @run_attempt β E.serve E.fuel p s
  have hattempt' := @run_attempt β E'.serve E'.fuel p' s'
  have hcontrol : (p.run E.serve E.fuel s).state.control = s.control := run_control E.keeps p s
  rw [run_bind, run_bind]
  generalize p.run E.serve E.fuel s = o at hmeets hattempt hcontrol
  generalize p'.run E'.serve E'.fuel s' = o' at hmeets hattempt'
  cases hmeets with
  | left h =>
    refine .left ?_
    rw [hattempt]
    cases h with
    | stuck => exact .stuck
    | final hf => exact (hend _ (.inl hf) E _).1
    | thrown hj => exact (hend _ (.inr hj) E _).1
    | doomed _ hx => exact hx.elim
  | right h =>
    refine .right ?_
    rw [hattempt']
    cases h with
    | stuck => exact .stuck
    | final hf => exact (hend _ (.inl hf) E' _).2
    | thrown hj => exact (hend _ (.inr hj) E' _).2
    | doomed _ hx => exact hx.elim
  | @done x x' t t' hx ht =>
    rw [hattempt, hattempt']
    refine hok x x' hx E E' .nothing .nothing cs cs' t t' ht ?_ (hcalm.rest hattempt)
      (hcalm'.rest hattempt')
    rw [show t.control = s.control from hcontrol]
    exact hpc
  | @failed f f' t t' hf hf' ht =>
    rw [hattempt, hattempt']
    refine herr f f' hf hf' E E' .nothing .nothing cs cs' t t' ht ?_ (hcalm.rest hattempt)
      (hcalm'.rest hattempt')
    rw [show t.control = s.control from hcontrol]
    exact hpc

end Lockstep

/-! ## Regions -/

/-- The twins inside a region. -/
lemma Twins.enter {s s' : State} (h : V.Twins s s') (pc : Label) :
    V.Twins ⟨{ s.control with pc, scope := s.control.scope }, s.store⟩
      ⟨{ s'.control with pc, scope := s'.control.scope }, s'.store⟩ :=
  ⟨⟨⟨h.left.staged.scope, h.left.staged.scene⟩, h.left.realm⟩,
    ⟨⟨h.right.staged.scope, h.right.staged.scene⟩, h.right.realm⟩,
    by rw [h.agrees.control], h.agrees.globals⟩

/-- The twins after a region. -/
lemma Twins.restore {s s' t t' : State} (hs : V.Twins s s') (ht : V.Twins t t') :
    V.Twins { t with control := { t.control with pc := s.control.pc, scope := s.control.scope } }
      { t' with control :=
        { t'.control with pc := s'.control.pc, scope := s'.control.scope } } := by
  have hscope : s.control.scope = t.control.realm.globalFrame := by
    rw [hs.left.staged.scope, hs.left.realm, ht.left.realm]
  have hscope' : s'.control.scope = t'.control.realm.globalFrame := by
    rw [hs.right.staged.scope, hs.right.realm, ht.right.realm]
  refine ⟨⟨⟨hscope, ht.left.staged.scene⟩, ht.left.realm⟩,
    ⟨⟨hscope', ht.right.staged.scene⟩, ht.right.realm⟩, ?_, ht.agrees.globals⟩
  rw [ht.agrees.control, hs.agrees.control]

lemma Ends.mapState {D : α → Prop} {o : Outcome α} (h : V.Ends D o) (g : State → State) :
    V.Ends D (o.mapState g) := by
  cases h with
  | stuck => exact .stuck
  | final hf => exact .final hf
  | thrown hj => exact .thrown hj
  | doomed hj hx => exact .doomed hj hx

/-- A calm region that is entered with `withPc`. -/
lemma Calm.withPc {E : Engine} {next : Next α} {cs : List Attempt} {s : State} {pc : Label}
    {p : Action α} (h : V.Calm E (Action.withPc pc p) next cs s) :
    V.Calm E (.region pc s.control.scope p) .nothing cs s :=
  Calm.rest h rfl

namespace Lockstep

variable {R : α → α → Prop} {D : α → Prop}

lemma withPc {pc : Label} {p p' : Action α} (hpc : pc.leq V.level = true)
    (hp : V.Lockstep p p' R D) : V.Lockstep (Action.withPc pc p) (Action.withPc pc p') R D := by
  intro E E' next next' cs cs' s s' hs _ hcalm hcalm'
  have hmeets := hp E E' .nothing .nothing cs cs' _ _ (hs.enter pc) hpc hcalm.withPc.region
    hcalm'.withPc.region
  rw [run_withPc, run_withPc, run_region, run_region]
  generalize p.run E.serve E.fuel _ = o at hmeets ⊢
  generalize p'.run E'.serve E'.fuel _ = o' at hmeets ⊢
  cases hmeets with
  | left h => exact .left (h.mapState _)
  | right h => exact .right (h.mapState _)
  | done hx ht => exact .done hx (hs.restore ht)
  | failed hf hf' ht => exact .failed hf hf' (hs.restore ht)

end Lockstep

/-! ## Runs that part -/

/-- A calm run of the action, from below the level, ends the program or does not show. -/
def Aside (V : View) (p : Action α) (S D : α → Prop) : Prop :=
  ∀ (E : Engine) (next : Next α) (cs : List Attempt) (s : State), V.Shows s →
    s.control.pc.leq V.level = true → V.Calm E p next cs s →
    V.Ends D (p.run E.serve E.fuel s) ∨
      ∃ x t, p.run E.serve E.fuel s = .done x t ∧ S x ∧ V.Follows s t

/-- What a region above the level results in, if it does not escape. -/
def Settles (V : View) (Q S D : α → Prop) : Prop :=
  ∀ (E : Engine) (pc : Label) (scope : Nat) (p : Action α) (s t : State) (cs : List Attempt)
    (x : α), s.control.pc.leq V.level = true → V.level.less pc = true → Q x →
    (region pc scope p).run E.serve E.fuel s = .done x t →
    (V.jumps = true → ¬Escapes E V.level ⟨region pc scope p, s, cs⟩) →
    (V.jumps = false ∧ D x) ∨ S x

namespace Aside

variable {S D Q : α → Prop}

lemma pure {x : α} (h : S x) : V.Aside (Pure.pure x) S D :=
  fun _ _ _ s hs _ _ => .inr ⟨x, s, rfl, h, .refl hs⟩

/-- An action that always ends normally, in a state that looks the same. -/
lemma of_done {p : Action α}
    (h : ∀ (E : Engine) (s : State), V.Shows s → s.control.pc.leq V.level = true →
      ∃ x t, p.run E.serve E.fuel s = .done x t ∧ S x ∧ V.Follows s t) : V.Aside p S D :=
  fun E _ _ s hs hlow _ => .inr (h E s hs hlow)

lemma bind {p : Action β} {k : β → Action α} {T : β → Prop} (hp : V.Aside p T Never)
    (hk : ∀ x, T x → V.Aside (k x) S D) : V.Aside (p >>= k) S D := by
  intro E next cs s hs hlow hcalm
  rw [run_bind]
  rcases hp E ⟨k⟩ cs s hs hlow hcalm.first with hends | ⟨x, t, hrun, hx, ht⟩
  · left
    cases ho : p.run E.serve E.fuel s with
    | done x t =>
      rw [ho] at hends
      cases hends with
      | doomed _ h => exact h.elim
    | failed f t =>
      rw [ho] at hends
      cases hends with
      | final hf => exact .final hf
      | thrown hj => exact .thrown hj
    | stuck w t => exact .stuck
  · rw [hrun]
    have hlow' : t.control.pc.leq V.level = true := by
      rw [ht.agrees.control]
      exact hlow
    rcases hk x hx E .nothing cs t (hs.of_follows ht) hlow' (hcalm.rest hrun) with
      hends | ⟨y, u, hrun', hy, hu⟩
    · exact .inl hends
    · exact .inr ⟨y, u, hrun', hy, ht.trans hu⟩

/-- A region above the level. -/
lemma withPc {pc : Label} {p : Action α} (hpc : V.level.less pc = true) (hp : V.Unseen p Q)
    (hV : V.Settles Q S D) : V.Aside (Action.withPc pc p) S D := by
  intro E next cs s hs hlow hcalm
  obtain ⟨hfollows, hx⟩ := hp.run_withPc hpc E hs
  have hregion : V.jumps = true → ¬Escapes E V.level ⟨region pc s.control.scope p, s, cs⟩ :=
    fun hj => hcalm.withPc hj _ (mem_visits_self _ _ _ _)
  rw [run_withPc] at hfollows hx ⊢
  cases ho : (region pc s.control.scope p).run E.serve E.fuel s with
  | done x t =>
    rw [ho] at hfollows
    rcases hV E pc _ p s t cs x hlow hpc (hx x t ho) ho hregion with ⟨hj, hD⟩ | hSx
    · exact .inl (.doomed hj hD)
    · exact .inr ⟨x, t, rfl, hSx, hfollows⟩
  | stuck w t => exact .inl .stuck
  | failed f t =>
    refine .inl ?_
    cases hj : V.jumps with
    | false => exact .thrown hj
    | true =>
      refine .final ?_
      by_contra hf
      exact hregion hj (.failed hlow hpc (by simpa using hf) ho)

end Aside

/-- Runs that part meet again. -/
lemma Lockstep.of_aside {p p' : Action α} {S D : α → Prop} {R : α → α → Prop}
    (hp : V.Aside p S D) (hp' : V.Aside p' S D) (hR : ∀ x x', S x → S x' → R x x') :
    V.Lockstep p p' R D := by
  intro E E' next next' cs cs' s s' hs hlow hcalm hcalm'
  have hlow' : s'.control.pc.leq V.level = true := by
    rw [hs.agrees.control]
    exact hlow
  rcases hp E next cs s hs.left hlow hcalm with h | ⟨x, t, hrun, hx, ht⟩
  · exact .left h
  rcases hp' E' next' cs' s' hs.right hlow' hcalm' with h | ⟨x', t', hrun', hx', ht'⟩
  · exact .right h
  rw [hrun, hrun']
  exact .done (hR x x' hx hx') (hs.of_follows ht ht')

end View
end Clearance
