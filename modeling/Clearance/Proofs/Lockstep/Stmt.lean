/-
# Statements in step

The statements of the core do not show above a level, and run in step up to it.

The state of a loop is its program counter. As long as it is not above the level, the rounds of
two runs are in step. Once a test above the level has been passed in one of them, or has ended the
loop there, each run goes through its remaining rounds on its own, above the level, and they meet
at the end of the loop.
-/
import Clearance.Proofs.Lockstep.Expr

namespace Clearance

open Clearance.Action Script

/-! ## Rounds -/

namespace View

/-- Runs of the statement are not seen above the level, and in step up to it. -/
structure SecureStmt (V : View) (p : Action Completion) : Prop where
  unseen : V.Unseen p V.Ending
  lockstep : V.Lockstep p p Completion.Agrees Completion.Thrown

/-- What a round above the level results in. -/
abbrev Round (V : View) : Label ⊕ Completion → Prop :=
  Sum.elim (V.level.less · = true) V.Ending

/-- The loop goes on above the level, or it is over. -/
abbrev Above (V : View) : Label ⊕ Completion → Prop :=
  Sum.elim (V.level.less · = true) (· = .normal)

/-- The round ends with a thrown value. -/
abbrev ThrowsRound : Label ⊕ Completion → Prop := Sum.elim Never Completion.Thrown

/-- Rounds that are in step, or that part. -/
inductive SameRound (V : View) : Label ⊕ Completion → Label ⊕ Completion → Prop
  | goes {pc : Label} : pc.leq V.level = true → SameRound V (.inl pc) (.inl pc)
  | ends {c c' : Completion} : c.Agrees c' → SameRound V (.inr c) (.inr c')
  | apart {r r' : Label ⊕ Completion} : V.Above r → V.Above r' → SameRound V r r'

variable {V : View}

lemma Ending.normal : V.Ending .normal := fun _ => .inl rfl

lemma Ending.thrown {c : Completion} (h : c.Thrown) : V.Ending c := fun _ => .inr h

/-- A round above the level that does not escape goes on or ends normally. -/
lemma settles_round : V.Settles V.Round V.Above ThrowsRound := by
  intro E pc scope p s t cs r hlow hpc hr hrun hesc
  cases r with
  | inl pc => exact .inr hr
  | inr c =>
    cases hj : V.jumps with
    | false =>
      rcases hr hj with hnormal | hthrown
      · exact .inr hnormal
      · exact .inl ⟨rfl, hthrown⟩
    | true =>
      refine .inr ?_
      by_contra hne
      refine hesc hj (.ended hlow hpc ?_ hrun)
      cases c <;> first | rfl | exact absurd rfl hne

/-- A result that dooms the program still does when it is passed on. -/
lemma Ends.bind_pure {α β : Type} {D : α → Prop} {C : β → Prop} {p : Action α} {E : Engine}
    {s : State} (h : V.Ends D (p.run E.serve E.fuel s)) {f : α → β}
    (hf : ∀ x, D x → C (f x)) : V.Ends C ((p >>= fun x => pure (f x)).run E.serve E.fuel s) := by
  rw [run_bind]
  cases ho : p.run E.serve E.fuel s with
  | done x t =>
    rw [ho] at h
    cases h with
    | doomed hj hx => exact .doomed hj (hf x hx)
  | failed f t =>
    rw [ho] at h
    cases h with
    | final hf => exact .final hf
    | thrown hj => exact .thrown hj
  | stuck w t => exact .stuck

/-! ## Many rounds -/

section

variable {step : Label → Action (Label ⊕ Completion)} {E E' : Engine}

/-- The remaining rounds of a loop above the level. -/
lemma aside_iterate (hhigh : ∀ pc, V.level.less pc = true → V.Aside (step pc) V.Above ThrowsRound)
    (cs : List Attempt) (n : Nat) : ∀ (r : Label ⊕ Completion) (s : State), V.Above r →
      V.Shows s → s.control.pc.leq V.level = true →
      (V.jumps = true → ∀ pc, r = .inl pc →
        ∀ w ∈ iterateVisits (fun x s => (step x).run E.serve E.fuel s)
          (fun x s => (step x).visits E.serve E.watch E.fuel .nothing cs s) n pc s,
        ¬Escapes E V.level w) →
      let o := match r with
        | .inl pc => iterate (fun x s => (step x).run E.serve E.fuel s) n pc s
        | .inr c => .done c s
      V.Ends Completion.Thrown o ∨ ∃ t, o = .done .normal t ∧ V.Follows s t := by
  -- on the rounds; the outcome of a round is a program counter above the level, or the loop is over
  induction n with
  | zero =>
    intro r s hr hs _ _
    cases r with
    | inl pc => exact .inl .stuck
    | inr c =>
      obtain rfl : c = .normal := hr
      exact .inr ⟨s, rfl, .refl hs⟩
  | succ n ih =>
    intro r s hr hs hlow hcalm
    cases r with
    | inr c =>
      obtain rfl : c = .normal := hr
      exact .inr ⟨s, rfl, .refl hs⟩
    | inl pc =>
      dsimp only
      unfold iterate
      have hvisits : V.jumps = true → _ := fun hj => hcalm hj pc rfl
      unfold iterateVisits at hvisits
      have hstep : V.Calm E (step pc) .nothing cs s := fun hj w hw =>
        hvisits hj w (List.mem_append_left _ hw)
      rcases hhigh pc hr E .nothing cs s hs hlow hstep with hends | ⟨r, t, hrun, hr', ht⟩
      · left
        cases ho : (step pc).run E.serve E.fuel s with
        | done r t =>
          rw [ho] at hends
          cases hends with
          | doomed hj hr =>
            cases r with
            | inl pc => exact hr.elim
            | inr c => exact .doomed hj hr
        | failed f t =>
          rw [ho] at hends
          cases hends with
          | final hf => exact .final hf
          | thrown hj => exact .thrown hj
        | stuck w t => exact .stuck
      · rw [hrun] at hvisits ⊢
        have hlow' : t.control.pc.leq V.level = true := by
          rw [ht.agrees.control]
          exact hlow
        -- what the other rounds meet is among what the whole loop meets
        have hrest : V.jumps = true → ∀ pc, r = .inl pc → _ := fun hj pc hpc w hw =>
          hvisits hj w (List.mem_append_right _ (by rw [hpc]; exact hw))
        have hnext := ih r t hr' (hs.of_follows ht) hlow' hrest
        cases r <;> (rcases hnext with hends | ⟨u, hu, hfollows⟩
                     · exact .inl hends
                     · exact .inr ⟨u, hu, ht.trans hfollows⟩)

/-- Rounds in step, until the runs part or the loop ends. -/
lemma meets_iterate
    (hlow : ∀ pc, pc.leq V.level = true →
      V.Lockstep (step pc) (step pc) V.SameRound ThrowsRound)
    (hhigh : ∀ pc, V.level.less pc = true → V.Aside (step pc) V.Above ThrowsRound)
    (cs cs' : List Attempt) (n : Nat) : ∀ (n' : Nat) (pc : Label) (s s' : State),
      pc.leq V.level = true → V.Twins s s' → s.control.pc.leq V.level = true →
      (V.jumps = true → ∀ w ∈ iterateVisits (fun x s => (step x).run E.serve E.fuel s)
        (fun x s => (step x).visits E.serve E.watch E.fuel .nothing cs s) n pc s,
        ¬Escapes E V.level w) →
      (V.jumps = true → ∀ w ∈ iterateVisits (fun x s => (step x).run E'.serve E'.fuel s)
        (fun x s => (step x).visits E'.serve E'.watch E'.fuel .nothing cs' s) n' pc s',
        ¬Escapes E' V.level w) →
      V.Meets Completion.Agrees Completion.Thrown
        (iterate (fun x s => (step x).run E.serve E.fuel s) n pc s)
        (iterate (fun x s => (step x).run E'.serve E'.fuel s) n' pc s') := by
  -- on the rounds of the first run; the second one may need any number of them
  induction n with
  | zero => exact fun _ _ _ _ _ _ _ _ _ => .left .stuck
  | succ n ih =>
    intro n' pc s s' hpc hs hlow' hcalm hcalm'
    cases n' with
    | zero => exact .right .stuck
    | succ n' =>
      unfold iterateVisits at hcalm hcalm'
      have hmeets := hlow pc hpc E E' .nothing .nothing cs cs' s s' hs hlow'
        (fun hj w hw => hcalm hj w (List.mem_append_left _ hw))
        (fun hj w hw => hcalm' hj w (List.mem_append_left _ hw))
      have hcontrol : ((step pc).run E.serve E.fuel s).state.control = s.control :=
        run_control E.keeps _ s
      unfold iterate
      generalize (step pc).run E.serve E.fuel s = o at hmeets hcontrol hcalm ⊢
      generalize (step pc).run E'.serve E'.fuel s' = o' at hmeets hcalm' ⊢
      cases hmeets with
      | left h =>
        refine .left ?_
        cases h with
        | stuck => exact .stuck
        | final hf => exact .final hf
        | thrown hj => exact .thrown hj
        | @doomed r _ hj hr =>
          cases r with
          | inl pc => exact hr.elim
          | inr c => exact .doomed hj hr
      | right h =>
        refine .right ?_
        cases h with
        | stuck => exact .stuck
        | final hf => exact .final hf
        | thrown hj => exact .thrown hj
        | @doomed r _ hj hr =>
          cases r with
          | inl pc => exact hr.elim
          | inr c => exact .doomed hj hr
      | failed hf hf' ht => exact .failed hf hf' ht
      | @done r r' t t' hr ht =>
        have hlowt : t.control.pc.leq V.level = true := by
          rw [show t.control = s.control from hcontrol]
          exact hlow'
        have hlowt' : t'.control.pc.leq V.level = true := by
          rw [ht.agrees.control]
          exact hlowt
        cases hr with
        | goes hpc' =>
          exact ih n' _ t t' hpc' ht hlowt
            (fun hj w hw => hcalm hj w (List.mem_append_right _ hw))
            (fun hj w hw => hcalm' hj w (List.mem_append_right _ hw))
        | ends hc => exact .done hc ht
        -- from here on each run is alone, and above the level
        | apart habove habove' =>
          have hrest := aside_iterate (E := E) hhigh cs n r t habove ht.left hlowt
            fun hj pc hpc w hw => hcalm hj w (List.mem_append_right _ (by rw [hpc]; exact hw))
          have hrest' := aside_iterate (E := E') hhigh cs' n' r' t' habove' ht.right hlowt'
            fun hj pc hpc w hw => hcalm' hj w (List.mem_append_right _ (by rw [hpc]; exact hw))
          cases r <;> cases r' <;>
            (rcases hrest with hends | ⟨u, hu, hfollows⟩
             · exact .left hends
             rcases hrest' with hends | ⟨u', hu', hfollows'⟩
             · exact .right hends
             dsimp only at hu hu' ⊢
             rw [hu, hu']
             exact .done .normal (ht.of_follows hfollows hfollows'))

end

/-- A loop is secure if its rounds are. -/
lemma secure_loop {round : Label → Action (Label ⊕ Completion)}
    (hunseen : ∀ pc, V.level.less pc = true → V.Unseen (round pc) V.Round)
    (hlow : ∀ pc, pc.leq V.level = true →
      V.Lockstep (round pc) (round pc) V.SameRound ThrowsRound) :
    V.SecureStmt (do loop (← pc) fun pc => withPc pc (round pc)) where
  unseen := .bind .pc fun pc hpc => .loop hpc fun pc hpc => .withPc hpc (hunseen pc hpc)
  lockstep := by
    refine .seq (S := fun pc pc' => pc = pc' ∧ pc.leq V.level = true)
      (.of_done fun E E' s s' hs hpc =>
        ⟨_, _, s, s', rfl, rfl, hs, by rw [hs.agrees.control], hpc⟩) ?_
    rintro pc _ ⟨rfl, hpc⟩ E E' _ _ cs cs' s s' hs hpcs hcalm hcalm'
    exact meets_iterate (fun pc hpc => .withPc hpc (hlow pc hpc))
      (fun pc hpc => .withPc hpc (hunseen pc hpc) settles_round) cs cs' E.fuel E'.fuel pc s s' hpc
      hs hpcs (fun hj w hw => hcalm hj w (List.mem_cons_of_mem _ hw))
      (fun hj w hw => hcalm' hj w (List.mem_cons_of_mem _ hw))

end View

/-! ## Completions -/

namespace Completion

lemma Thrown.isAbrupt {c : Completion} (h : c.Thrown) : c.isAbrupt = true := by
  obtain ⟨v, line, rfl⟩ := h
  rfl

lemma Thrown.afterBreak {c : Completion} (h : c.Thrown) : c.afterBreak.Thrown := by
  obtain ⟨v, line, rfl⟩ := h
  exact ⟨v, line, rfl⟩

lemma Thrown.outward {c : Completion} (h : c.Thrown) : c.outward.Thrown := by
  obtain ⟨v, line, rfl⟩ := h
  exact ⟨v, line, rfl⟩

lemma Thrown.afterRound {c : Completion} (h : c.Thrown) : c.afterRound = some c := by
  obtain ⟨v, line, rfl⟩ := h
  rfl

namespace Agrees

variable {c c' : Completion}

lemma isAbrupt (h : c.Agrees c') : c'.isAbrupt = c.isAbrupt := by
  cases h <;> rfl

lemma outward (h : c.Agrees c') : c.outward.Agrees c'.outward := by
  cases h <;> constructor

lemma afterBreak (h : c.Agrees c') : c.afterBreak.Agrees c'.afterBreak := by
  cases h with
  | leave target =>
    rcases target with - | (- | n)
    · exact .leave _
    · exact .normal
    · exact .leave _
  | normal | resume | returned | thrown => constructor

/-- Loops go on in both runs, or end in the same way. -/
lemma afterRound (h : c.Agrees c') : (c.afterRound = none ∧ c'.afterRound = none) ∨
    ∃ d d', c.afterRound = some d ∧ c'.afterRound = some d' ∧ d.Agrees d' := by
  cases h with
  | normal => exact .inl ⟨rfl, rfl⟩
  | resume target =>
    rcases target with - | (- | n)
    · exact .inr ⟨_, _, rfl, rfl, .resume _⟩
    · exact .inl ⟨rfl, rfl⟩
    · exact .inr ⟨_, _, rfl, rfl, .resume _⟩
  | leave target => exact .inr ⟨_, _, rfl, rfl, (Agrees.leave target).afterBreak⟩
  | returned v v' => exact .inr ⟨_, _, rfl, rfl, .returned v v'⟩
  | thrown v v' line line' => exact .inr ⟨_, _, rfl, rfl, .thrown v v' line line'⟩

end Agrees
end Completion

namespace View

variable {V : View} {α : Type}

namespace Ending

variable {c : Completion}

lemma outward (h : V.Ending c) : V.Ending c.outward := by
  intro hj
  rcases h hj with rfl | hthrown
  · exact .inl rfl
  · exact .inr hthrown.outward

lemma afterBreak (h : V.Ending c) : V.Ending c.afterBreak := by
  intro hj
  rcases h hj with rfl | hthrown
  · exact .inl rfl
  · exact .inr hthrown.afterBreak

lemma afterRound (h : V.Ending c) {d : Completion} (hd : c.afterRound = some d) : V.Ending d := by
  intro hj
  rcases h hj with rfl | hthrown
  · cases hd
  · rw [hthrown.afterRound] at hd
    cases hd
    exact .inr hthrown

end Ending

/-- A thrown value that is passed on. -/
lemma ends_pure {D : α → Prop} {x : α} (hx : D x) (hj : V.jumps = false) (E : Engine) (s : State) :
    V.Ends D ((pure x : Action α).run E.serve E.fuel s) := .doomed hj hx

/-! ## Simple statements -/

lemma Lockstep.setResult (v v' : Value) :
    V.Lockstep (Clearance.setResult v) (Clearance.setResult v') (fun _ _ => True) Never :=
  of_done fun _ _ _ _ hs _ =>
    ⟨_, _, _, _, rfl, rfl, hs.of_follows (hs.left.follows rfl rfl)
      (hs.right.follows rfl rfl), trivial⟩

lemma secure_expression (line : Nat) {p : Action Operand} (h : V.Secure p) :
    V.SecureStmt (guarded line (valueOf p) fun r => do
      setResult r.value
      return .normal) where
  unseen := .guarded line (.valueOf h.unseen)
    (fun _ _ => .bind (.setResult _) fun _ _ => .pure .normal) fun _ => .thrown
  lockstep := .guarded line (.valueOf h.lockstep) fun _ _ _ =>
    .seq (.setResult _ _) fun _ _ _ => .pure .normal

lemma secure_pure {c : Completion} (hc : V.Ending c) (hagrees : c.Agrees c) :
    V.SecureStmt (pure c) := ⟨.pure hc, .pure hagrees⟩

lemma secure_inOrder {ps : List (Action Completion)} (h : ∀ p ∈ ps, V.SecureStmt p) :
    V.SecureStmt (inOrder ps) := by
  induction ps with
  | nil => exact secure_pure .normal .normal
  | cons p ps ih =>
    rw [List.forall_mem_cons] at h
    refine ⟨.bind h.1.unseen fun c hc => .ite (fun _ => .pure hc) fun _ => (ih h.2).unseen,
      .bind h.1.lockstep (fun c c' hc => ?_) fun c hc hj E s => ?_⟩
    · rw [hc.isAbrupt]
      split_ifs
      · exact .pure hc
      · exact (ih h.2).lockstep
    · rw [if_pos hc.isAbrupt]
      exact ⟨ends_pure hc hj E s, ends_pure hc hj E s⟩

/-- A variable is given its initial value. -/
lemma secure_initialise {is : List Initialiser}
    (h : ∀ i ∈ is, i.name ∈ V.names ∧ V.Secure i.value) :
    V.SecureStmt (initialise .mutable is) := by
  induction is with
  | nil => exact secure_pure .normal .normal
  | cons i is ih =>
    rw [List.forall_mem_cons] at h
    obtain ⟨⟨hn, hv⟩, hrest⟩ := h
    refine ⟨.guarded (R := fun _ => True) i.line ?_ (fun _ _ => (ih hrest).unseen) fun _ => .thrown,
      .guarded (S := fun _ _ => True) i.line ?_ fun _ _ _ => (ih hrest).lockstep⟩
    · exact .bind (.placeOf hn) fun p hp => .bind (.valueOf hv.unseen) fun r hr =>
        .bind (.assign hp i.line hr true) fun _ _ => .pure trivial
    · refine .seq (.placeOf hn) fun p p' ⟨heq, hp⟩ => ?_
      rw [← heq]
      exact .seq (.valueOf hv.lockstep) fun r r' hr =>
        .seq (.assign hp i.line hr true) fun _ _ _ => .pure trivial

/-- A value decides what runs, in a region of its own. If it is above the level, the runs may part
there. -/
lemma secure_controlled (kind : String) (line testLine : Nat) {test : Action Operand}
    (ht : V.Secure test) {k : Rated → Action Completion} (hk : ∀ r, V.SecureStmt (k r)) :
    V.SecureStmt (guarded testLine (valueOf test) fun r => controlled kind line r.label (k r)) := by
  refine ⟨.guarded testLine (.valueOf ht.unseen) (fun r _ => ?_) fun _ => .thrown,
    .guarded testLine (.valueOf ht.lockstep) fun r r' hr => ?_⟩
  · exact (hk r).unseen.controlled kind line r.label
  rcases hr.cases with ⟨rfl, hlow⟩ | ⟨hless, hless'⟩
  · exact (hk r).lockstep.controlled kind line hlow
  · refine .of_aside (.controlled kind line hless (hk r).unseen settles_completion)
      (.controlled kind line hless' (hk r').unseen settles_completion) ?_
    rintro _ _ rfl rfl
    exact .normal

lemma secure_ite {c : Prop} [Decidable c] {p q : Action Completion} (hp : V.SecureStmt p)
    (hq : V.SecureStmt q) : V.SecureStmt (if c then p else q) := by
  split_ifs
  · exact hp
  · exact hq

/-! ## Loops -/

/-- A round that throws, in both runs. -/
lemma ends_round {c : Completion} (hc : c.Thrown) (hj : V.jumps = false) (E : Engine) (s : State) :
    V.Ends ThrowsRound ((pure (.inr c) : Action (Label ⊕ Completion)).run E.serve E.fuel s) ∧
      V.Ends ThrowsRound ((pure (.inr c) : Action (Label ⊕ Completion)).run E.serve E.fuel s) :=
  ⟨.doomed hj hc, .doomed hj hc⟩

/-- An exception ends a loop. -/
lemma unseen_throwRound (line : Nat) (f : Failure) :
    V.Unseen (do return .inr (← completionOf line f)) V.Round :=
  .bind (.completionOf line f) fun _ hc => .pure (Ending.thrown hc)

lemma lockstep_throwRound (line : Nat) {f f' : Failure} (hf : f.catchable = true)
    (hf' : f'.catchable = true) :
    V.Lockstep (do return .inr (← completionOf line f)) (do return .inr (← completionOf line f'))
      V.SameRound ThrowsRound :=
  .bind (.completionOf line hf hf') (fun _ _ hc => .pure (.ends hc)) fun _ hc hj E s =>
    ends_round hc hj E s

lemma ends_throwRound (line : Nat) {f : Failure} (hf : f.catchable = false ∨ V.jumps = false)
    (E : Engine) (s : State) :
    V.Ends ThrowsRound ((do return .inr (← completionOf line f) :
      Action (Label ⊕ Completion)).run E.serve E.fuel s) :=
  (ends_completionOf line hf E s).bind_pure fun _ hc => hc

/-- The test of a loop. A test above the level may be passed in one run and not in the other. -/
lemma unseen_pass {t : Test} (h : V.Secure t.action) (kind : String) (line : Nat) :
    V.Unseen (t.pass kind line) V.Round := by
  refine .attempt (.valueOf h.unseen) (fun r _ => ?_) fun f => unseen_throwRound t.line f
  exact .bind (.raisedPc kind line r.label) fun pc hpc =>
    .ite (fun _ => .pure hpc) fun _ => .pure Ending.normal

lemma lockstep_pass {t : Test} (h : V.Secure t.action) (kind : String) (line : Nat) :
    V.Lockstep (t.pass kind line) (t.pass kind line) V.SameRound ThrowsRound := by
  refine .attempt (.valueOf h.lockstep) (fun r r' hr => ?_)
    (fun f f' hf hf' => lockstep_throwRound t.line hf hf') fun f hf E s =>
    ⟨ends_throwRound t.line hf E s, ends_throwRound t.line hf E s⟩
  rcases hr.cases with ⟨rfl, hlow⟩ | ⟨hless, hless'⟩
  · refine .seq (.raisedPc kind line hlow) fun pc pc' ⟨hsame, hpc⟩ => ?_
    rw [← hsame]
    split_ifs
    · exact .pure (.goes hpc)
    · exact .pure (.ends .normal)
  · have haside : ∀ r : Rated, V.level.less r.label = true → V.Aside (do
        let pc ← raisedPc kind line r.label
        if r.raw.truth then return .inl pc else return .inr .normal) V.Above ThrowsRound := by
      intro r hless
      refine .bind (.raisedPc kind line hless) fun pc hpc => ?_
      split_ifs
      · exact .pure hpc
      · exact .pure rfl
    exact .of_aside (haside r hless) (haside r' hless') fun _ _ h h' => .apart h h'

/-- The test of a loop that may have none. -/
lemma unseen_passTest? {t : Option Test} (h : ∀ u ∈ t, V.Secure u.action) (kind : String)
    (line : Nat) : V.Unseen (passTest? t kind line) V.Round := by
  cases t with
  | none => exact .bind .pc fun _ hpc => .pure hpc
  | some t => exact unseen_pass (h t rfl) kind line

lemma lockstep_passTest? {t : Option Test} (h : ∀ u ∈ t, V.Secure u.action) (kind : String)
    (line : Nat) : V.Lockstep (passTest? t kind line) (passTest? t kind line) V.SameRound
      ThrowsRound := by
  cases t with
  | none =>
    refine .of_done fun E E' s s' hs hpc => ⟨_, _, s, s', rfl, rfl, hs, ?_⟩
    rw [hs.agrees.control]
    exact .goes hpc
  | some t => exact lockstep_pass (h t rfl) kind line

section

variable {body : Action Completion} {step : Option Test}

lemma unseen_afterTest (hb : V.SecureStmt body) (hs : ∀ t ∈ step, V.Secure t.action) {pc : Label}
    (hpc : V.level.less pc = true) : V.Unseen (afterTest body step pc) V.Round := by
  refine .bind hb.unseen fun c hc => ?_
  split
  · rename_i d hd
    exact .pure (hc.afterRound hd)
  · cases step with
    | none => exact .pure hpc
    | some t =>
      exact .attempt (.valueOf (hs t rfl).unseen) (fun _ _ => .pure hpc) fun f =>
        unseen_throwRound t.line f

lemma lockstep_afterTest (hb : V.SecureStmt body) (hs : ∀ t ∈ step, V.Secure t.action) {pc : Label}
    (hpc : pc.leq V.level = true) :
    V.Lockstep (afterTest body step pc) (afterTest body step pc) V.SameRound ThrowsRound := by
  refine .bind hb.lockstep (fun c c' hc => ?_) fun c hc hj E s => ?_
  · rcases hc.afterRound with ⟨hnone, hnone'⟩ | ⟨d, d', hd, hd', hagrees⟩
    · rw [hnone, hnone']
      cases step with
      | none => exact .pure (.goes hpc)
      | some t =>
        exact .attempt (.valueOf (hs t rfl).lockstep) (fun _ _ _ => .pure (.goes hpc))
          (fun f f' hf hf' => lockstep_throwRound t.line hf hf') fun f hf E s =>
          ⟨ends_throwRound t.line hf E s, ends_throwRound t.line hf E s⟩
    · rw [hd, hd']
      exact .pure (.ends hagrees)
  · rw [hc.afterRound]
    exact ends_round hc hj E s

lemma unseen_tested (hb : V.SecureStmt body) (hs : ∀ t ∈ step, V.Secure t.action)
    {r : Label ⊕ Completion} (hr : V.Round r) : V.Unseen (tested body step r) V.Round := by
  cases r with
  | inl pc => exact .withPc hr (unseen_afterTest hb hs hr)
  | inr c => exact .pure hr

lemma aside_tested (hb : V.SecureStmt body) (hs : ∀ t ∈ step, V.Secure t.action)
    {r : Label ⊕ Completion} (hr : V.Above r) :
    V.Aside (tested body step r) V.Above ThrowsRound := by
  cases r with
  | inl pc => exact .withPc hr (unseen_afterTest hb hs hr) settles_round
  | inr c => exact .pure hr

lemma secure_whileLoop (kind : String) (line : Nat) {test : Option Test}
    (ht : ∀ t ∈ test, V.Secure t.action) (hb : V.SecureStmt body)
    (hs : ∀ t ∈ step, V.Secure t.action) :
    V.SecureStmt (whileLoop kind line test body step) := by
  rw [whileLoop_eq, whileRound_eq]
  refine secure_loop (fun pc hpc => .bind (unseen_passTest? ht kind line) fun r hr =>
      unseen_tested hb hs hr)
    fun pc hpc => .bind (lockstep_passTest? ht kind line) (fun r r' hr => ?_) fun r hr hj E s => ?_
  · cases hr with
    | goes hpc => exact .withPc hpc (lockstep_afterTest hb hs hpc)
    | ends hc => exact .pure (.ends hc)
    | apart h h' =>
      exact .of_aside (aside_tested hb hs h) (aside_tested hb hs h') fun _ _ h h' => .apart h h'
  · cases r with
    | inl pc => exact hr.elim
    | inr c => exact ends_round hr hj E s

lemma secure_doLoop (line : Nat) {test : Test} (hb : V.SecureStmt body)
    (ht : V.Secure test.action) : V.SecureStmt (doLoop line body test) := by
  refine secure_loop (fun pc hpc => .bind hb.unseen fun c hc => ?_)
    fun pc hpc => .bind hb.lockstep (fun c c' hc => ?_) fun c hc hj E s => ?_
  · split
    · rename_i d hd
      exact .pure (hc.afterRound hd)
    · exact unseen_pass ht _ line
  · rcases hc.afterRound with ⟨hnone, hnone'⟩ | ⟨d, d', hd, hd', hagrees⟩
    · rw [hnone, hnone']
      exact lockstep_pass ht _ line
    · rw [hd, hd']
      exact .pure (.ends hagrees)
  · rw [hc.afterRound]
    exact ends_round hc hj E s

end

/-- A counting loop runs its first part before its rounds. -/
lemma secure_forLoop {init rest : Action Completion} (hi : V.SecureStmt init)
    (hr : V.SecureStmt rest) :
    V.SecureStmt (do
      let c ← init
      if c.isAbrupt then return c.outward else rest) := by
  refine ⟨.bind hi.unseen fun c hc => .ite (fun _ => .pure hc.outward) fun _ => hr.unseen,
    .bind hi.lockstep (fun c c' hc => ?_) fun c hc hj E s => ?_⟩
  · rw [hc.isAbrupt]
    split_ifs
    · exact .pure hc.outward
    · exact hr.lockstep
  · rw [if_pos hc.isAbrupt]
    exact ⟨ends_pure hc.outward hj E s, ends_pure hc.outward hj E s⟩

/-! ## Jumps -/

/-- A program that jumps may end in any way. -/
lemma Ending.of_jumps (hj : V.jumps = true) (c : Completion) : V.Ending c := by
  intro hj'
  rw [hj] at hj'
  cases hj'

/-- A statement that can be left. -/
lemma secure_afterBreak {body : Action Completion} (h : V.SecureStmt body) :
    V.SecureStmt (do return (← body).afterBreak) where
  unseen := .bind h.unseen fun _ hc => .pure hc.afterBreak
  lockstep := .bind h.lockstep (fun _ _ hc => .pure hc.afterBreak) fun _ hc hj E s =>
    ⟨ends_pure hc.afterBreak hj E s, ends_pure hc.afterBreak hj E s⟩

lemma secure_throwStatement (line valueLine : Nat) {value : Action Operand} (h : V.Secure value) :
    V.SecureStmt (throwStatement line valueLine value) where
  unseen := .guarded valueLine (.valueOf h.unseen)
    (fun _ _ => .bind .pc fun _ _ => .pure (Ending.thrown ⟨_, _, rfl⟩)) fun _ => .thrown
  lockstep := .guarded valueLine (.valueOf h.lockstep) fun _ _ _ =>
    .of_done fun _ _ s s' hs _ => ⟨_, _, s, s', rfl, rfl, hs, .thrown ..⟩

lemma secure_returnStatement (hj : V.jumps = true) (line : Nat) {value : Option (Action Operand)}
    (h : ∀ p ∈ value, V.Secure p) : V.SecureStmt (returnStatement line value) := by
  cases value with
  | none =>
    exact ⟨.bind .pc fun _ _ => .pure (.of_jumps hj _),
      .of_done fun _ _ s s' hs _ => ⟨_, _, s, s', rfl, rfl, hs, .returned ..⟩⟩
  | some p =>
    exact ⟨.guarded line (.valueOf (h p rfl).unseen)
        (fun _ _ => .bind .pc fun _ _ => .pure (.of_jumps hj _)) fun _ => .thrown,
      .guarded line (.valueOf (h p rfl).lockstep) fun _ _ _ =>
        .of_done fun _ _ s s' hs _ => ⟨_, _, s, s', rfl, rfl, hs, .returned ..⟩⟩

/-! ## Switches -/

/-- The test and the body of a case are secure. -/
structure SecureCase (V : View) (c : CaseAction) : Prop where
  test : ∀ t ∈ c.test, V.Secure t.2
  body : V.SecureStmt c.body

lemma secure_runCases {cases : List CaseAction} (h : ∀ c ∈ cases, V.SecureCase c) :
    V.SecureStmt (runCases cases) := by
  refine secure_afterBreak (secure_inOrder fun p hp => ?_)
  obtain ⟨c, hc, rfl⟩ := List.mem_map.1 hp
  exact (h c hc).body

lemma secure_chooseCase (line : Nat) (value : Raw) {all rest : List CaseAction}
    (hall : ∀ c ∈ all, V.SecureCase c) (hrest : ∀ c ∈ rest, V.SecureCase c) :
    V.SecureStmt (chooseCase line value all rest) := by
  induction rest with
  | nil => exact secure_runCases fun c hc => hall c ((List.dropWhile_suffix _).subset hc)
  | cons c rest ih =>
    rw [List.forall_mem_cons] at hrest
    unfold chooseCase
    cases htest : c.test with
    | none => exact ih hrest.2
    | some t =>
      exact secure_controlled _ line t.1 (hrest.1.test t htest) fun _ =>
        secure_ite (secure_runCases (List.forall_mem_cons.2 hrest)) (ih hrest.2)

/-! ## Final blocks -/

/-- What a statement does after its body. -/
def finishWith (final : Option (Action Completion)) (c : Completion) : Action Completion :=
  match final with
  | none => return c
  | some final => do
    let f ← final
    if f.isAbrupt then return f else return c

section

variable {final : Option (Action Completion)}

lemma unseen_finishWith (hj : V.jumps = true) (hf : ∀ p ∈ final, V.SecureStmt p)
    (c : Completion) : V.Unseen (finishWith final c) V.Ending := by
  cases final with
  | none => exact .pure (.of_jumps hj c)
  | some final =>
    exact .bind (hf final rfl).unseen fun f hf =>
      .ite (fun _ => .pure hf) fun _ => .pure (.of_jumps hj c)

lemma lockstep_finishWith (hf : ∀ p ∈ final, V.SecureStmt p) {c c' : Completion}
    (hc : c.Agrees c') :
    V.Lockstep (finishWith final c) (finishWith final c') Completion.Agrees Completion.Thrown := by
  cases final with
  | none => exact .pure hc
  | some final =>
    refine .bind (hf final rfl).lockstep (fun f f' hf => ?_) fun f hf hj E s => ?_
    · rw [hf.isAbrupt]
      split_ifs
      · exact .pure hf
      · exact .pure hc
    · rw [if_pos hf.isAbrupt, if_pos hf.isAbrupt]
      exact ⟨ends_pure hf hj E s, ends_pure hf hj E s⟩

/-- A final block runs whatever the body does; exceptions are not caught. -/
lemma secure_tryStatement (hj : V.jumps = true) {body : Action Completion}
    (hb : V.SecureStmt body) (hf : ∀ p ∈ final, V.SecureStmt p) :
    V.SecureStmt (tryStatement body [] final) := by
  have hnot : V.jumps ≠ false := by simp [hj]
  refine ⟨.bind hb.unseen fun c _ => ?_,
    .bind hb.lockstep (fun c c' hc => ?_) fun c _ hj => absurd hj hnot⟩
  · dsimp only
    split
    · exact .bind (R := fun _ => True) (.pure trivial) fun c _ => unseen_finishWith hj hf c
    · exact .bind (R := fun _ => True) (.pure trivial) fun c _ => unseen_finishWith hj hf c
  · dsimp only
    cases hc <;>
      exact .seq (S := Completion.Agrees) (.pure (by constructor)) fun _ _ hc =>
        lockstep_finishWith hf hc

end

/-! ## All statements -/

lemma secure_initialisers {items : List (Declarator Span)} (h : coreItems V.names items = true) :
    ∀ i ∈ initialisers items, i.name ∈ V.names ∧ V.Secure i.value := by
  induction items with
  | nil => simp [initialisers]
  | cons item items ih =>
    obtain ⟨span, id, init⟩ := item
    simp only [coreItems, Bool.and_eq_true, List.contains_iff_mem] at h
    cases init with
    | none => exact ih h.2
    | some e => exact List.forall_mem_cons.2 ⟨⟨h.1.1, secure_expr e h.1.2⟩, ih h.2⟩

lemma secure_testOf {e : Option (Expr Span)} (h : coreExpr? V.names e = true) :
    ∀ t ∈ e.map testOf, V.Secure t.action := by
  intro t ht
  obtain ⟨e, rfl, rfl⟩ := Option.map_eq_some_iff.1 ht
  exact secure_expr e h

mutual

/-- The statements of the core are secure. -/
theorem secure_stmt : ∀ s : Stmt Span, s.core V.names V.jumps = true → V.SecureStmt s.action
  | .expr e, h => secure_expression _ (secure_expr e h)
  | .block b, h => secure_block b h
  | .declare _ kind items, h => by
    simp only [Stmt.core, Bool.and_eq_true, beq_iff_eq] at h
    obtain ⟨rfl, hitems⟩ := h
    exact secure_initialise (secure_initialisers hitems)
  | .branch _ test yes no, h => by
    simp only [Stmt.core, Bool.and_eq_true] at h
    exact secure_controlled _ _ _ (secure_expr test h.1.1) fun _ =>
      secure_ite (secure_stmt yes h.1.2) (secure_alternative no h.2)
  | .whileLoop _ test body, h => by
    simp only [Stmt.core, Bool.and_eq_true] at h
    exact secure_whileLoop _ _ (by rintro _ ⟨⟩; exact secure_expr test h.1) (secure_stmt body h.2)
      (by rintro _ ⟨⟩)
  | .doLoop _ body test, h => by
    simp only [Stmt.core, Bool.and_eq_true] at h
    exact secure_doLoop _ (secure_stmt body h.1) (secure_expr test h.2)
  | .forLoop _ init test step body, h => by
    simp only [Stmt.core, Bool.and_eq_true] at h
    exact secure_forLoop (secure_init init h.1.1.1) (secure_whileLoop _ _ (secure_testOf h.1.1.2)
      (secure_stmt body h.2) (secure_testOf h.1.2))
  | .empty _, _ => secure_pure .normal .normal
  | .choose _ value cases, h => by
    simp only [Stmt.core, Bool.and_eq_true] at h
    exact secure_controlled _ _ _ (secure_expr value h.1.2) fun r =>
      secure_chooseCase _ r.raw (secure_cases cases h.2) (secure_cases cases h.2)
  | .breakTo _ _ target, h => secure_pure (.of_jumps h _) (.leave target)
  | .continueTo _ _ target, h => secure_pure (.of_jumps h _) (.resume target)
  | .giveBack _ none, h => by
    simp only [Stmt.core, Bool.and_eq_true] at h
    show V.SecureStmt (returnStatement 0 none)
    exact secure_returnStatement h.1 0 (by rintro _ ⟨⟩)
  | .giveBack _ (some e), h => by
    simp only [Stmt.core, Bool.and_eq_true] at h
    show V.SecureStmt (returnStatement e.span.start.line (some e.action))
    exact secure_returnStatement h.1 _ (by rintro _ ⟨⟩; exact secure_expr e h.2)
  | .raise _ value, h => by
    simp only [Stmt.core, Bool.and_eq_true] at h
    exact secure_throwStatement _ _ (secure_expr value h.2)
  | .guarded _ body handlers final, h => by
    simp only [Stmt.core, Bool.and_eq_true, List.isEmpty_iff] at h
    obtain ⟨⟨⟨hj, rfl⟩, hbody⟩, hfinal⟩ := h
    exact secure_tryStatement hj (secure_block body hbody) (secure_final final hfinal)
  | .labeled _ _ body, h => by
    simp only [Stmt.core, Bool.and_eq_true] at h
    exact secure_afterBreak (secure_stmt body h.2)
  | .function .., h | .forIn .., h | .within .., h | .debugger .., h => by simp [Stmt.core] at h

lemma secure_stmts : ∀ ss : List (Stmt Span), coreStmts V.names V.jumps ss = true →
    ∀ p ∈ stmtActions ss, V.SecureStmt p
  | [], _ => by simp [stmtActions]
  | s :: ss, h => by
    rw [coreStmts, Bool.and_eq_true] at h
    rw [stmtActions, List.forall_mem_cons]
    exact ⟨secure_stmt s h.1, secure_stmts ss h.2⟩

lemma secure_block : ∀ b : Block Span, b.core V.names V.jumps = true → V.SecureStmt b.action
  | .mk _ body, h => secure_inOrder (secure_stmts body h)

lemma secure_alternative : ∀ s : Option (Stmt Span), coreStmt? V.names V.jumps s = true →
    V.SecureStmt (alternative s)
  | none, _ => secure_pure .normal .normal
  | some s, h => secure_stmt s h

lemma secure_init : ∀ s : Option (Stmt Span), coreStmt? V.names V.jumps s = true →
    V.SecureStmt (initAction s)
  | none, _ => secure_pure .normal .normal
  | some s, h => secure_stmt s h

lemma secure_final : ∀ b : Option (Block Span), coreBlock? V.names V.jumps b = true →
    ∀ p ∈ finalAction b, V.SecureStmt p
  | none, _ => by rintro _ ⟨⟩
  | some b, h => by rintro _ ⟨⟩; exact secure_block b h

lemma secure_cases : ∀ cs : List (Case Span), coreCases V.names V.jumps cs = true →
    ∀ c ∈ caseActions cs, V.SecureCase c
  | [], _ => by simp [caseActions]
  | .mk _ test body :: cs, h => by
    simp only [coreCases, Bool.and_eq_true] at h
    rw [caseActions, List.forall_mem_cons]
    refine ⟨⟨fun t ht => ?_, secure_inOrder (secure_stmts body h.1.2)⟩, secure_cases cs h.2⟩
    obtain ⟨e, rfl, rfl⟩ := Option.map_eq_some_iff.1 ht
    exact secure_expr e h.1.1

end

end View
end Clearance
