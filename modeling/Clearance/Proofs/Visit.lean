/-
# What happens while an action runs

A run passes through many actions before it ends. This file lists them: `Action.visits` gives
every action that is started, in the order of the starts, with the state it starts in and the
attempts that are then in progress. The list is the thing to speak about when a statement is
about every point of a run and not only about its end.
-/
import Clearance.Proofs.Run

namespace Clearance

/-- An action whose failure is handed over, and what is made of its result. -/
structure Attempt where
  {α β : Type}
  body : Action β
  after : Except Failure β → Action α

/-- The start of an action in the course of a run. -/
structure Visit where
  {α : Type}
  action : Action α
  /-- The state in which the action starts. -/
  state : State
  /-- The attempts in progress, innermost first. -/
  catching : List Attempt

/-- What is visited while a request is served. -/
abbrev Watch := Request → List Attempt → State → List Visit

/-- What comes after an action in the sequence that it opens. -/
structure Next (α : Type) where
  {γ : Type}
  action : α → Action γ

/-- Nothing comes after an action that opens no sequence. -/
def Next.nothing {α : Type} : Next α := ⟨Action.give⟩

/-- The visits of a repeated step. -/
def iterateVisits {σ α : Type} (step : σ → State → Outcome (σ ⊕ α))
    (seen : σ → State → List Visit) : Nat → σ → State → List Visit
  | 0, _, _ => []
  | fuel + 1, x, s =>
    seen x s ++ match step x s with
      | .done (.inl y) s => iterateVisits step seen fuel y s
      | _ => []

namespace Action

/-- The actions started by a run, in order. What comes next is what an attempt hands its result
to. -/
def visits (serve : Service) (watch : Watch) (fuel : Nat) :
    {α : Type} → Action α → Next α → List Attempt → State → List Visit
  | _, .andThen p k, _, cs, s =>
    ⟨.andThen p k, s, cs⟩ :: (visits serve watch fuel p ⟨k⟩ cs s ++
      match run serve fuel p s with
      | .done b s => visits serve watch fuel (k b) .nothing cs s
      | _ => [])
  | _, .attempt p, next, cs, s =>
    ⟨.attempt p, s, cs⟩ :: visits serve watch fuel p .nothing (⟨p, next.action⟩ :: cs) s
  | _, .region pc scope p, _, cs, s =>
    ⟨.region pc scope p, s, cs⟩ ::
      visits serve watch fuel p .nothing cs ⟨{ s.control with pc, scope }, s.store⟩
  | _, .activation entry p, _, cs, s =>
    ⟨.activation entry p, s, cs⟩ ::
      visits serve watch fuel p .nothing cs ⟨entry, { s.store with result := .undefined }⟩
  | _, .invoke r, _, cs, s => ⟨.invoke r, s, cs⟩ :: watch r cs s
  | _, .loop init step, _, cs, s =>
    ⟨.loop init step, s, cs⟩ ::
      iterateVisits (fun x s => run serve fuel (step x) s)
        (fun x s => visits serve watch fuel (step x) .nothing cs s) fuel init s
  | _, p, _, cs, s => [⟨p, s, cs⟩]

end Action

/-- What the machine visits while it serves a request. -/
def machineWatch (hosts : Hosts) (rounds : Nat) : Nat → Watch
  | 0, _, _, _ => []
  | levels + 1, r, cs, s =>
    (perform hosts r).visits (machine hosts rounds levels) (machineWatch hosts rounds levels)
      rounds .nothing cs s

/-- What a run on a machine with the given bounds visits. -/
def Action.visitsOn {α : Type} (p : Action α) (hosts : Hosts) (rounds levels : Nat) (s : State) :
    List Visit :=
  p.visits (machine hosts rounds levels) (machineWatch hosts rounds levels) rounds .nothing [] s

namespace Action

variable {α β : Type} {serve : Service} {watch : Watch} {fuel : Nat}

lemma visits_bind (p : Action β) (k : β → Action α) (next : Next α) (cs : List Attempt)
    (s : State) :
    (p >>= k).visits serve watch fuel next cs s =
      ⟨p >>= k, s, cs⟩ :: (p.visits serve watch fuel ⟨k⟩ cs s ++
        match p.run serve fuel s with
        | .done b u => (k b).visits serve watch fuel .nothing cs u
        | _ => []) := by
  rw [bind_eq, visits]

/-- An action visits itself. -/
lemma mem_visits_self (p : Action α) (next : Next α) (cs : List Attempt) (s : State) :
    ⟨p, s, cs⟩ ∈ p.visits serve watch fuel next cs s := by
  unfold visits
  cases p <;> exact List.mem_cons_self

lemma mem_visits_first {p : Action β} {k : β → Action α} {next : Next α} {cs : List Attempt}
    {s : State} {w : Visit} (h : w ∈ p.visits serve watch fuel ⟨k⟩ cs s) :
    w ∈ (p >>= k).visits serve watch fuel next cs s := by
  rw [visits_bind]
  exact List.mem_cons_of_mem _ (List.mem_append_left _ h)

lemma mem_visits_rest {p : Action β} {k : β → Action α} {next : Next α} {cs : List Attempt}
    {s u : State} {b : β} {w : Visit} (hp : p.run serve fuel s = .done b u)
    (h : w ∈ (k b).visits serve watch fuel .nothing cs u) :
    w ∈ (p >>= k).visits serve watch fuel next cs s := by
  rw [visits_bind, hp]
  exact List.mem_cons_of_mem _ (List.mem_append_right _ h)

lemma visits_attempt (p : Action α) (next : Next (Except Failure α)) (cs : List Attempt)
    (s : State) :
    (attempt p).visits serve watch fuel next cs s =
      ⟨attempt p, s, cs⟩ :: p.visits serve watch fuel .nothing (⟨p, next.action⟩ :: cs) s := rfl

/-- The attempts in progress when an action starts are in progress at all its visits. -/
lemma catching_of_mem_visits
    (hwatch : ∀ r cs s, ∀ w ∈ watch r cs s, ∀ a ∈ cs, a ∈ w.catching) (p : Action α)
    (next : Next α) (cs : List Attempt) (s : State) :
    ∀ w ∈ p.visits serve watch fuel next cs s, ∀ a ∈ cs, a ∈ w.catching := by
  induction p generalizing cs s with
  | andThen p k ihp ihk =>
    intro w hw a ha
    rw [← bind_eq, visits_bind] at hw
    rcases List.mem_cons.1 hw with rfl | hw
    · exact ha
    rcases List.mem_append.1 hw with hw | hw
    · exact ihp _ _ _ w hw a ha
    · cases ho : p.run serve fuel s with
      | done b u => rw [ho] at hw; exact ihk b _ _ _ w hw a ha
      | failed f u => rw [ho] at hw; simp at hw
      | stuck x u => rw [ho] at hw; simp at hw
  | attempt p ih =>
    intro w hw a ha
    rcases List.mem_cons.1 hw with rfl | hw
    · exact ha
    · exact ih _ _ _ w hw a (List.mem_cons_of_mem _ ha)
  | region pc scope p ih =>
    intro w hw a ha
    rcases List.mem_cons.1 hw with rfl | hw
    · exact ha
    · exact ih _ _ _ w hw a ha
  | activation entry p ih =>
    intro w hw a ha
    rcases List.mem_cons.1 hw with rfl | hw
    · exact ha
    · exact ih _ _ _ w hw a ha
  | invoke r =>
    intro w hw a ha
    rcases List.mem_cons.1 hw with rfl | hw
    · exact ha
    · exact hwatch _ _ _ w hw a ha
  | loop init step ih =>
    intro w hw a ha
    rcases List.mem_cons.1 hw with rfl | hw
    · exact ha
    -- the rounds are counted by the fuel, which no step sees
    suffices h : ∀ n x u, w ∈ iterateVisits (fun x s => (step x).run serve fuel s)
        (fun x s => (step x).visits serve watch fuel .nothing cs s) n x u → a ∈ w.catching from
      h _ _ _ hw
    intro n
    induction n with
    | zero => intro x u h; simp [iterateVisits] at h
    | succ n ihn =>
      intro x u h
      rw [iterateVisits] at h
      rcases List.mem_append.1 h with h | h
      · exact ih x _ _ _ w h a ha
      · split at h
        · exact ihn _ _ h
        · simp at h
  | give | current | update | fail | await =>
    intro w hw a ha
    rw [List.mem_singleton.1 hw]
    exact ha

end Action

lemma catching_of_mem_machineWatch (hosts : Hosts) (rounds levels : Nat) :
    ∀ r cs s, ∀ w ∈ machineWatch hosts rounds levels r cs s, ∀ a ∈ cs, a ∈ w.catching := by
  induction levels with
  | zero => intro r cs s w hw; simp [machineWatch] at hw
  | succ n ih => intro r cs s; exact Action.catching_of_mem_visits ih _ _ _ _

end Clearance
