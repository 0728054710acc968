import Switchboard.Scheduler.Run

/-!
# Switchboard.Proofs.Phases

A run in phases.  A routine that goes on with the result of another ends just
when the other ends and what follows it ends after that, in the middle of the
same turn.  So what a long routine does can be said one phase at a time,
whatever else runs meanwhile.

* `Ends` — a routine that is given its turn comes to its end, sooner or later;
* `ends_bind` — the two phases of a routine that is put together;
* `Ends.unique` — a routine comes to one end only;
* `Turn.complete_bind_cases` — until the first phase is over, the second makes
  no difference;
* `ends_iff_rounds` — ends in terms of rounds.
-/

namespace Switchboard.Scheduler

variable {ξ σ ρ α β : Type} {s s' s'' : Scheduler ξ σ} {a b : α}

/-! ## Going on with a result -/

/-- Wherever the main routine stands, it goes on with another in the end. -/
def Main.bind (main : Main ξ σ ρ α) (f : α → Routine ξ σ ρ β) : Main ξ σ ρ β :=
  match main with
  | .before routine => .before (routine.bind f)
  | .asleep due next => .asleep due (next.bind f)
  | .within around line standing next => .within around line standing fun r => (next r).bind f

/-- A turn that may go on with another routine. -/
def Turn.bind (t : Turn ξ σ ρ α) (f : α → Routine ξ σ ρ β) : Turn ξ σ ρ β :=
  match t with
  | .finished a s => runRoutine (f a) s
  | .blocked main s => .blocked (main.bind f) s
  | .crashed s => .crashed s

/-- What becomes of a script is handed on through whatever comes behind. -/
theorem Interpreted.turn_bind {around : Surroundings σ} {line : Nat} (i : Interpreted ξ σ ρ)
    {next : Except Failure ρ → Routine ξ σ ρ α} {f : α → Routine ξ σ ρ β}
    (ih : ∀ r s, runRoutine ((next r).bind f) s = (runRoutine (next r) s).bind f) :
    (i.turn around line (fun r => (next r).bind f) fun r => runRoutine ((next r).bind f)) =
      (i.turn around line next fun r => runRoutine (next r)).bind f := by
  cases i with
  | finished r s => exact ih r (s.closeLine true)
  | blocked standing s => rfl
  | crashed s => rfl

theorem runRoutine_bind (p : Routine ξ σ ρ α) (f : α → Routine ξ σ ρ β) (s : Scheduler ξ σ) :
    runRoutine (p.bind f) s = (runRoutine p s).bind f := by
  induction p generalizing s with
  | done a => rfl
  | crash => rfl
  | look next ih => exact ih _ _ _ s
  | write change next ih => exact ih { s with state := change s.state }
  | note change next ih => exact ih { s with world := change s.world }
  | sleep ms next ih =>
      unfold Routine.bind runRoutine
      split
      · exact ih s
      · rfl
  | interpret around script next ih => exact Interpreted.turn_bind _ ih
  | emit e next ih => exact ih _ _
  | peek t next ih =>
      unfold Routine.bind runRoutine
      split
      · exact ih _ _
      · exact ih none s

theorem turn_bind (main : Main ξ σ ρ α) (f : α → Routine ξ σ ρ β) (s : Scheduler ξ σ) :
    turn (main.bind f) s = (turn main s).bind f := by
  cases main with
  | before routine => exact runRoutine_bind routine f s
  | asleep due next =>
      unfold turn Main.bind
      dsimp only
      split
      · exact runRoutine_bind next f s
      · rfl
  | within around line standing next =>
      exact Interpreted.turn_bind _ fun r s => runRoutine_bind (next r) f s

/-! ## Rounds -/

/-- The end of a round goes on with the same routine, or it is stuck. -/
theorem endRound_cases (s : Scheduler ξ σ) :
    (∃ s', ∀ {ρ α : Type} (main : Main ξ σ ρ α), endRound main s = .next main s') ∨
      ∀ {ρ α : Type} (main : Main ξ σ ρ α), endRound main s = .done (.stuck s) := by
  by_cases h : s.woken || !s.ready.isEmpty
  · exact .inl ⟨s, fun main => by simp only [endRound, h, if_true]⟩
  · cases ha : s.advance? with
    | some s' => exact .inl ⟨s', fun main => by simp [endRound, h, ha]⟩
    | none => exact .inr fun main => by simp [endRound, h, ha]

/-- What the tasks and the clock do does not depend on where the main routine
stands: it has another round, or it is stuck. -/
theorem settleRound_cases (s : Scheduler ξ σ) :
    (∃ s', ∀ {ρ α : Type} (main : Main ξ σ ρ α), settleRound main s = .next main s') ∨
      ∃ s', ∀ {ρ α : Type} (main : Main ξ σ ρ α), settleRound main s = .done (.stuck s') :=
  (endRound_cases s.drain).imp_right fun stuck => ⟨s.drain, stuck⟩

/-- How a round begins: with the turn of the main routine, if it is awake. -/
def opening (main : Main ξ σ ρ α) (s : Scheduler ξ σ) : Turn ξ σ ρ α :=
  if s.woken then turn main { s with woken := false } else .blocked main s

/-- What comes of a turn when a number of rounds follow it. -/
def Turn.complete (k : Nat) : Turn ξ σ ρ α → Result ξ σ α
  | .finished a s => .finished a s
  | .crashed s => .crashed s
  | .blocked main s => match settleRound main s with
    | .done r => r
    | .next main s => rounds k main s

theorem rounds_succ (k : Nat) (main : Main ξ σ ρ α) (s : Scheduler ξ σ) :
    rounds (k + 1) main s = (opening main s).complete k := by
  by_cases h : s.woken
  · simp only [rounds, round, opening, h, if_true]
    cases turn main { s with woken := false } <;> rfl
  · simp only [rounds, round, opening, h]
    rfl

theorem opening_bind (main : Main ξ σ ρ α) (f : α → Routine ξ σ ρ β) (s : Scheduler ξ σ) :
    opening (main.bind f) s = (opening main s).bind f := by
  unfold opening
  split
  · exact turn_bind main f _
  · rfl

/-! ## Ends -/

/-- A turn leads to an end, in the same round or in a later one. -/
def Turn.Leads (t : Turn ξ σ ρ α) (a : α) (s' : Scheduler ξ σ) : Prop :=
  ∃ k, t.complete k = .finished a s'

/-- A routine that is given its turn comes to its end with a result, and with
everything as it stands then. -/
def Ends (p : Routine ξ σ ρ α) (s : Scheduler ξ σ) (a : α) (s' : Scheduler ξ σ) : Prop :=
  (runRoutine p s).Leads a s'

/-- A turn that is blocked leads where the next round leads. -/
theorem Turn.leads_blocked {main : Main ξ σ ρ α}
    (h : ∀ {ρ α : Type} (main : Main ξ σ ρ α), settleRound main s = .next main s') {s'' a} :
    (Turn.blocked main s).Leads a s'' ↔ (opening main s').Leads a s'' := by
  constructor
  · rintro ⟨k, hk⟩
    simp only [complete, h] at hk
    cases k with
    | zero => cases hk
    | succ k => exact ⟨k, rounds_succ k main s' ▸ hk⟩
  · rintro ⟨k, hk⟩
    refine ⟨k + 1, ?_⟩
    simpa only [complete, h, rounds_succ] using hk

theorem Turn.not_leads_stuck {main : Main ξ σ ρ α}
    (h : ∀ {ρ α : Type} (main : Main ξ σ ρ α), settleRound main s = .done (.stuck s')) {s'' a} :
    ¬ (Turn.blocked main s).Leads a s'' := by
  rintro ⟨k, hk⟩
  simp only [complete, h] at hk
  cases hk

/-- The induction along a turn that leads to an end: it is at its end, or it
is blocked and the next round begins with a turn that leads there. -/
theorem Turn.Leads.rec_on {motive : Turn ξ σ ρ α → Prop} {t : Turn ξ σ ρ α} (h : t.Leads a s')
    (finished : motive (.finished a s'))
    (blocked : ∀ main (s s₁ : Scheduler ξ σ),
      (∀ {ρ α : Type} (main : Main ξ σ ρ α), settleRound main s = .next main s₁) →
      (opening main s₁).Leads a s' → motive (opening main s₁) → motive (.blocked main s)) :
    motive t := by
  obtain ⟨k, hk⟩ := h
  induction k using Nat.strongRecOn generalizing t with
  | _ k ih =>
    cases t with
    | finished a s => cases hk; exact finished
    | crashed s => cases hk
    | blocked main s =>
        rcases settleRound_cases s with ⟨s₁, hs⟩ | ⟨s₁, hs⟩
        · simp only [complete, hs] at hk
          cases k with
          | zero => cases hk
          | succ k =>
              rw [rounds_succ] at hk
              exact blocked main s s₁ hs ⟨k, hk⟩ (ih k (Nat.lt_succ_self k) hk)
        · exact absurd ⟨k, hk⟩ (not_leads_stuck hs)

theorem Turn.Leads.unique {t : Turn ξ σ ρ α} (h : t.Leads a s') (h' : t.Leads b s'') :
    a = b ∧ s' = s'' := by
  refine h.rec_on (motive := fun t => t.Leads b s'' → a = b ∧ s' = s'') ?_ ?_ h'
  · rintro ⟨k, hk⟩
    cases hk
    exact ⟨rfl, rfl⟩
  · intro main s s₁ hs _ ih h'
    exact ih ((leads_blocked hs).1 h')

theorem Turn.leads_bind {t : Turn ξ σ ρ α} {f : α → Routine ξ σ ρ β} {b : β} :
    (t.bind f).Leads b s'' ↔ ∃ a s', t.Leads a s' ∧ Ends (f a) s' b s'' := by
  constructor
  · intro h
    -- The induction is on the turn that leads to the end, for every turn that it is the rest of.
    generalize hu : t.bind f = u at h
    refine h.rec_on (motive := fun u => ∀ t : Turn ξ σ ρ α, t.bind f = u →
      ∃ a s', t.Leads a s' ∧ Ends (f a) s' b s'') ?_ ?_ t hu
    · intro t hu
      cases t with
      | finished a s => exact ⟨a, s, ⟨0, rfl⟩, 0, by rw [show runRoutine _ _ = _ from hu]; rfl⟩
      | blocked | crashed => cases hu
    · intro main s s₁ hs leads ih t hu
      cases t with
      | finished a s =>
          refine ⟨a, s, ⟨0, rfl⟩, ?_⟩
          rw [Ends, show runRoutine _ _ = _ from hu]
          exact (leads_blocked hs).2 leads
      | blocked main' s' =>
          cases hu
          obtain ⟨a, s', first, rest⟩ := ih (opening main' s₁) (opening_bind main' f s₁).symm
          exact ⟨a, s', (leads_blocked hs).2 first, rest⟩
      | crashed => cases hu
  · rintro ⟨a, s', first, rest⟩
    refine first.rec_on (motive := fun t => (t.bind f).Leads b s'') rest ?_
    intro main s s₁ hs _ ih
    refine (leads_blocked hs).2 ?_
    rwa [opening_bind]

/-- As long as a turn has not led to an end, what would follow the end makes no
difference: whatever else has come of it by then, and it has no result, comes
of both. -/
theorem Turn.complete_bind_cases (t : Turn ξ σ ρ α) (f : α → Routine ξ σ ρ β) (k : Nat) :
    (∃ a s', t.complete k = .finished a s') ∨
      ∃ r : ∀ γ, Result ξ σ γ, t.complete k = r α ∧ (t.bind f).complete k = r β := by
  induction k using Nat.strongRecOn generalizing t with
  | _ k ih =>
    cases t with
    | finished a s => exact .inl ⟨a, s, rfl⟩
    | crashed s => exact .inr ⟨fun _ => .crashed s, rfl, rfl⟩
    | blocked main s =>
        rcases settleRound_cases s with ⟨s', hs⟩ | ⟨s', hs⟩
        · simp only [bind, complete, hs]
          cases k with
          | zero => exact .inr ⟨fun _ => .unfinished s', rfl, rfl⟩
          | succ k =>
              rw [rounds_succ, rounds_succ, opening_bind]
              exact ih k (Nat.lt_succ_self k) (opening main s')
        · simp only [bind, complete, hs]
          exact .inr ⟨fun _ => .stuck s', rfl, rfl⟩

/-- A routine comes to one end only. -/
theorem Ends.unique {p : Routine ξ σ ρ α} (h : Ends p s a s') (h' : Ends p s b s'') :
    a = b ∧ s' = s'' :=
  Turn.Leads.unique h h'

/-- A routine that goes on with another ends when both do, one after the
other. -/
theorem ends_bind {p : Routine ξ σ ρ α} {f : α → Routine ξ σ ρ β} {b : β} :
    Ends (p.bind f) s b s'' ↔ ∃ a s', Ends p s a s' ∧ Ends (f a) s' b s'' := by
  rw [Ends, runRoutine_bind]
  exact Turn.leads_bind

/-- How a run that is given its rounds ends. -/
theorem ends_iff_rounds {p : Routine ξ σ ρ α} :
    Ends p { s with woken := false } a s' ↔
      ∃ k, rounds k (.before p) { s with woken := true } = .finished a s' := by
  have first (k : Nat) : rounds (k + 1) (.before p) { s with woken := true } =
      (runRoutine p { s with woken := false }).complete k := rounds_succ k _ _
  constructor
  · rintro ⟨k, hk⟩
    exact ⟨k + 1, (first k).trans hk⟩
  · rintro ⟨k, hk⟩
    cases k with
    | zero => cases hk
    | succ k => exact ⟨k, (first k).symm.trans hk⟩

/-! ## Simple routines -/

section Simple

variable {p : Routine ξ σ ρ α}

@[simp] theorem ends_done : Ends (.done a : Routine ξ σ ρ α) s b s' ↔ b = a ∧ s' = s := by
  constructor
  · rintro ⟨k, hk⟩
    cases hk
    exact ⟨rfl, rfl⟩
  · rintro ⟨rfl, rfl⟩
    exact ⟨0, rfl⟩

theorem not_ends_crash : ¬ Ends (.crash : Routine ξ σ ρ α) s a s' := by
  rintro ⟨k, hk⟩
  cases hk

@[simp] theorem ends_look {next : Nat → ξ → World σ → Routine ξ σ ρ α} :
    Ends (.look next) s a s' ↔ Ends (next s.clock s.state s.world) s a s' := .rfl

@[simp] theorem ends_write {change : ξ → ξ} :
    Ends (.write change p) s a s' ↔ Ends p { s with state := change s.state } a s' := .rfl

@[simp] theorem ends_note {change : World σ → World σ} :
    Ends (.note change p) s a s' ↔ Ends p { s with world := change s.world } a s' := .rfl

end Simple

end Switchboard.Scheduler
