import Switchboard.Proofs.Hindsight
import Switchboard.Proofs.Progress

/-!
# Switchboard.Proofs.Onward

A run from the turn of a script on.  A script that cannot go on leaves its turn
to the interpreter, which takes the oldest effect off the line; what becomes of
that effect, and of the script, is told from this moment on.

* `Attends` — the interpreter of a line is free while its script has its turn;
* `Standing.Halts` — where a script cannot go on, with `continueScript_halts`,
  that it gives way to the interpreter;
* `giveWay_next` — the interpreter takes the oldest effect, and the script is
  looked at again when it has been settled;
* `goOn` — the rest of the run, with `goOn_eq_rounds`, `goOn_eq_runFor`, that it
  is one;
* `Turn.Sound.settles` — what is taken in a turn is settled in the end.
-/

namespace Switchboard.Scheduler

variable {ξ σ ρ α : Type} {s s' : Scheduler ξ σ} {n k : Nat} {t : Ticket} {e : Effect}
  {around : Surroundings σ} {inbox : List (Ticket × Effect)}

/-! ## Scripts that cannot go on -/

namespace Standing

/-- A script cannot go on: it waits for an outcome that is not there, or for a
later time. -/
def Halts (s : Scheduler ξ σ) : Standing ξ σ ρ → Prop
  | .before (.await t _) => s.outcome? t = none
  | .before _ => False
  | .asleep due _ => s.clock < due

/-- A script cannot go on: it waits for an outcome that has not come and has not
been dropped, or for a later time. -/
def Waits (s : Scheduler ξ σ) : Standing ξ σ ρ → Prop
  | .before (.await t _) => s.outcome? t = none ∧ s.dropped t = false
  | .before _ => False
  | .asleep due _ => s.clock < due

theorem Waits.halts {standing : Standing ξ σ ρ} (waits : standing.Waits s) : standing.Halts s := by
  cases standing with
  | asleep due next => exact waits
  | before script =>
      cases script with
      | await t next => exact waits.1
      | done | look | write | note | emit | drop | sleep | spawn => exact waits

/-- The outcome that a script waits for. -/
def wanted : Standing ξ σ ρ → Option Ticket
  | .before (.await t _) => some t
  | _ => none

/-- The script is looked at when its line has been served: it goes on if the
outcome that it waits for is there. -/
def look (around : Surroundings σ) (n : Nat) (standing : Standing ξ σ ρ) (s : Scheduler ξ σ) :
    Interpreted ξ σ ρ :=
  match standing with
  | .before (.await t next) => match s.outcome? t with
    | some o => runScript around n (next o) (s.log (.resumed t o))
    | none => .blocked standing s
  | _ => .blocked standing s

/-- It still cannot go on at the same time, as long as what it waits for has not
come. -/
theorem Halts.still {standing : Standing ξ σ ρ} (halts : standing.Halts s)
    (clock : s'.clock = s.clock)
    (absent : ∀ t, standing.wanted = some t → s'.outcome? t = none) : standing.Halts s' := by
  cases standing with
  | asleep due next => exact Nat.lt_of_le_of_lt (Nat.le_of_eq clock) halts
  | before script =>
      cases script with
      | await t next => exact absent t rfl
      | done | look | write | note | emit | drop | sleep | spawn => exact halts

theorem Halts.absent {standing : Standing ξ σ ρ} (halts : standing.Halts s)
    (wants : standing.wanted = some t) : s.outcome? t = none := by
  cases standing with
  | asleep due next => cases wants
  | before script =>
      cases script with
      | await u next => exact Option.some.inj wants ▸ halts
      | done | look | write | note | emit | drop | sleep | spawn => cases wants

theorem Halts.log {standing : Standing ξ σ ρ} (halts : standing.Halts s) (ev : Event σ) :
    standing.Halts (s.log ev) :=
  halts.still rfl fun _ => halts.absent

theorem Halts.look {standing : Standing ξ σ ρ} (halts : standing.Halts s) :
    standing.look around n s = .blocked standing s := by
  cases standing with
  | asleep due next => rfl
  | before script =>
      cases script with
      | await t next => simp only [Standing.look, show s.outcome? t = none from halts]
      | done | look | write | note | emit | drop | sleep | spawn => rfl

end Standing

/-- The interpreter has its turn, because the script cannot go on. -/
def giveWay (around : Surroundings σ) (n : Nat) (standing : Standing ξ σ ρ) (s : Scheduler ξ σ) :
    Interpreted ξ σ ρ :=
  match serveLine around standing.wanted s with
  | .settled s => standing.look around n s
  | .waiting s => .blocked standing s
  | .crashed s => .crashed s

theorem continueScript_halts {standing : Standing ξ σ ρ} (halts : standing.Halts s) :
    continueScript around n standing s =
      giveWay around n standing (s.notePoll standing.wanted) := by
  cases standing with
  | asleep due next => rw [continueScript, if_neg (Nat.not_le.2 halts)]; rfl
  | before script =>
      cases script with
      | await t next =>
          rw [continueScript, runScript, show s.outcome? t = none from halts]
          dsimp only [giveWay, Standing.wanted]
          cases serveLine around (some t) (s.notePoll (some t)) <;> rfl
      | done | look | write | note | emit | drop | sleep | spawn => exact halts.elim

/-! ## The oldest effect of a line -/

/-- An outcome has been sent in a scheduler, and nothing else has been sent or
dropped in it. -/
def Sends (s : Scheduler ξ σ) (t : Ticket) (s' : Scheduler ξ σ) : Prop :=
  ∃ (x : Scheduler ξ σ) (o : Outcome), s' = x.settle t o ∧ x.line = s.line ∧
    x.outcomes = s.outcomes ∧ x.dropped = s.dropped ∧ x.clock = s.clock

theorem start_group (he : e.IsGroup) : start around s t e = startGroup around s t e := by
  cases e with
  | single c => exact he.elim
  | sequence | mapping => rfl

theorem startGroup_settled (hl : s.line = some { number := n, inbox })
    (h : startGroup around s t e = .settled s') : s.Sends t s' := by
  unfold startGroup runGroup at h
  split at h
  · cases h
    exact ⟨s, _, rfl, rfl, rfl, rfl, rfl⟩
  · split at h <;> cases h
    exact ⟨_, _, rfl, by simp [setCurrent, hl], rfl, rfl, rfl⟩

/-- An effect that is settled when it is taken has its outcome sent. -/
theorem start_settled (hl : s.line = some { number := n, inbox })
    (h : start around s t e = .settled s') : s.Sends t s' := by
  cases e with
  | sequence cs | mapping cs => exact startGroup_settled hl h
  | single c =>
      unfold start at h
      dsimp only at h
      split at h
      · cases h
        exact ⟨s, _, rfl, rfl, rfl, rfl, rfl⟩
      · unfold runSingle at h
        split at h <;> cases h
        exact ⟨_, _, rfl, by simp [setCurrent, log, hl], rfl, rfl, rfl⟩

/-- With nothing on the line the script stands where it stood. -/
theorem giveWay_empty (hl : s.line = some { number := n, inbox := [] }) {standing : Standing ξ σ ρ}
    (halts : standing.Halts s) : giveWay around n standing s = .blocked standing s := by
  simp only [giveWay, serveLine, serve_empty hl, halts.look]

/-- The oldest effect is taken, and when it has been settled the script is looked at
before there is another one. -/
theorem giveWay_next (hl : s.line = some { number := n, inbox := (t, e) :: inbox })
    {standing : Standing ξ σ ρ} (halts : standing.Halts s) :
    giveWay around n standing s =
      match start around
          ({ s with line := some { number := n, inbox } }.log (.taken n t e)) t e with
      | .settled s => continueScript around n standing s
      | .waiting s => .blocked standing s
      | .crashed s => .crashed s := by
  have backlog : s.backlog = inbox.length + 1 := by simp [Scheduler.backlog, hl]
  rw [giveWay, serveLine, backlog, serve_next hl]
  cases hp : start around
      ({ s with line := some { number := n, inbox } }.log (.taken n t e)) t e with
  | waiting s' | crashed s' => rfl
  | settled s' =>
      obtain ⟨x, o, hs', line, -, -, clock⟩ := start_settled (by rfl) hp
      have free : s'.Free n := ⟨inbox, by rw [hs', settle_line, line]; rfl⟩
      dsimp only
      by_cases arrived : s'.arrived standing.wanted
      · rw [if_pos arrived]
        cases standing with
        | asleep due next => cases arrived
        | before script =>
            cases script with
            | await u next =>
                obtain ⟨o', ho⟩ := Option.isSome_iff_exists.1 arrived
                have ho : s'.outcome? u = some o' := ho
                simp only [Standing.look, continueScript, runScript, ho]
            | done | look | write | note | emit | drop | sleep | spawn => exact halts.elim
      · rw [if_neg arrived]
        have halts' : standing.Halts s' := halts.still (hs' ▸ clock) fun u wants => by
          simpa [Scheduler.arrived, wants] using arrived
        have rest : (s'.notePoll standing.wanted).backlog = inbox.length := by
          rw [free.notePoll, hs']
          simp [Scheduler.backlog, log, line]
        rw [continueScript_halts halts', giveWay, serveLine, rest]

/-! ## The rest of a run -/

/-- What a run comes to in which a script has its turn, after a number of further
rounds. -/
def goOn (around : Surroundings σ) (n : Nat) (standing : Standing ξ σ ρ)
    (after : Except Failure ρ → Routine ξ σ ρ α) (k : Nat) (s : Scheduler ξ σ) : Result ξ σ α :=
  ((continueScript around n standing s).turn around n after
    fun r => runRoutine (after r)).complete k

/-- Rounds that begin when the interpreter is free. -/
theorem goOn_eq_rounds (standing : Standing ξ σ ρ) (after : Except Failure ρ → Routine ξ σ ρ α)
    (woken : s.woken = true) (free : s.Free n) :
    rounds (k + 1) (.within around n standing after) s =
      goOn around n standing after k { s with woken := false } := by
  obtain ⟨inbox, hl⟩ := free
  rw [rounds_succ, opening, if_pos woken, turn, continueLine, proceed]
  simp only [hl]
  rfl

/-- A run that begins with the interpretation of a script. -/
theorem goOn_eq_runFor (script : Script ξ σ ρ) (after : Except Failure ρ → Routine ξ σ ρ α) :
    runFor (.interpret around script after) s (k + 1) =
      goOn around s.nextLine (.before script) after k
        (openLine { s with woken := false } around) := by
  rw [runFor, rounds_succ]
  rfl

theorem goOn_since (past : History σ) (standing : Standing ξ σ ρ)
    (after : Except Failure ρ → Routine ξ σ ρ α) (s : Scheduler ξ σ) :
    goOn around n standing after k (s.since past) =
      (goOn around n standing after k s).map (since past) := by
  rw [goOn, continueScript_since, turn_map_since past _ n fun r => runRoutine_since past (after r),
    complete_since, goOn]

/-! ## The interpreter attends to a script -/

/-- The interpreter of a line is free, and its script has its turn. -/
structure Attends (s : Scheduler ξ σ) (around : Surroundings σ) (n : Nat) : Prop where
  inv : s.Inv
  free : s.Free n
  opened : s.history.Opened n around

/-- What comes after a turn that is blocked. -/
theorem Turn.complete_blocked (main : Main ξ σ ρ α) (s : Scheduler ξ σ) (k : Nat) :
    (Turn.blocked main s).complete k = match settleRound main s with
      | .done r => r
      | .next main s => rounds k main s := rfl

theorem Turn.Sound.settleRound {main : Main ξ σ ρ α} (hr : (Turn.blocked main s').Sound s)
    (hi : s.Inv) (hp : 0 < s.nextLine) : (Scheduler.settleRound main s').Sound s := by
  obtain ⟨steps, matched, waiting⟩ := hr
  exact (settleRound_sound (steps.inv hi) (Nat.lt_of_lt_of_le hp steps.nextLine_le) matched
    fun _ => waiting).after steps

/-- The rest of a run is a sequence of steps. -/
theorem Turn.Sound.complete {r : Turn ξ σ ρ α} (hr : r.Sound s) (hi : s.Inv) (hp : 0 < s.nextLine)
    (k : Nat) : Steps s (r.complete k).scheduler := by
  cases r with
  | finished a s' | crashed s' => exact hr.1
  | blocked main s' =>
      have sound := hr.settleRound hi hp
      rw [Turn.complete_blocked]
      cases hround : Scheduler.settleRound main s' with
      | done r =>
          rw [hround] at sound
          exact sound.1
      | next main' s'' =>
          rw [hround] at sound
          exact sound.1.trans (rounds_sound k sound.2).1

/-- What has been taken when a turn is over is settled in the end. -/
theorem Turn.Sound.settles {r : Turn ξ σ ρ α} (hr : r.Sound s) (hi : s.Inv) (hp : 0 < s.nextLine)
    {m : Nat} (taken : (m, .taken n t e) ∈ (r.complete 0).scheduler.history) :
    ∃ k, (r.complete k).scheduler.history.Settled t := by
  cases r with
  | finished a s' | crashed s' =>
      obtain ⟨steps, hl⟩ := hr
      refine ⟨0, (settled_or_busy (steps.inv hi) taken).resolve_right ?_⟩
      rintro ⟨w, inbox, hb⟩
      rw [hl] at hb
      cases hb
  | blocked main s' =>
      have sound := hr.settleRound hi hp
      simp only [Turn.complete_blocked] at taken ⊢
      cases hround : Scheduler.settleRound main s' with
      | done r =>
          rw [hround] at sound taken
          have settled := settled_or_busy (sound.1.inv hi) taken
          exact ⟨0, settled.resolve_right fun ⟨w, hb⟩ => sound.2.not_busy hb⟩
      | next main' s'' =>
          rw [hround] at sound taken
          exact eventually_settled sound.2 taken

namespace Attends

theorem positive (h : s.Attends around n) : 0 < s.nextLine := by
  obtain ⟨inbox, hl⟩ := h.free
  exact Nat.lt_of_le_of_lt (Nat.zero_le _) (h.inv.line_lt hl)

theorem turn_sound (h : s.Attends around n) (standing : Standing ξ σ ρ)
    (after : Except Failure ρ → Routine ξ σ ρ α) :
    ((continueScript around n standing s).turn around n after
      fun r => runRoutine (after r)).Sound s :=
  (continueScript_sound standing h.inv h.free h.opened).turn h.inv h.positive h.opened
    fun o _ hi hp hl => runRoutine_sound (after o) hi hp hl

end Attends

end Switchboard.Scheduler
