import Switchboard.Proofs.Phases
import Switchboard.Proofs.Runs

/-!
# Switchboard.Proofs.Hindsight

What nobody reads makes no difference.  The history of a scheduler is for those
who look back at it: a scheduler with another past goes on in the same way, and
adds the same events to the other past.

* `Unread` — changes to a scheduler that none of its tasks can notice, with
  `Unread.drain`, that the tasks do the same;
* `since` — more has happened before, and `complete_since`, that the rest of a
  run is the same.
-/

namespace Switchboard.Scheduler

variable {ξ σ ρ α : Type} {s : Scheduler ξ σ} {n : Nat} {around : Surroundings σ}

/-! ## What tasks do not notice -/

/-- A change to a scheduler that makes no difference to its tasks: whatever they
read is as it was, and whatever they do is done after the change as before
it. -/
structure Unread (T : Scheduler ξ σ → Scheduler ξ σ) : Prop where
  clock : ∀ s, (T s).clock = s.clock
  world : ∀ s, (T s).world = s.world
  ready : ∀ s, (T s).ready = s.ready
  timers : ∀ s, (T s).timers = s.timers
  woken : ∀ s, (T s).woken = s.woken
  outcome? : ∀ s t, (T s).outcome? t = s.outcome? t
  log : ∀ s ev, (T s).log ev = T (s.log ev)
  touch : ∀ s w, { T s with world := w } = T { s with world := w }
  queue : ∀ s ready, { T s with ready } = T { s with ready }
  rest : ∀ s due who, (T s).addTimer due who = T (s.addTimer due who)
  park : ∀ s w, { T s with parked := (T s).parked ++ [w] } = T { s with parked := s.parked ++ [w] }
  drop : ∀ s t, (T s).drop t = T (s.drop t)
  emit : ∀ s n e, (T s).emit n e = ((s.emit n e).1, T (s.emit n e).2)
  report : ∀ s t i a, (T s).report t i a = T (s.report t i a)
  wake : ∀ s clock, wakeDue { T s with clock } = T (wakeDue { s with clock })

theorem advance_cons {due : Nat} {who : Sleeper σ} {rest : List (Nat × Sleeper σ)}
    (ht : s.timers = (due, who) :: rest) :
    s.advance? = some (wakeDue { s with clock := max s.clock due }) := by
  simp only [advance?, ht]

namespace Unread

variable {T : Scheduler ξ σ → Scheduler ξ σ}

theorem runMember (hT : Unread T) (s : Scheduler ξ σ) (t : Ticket) (i : Nat) (j : Job σ Answer) :
    (T s).runMember t i j = T (s.runMember t i j) := by
  have burst : j.burst (T s).clock (T s).world = j.burst s.clock s.world := by
    rw [hT.clock, hT.world]
  unfold Scheduler.runMember
  rw [burst]
  split <;> simp only [hT.touch, hT.report, hT.rest]

theorem runErrand (hT : Unread T) (n : Nat) (e : Errand σ) (s : Scheduler ξ σ) :
    Scheduler.runErrand n e (T s) = T (Scheduler.runErrand n e s) := by
  induction e generalizing s with
  | done => rfl
  | look next ih =>
      simp only [Scheduler.runErrand, hT.clock, hT.world]
      exact ih _ _ s
  | write change next ih =>
      simp only [Scheduler.runErrand, hT.world, hT.touch]
      exact ih _
  | emit e next ih =>
      simp only [Scheduler.runErrand, hT.emit]
      exact ih _ _
  | await t next ih =>
      simp only [Scheduler.runErrand, hT.outcome?, hT.log, hT.park]
      split
      · exact ih _ _
      · rfl
  | drop t next ih =>
      simp only [Scheduler.runErrand, hT.drop]
      exact ih _
  | sleep ms next ih =>
      simp only [Scheduler.runErrand, hT.clock, hT.rest]
      split
      · exact ih s
      · rfl

theorem runTask (hT : Unread T) (s : Scheduler ξ σ) (task : Task σ) :
    (T s).runTask task = T (s.runTask task) := by
  cases task with
  | begin t i c j => simp only [Scheduler.runTask, hT.log, hT.runMember]
  | resume t i j => exact hT.runMember s t i j
  | errand n e => exact hT.runErrand n e s

theorem runReady (hT : Unread T) (turns : Nat) (s : Scheduler ξ σ) :
    (T s).runReady turns = T (s.runReady turns) := by
  induction turns generalizing s with
  | zero => rfl
  | succ turns ih =>
      simp only [Scheduler.runReady, hT.ready]
      split
      · rfl
      · rw [hT.queue, hT.runTask, ih]

theorem drain (hT : Unread T) (s : Scheduler ξ σ) : (T s).drain = T s.drain := by
  rw [Scheduler.drain, hT.ready, hT.runReady, Scheduler.drain]

theorem advance? (hT : Unread T) (s : Scheduler ξ σ) : (T s).advance? = s.advance?.map T := by
  have timers := hT.timers s
  cases ht : s.timers with
  | nil => simp [Scheduler.advance?, ht, timers.trans ht]
  | cons p rest =>
      rw [advance_cons ht, advance_cons (timers.trans ht), hT.clock, hT.wake]
      rfl

end Unread

/-- What comes of a round, with its scheduler changed. -/
def Result.map (T : Scheduler ξ σ → Scheduler ξ σ) : Result ξ σ α → Result ξ σ α
  | .finished a s => .finished a (T s)
  | .crashed s => .crashed (T s)
  | .stuck s => .stuck (T s)
  | .unfinished s => .unfinished (T s)

def Round.map (T : Scheduler ξ σ → Scheduler ξ σ) : Round ξ σ ρ α → Round ξ σ ρ α
  | .done r => .done (r.map T)
  | .next main s => .next main (T s)

theorem Unread.settleRound {T : Scheduler ξ σ → Scheduler ξ σ} (hT : Unread T)
    (main : Main ξ σ ρ α) (s : Scheduler ξ σ) :
    Scheduler.settleRound main (T s) = (Scheduler.settleRound main s).map T := by
  unfold Scheduler.settleRound endRound
  simp only [hT.drain, hT.woken, hT.ready, hT.advance?]
  split
  · rfl
  · cases s.drain.advance? <;> rfl

/-! ## Another past -/

/-- The same scheduler, with a past before its past. -/
def since (past : History σ) (s : Scheduler ξ σ) : Scheduler ξ σ :=
  { s with history := s.history ++ past }

variable (past : History σ)

theorem settleAll_since (s : Scheduler ξ σ) (o : Outcome) (ts : List Ticket) :
    (s.since past).settleAll o ts = (s.settleAll o ts).since past := by
  induction ts generalizing s with
  | nil => rfl
  | cons t ts ih => exact ih (s.settle t o)

theorem emit_since (s : Scheduler ξ σ) (n : Nat) (e : Effect) :
    (s.since past).emit n e = ((s.emit n e).1, (s.emit n e).2.since past) := by
  unfold emit
  cases hl : s.line with
  | none => simp only [since, log, hl]; rfl
  | some l =>
      simp only [since, log, hl]
      split <;> rfl

theorem report_since (s : Scheduler ξ σ) (t : Ticket) (i : Nat) (a : Answer) :
    (s.since past).report t i a = (s.report t i a).since past := by
  unfold report
  rcases hl : s.line with _ | ⟨n, inbox, _ | ⟨u, ⟨due, job⟩ | ⟨e, slots⟩⟩⟩
  all_goals simp only [since, log, hl]
  · rfl
  · rfl
  · rfl
  · split <;> rfl

theorem unread_since : Unread (since (ξ := ξ) past) where
  clock _ := rfl
  world _ := rfl
  ready _ := rfl
  timers _ := rfl
  woken _ := rfl
  outcome? _ _ := rfl
  log _ _ := rfl
  touch _ _ := rfl
  queue _ _ := rfl
  rest _ _ _ := rfl
  park _ _ := rfl
  drop _ _ := rfl
  emit := emit_since past
  report := report_since past
  wake _ _ := rfl

/-! ## The interpreter -/

def Progress.map (T : Scheduler ξ σ → Scheduler ξ σ) : Progress ξ σ → Progress ξ σ
  | .settled s => .settled (T s)
  | .waiting s => .waiting (T s)
  | .crashed s => .crashed (T s)

theorem runSingle_since (s : Scheduler ξ σ) (t : Ticket) (job : Job σ Answer) :
    (s.since past).runSingle t job = (s.runSingle t job).map (since past) := by
  unfold runSingle
  rw [show (s.since past).clock = s.clock from rfl, show (s.since past).world = s.world from rfl]
  split <;> rfl

theorem runGroup_since (s : Scheduler ξ σ) (t : Ticket) (e : Effect)
    (slots : List (Option Answer)) :
    (s.since past).runGroup t e slots = (s.runGroup t e slots).map (since past) := by
  unfold runGroup
  split <;> rfl

theorem start_since (s : Scheduler ξ σ) (t : Ticket) (e : Effect) :
    start around (s.since past) t e = (start around s t e).map (since past) := by
  have group (e : Effect) :
      startGroup around (s.since past) t e = (startGroup around s t e).map (since past) := by
    unfold startGroup
    split
    · rfl
    · next tasks _ => exact runGroup_since past { s with ready := s.ready ++ tasks } t e _
  unfold start
  split
  · split
    · rfl
    · next c _ job _ => exact runSingle_since past (s.log (.started t 0 c)) t job
  · exact group e

theorem proceed_since (s : Scheduler ξ σ) :
    (s.since past).proceed = s.proceed.map (since past) := by
  unfold proceed
  rw [show (s.since past).line = s.line from rfl, show (s.since past).clock = s.clock from rfl]
  split
  · split
    · exact runSingle_since past s _ _
    · rfl
  · exact runGroup_since past s _ _ _
  · rfl

theorem notePoll_since (s : Scheduler ξ σ) (wanted : Option Ticket) :
    (s.since past).notePoll wanted = (s.notePoll wanted).since past := by
  unfold notePoll
  rw [show (s.since past).line = s.line from rfl]
  split <;> rfl

theorem take?_since (s : Scheduler ξ σ) :
    (s.since past).take? = s.take?.map fun p => (p.1, p.2.since past) := by
  unfold take?
  rw [show (s.since past).line = s.line from rfl]
  split <;> rfl

theorem serve_since (wanted : Option Ticket) (steps : Nat) (s : Scheduler ξ σ) :
    serve around wanted steps (s.since past) =
      (serve around wanted steps s).map (since past) := by
  induction steps generalizing s with
  | zero => rfl
  | succ steps ih =>
      unfold serve
      rw [take?_since]
      cases s.take? with
      | none => rfl
      | some p =>
          obtain ⟨⟨t, e⟩, s'⟩ := p
          simp only [Option.map_some, start_since]
          cases start around s' t e with
          | waiting | crashed => rfl
          | settled s'' =>
              simp only [Progress.map,
                show (s''.since past).arrived wanted = s''.arrived wanted from rfl]
              split
              · rfl
              · rw [notePoll_since]
                exact ih (s''.notePoll wanted)

theorem serveLine_since (around : Surroundings σ) (wanted : Option Ticket) (s : Scheduler ξ σ) :
    serveLine around wanted ((s.since past).notePoll wanted) =
      (serveLine around wanted (s.notePoll wanted)).map (since past) := by
  rw [notePoll_since]
  exact serve_since past wanted (s.notePoll wanted).backlog (s.notePoll wanted)

/-! ## Scripts -/

def Interpreted.map (T : Scheduler ξ σ → Scheduler ξ σ) : Interpreted ξ σ ρ → Interpreted ξ σ ρ
  | .finished r s => .finished r (T s)
  | .blocked standing s => .blocked standing (T s)
  | .crashed s => .crashed (T s)

theorem stand_since (p : Progress ξ σ) (standing : Standing ξ σ ρ) :
    (p.map (since past)).stand standing = (p.stand standing).map (since past) := by
  cases p <;> rfl

theorem runScript_since (around : Surroundings σ) (n : Nat) (script : Script ξ σ ρ)
    (s : Scheduler ξ σ) :
    runScript around n script (s.since past) =
      (runScript around n script s).map (since past) := by
  induction script generalizing s with
  | done r => rfl
  | look next ih => exact ih _ _ _ s
  | write change next ih => exact ih { s with state := change s.state }
  | note change next ih => exact ih { s with world := change s.world }
  | spawn e next ih => exact ih (s.enqueue (.errand n e))
  | emit e next ih =>
      simp only [runScript, emit_since]
      exact ih _ _
  | drop t next ih => exact ih (s.drop t)
  | sleep ms next ih =>
      by_cases hms : ms = 0
      · simp only [runScript, if_pos hms]
        exact ih s
      · have serve := serveLine_since past around none (s.addTimer (s.clock + ms) .main)
        rw [runScript_sleep hms, runScript_sleep hms, ← stand_since, ← serve]
        rfl
  | await t next ih =>
      simp only [runScript, show (s.since past).outcome? t = s.outcome? t from rfl]
      split
      · next o _ => exact ih o (s.log (.resumed t o))
      · rw [serveLine_since]
        cases serveLine around (some t) (s.notePoll (some t)) with
        | waiting | crashed => rfl
        | settled s' =>
            simp only [Progress.map, show (s'.since past).outcome? t = s'.outcome? t from rfl]
            split
            · next o _ => exact ih o (s'.log (.resumed t o))
            · rfl

theorem continueScript_since (n : Nat) (standing : Standing ξ σ ρ) (s : Scheduler ξ σ) :
    continueScript around n standing (s.since past) =
      (continueScript around n standing s).map (since past) := by
  cases standing with
  | before script => exact runScript_since past around n script s
  | asleep due next =>
      by_cases hdue : due ≤ s.clock
      · have hdue' : due ≤ (s.since past).clock := hdue
        rw [continueScript, continueScript, if_pos hdue, if_pos hdue']
        exact runScript_since past around n next s
      · have hdue' : ¬ due ≤ (s.since past).clock := hdue
        rw [continueScript_asleep hdue, continueScript_asleep hdue', serveLine_since, stand_since]

theorem continueLine_since (n : Nat) (standing : Standing ξ σ ρ) (s : Scheduler ξ σ) :
    continueLine around n standing (s.since past) =
      (continueLine around n standing s).map (since past) := by
  unfold continueLine
  rw [proceed_since]
  cases s.proceed with
  | settled s' => exact continueScript_since past n standing s'
  | waiting | crashed => rfl

/-! ## Routines -/

def Turn.map (T : Scheduler ξ σ → Scheduler ξ σ) : Turn ξ σ ρ α → Turn ξ σ ρ α
  | .finished a s => .finished a (T s)
  | .blocked main s => .blocked main (T s)
  | .crashed s => .crashed (T s)

theorem closeLine_since (s : Scheduler ξ σ) (finished : Bool) :
    (s.since past).closeLine finished = (s.closeLine finished).since past := by
  unfold closeLine
  rw [show (s.since past).line = s.line from rfl]
  cases s.line with
  | none => rfl
  | some l =>
      exact settleAll_since past ({ s with line := none }.log (.ended l.number finished)) _ _

theorem turn_map_since (i : Interpreted ξ σ ρ) (n : Nat) {next : Except Failure ρ → Routine ξ σ ρ α}
    (ih : ∀ r s, runRoutine (next r) (s.since past) = (runRoutine (next r) s).map (since past)) :
    ((i.map (since past)).turn around n next fun r => runRoutine (next r)) =
      (i.turn around n next fun r => runRoutine (next r)).map (since past) := by
  cases i with
  | finished r s =>
      simp only [Interpreted.map, Interpreted.turn, closeLine_since]
      exact ih r _
  | blocked standing s => rfl
  | crashed s => simp only [Interpreted.map, Interpreted.turn, closeLine_since, Turn.map]

theorem runRoutine_since (p : Routine ξ σ ρ α) (s : Scheduler ξ σ) :
    runRoutine p (s.since past) = (runRoutine p s).map (since past) := by
  induction p generalizing s with
  | done a => rfl
  | crash => rfl
  | look next ih => exact ih _ _ _ s
  | write change next ih => exact ih { s with state := change s.state }
  | note change next ih => exact ih { s with world := change s.world }
  | sleep ms next ih =>
      unfold runRoutine
      split
      · exact ih s
      · rfl
  | emit e next ih =>
      have emit : (s.since past).emit ((s.since past).nextLine - 1) e = _ :=
        emit_since past s (s.nextLine - 1) e
      simp only [runRoutine, emit]
      exact ih _ _
  | peek t next ih =>
      simp only [runRoutine, show (s.since past).outcome? t = s.outcome? t from rfl]
      split
      · next o _ => exact ih (some o) (s.log (.resumed t o))
      · exact ih none s
  | interpret around script next ih =>
      have run := runScript_since past around s.nextLine script (s.openLine around)
      simp only [runRoutine, ← turn_map_since past _ s.nextLine ih, ← run]
      rfl

theorem turn_since (main : Main ξ σ ρ α) (s : Scheduler ξ σ) :
    turn main (s.since past) = (turn main s).map (since past) := by
  cases main with
  | before routine => exact runRoutine_since past routine s
  | asleep due next =>
      simp only [turn, show (s.since past).clock = s.clock from rfl]
      split
      · exact runRoutine_since past next s
      · rfl
  | within around n standing next =>
      simp only [turn, continueLine_since]
      exact turn_map_since past _ n fun r => runRoutine_since past (next r)

/-! ## Rounds -/

theorem rounds_since (k : Nat) (main : Main ξ σ ρ α) (s : Scheduler ξ σ) :
    rounds k main (s.since past) = (rounds k main s).map (since past) := by
  induction k generalizing main s with
  | zero => rfl
  | succ k ih =>
      have settle := (unread_since (ξ := ξ) past).settleRound (ρ := ρ) (α := α)
      have step : round main (s.since past) = (round main s).map (since past) := by
        unfold round
        rw [show (s.since past).woken = s.woken from rfl]
        split
        · have turn := turn_since past main { s with woken := false }
          rw [show ({ s.since past with woken := false } : Scheduler ξ σ) =
            since past { s with woken := false } from rfl, turn]
          cases Scheduler.turn main { s with woken := false } with
          | finished | crashed => rfl
          | blocked main s => exact settle main s
        · exact settle main s
      unfold rounds
      rw [step]
      cases round main s with
      | done r => rfl
      | next main s => exact ih main s

/-- The rest of a run is the same whatever has happened before, but for this
past. -/
theorem complete_since (k : Nat) (r : Turn ξ σ ρ α) :
    (r.map (since past)).complete k = (r.complete k).map (since past) := by
  cases r with
  | finished | crashed => rfl
  | blocked main s =>
      simp only [Turn.map, Turn.complete, (unread_since past).settleRound]
      cases settleRound main s with
      | done r => rfl
      | next main s => exact rounds_since past k main s

end Switchboard.Scheduler
