import Switchboard.Proofs.Phases
import Switchboard.Proofs.Rounds

/-!
# Switchboard.Proofs.Performing

Scripts that perform a command whose resolver answers without a pause.  The
effect is emitted, taken, resolved and settled in one turn of the main routine,
so nothing that runs beside it can come in between.
-/

namespace Switchboard.Scheduler

variable {ξ σ ρ : Type} {around : Surroundings σ} {c : Command} {n : Nat} {job : Job σ Answer}
  {a : Answer} {s : Scheduler ξ σ} {w : World σ}

/-- What a single effect on the line comes to: it is taken and resolved without
a pause, and the outcome is sent. -/
def answered (s : Scheduler ξ σ) (n : Nat) (t : Ticket) (c : Command) (a : Answer) (w : World σ) :
    Scheduler ξ σ :=
  let taken := { s.log (.polled n (some t)) with line := some { number := n } }.log
    (.taken n t (.single c))
  let resolved := { taken.log (.started t 0 c) with world := w }.log (.answered t 0 a)
  (resolved.setCurrent none).settle t (a.map .single)

theorem answered_state (t : Ticket) : (s.answered n t c a w).state = s.state := rfl

theorem answered_line (t : Ticket) : (s.answered n t c a w).line = some { number := n } := rfl

theorem answered_outcome? {t : Ticket} (kept : s.dropped t = false) :
    (s.answered n t c a w).outcome? t = some (a.map .single) := by
  rw [answered, settle_outcome?]
  exact if_pos ⟨rfl, kept⟩

theorem runSingle_done {t : Ticket} (answers : job.burst s.clock s.world = (.done a, w)) :
    s.runSingle t job =
      .settled ((({ s with world := w }.log (.answered t 0 a)).setCurrent none).settle t
        (a.map .single)) := by
  rw [runSingle, answers]

theorem serveLine_single {t : Ticket}
    (alone : s.line = some { number := n, inbox := [(t, .single c)] })
    (known : around.resolve? c = some job) (answers : job.burst s.clock s.world = (.done a, w))
    (kept : s.dropped t = false) :
    serveLine around (some t) (s.notePoll (some t)) = .settled (s.answered n t c a w) := by
  have free : s.Free n := ⟨_, alone⟩
  have polled :
      (s.log (.polled n (some t))).line = some { number := n, inbox := [(t, .single c)] } :=
    alone
  have one : (s.log (.polled n (some t))).backlog = 1 := by
    rw [backlog, polled]
    rfl
  have begun : start around ({ s.log (.polled n (some t)) with line := some { number := n } }.log
      (.taken n t (.single c))) t (.single c) = .settled (s.answered n t c a w) := by
    rw [start]
    simp only [known]
    exact runSingle_done answers
  rw [free.notePoll, serveLine, one, serve_next polled, begun]
  simp only [arrived, Option.bind_some, answered_outcome? kept, Option.isSome_some, if_true]

/-- A script that performs a command goes on with its answer, if the resolver
answers without a pause and nothing else is on the line. -/
theorem runScript_perform (next : Except Failure Json → Script ξ σ ρ)
    (quiet : s.line = some { number := n }) (known : around.resolve? c = some job)
    (answers : job.burst s.clock s.world = (.done a, w)) (unused : s.outcome? s.nextTicket = none)
    (kept : s.dropped s.nextTicket = false) :
    ∃ s₁ : Scheduler ξ σ, s₁.state = s.state ∧ s₁.line = some { number := n } ∧
      runScript around n (.perform c next) s = runScript around n (next a) s₁ := by
  have sent : (s.emit n (.single c)).2 =
      { s with
        nextTicket := s.nextTicket + 1
        line := some { number := n, inbox := [(s.nextTicket, .single c)] }
        woken := true }.log (.emitted n s.nextTicket (.single c)) := emit_open s (.single c) quiet
  generalize hs : (s.emit n (.single c)).2 = s₁ at sent
  have state : s₁.state = s.state := by
    rw [sent]
    rfl
  have alone : s₁.line = some { number := n, inbox := [(s.nextTicket, .single c)] } := by
    rw [sent]
    rfl
  have ready : job.burst s₁.clock s₁.world = (.done a, w) := by
    rw [sent]
    exact answers
  have waits : s₁.outcome? s.nextTicket = none := by
    rw [sent]
    exact unused
  have kept : s₁.dropped s.nextTicket = false := by
    rw [sent]
    exact kept
  have value : Script.asSingle (a.map .single) = a := by cases a <;> rfl
  let s₂ := s₁.answered n s.nextTicket c a w
  have goes : runScript around n (.perform c next) s =
      runScript around n (next a) (s₂.log (.resumed s.nextTicket (a.map .single))) := by
    rw [Script.perform, Script.suspend, runScript, emit_ticket, hs, runScript, waits]
    simp only [serveLine_single alone known ready kept, answered_outcome? kept, value]
    rfl
  refine ⟨_, ?_, ?_, goes⟩
  · show s₂.state = s.state
    rw [answered_state, state]
  · show s₂.line = some { number := n }
    rw [answered_line]

/-- The interpretation of a script that performs one such command is over at
once, with what the script makes of the answer, and the state is as it was. -/
theorem ends_interpret_perform (result : Except Failure Json → Except Failure ρ)
    (known : around.resolve? c = some job)
    (answers : job.burst s.clock s.world = (.done a, w)) (unused : s.outcome? s.nextTicket = none)
    (kept : s.dropped s.nextTicket = false) :
    ∃ s' : Scheduler ξ σ, s'.state = s.state ∧
      Ends (.interpret around (.perform c fun r => .done (result r)) .done :
        Routine ξ σ ρ (Except Failure ρ)) s (result a) s' := by
  obtain ⟨s₁, state, line, script⟩ := runScript_perform (s := s.openLine around)
    (fun r => .done (result r)) rfl known answers unused kept
  refine ⟨s₁.closeLine true, ?_, 0, ?_⟩
  · rw [closeLine, line]
    exact state
  · rw [runRoutine, script]
    rfl

end Switchboard.Scheduler
