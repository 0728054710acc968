import Switchboard.Proofs.Sparing

/-!
# Switchboard.Proofs.Queue

Nobody stands in the queue for ever.  The queue is served in rounds: when the main
routine cannot go on, everybody who stands there has a turn, and whoever comes
later is served in the next round.

* `Stands.due` — whoever is served in this round has its turn in it;
* `Stands.soon_turns` — whoever stands in the queue has its turn, or the run is over
  before;
* `exists_queued` — whoever is parked is put into the queue when its outcome is sent;
* `Reachable.goesOn` — whoever waits for an outcome goes on with it, if the run lasts.
-/

namespace Switchboard.Scheduler

variable {ξ σ ρ α : Type} {s s' : Scheduler ξ σ} {main : Main ξ σ ρ α} {turns n i j k : Nat}
  {around : Surroundings σ} {after : Except Failure ρ → Routine ξ σ ρ α} {p : Routine ξ σ ρ α}
  {task : Task σ} {rest : List (Task σ)} {m : Moment ξ σ ρ α}

/-! ## Whoever waits is not passed over -/

namespace Moment

/-- Whoever stands in the queue stays there until it has its turn. -/
theorem Stands.ready (h : m.Stands) (ht : task ∈ m.scheduler.ready) :
    m.Turns task ∨ task ∈ m.next.scheduler.ready := by
  cases h.does with
  | hands t o go awaits outcome next => exact .inr (next ▸ ht)
  | polls around n standing after focus halts next => exact .inr (next ▸ ht)
  | takes around n standing after t e inbox focus line s begun spares =>
      exact .inr (spares.ready.subset (begun.ready ▸ ht))
  | turn main turns head rest focus ready s begun spares =>
      rw [ready] at ht
      rcases List.mem_cons.1 ht with rfl | ht
      · exact .inl ⟨main, turns, rest, focus, ready⟩
      · exact .inr (spares.ready.subset (begun.ready ▸ ht))
  | other spares => exact .inr (spares.ready.subset ht)

/-- Whoever is parked stays so until its outcome is sent, and is put into the queue
then. -/
theorem Stands.parked (h : m.Stands) {w : Waiter σ} (hw : w ∈ m.scheduler.parked) :
    w ∈ m.next.scheduler.parked ∨
      w.task ∈ m.next.scheduler.ready ∧ m.next.scheduler.history.Settled w.ticket := by
  cases h.does with
  | hands t o go awaits outcome next => exact .inl (next ▸ hw)
  | polls around n standing after focus halts next => exact .inl (next ▸ hw)
  | takes around n standing after t e inbox focus line s begun spares =>
      exact spares.parked w (begun.parked ▸ hw)
  | turn main turns head rest focus ready s begun spares =>
      exact spares.parked w (begun.parked ▸ hw)
  | other spares => exact spares.parked w hw

/-! ## The tasks of a round -/

/-- How many of the tasks in the queue have their turns in this round. -/
def served (m : Moment ξ σ ρ α) : Nat :=
  match m.focus with
  | .tasks _ turns | .errand _ turns _ _ => turns
  | .finished _ | .crashed | .stuck => 0
  | .round _ | .routine _ | .script _ _ _ _ | .interpreter _ _ _ _ => m.scheduler.ready.length

/-- All tasks in the queue have their turns in this round, or the run is over. -/
def Whole (m : Moment ξ σ ρ α) : Prop :=
  m.focus.Over ∨ m.served = m.scheduler.ready.length

theorem Passed.whole (h : m.Passed) : m.Whole := by
  cases h with
  | routine | script | blocked => exact .inr rfl
  | ended h => exact .inl h

theorem afterScript_whole (standing : Standing ξ σ ρ) (s : Scheduler ξ σ) :
    (afterScript around n after standing s).Whole := by
  by_cases halts : standing.Halts s
  · rw [afterScript_halts halts]
    exact .inr rfl
  · exact (afterScript_passed halts).whole

theorem afterTasks_served (main : Main ξ σ ρ α) (turns : Nat) (hr : s.ready = task :: rest) :
    (afterTasks main (turns + 1) s).served = turns := by
  cases task <;> simp only [afterTasks, hr] <;> rfl

theorem afterErrand_served (main : Main ξ σ ρ α) (turns n : Nat) (e : Errand σ)
    (s : Scheduler ξ σ) : (afterErrand main turns n e s).served = turns := by
  cases e with
  | done | look | write | emit | drop => rfl
  | await t next => cases ho : s.outcome? t <;> simp only [afterErrand, ho] <;> rfl
  | sleep ms next => rw [afterErrand]; split <;> rfl

/-- While an errand goes on nobody leaves the queue. -/
theorem afterErrand_ready (main : Main ξ σ ρ α) (turns n : Nat) (e : Errand σ)
    (s : Scheduler ξ σ) : s.ready <+: (afterErrand main turns n e s).scheduler.ready := by
  cases e with
  | done | look | write | drop => exact List.prefix_refl _
  | emit e next => exact (Spares.emit s n e).ready
  | await t next =>
      cases ho : s.outcome? t <;> simp only [afterErrand, ho] <;> exact List.prefix_refl _
  | sleep ms next => rw [afterErrand]; split <;> exact List.prefix_refl _

/-- Whoever has its turn in this round has it now, or still has it in this round one
thing later, unless the run is over. -/
theorem Stands.due (h : m.Stands) (due : task ∈ m.scheduler.ready.take m.served) :
    m.Turns task ∨ m.next.focus.Over ∧ task ∈ m.next.scheduler.ready ∨
      task ∈ m.next.scheduler.ready.take m.next.served := by
  have whole (hw : m.next.Whole) : m.Turns task ∨
      m.next.focus.Over ∧ task ∈ m.next.scheduler.ready ∨
        task ∈ m.next.scheduler.ready.take m.next.served := by
    refine (h.ready (List.take_subset _ _ due)).imp_right fun ht => hw.imp (⟨·, ht⟩) fun all => ?_
    rwa [all, List.take_length]
  obtain ⟨focus, s⟩ := m
  cases focus with
  | round main => exact whole (afterRound_passed main s).whole
  | routine p => exact whole (afterRoutine_passed p s).whole
  | script around n standing after => exact whole (afterScript_whole standing s)
  | interpreter around n standing after => exact whole (afterInterpreter_passed standing s).whole
  | finished | crashed | stuck => simp [served] at due
  | errand main turns n e =>
      refine .inr (.inr ?_)
      show task ∈ List.take (afterErrand main turns n e s).served _
      rw [afterErrand_served]
      exact ((afterErrand_ready main turns n e s).take turns).subset due
  | tasks main turns =>
      cases turns with
      | zero => simp [served] at due
      | succ turns =>
          obtain ⟨head, rest, hr⟩ : ∃ head rest, s.ready = head :: rest :=
            List.exists_cons_of_ne_nil fun none => by simp [none] at due
          have due : task ∈ (head :: rest).take (turns + 1) := hr ▸ due
          rcases List.mem_cons.1 (List.take_succ_cons ▸ due) with rfl | due
          · exact .inl ⟨main, turns, rest, rfl, hr⟩
          · refine .inr (.inr ?_)
            show task ∈ List.take (afterTasks main (turns + 1) s).served _
            rw [afterTasks_served main turns hr]
            have spares := (afterTasks_spares main turns hr).ready
            rw [(begun_launching _ head).ready] at spares
            exact (spares.take turns).subset due

/-! ## Turns -/

/-- The run is over, and a task has not had its turn. -/
def Leaves (task : Task σ) (m : Moment ξ σ ρ α) : Prop :=
  m.focus.Over ∧ task ∈ m.scheduler.ready

theorem Over.next (h : m.focus.Over) : m.next = m := by
  obtain ⟨focus, s⟩ := m
  cases focus with
  | finished | crashed | stuck => rfl
  | round | routine | script | interpreter | tasks | errand => exact h.elim

/-- Whoever is served in this round has its turn, or the run is over before. -/
theorem Stands.soon_turns_of_due (h : m.Stands)
    (due : task ∈ m.scheduler.ready.take m.served) :
    Soon (fun m => m.Turns task ∨ m.Leaves task) m := by
  have kept := h.closes.keep h
    (Q := fun m => m.Leaves task ∨ task ∈ m.scheduler.ready.take m.served)
    (R := fun m => m.Turns task) (.inr due) fun m stands => by
      rintro (leaves | due)
      · exact .inr (.inl ((Over.next leaves.1).symm ▸ leaves))
      · exact stands.due due
  refine kept.mono fun m => Or.imp_right ?_
  rintro ⟨rests, leaves | due⟩
  · exact leaves
  obtain ⟨focus, s⟩ := m
  cases focus with
  | tasks main turns =>
      cases turns with
      | zero => simp [served] at due
      | succ => exact rests.elim
  | finished | crashed | stuck => simp [served] at due
  | round | routine | script | interpreter | errand => exact rests.elim

/-- Whoever stands in the queue has its turn, or the run is over before. -/
theorem Stands.soon_turns (h : m.Stands) (ht : task ∈ m.scheduler.ready) :
    Soon (fun m => m.Turns task ∨ m.Leaves task) m := by
  have kept := (h.closes.stands h).keep h (Q := fun m => task ∈ m.scheduler.ready)
    (R := fun m => m.Turns task) ht fun m stands => stands.ready
  refine (kept.mono fun m => ?_).trans
  rintro (turns | ⟨⟨rests, stands⟩, ht⟩)
  · exact .now (.inl turns)
  have later := stands.later
  obtain ⟨focus, s⟩ := m
  cases focus with
  | tasks main turns =>
      cases turns with
      | succ => exact rests.elim
      | zero =>
          -- In the round that begins now everybody who stands in the queue is served.
          refine .later ?_
          have ht := (stands.ready ht).resolve_left fun ⟨_, _, _, h, _⟩ => by cases h
          have begins := afterTasks_begins main s
          simp only [Moment.next] at later ht ⊢
          generalize afterTasks main 0 s = m at later ht begins
          obtain ⟨focus, s'⟩ := m
          cases focus with
          | round main' => exact later.soon_turns_of_due (by simpa [served] using ht)
          | finished | crashed | stuck => exact .now (.inr ⟨trivial, ht⟩)
          | routine | script | interpreter | tasks | errand => exact begins.elim
  | finished | crashed | stuck => exact .now (.inr ⟨trivial, ht⟩)
  | round | routine | script | interpreter | errand => exact rests.elim

end Moment

/-! ## Turns in a run -/

/-- Whoever stands in the queue has its turn at a moment of the run, or the run is
over and it stands there still. -/
theorem Reachable.exists_turns (hs : Reachable s)
    (ht : task ∈ (moment p s j).scheduler.ready) :
    ∃ i ≥ j, (moment p s i).Turns task ∨ (moment p s i).Leaves task :=
  ((hs.stands p j).soon_turns ht).exists_moment

/-- Whoever is parked has been put into the queue, with its outcome sent, or is parked
still. -/
theorem Reachable.exists_queued (hs : Reachable s) {w : Waiter σ}
    (hw : w ∈ (moment p s j).scheduler.parked) (h : j ≤ k) :
    w ∈ (moment p s k).scheduler.parked ∨
      ∃ i ≥ j, i ≤ k ∧ w.task ∈ (moment p s i).scheduler.ready ∧
        (moment p s i).scheduler.history.Settled w.ticket := by
  induction h with
  | refl => exact .inl hw
  | @step k hk ih =>
      rcases ih with hw | ⟨i, hj, hi, ht⟩
      · exact ((hs.stands p k).parked hw).imp_right
          (⟨k + 1, Nat.le_succ_of_le hk, Nat.le_refl _, ·⟩)
      · exact .inr ⟨i, hj, Nat.le_succ_of_le hi, ht⟩

/-! ## Whoever waits for an outcome goes on with it -/

section Waiters

variable {t : Ticket} {o : Outcome} {l : Nat} {w : Waiter σ} {go : Outcome → Focus ξ σ ρ α}

theorem Reachable.settled_mono (hs : Reachable s)
    (settled : (l, .settled t o) ∈ (moment p s j).scheduler.history) (h : j ≤ k) :
    (l, .settled t o) ∈ (moment p s k).scheduler.history :=
  (hs.moment_steps p h).suffix.subset settled

/-- Whoever looks for an outcome that has been sent goes on with it at once, unless it
has been dropped. -/
theorem Reachable.handed (hs : Reachable s)
    (settled : (l, .settled t o) ∈ (moment p s j).scheduler.history)
    (kept : (moment p s j).scheduler.dropped t = false)
    (awaits : (moment p s j).focus.awaits? = some (t, go)) :
    moment p s (j + 1) = ⟨go o, (moment p s j).scheduler.log (.resumed t o)⟩ :=
  Moment.next_of_awaits awaits ((invariant_delivered.moment hs p j).readable l t o settled kept)

/-- Whoever waits goes on with an outcome at a moment of the run, unless the run is over
before it has its turn. -/
def GoesOn (p : Routine ξ σ ρ α) (s : Scheduler ξ σ) (w : Waiter σ) (o : Outcome) (j : Nat) :
    Prop :=
  ∃ i ≥ j, (∃ main turns, (moment p s i).focus = .errand main turns w.line (w.next o)) ∨
    (moment p s i).Leaves w.task

theorem GoesOn.mono (h : GoesOn p s w o k) (hj : j ≤ k) : GoesOn p s w o j :=
  h.imp fun _ hi => ⟨Nat.le_trans hj hi.1, hi.2⟩

/-- When a task that looks for an outcome has its turn, it looks at the next moment. -/
theorem Moment.Turns.next (h : m.Turns w.task) :
    (∃ main turns, m.next.focus = .errand main turns w.line (.await w.ticket w.next)) ∧
      m.next.scheduler.history = m.scheduler.history := by
  obtain ⟨main, turns, rest, focus, ready⟩ := h
  obtain ⟨focus', s⟩ := m
  cases focus
  have ready : s.ready = .errand w.line (.await w.ticket w.next) :: rest := ready
  have next : Moment.next ⟨.tasks main (turns + 1), s⟩ =
      ⟨.errand main turns w.line (.await w.ticket w.next), { s with ready := rest }⟩ := by
    simp only [Moment.next, afterTasks, ready]
  rw [next]
  exact ⟨⟨main, turns, rfl⟩, rfl⟩

section Kept

variable (hs : Reachable s) (kept : ∀ i, (moment p s i).scheduler.dropped w.ticket = false)
include hs kept

theorem Reachable.goesOn_of_turns
    (settled : (l, .settled w.ticket o) ∈ (moment p s j).scheduler.history)
    (turns : (moment p s j).Turns w.task) : GoesOn p s w o j := by
  obtain ⟨⟨main, turns, focus⟩, -⟩ := turns.next
  have awaits : (moment p s (j + 1)).focus.awaits? =
      some (w.ticket, fun o => .errand main turns w.line (w.next o)) := by
    rw [moment, focus]
    rfl
  have next := hs.handed (hs.settled_mono settled (Nat.le_succ j)) (kept _) awaits
  exact ⟨j + 2, by omega, .inl ⟨main, turns, congrArg Moment.focus next⟩⟩

theorem Reachable.goesOn_of_queued
    (settled : (l, .settled w.ticket o) ∈ (moment p s j).scheduler.history)
    (queued : w.task ∈ (moment p s j).scheduler.ready) : GoesOn p s w o j := by
  obtain ⟨i, hi, turns | leaves⟩ := hs.exists_turns (p := p) queued
  · exact (hs.goesOn_of_turns kept (hs.settled_mono settled hi) turns).mono hi
  · exact ⟨i, hi, .inr leaves⟩

theorem Reachable.goesOn_of_parked (hk : j ≤ k)
    (settled : (l, .settled w.ticket o) ∈ (moment p s k).scheduler.history)
    (parked : w ∈ (moment p s j).scheduler.parked) : GoesOn p s w o j := by
  have delivered := invariant_delivered.moment hs p k
  rcases hs.exists_queued parked hk with still | ⟨i, hi, hik, queued, l', o', settled'⟩
  · have := delivered.parked w still
    rw [delivered.readable l _ o settled (kept k)] at this
    cases this
  · obtain ⟨-, rfl⟩ := (hs.moment_orderly p k).settled_unique (hs.settled_mono settled' hik) settled
    exact (hs.goesOn_of_queued kept settled' queued).mono hi

/-- Whoever waits for an outcome that is sent, now or later, and never dropped, has its
turn and goes on with it, if the run lasts. -/
theorem Reachable.goesOn (settled : (l, .settled w.ticket o) ∈ (moment p s k).scheduler.history)
    (waits : w ∈ (moment p s j).scheduler.parked ∨ w.task ∈ (moment p s j).scheduler.ready) :
    GoesOn p s w o j := by
  rcases waits with parked | queued
  · exact hs.goesOn_of_parked kept (Nat.le_max_left j k)
      (hs.settled_mono settled (Nat.le_max_right j k)) parked
  obtain ⟨i, hi, turns | leaves⟩ := hs.exists_turns (p := p) queued
  · by_cases hk : k ≤ i + 1
    · -- The outcome is there when it has its turn, or one moment later.
      obtain ⟨-, same⟩ := turns.next
      have settled := hs.settled_mono settled hk
      rw [moment, same] at settled
      exact (hs.goesOn_of_turns kept settled turns).mono hi
    · -- It finds no outcome yet, or goes on with it at once.
      obtain ⟨⟨main, turns, focus⟩, -⟩ := turns.next
      have look : (moment p s (i + 2)) = Moment.afterErrand main turns w.line
          (.await w.ticket w.next) (moment p s (i + 1)).scheduler := by
        rw [moment, Moment.next, moment, focus]
      cases ho : (moment p s (i + 1)).scheduler.outcome? w.ticket with
      | some o' =>
          obtain ⟨l', settled'⟩ := (hs.stands p (i + 1)).inv.outcomes _ o' ho
          obtain ⟨-, rfl⟩ := (hs.moment_orderly p k).settled_unique
            (hs.settled_mono settled' (by omega)) settled
          simp only [Moment.afterErrand, ho] at look
          exact ⟨i + 2, by omega, .inl ⟨main, turns, congrArg Moment.focus look⟩⟩
      | none =>
          simp only [Moment.afterErrand, ho] at look
          refine (hs.goesOn_of_parked kept (j := i + 2) (by omega) settled ?_).mono (by omega)
          rw [look]
          exact List.mem_append_right _ (List.mem_singleton.2 rfl)
  · exact ⟨i, hi, .inr leaves⟩

end Kept

end Waiters

end Switchboard.Scheduler
