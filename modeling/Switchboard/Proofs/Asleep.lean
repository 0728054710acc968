import Mathlib.Data.List.TakeWhile
import Switchboard.Proofs.Job
import Switchboard.Proofs.Phases
import Switchboard.Proofs.Progress

/-!
# Switchboard.Proofs.Asleep

What happens while the main routine sleeps.  Other tasks have their turn, and
what they do is done to the world and to the line; the state of the main
routine is its own, and its timer stays where it is until it is due.  So a
routine that sleeps wakes up, in the state in which it fell asleep, and a job
that never crashes comes to its end.
-/

namespace Switchboard

variable {ξ σ ρ α : Type}

/-! ## What tasks leave alone -/

namespace Scheduler

variable {s s' s'' : Scheduler ξ σ}

/-- What tasks leave alone: the state of the main routine, the clock and the
timers that are set.  They may wake the main routine. -/
structure Meanwhile (s s' : Scheduler ξ σ) : Prop where
  state : s'.state = s.state
  clock : s'.clock = s.clock
  timers : s.timers ⊆ s'.timers
  woken : s.woken = true → s'.woken = true

namespace Meanwhile

theorem of_eq (state : s'.state = s.state) (clock : s'.clock = s.clock)
    (timers : s'.timers = s.timers) (woken : s'.woken = s.woken) : s.Meanwhile s' :=
  ⟨state, clock, timers ▸ List.Subset.refl _, fun h => woken.trans h⟩

theorem trans (h : s.Meanwhile s') (h' : s'.Meanwhile s'') : s.Meanwhile s'' :=
  ⟨h'.state.trans h.state, h'.clock.trans h.clock, List.Subset.trans h.timers h'.timers,
    fun hw => h'.woken (h.woken hw)⟩

theorem after (h : s'.Meanwhile s'') (state : s'.state = s.state) (clock : s'.clock = s.clock)
    (timers : s'.timers = s.timers) (woken : s'.woken = s.woken) : s.Meanwhile s'' :=
  (of_eq state clock timers woken).trans h

theorem emit (s : Scheduler ξ σ) (n : Nat) (e : Effect) : s.Meanwhile (s.emit n e).2 := by
  by_cases hl : ∃ l, s.line = some l ∧ l.number = n
  · obtain ⟨l, hl, rfl⟩ := hl
    rw [emit_open s e hl]
    exact ⟨rfl, rfl, List.Subset.refl _, fun _ => rfl⟩
  · rw [emit_closed s e fun l h hn => hl ⟨l, h, hn⟩]
    exact of_eq rfl rfl rfl rfl

theorem report (s : Scheduler ξ σ) (t : Ticket) (i : Nat) (a : Answer) :
    s.Meanwhile (s.report t i a) := by
  by_cases hb : ∃ n e slots, s.Busy n t (.group e slots)
  · obtain ⟨n, e, slots, inbox, hl⟩ := hb
    rw [report_group s a hl]
    exact ⟨rfl, rfl, List.Subset.refl _, fun _ => rfl⟩
  · rw [report_other s a fun n e slots h => hb ⟨n, e, slots, h⟩]
    exact of_eq rfl rfl rfl rfl

theorem addTimer (s : Scheduler ξ σ) (due : Nat) (who : Sleeper σ) :
    s.Meanwhile (s.addTimer due who) :=
  ⟨rfl, rfl, fun _ hp => mem_insertTimer.2 (.inr hp), fun h => h⟩

theorem runMember (s : Scheduler ξ σ) (t : Ticket) (i : Nat) (job : Job σ Answer) :
    s.Meanwhile (s.runMember t i job) := by
  unfold Scheduler.runMember
  split
  · next a w _ => exact (report { s with world := w } t i a).after rfl rfl rfl rfl
  · next w _ => exact (report { s with world := w } t i _).after rfl rfl rfl rfl
  · next due next w _ => exact (addTimer { s with world := w } due _).after rfl rfl rfl rfl

theorem runErrand (n : Nat) (e : Errand σ) (s : Scheduler ξ σ) :
    s.Meanwhile (runErrand n e s) := by
  induction e generalizing s with
  | done => exact of_eq rfl rfl rfl rfl
  | look next ih => exact ih _ _ s
  | write change next ih => exact (ih { s with world := change s.world }).after rfl rfl rfl rfl
  | emit e next ih => exact (emit s n e).trans (ih _ _)
  | await t next ih =>
      unfold Scheduler.runErrand
      split
      · next o _ => exact (ih o (s.log (.resumed t o))).after rfl rfl rfl rfl
      · exact of_eq rfl rfl rfl rfl
  | drop t next ih => exact (ih (s.drop t)).after rfl rfl rfl rfl
  | sleep ms next ih =>
      unfold Scheduler.runErrand
      split
      · exact ih s
      · exact addTimer s _ _

theorem runTask (s : Scheduler ξ σ) (t : Task σ) : s.Meanwhile (s.runTask t) := by
  cases t with
  | begin t i c job => exact (runMember (s.log (.started t i c)) t i job).after rfl rfl rfl rfl
  | resume t i job => exact runMember s t i job
  | errand n e => exact runErrand n e s

theorem runReady (turns : Nat) (s : Scheduler ξ σ) : s.Meanwhile (s.runReady turns) := by
  induction turns generalizing s with
  | zero => exact of_eq rfl rfl rfl rfl
  | succ turns ih =>
      unfold Scheduler.runReady
      split
      · exact of_eq rfl rfl rfl rfl
      · next t rest _ =>
          exact ((runTask { s with ready := rest } t).trans (ih _)).after rfl rfl rfl rfl

theorem drain (s : Scheduler ξ σ) : s.Meanwhile s.drain := runReady _ s

end Meanwhile

/-! ## Falling asleep and waking up -/

variable {p : Routine ξ σ ρ α} {due : Nat} {a : α}

theorem advance_state (ha : s.advance? = some s') : s'.state = s.state := by
  obtain ⟨due, who, rest, -, rfl⟩ := advance_eq ha
  rfl

theorem settleRound_state {main main' : Main ξ σ ρ α} (h : settleRound main s = .next main' s') :
    s'.state = s.state := by
  have aside := Meanwhile.drain s
  unfold settleRound endRound at h
  split at h
  · cases h
    exact aside.state
  · split at h
    · next ha =>
      cases h
      exact (advance_state ha).trans aside.state
    · cases h

/-- The main routine will be woken at a time, or has been woken since. -/
def Alarm (due : Nat) (s : Scheduler ξ σ) : Prop :=
  (due, .main) ∈ s.timers ∨ s.woken = true ∧ due ≤ s.clock

theorem advance_alarm (ha : s.advance? = some s') (ht : (due, .main) ∈ s.timers) :
    Alarm due s' := by
  obtain ⟨d, who, rest, -, rfl⟩ := advance_eq ha
  have split := List.takeWhile_append_dropWhile
    (p := fun t : Nat × Sleeper σ => t.1 ≤ max s.clock d) (l := s.timers)
  rw [← split] at ht
  rcases List.mem_append.1 ht with ht | ht
  · have le : due ≤ max s.clock d := by simpa using List.mem_takeWhile_imp ht
    refine .inr ⟨?_, le⟩
    simp only [wakeDue, Bool.or_eq_true, List.any_eq_true]
    exact .inr ⟨_, ht, rfl⟩
  · exact .inl ht

/-- As long as a timer is set for the main routine there is another round. -/
theorem settleRound_alarm (s : Scheduler ξ σ) (ht : (due, .main) ∈ s.timers) :
    ∃ s₁, (∀ {ρ α : Type} (main : Main ξ σ ρ α), settleRound main s = .next main s₁) ∧
      Alarm due s₁ := by
  have aside := Meanwhile.drain s
  have ht := aside.timers ht
  by_cases h : s.drain.woken || !s.drain.ready.isEmpty
  · exact ⟨s.drain, fun main => by simp only [settleRound, endRound, h, if_true], .inl ht⟩
  · cases ha : s.drain.advance? with
    | some s₁ => exact ⟨s₁, fun main => by simp [settleRound, endRound, h, ha], advance_alarm ha ht⟩
    | none =>
        unfold advance? at ha
        split at ha
        · next hn => rw [hn] at ht; cases ht
        · cases ha

/-- A routine that is asleep goes on when it has been woken and its time has
come, and otherwise it sleeps on. -/
theorem opening_asleep (due : Nat) (p : Routine ξ σ ρ α) (s : Scheduler ξ σ) :
    opening (.asleep due p) s =
      if s.woken ∧ due ≤ s.clock then runRoutine p { s with woken := false }
      else .blocked (.asleep due p) { s with woken := false } := by
  unfold opening
  by_cases hw : s.woken
  · simp [hw, turn]
  · have same : { s with woken := false } = s := by
      cases s
      simp_all
    simp [hw, same]

/-- A routine that has been asleep goes on in the state in which it fell
asleep. -/
theorem leads_asleep (h : (Turn.blocked (.asleep due p) s).Leads a s') :
    ∃ s₁, s₁.state = s.state ∧ Ends p s₁ a s' := by
  generalize ht : Turn.blocked (.asleep due p) s = t at h
  refine h.rec_on (motive := fun t => ∀ s, Turn.blocked (.asleep due p) s = t →
    ∃ s₁, s₁.state = s.state ∧ Ends p s₁ a s') ?_ ?_ s ht
  · rintro s ht
    cases ht
  · rintro main s₀ s₁ hs leads ih s ht
    cases ht
    have state := settleRound_state (hs (.asleep due p))
    by_cases hw : s₁.woken ∧ due ≤ s₁.clock
    · rw [opening_asleep, if_pos hw] at leads
      exact ⟨{ s₁ with woken := false }, state, leads⟩
    · obtain ⟨s₂, state', ends⟩ := ih { s₁ with woken := false } <| by
        rw [opening_asleep, if_neg hw]
      exact ⟨s₂, state'.trans state, ends⟩

theorem ends_sleep {ms : Nat} (h : Ends (.sleep ms p) s a s') :
    ∃ s₁, s₁.state = s.state ∧ Ends p s₁ a s' := by
  unfold Ends runRoutine at h
  split at h
  · exact ⟨s, rfl, h⟩
  · obtain ⟨s₁, state, rest⟩ := leads_asleep (s := s.addTimer _ _) h
    exact ⟨s₁, state, rest⟩

/-- A routine that sleeps wakes up, and so comes to its end if it does so from
wherever it wakes up. -/
theorem exists_leads_asleep (wakes : ∀ s, ∃ a s', Ends p s a s') (s : Scheduler ξ σ)
    (ht : (due, .main) ∈ s.timers) : ∃ a s', (Turn.blocked (.asleep due p) s).Leads a s' := by
  -- The induction is on what the other tasks have left to do.
  have awaits (s : Scheduler ξ σ) (alarm : Alarm due s) :
      ∃ a s', (opening (.asleep due p) s).Leads a s' := by
    generalize heffort : s.effort = effort
    induction effort using eased_wf.induction generalizing s with
    | _ effort ih =>
      rw [opening_asleep]
      split
      · exact wakes _
      · next hw =>
        have ht : (due, .main) ∈ s.timers := alarm.resolve_right hw
        obtain ⟨s₁, hs, alarm⟩ := settleRound_alarm { s with woken := false } ht
        have eased := (settleRound_eased (hs (.asleep due p))).2 rfl
        obtain ⟨a, s', leads⟩ := ih s₁.effort (heffort ▸ eased) s₁ alarm rfl
        exact ⟨a, s', (Turn.leads_blocked hs).2 leads⟩
  obtain ⟨s₁, hs, alarm⟩ := settleRound_alarm s ht
  obtain ⟨a, s', leads⟩ := awaits s₁ alarm
  exact ⟨a, s', (Turn.leads_blocked hs).2 leads⟩

theorem exists_ends_sleep (wakes : ∀ s, ∃ a s', Ends p s a s') (ms : Nat) (s : Scheduler ξ σ) :
    ∃ a s', Ends (.sleep ms p) s a s' := by
  unfold Ends runRoutine
  split
  · exact wakes s
  · exact exists_leads_asleep wakes _ (mem_insertTimer.2 (.inl rfl))

/-! ## Jobs within the main routine -/

/-- A job leaves the state of the main routine alone. -/
theorem ends_ofJob_state {j : Job σ α} (h : Ends (.ofJob j : Routine ξ σ ρ α) s a s') :
    s'.state = s.state := by
  induction j generalizing s with
  | done b => rw [(ends_done.1 h).2]
  | crash => exact absurd h not_ends_crash
  | look next ih => exact ih _ _ (ends_look.1 h)
  | write change next ih => exact ih (s := { s with world := change s.world }) (ends_note.1 h)
  | sleep ms next ih =>
      obtain ⟨s₁, state, rest⟩ := ends_sleep h
      exact (ih rest).trans state

end Scheduler

namespace Job

/-- A job never crashes, whatever it sees. -/
def Calm (j : Job σ α) : Prop := ∀ d, ¬ j.After d .crash

/-- A job that never crashes comes to its end, beside whatever else runs. -/
theorem Calm.exists_ends {j : Job σ α} (h : j.Calm) (s : Scheduler ξ σ) :
    ∃ a s', Scheduler.Ends (.ofJob j : Routine ξ σ ρ α) s a s' := by
  induction j generalizing s with
  | done a => exact ⟨a, s, Scheduler.ends_done.2 ⟨rfl, rfl⟩⟩
  | crash => exact absurd (.refl _) (h 0)
  | look next ih => exact ih _ _ (fun d hd => h d (.look _ _ hd)) s
  | write change next ih =>
      exact ih (fun d hd => h d (.write hd)) { s with world := change s.world }
  | sleep ms next ih =>
      exact Scheduler.exists_ends_sleep (ih fun d hd => h (ms + d) (.sleep hd)) ms s

end Job

end Switchboard
