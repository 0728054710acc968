import Mathlib.Order.Nat
import Switchboard.Proofs.Moments

/-!
# Switchboard.Proofs.Soon

Nothing that runs goes on for ever at one time.  Whatever has its turn, a moment
comes at which the tasks of the round have had theirs, or else the run is over; so
every round of a run begins at one of its moments.

* `Soon` — sooner or later, with `Soon.keep`, what is so until then;
* `Stands.closes` — a round comes to its end;
* `Moment.Passed` — what has its turn next;
* `Traced` — the moments of a run are on its way, and it passes over none.
-/

namespace Switchboard.Scheduler

variable {ξ σ ρ α : Type} {s s' : Scheduler ξ σ} {main : Main ξ σ ρ α} {turns n k j : Nat}
  {around : Surroundings σ} {after : Except Failure ρ → Routine ξ σ ρ α} {p : Routine ξ σ ρ α}

/-! ## Sooner or later -/

/-- Something is so at a moment or at a later one. -/
inductive Soon (P : Moment ξ σ ρ α → Prop) : Moment ξ σ ρ α → Prop where
  | now {m : Moment ξ σ ρ α} (h : P m) : Soon P m
  | later {m : Moment ξ σ ρ α} (h : Soon P m.next) : Soon P m

namespace Soon

variable {P Q R : Moment ξ σ ρ α → Prop} {m : Moment ξ σ ρ α}

theorem mono (h : Soon P m) (hPQ : ∀ m, P m → Q m) : Soon Q m := by
  induction h with
  | now h => exact .now (hPQ _ h)
  | later _ ih => exact .later ih

theorem trans (h : Soon (Soon P) m) : Soon P m := by
  induction h with
  | now h => exact h
  | later _ ih => exact .later ih

/-- What every moment keeps is still so, unless something else has been so before. -/
theorem keep (h : Soon P m) (stands : m.Stands) (hQ : Q m)
    (step : ∀ m, m.Stands → Q m → R m ∨ Q m.next) : Soon (fun m => R m ∨ P m ∧ Q m) m := by
  induction h with
  | now h => exact .now (.inr ⟨h, hQ⟩)
  | @later m _ ih =>
      rcases step m stands hQ with hR | hQ
      · exact .now (.inl hR)
      · exact .later (ih (stands.next.stands stands.inv stands.positive) hQ)

theorem stands (h : Soon P m) (stands : m.Stands) : Soon (fun m => P m ∧ m.Stands) m := by
  induction h with
  | now h => exact .now ⟨h, stands⟩
  | later _ ih => exact .later (ih (stands.next.stands stands.inv stands.positive))

theorem exists_moment (h : Soon P (moment p s j)) : ∃ i ≥ j, P (moment p s i) := by
  generalize hm : moment p s j = m at h
  induction h generalizing j with
  | now h => exact ⟨j, Nat.le_refl j, hm ▸ h⟩
  | later _ ih =>
      obtain ⟨i, hi, h⟩ := ih (j := j + 1) (congrArg Moment.next hm)
      exact ⟨i, Nat.le_of_succ_le hi, h⟩

end Soon

theorem Moment.Stands.later {m : Moment ξ σ ρ α} (h : m.Stands) : m.next.Stands :=
  h.next.stands h.inv h.positive

/-! ## Rounds come to their ends -/

/-- A run is over. -/
def Focus.Over : Focus ξ σ ρ α → Prop
  | .finished _ | .crashed | .stuck => True
  | _ => False

/-- The tasks of a round have had their turns, or the run is over. -/
def Focus.Rests : Focus ξ σ ρ α → Prop
  | .tasks _ 0 | .finished _ | .crashed | .stuck => True
  | _ => False

theorem Focus.Over.rests {f : Focus ξ σ ρ α} (h : f.Over) : f.Rests := by
  cases f with
  | finished | crashed | stuck => trivial
  | round | routine | script | interpreter | tasks | errand => exact h.elim

namespace Moment

/-- A round comes to its end. -/
abbrev Closes (m : Moment ξ σ ρ α) : Prop := Soon (fun m => m.focus.Rests) m

theorem closes_errand (e : Errand σ) (h : Closes ⟨.tasks main turns, runErrand n e s⟩) :
    Closes ⟨.errand main turns n e, s⟩ := by
  induction e generalizing s with
  | done => exact .later h
  | look next ih => exact .later (ih _ _ h)
  | write change next ih => exact .later (ih h)
  | emit e next ih => exact .later (ih _ h)
  | drop t next ih => exact .later (ih h)
  | await t next ih =>
      refine .later ?_
      cases ho : s.outcome? t with
      | some o =>
          simp only [runErrand, ho] at h
          simp only [Moment.next, afterErrand, ho]
          exact ih o h
      | none =>
          simp only [runErrand, ho] at h
          simp only [Moment.next, afterErrand, ho]
          exact h
  | sleep ms next ih =>
      refine .later ?_
      by_cases hms : ms = 0
      · rw [runErrand, if_pos hms] at h
        simp only [Moment.next, afterErrand, if_pos hms]
        exact ih h
      · rw [runErrand, if_neg hms] at h
        simp only [Moment.next, afterErrand, if_neg hms]
        exact h

theorem closes_tasks (main : Main ξ σ ρ α) (turns : Nat) (s : Scheduler ξ σ) :
    Closes ⟨.tasks main turns, s⟩ := by
  induction turns generalizing s with
  | zero => exact .now trivial
  | succ turns ih =>
      refine .later ?_
      cases hr : s.ready with
      | nil =>
          simp only [Moment.next, afterTasks, hr]
          exact .now trivial
      | cons task rest =>
          cases task with
          | errand n e =>
              simp only [Moment.next, afterTasks, hr]
              exact closes_errand e (ih _)
          | begin | resume =>
              simp only [Moment.next, afterTasks, hr]
              exact ih _

theorem closes_blocked (main : Main ξ σ ρ α) (s : Scheduler ξ σ) : Closes (blocked main s) :=
  closes_tasks main s.ready.length s

/-- A script that cannot go on gives way to its interpreter. -/
theorem afterScript_halts {standing : Standing ξ σ ρ} (halts : standing.Halts s) :
    afterScript around n after standing s =
      ⟨.interpreter around n standing after, s.notePoll standing.wanted⟩ := by
  cases standing with
  | asleep due next => rw [afterScript, if_neg (Nat.not_le.2 halts)]; rfl
  | before script =>
      cases script with
      | await t next => simp only [afterScript, show s.outcome? t = none from halts]; rfl
      | done | look | write | note | emit | drop | sleep | spawn => exact halts.elim

/-- A script is looked at again and again while its line is served, and each time one
effect less is on the line. -/
theorem closes_standing {standing : Standing ξ σ ρ}
    (go : ∀ s', Stands ⟨.script around n standing after, s'⟩ → ¬ standing.Halts s' →
      Closes ⟨.script around n standing after, s'⟩)
    (stands : Stands ⟨.script around n standing after, s⟩) :
    Closes ⟨.script around n standing after, s⟩ := by
  obtain ⟨inbox, hl⟩ : ∃ inbox, s.line = some { number := n, inbox } := stands.focus.1
  induction inbox generalizing s with
  | nil =>
      by_cases halts : standing.Halts s
      · refine .later (.later ?_)
        have hl' : (s.notePoll standing.wanted).line = some { number := n, inbox := [] } := by
          rw [stands.focus.1.notePoll]
          exact hl
        simp only [Moment.next, afterScript_halts halts, afterInterpreter, take?_empty hl']
        exact closes_blocked _ _
      · exact go s stands halts
  | cons first inbox ih =>
      by_cases halts : standing.Halts s
      · refine .later (.later ?_)
        have later := stands.later.later
        obtain ⟨t, e⟩ := first
        have hl' : (s.notePoll standing.wanted).line =
            some { number := n, inbox := (t, e) :: inbox } := by
          rw [stands.focus.1.notePoll]
          exact hl
        simp only [Moment.next, afterScript_halts halts, afterInterpreter,
          take?_next hl'] at later ⊢
        cases hstart : start around _ t e with
        | settled s' =>
            simp only [hstart] at later ⊢
            obtain ⟨x, o, rfl, line, -⟩ := start_settled (by rfl) hstart
            exact ih later (by rw [settle_line, line]; rfl)
        | waiting s' => exact closes_blocked _ _
        | crashed s' => exact .now trivial
      · exact go s stands halts

theorem closes_script (script : Script ξ σ ρ)
    (rest : ∀ r s', Stands (⟨.routine (after r), s'⟩ : Moment ξ σ ρ α) →
      Closes (⟨.routine (after r), s'⟩ : Moment ξ σ ρ α))
    (stands : Stands ⟨.script around n (.before script) after, s⟩) :
    Closes ⟨.script around n (.before script) after, s⟩ := by
  induction script generalizing s with
  | done r => exact .later (rest r _ stands.later)
  | look next ih => exact .later (ih _ _ _ stands.later)
  | write change next ih => exact .later (ih stands.later)
  | note change next ih => exact .later (ih stands.later)
  | spawn e next ih => exact .later (ih stands.later)
  | emit e next ih => exact .later (ih _ stands.later)
  | drop t next ih => exact .later (ih stands.later)
  | sleep ms next ih =>
      have later := stands.later
      refine .later ?_
      by_cases hms : ms = 0
      · simp only [Moment.next, afterScript, if_pos hms] at later ⊢
        exact ih later
      · simp only [Moment.next, afterScript, if_neg hms] at later ⊢
        refine closes_standing (fun s' stands' wakes => ?_) later
        have hdue := Nat.not_lt.1 wakes
        have later := stands'.later
        refine .later ?_
        simp only [Moment.next, afterScript, if_pos hdue] at later ⊢
        exact ih later
  | await t next ih =>
      refine closes_standing (fun s' stands' goes => ?_) stands
      obtain ⟨o, ho⟩ := Option.ne_none_iff_exists'.1 goes
      have later := stands'.later
      refine .later ?_
      simp only [Moment.next, afterScript, ho] at later ⊢
      exact ih o later

theorem closes_routine (p : Routine ξ σ ρ α) (stands : Stands ⟨.routine p, s⟩) :
    Closes ⟨.routine p, s⟩ := by
  induction p generalizing s with
  | done a => exact .later (.now trivial)
  | crash => exact .later (.now trivial)
  | look next ih => exact .later (ih _ _ _ stands.later)
  | write change next ih => exact .later (ih stands.later)
  | note change next ih => exact .later (ih stands.later)
  | emit e next ih => exact .later (ih _ stands.later)
  | interpret around script after ih =>
      exact .later (closes_script script (fun r _ stands => ih r stands) stands.later)
  | sleep ms next ih =>
      have later := stands.later
      refine .later ?_
      by_cases hms : ms = 0
      · simp only [Moment.next, afterRoutine, if_pos hms] at later ⊢
        exact ih later
      · simp only [Moment.next, afterRoutine, if_neg hms]
        exact closes_blocked _ _
  | peek t next ih =>
      have later := stands.later
      refine .later ?_
      cases ho : s.outcome? t with
      | some o =>
          simp only [Moment.next, afterRoutine, ho] at later ⊢
          exact ih _ later
      | none =>
          simp only [Moment.next, afterRoutine, ho] at later ⊢
          exact ih _ later

theorem closes_within (standing : Standing ξ σ ρ)
    (stands : Stands ⟨.script around n standing after, s⟩) :
    Closes ⟨.script around n standing after, s⟩ := by
  cases standing with
  | before script => exact closes_script script (fun r _ stands => closes_routine _ stands) stands
  | asleep due next =>
      refine closes_standing (fun s' stands' wakes => ?_) stands
      have hdue := Nat.not_lt.1 wakes
      have later := stands'.later
      refine .later ?_
      simp only [Moment.next, afterScript, if_pos hdue] at later ⊢
      exact closes_script next (fun r _ stands => closes_routine _ stands) later

theorem closes_round (stands : Stands ⟨.round main, s⟩) : Closes ⟨.round main, s⟩ := by
  have later := stands.later
  refine .later ?_
  by_cases woken : s.woken
  · simp only [Moment.next, afterRound, if_pos woken] at later ⊢
    cases main with
    | before p => exact closes_routine p later
    | asleep due next =>
        by_cases hdue : due ≤ s.clock
        · simp only [if_pos hdue] at later ⊢
          exact closes_routine next later
        · simp only [if_neg hdue]
          exact closes_blocked _ _
    | within around n standing after =>
        dsimp only at later ⊢
        cases hp : proceed { s with woken := false } with
        | settled s' =>
            simp only [hp] at later ⊢
            exact closes_within standing later
        | waiting s' => exact closes_blocked _ _
        | crashed s' => exact .now trivial
  · simp only [Moment.next, afterRound, if_neg woken]
    exact closes_blocked _ _

theorem closes_interpreter {standing : Standing ξ σ ρ}
    (stands : Stands ⟨.interpreter around n standing after, s⟩) :
    Closes ⟨.interpreter around n standing after, s⟩ := by
  have later := stands.later
  refine .later ?_
  simp only [Moment.next, afterInterpreter] at later ⊢
  cases htake : s.take? with
  | none => exact closes_blocked _ _
  | some taken =>
      obtain ⟨⟨t, e⟩, s'⟩ := taken
      simp only [htake] at later ⊢
      cases hstart : start around s' t e with
      | settled s'' =>
          simp only [hstart] at later ⊢
          exact closes_within standing later
      | waiting s'' => exact closes_blocked _ _
      | crashed s'' => exact .now trivial

/-- Whatever has its turn, the round comes to its end, or the run does. -/
theorem Stands.closes {m : Moment ξ σ ρ α} (h : m.Stands) : m.Closes := by
  obtain ⟨focus, s⟩ := m
  cases focus with
  | round main => exact closes_round h
  | routine p => exact closes_routine p h
  | script around n standing after => exact closes_within standing h
  | interpreter around n standing after => exact closes_interpreter h
  | tasks main turns => exact closes_tasks main turns s
  | errand main turns n e => exact closes_errand e (closes_tasks main turns _)
  | finished | crashed | stuck => exact .now trivial

end Moment

/-! ## What has its turn next -/

namespace Moment

/-- What has its turn when the main routine, a script or an interpreter has had its
own: a routine, a script, everybody who stands in the queue, or nobody any more. -/
inductive Passed : Moment ξ σ ρ α → Prop where
  | routine (p : Routine ξ σ ρ α) (s : Scheduler ξ σ) : Passed ⟨.routine p, s⟩
  | script (around : Surroundings σ) (n : Nat) (standing : Standing ξ σ ρ)
      (after : Except Failure ρ → Routine ξ σ ρ α) (s : Scheduler ξ σ) :
      Passed ⟨.script around n standing after, s⟩
  | blocked (main : Main ξ σ ρ α) (s : Scheduler ξ σ) : Passed (blocked main s)
  | ended {m : Moment ξ σ ρ α} (h : m.focus.Over) : Passed m

theorem afterRound_passed (main : Main ξ σ ρ α) (s : Scheduler ξ σ) :
    (afterRound main s).Passed := by
  unfold afterRound
  split
  · cases main with
    | before p => exact .routine p _
    | asleep due next =>
        dsimp only
        split
        · exact .routine next _
        · exact .blocked _ _
    | within around n standing after =>
        dsimp only
        cases proceed { s with woken := false } with
        | settled s' => exact .script around n standing after s'
        | waiting s' => exact .blocked _ s'
        | crashed s' => exact .ended trivial
  · exact .blocked main s

theorem afterRoutine_passed (p : Routine ξ σ ρ α) (s : Scheduler ξ σ) :
    (afterRoutine p s).Passed := by
  cases p with
  | done | crash => exact .ended trivial
  | look | write | note | emit => exact .routine _ _
  | interpret around script after => exact .script around _ _ after _
  | sleep ms next =>
      rw [afterRoutine]
      split
      · exact .routine next s
      · exact .blocked _ _
  | peek t next => cases ho : s.outcome? t <;> simp only [afterRoutine, ho] <;> exact .routine _ _

/-- A script that can go on does so, or leaves the turn to the routine behind it. -/
theorem afterScript_passed {standing : Standing ξ σ ρ} (goes : ¬ standing.Halts s) :
    (afterScript around n after standing s).Passed := by
  cases standing with
  | asleep due next =>
      rw [afterScript, if_pos (Nat.not_lt.1 goes)]
      exact .script ..
  | before script =>
      cases script with
      | done r => exact .routine _ _
      | look | write | note | spawn | emit | drop => exact .script ..
      | sleep ms next =>
          rw [afterScript]
          split <;> exact .script ..
      | await t next =>
          obtain ⟨o, ho⟩ := Option.ne_none_iff_exists'.1 goes
          simp only [afterScript, ho]
          exact .script ..

theorem afterInterpreter_passed (standing : Standing ξ σ ρ) (s : Scheduler ξ σ) :
    (afterInterpreter around n standing after s).Passed := by
  unfold afterInterpreter
  cases s.take? with
  | none => exact .blocked _ s
  | some taken =>
      dsimp only
      cases start around taken.2 taken.1.1 taken.1.2 with
      | settled s' => exact .script around n standing after s'
      | waiting s' => exact .blocked _ s'
      | crashed s' => exact .ended trivial

end Moment

/-! ## Every round begins at a moment -/

/-- A round begins, or the run is over. -/
def Focus.Begins : Focus ξ σ ρ α → Prop
  | .round _ | .finished _ | .crashed | .stuck => True
  | _ => False

/-- When the tasks have had their turns another round begins. -/
theorem afterTasks_begins (main : Main ξ σ ρ α) (s : Scheduler ξ σ) :
    (Moment.afterTasks main 0 s).focus.Begins := by
  rcases endRound_cases s with ⟨s', hs⟩ | hs
  · simp only [Moment.afterTasks, hs]
    trivial
  · simp only [Moment.afterTasks, hs]
    trivial

theorem Moment.Stands.soon_begins {m : Moment ξ σ ρ α} (h : m.Stands) :
    Soon (fun m => m.focus.Begins) m := by
  refine (h.closes.mono fun m rests => ?_).trans
  obtain ⟨focus, s⟩ := m
  cases focus with
  | tasks main turns =>
      cases turns with
      | zero => exact .later (.now (afterTasks_begins main s))
      | succ => exact rests.elim
  | finished | crashed | stuck => exact .now trivial
  | round | routine | script | interpreter | errand => exact rests.elim

/-- As long as no round begins none has begun. -/
theorem begun_eq {i : Nat} (h : j ≤ i) (none : ∀ i', j ≤ i' → i' < i →
    ¬ (moment p s i').focus.Begins) : begun p s i = begun p s j := by
  induction h with
  | refl => rfl
  | @step i hj ih =>
      have quiet : (moment p s i).rounds = 0 := by
        have := none i hj (Nat.lt_succ_self i)
        unfold Moment.rounds
        split
        · next h => exact absurd (by rw [h]; trivial) this
        · rfl
      rw [begun, quiet, Nat.add_zero]
      exact ih fun i' hi' hlt => none i' hi' (Nat.lt_succ_of_lt hlt)

/-- Every round of a run begins at a moment, unless the run is over before. -/
theorem Reachable.exists_begins (hs : Reachable s) (p : Routine ξ σ ρ α) (k : Nat) :
    ∃ j, begun p s j ≤ k ∧
      ((moment p s j).focus.Over ∨
        begun p s j = k ∧ ∃ main, (moment p s j).focus = .round main) := by
  induction k with
  | zero => exact ⟨0, Nat.le_refl 0, .inr ⟨rfl, _, rfl⟩⟩
  | succ k ih =>
      obtain ⟨j, hj, ended | ⟨rfl, main, round⟩⟩ := ih
      · exact ⟨j, Nat.le_succ_of_le hj, .inl ended⟩
      have first : begun p s (j + 1) = begun p s j + 1 := by
        rw [begun, Moment.rounds, round]
      -- The first moment after this one at which a round begins.
      have soon := (hs.stands p (j + 1)).soon_begins.exists_moment
      classical
      obtain ⟨hi, begins⟩ := Nat.find_spec soon
      have least (i' : Nat) (hle : j + 1 ≤ i') (hlt : i' < Nat.find soon) :
          ¬ (moment p s i').focus.Begins :=
        fun h => Nat.find_min soon hlt ⟨hle, h⟩
      have same := begun_eq hi least
      refine ⟨Nat.find soon, by omega, ?_⟩
      generalize Nat.find soon = i at begins same
      cases hf : (moment p s i).focus with
      | round main => exact .inr ⟨by omega, main, rfl⟩
      | finished | crashed | stuck => exact .inl trivial
      | routine | script | interpreter | tasks | errand =>
          rw [hf] at begins
          exact begins.elim

theorem Moment.complete_over {m : Moment ξ σ ρ α} (h : m.focus.Over) (k : Nat) :
    (m.complete k).scheduler = m.scheduler := by
  obtain ⟨focus, s⟩ := m
  cases focus with
  | finished | crashed | stuck => rfl
  | round | routine | script | interpreter | tasks | errand => exact h.elim

/-- When a round begins there is nothing to be done before it. -/
theorem Moment.complete_begins {m : Moment ξ σ ρ α} (h : m.focus.Begins) :
    (m.complete 0).scheduler = m.scheduler := by
  obtain ⟨focus, s⟩ := m
  cases focus with
  | round | finished | crashed | stuck => rfl
  | routine | script | interpreter | tasks | errand => exact h.elim

/-- However many rounds a run is given, what it comes to is there at one of its
moments. -/
theorem Reachable.exists_moment (hs : Reachable s) (p : Routine ξ σ ρ α) (k : Nat) :
    ∃ j, (runFor p s k).scheduler = (moment p s j).scheduler := by
  obtain ⟨j, hj, h⟩ := hs.exists_begins p k
  refine ⟨j, ?_⟩
  have whole := runFor_eq hs p j (k - begun p s j)
  rw [Nat.add_sub_cancel' hj] at whole
  rw [whole]
  rcases h with ended | ⟨rfl, main, round⟩
  · exact Moment.complete_over ended _
  · rw [Nat.sub_self, Moment.complete, round]
    rfl

/-- The moments of a run are on its way, and it passes over none. -/
structure Traced (p : Routine ξ σ ρ α) (s : Scheduler ξ σ) : Prop where
  /-- At each of them all the rest of the run is still to come. -/
  rest : ∀ j k, runFor p s (begun p s j + k) = (moment p s j).complete k
  /-- What the run comes to is there at one of them. -/
  reached : ∀ k, ∃ j, (runFor p s k).scheduler = (moment p s j).scheduler

theorem Reachable.traced (hs : Reachable s) (p : Routine ξ σ ρ α) : Traced p s :=
  ⟨runFor_eq hs p, hs.exists_moment p⟩

end Switchboard.Scheduler
