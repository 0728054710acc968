import Switchboard.Proofs.Runs

/-!
# Switchboard.Proofs.Rounds

The main routine and its rounds are sequences of steps, too.  Between two
rounds the invariant holds, and whatever is being resolved either has to be
waited for or is about to be looked at.  What every step keeps is so in every run
(`Scheduler.Invariant`).
-/

namespace Switchboard.Scheduler

variable {ξ σ ρ α : Type} {s s' : Scheduler ξ σ} {n : Nat} {around : Surroundings σ}

/-! ## Routines -/

/-- The line is as the main routine left it. -/
def Main.Matches (s : Scheduler ξ σ) : Main ξ σ ρ α → Prop
  | .before _ | .asleep _ _ => s.line = none
  | .within around n _ _ => (∃ l, s.line = some l ∧ l.number = n) ∧ s.history.Opened n around

/-- The turn of the main routine is a sequence of steps. -/
def Turn.Sound (s : Scheduler ξ σ) : Turn ξ σ ρ α → Prop
  | .finished _ s' => Steps s s' ∧ s'.line = none
  | .blocked main s' => Steps s s' ∧ main.Matches s' ∧ s'.Waiting
  | .crashed s' => Steps s s' ∧ s'.line = none

theorem Turn.Sound.after {r : Turn ξ σ ρ α} (hr : r.Sound s') (h : Steps s s') : r.Sound s := by
  cases r with
  | finished | blocked | crashed => exact hr.imp_left h.trans

/-- What the main routine does with a script that has been run. -/
theorem Interpreted.Sound.turn {r : Interpreted ξ σ ρ} {next : Except Failure ρ → Routine ξ σ ρ α}
    (hr : r.Sound s n) (hi : s.Inv) (hp : 0 < s.nextLine) (ho : s.history.Opened n around)
    (ih : ∀ o {s : Scheduler ξ σ}, s.Inv → 0 < s.nextLine → s.line = none →
      (runRoutine (next o) s).Sound s) :
    (r.turn around n next fun o => runRoutine (next o)).Sound s := by
  cases r with
  | finished o s' =>
      have steps : Steps s (s'.closeLine true) := hr.1.tail (.finish s' n hr.2)
      exact (ih o (steps.inv hi) (Nat.lt_of_lt_of_le hp steps.nextLine_le)
        (closeLine_line s' true)).after steps
  | blocked standing s' => exact ⟨hr.1, ⟨hr.2.line, hr.1.opened ho⟩, hr.2.waiting⟩
  | crashed s' =>
      obtain ⟨t, hb⟩ := hr.2
      exact ⟨hr.1.tail (.breakOff s' n t hb), closeLine_line s' false⟩

theorem runRoutine_sound (p : Routine ξ σ ρ α) (hi : s.Inv) (hp : 0 < s.nextLine)
    (hl : s.line = none) : (runRoutine p s).Sound s := by
  induction p generalizing s with
  | done a => exact ⟨.refl, hl⟩
  | crash => exact ⟨.refl, hl⟩
  | look next ih => exact ih _ _ _ hi hp hl
  | write change next ih =>
      have step := Step.touch s (change s.state) s.world s.woken
      exact (ih (step.inv hi) hp hl).after (.single step)
  | note change next ih =>
      have step := Step.touch s s.state (change s.world) s.woken
      exact (ih (step.inv hi) hp hl).after (.single step)
  | sleep ms next ih =>
      unfold runRoutine
      split
      · exact ih hi hp hl
      · next hms =>
        have step := Step.rest s (s.clock + ms) .main (by omega) rfl fun n h => by cases h
        exact ⟨.single step, hl, waiting_of_line_none hl⟩
  | interpret around script next ih =>
      have step := Step.interpret s around hl
      have opened : (s.openLine around).history.Opened s.nextLine around :=
        ⟨s.clock, List.mem_cons_self⟩
      unfold runRoutine
      exact ((runScript_sound script (step.inv hi) ⟨[], rfl⟩ opened).turn (step.inv hi)
        (Nat.succ_pos _) opened ih).after (.single step)
  | emit e next ih =>
      have step := Step.emit s (s.nextLine - 1) e (by omega)
      have closed := s.emit_line_of_none e hl (s.nextLine - 1)
      exact (ih _ (step.inv hi) (by simpa using hp) closed).after (.single step)
  | peek t next ih =>
      unfold runRoutine
      split
      · next o ho =>
        have step := Step.resume s t o ho
        exact (ih _ (step.inv hi) hp hl).after (.single step)
      · exact ih _ hi hp hl

/-! ## Rounds -/

/-- What holds between two rounds. -/
structure Poised (main : Main ξ σ ρ α) (s : Scheduler ξ σ) : Prop where
  inv : s.Inv
  positive : 0 < s.nextLine
  main : main.Matches s
  waiting : s.woken = false → s.Waiting
  /-- A group is looked at before its members go on, or when all of them have
  stopped. -/
  fresh : ∀ n t e slots, s.Busy n t (.group e slots) →
    FanIn.outcome? slots = none ∨ s.Quiet

theorem turn_sound {main : Main ξ σ ρ α} (hi : s.Inv) (hp : 0 < s.nextLine) (hm : main.Matches s)
    (fresh : ∀ n t e slots, s.Busy n t (.group e slots) →
      FanIn.outcome? slots = none ∨ s.Quiet) : (turn main s).Sound s := by
  unfold turn
  split
  · exact runRoutine_sound _ hi hp hm
  · split
    · exact runRoutine_sound _ hi hp hm
    · exact ⟨.refl, hm, waiting_of_line_none hm⟩
  · next around n standing next =>
    obtain ⟨⟨l, hl, rfl⟩, ho⟩ := hm
    exact (continueLine_sound standing hi hl ho fresh).turn hi hp ho
      fun o _ hi hp hl => runRoutine_sound (next o) hi hp hl

/-- The scheduler at the end of a run. -/
def Result.scheduler : Result ξ σ α → Scheduler ξ σ
  | .finished _ s | .crashed s | .stuck s | .unfinished s => s

/-- A run is over for good, and no effect is being resolved. -/
def Result.Over : Result ξ σ α → Prop
  | .finished _ s | .crashed s => s.line = none
  | .stuck s => ∀ n t w, ¬ s.Busy n t w
  | .unfinished _ => False

theorem Result.Over.not_busy {r : Result ξ σ α} (hr : r.Over) {t : Ticket} {w : Work σ} :
    ¬ r.scheduler.Busy n t w := by
  cases r with
  | finished a s | crashed s =>
      have hl : s.line = none := hr
      rintro ⟨inbox, hb⟩
      simp [Result.scheduler, hl] at hb
  | stuck s => exact hr n t w
  | unfinished s => exact hr.elim

/-- A round is a sequence of steps. -/
def Round.Sound (s : Scheduler ξ σ) : Round ξ σ ρ α → Prop
  | .done r => Steps s r.scheduler ∧ r.Over
  | .next main s' => Steps s s' ∧ Poised main s'

theorem Round.Sound.after {r : Round ξ σ ρ α} (hr : r.Sound s') (h : Steps s s') : r.Sound s := by
  cases r with
  | done | next => exact hr.imp_left h.trans

theorem Main.Matches.after {main : Main ξ σ ρ α} (hm : main.Matches s)
    (sub : s.history ⊆ s'.history)
    (number : s'.line.map (·.number) = s.line.map (·.number)) : main.Matches s' := by
  cases main with
  | before | asleep =>
      have : s.line = none := hm
      simpa [Main.Matches, this] using number
  | within around n standing next =>
      obtain ⟨⟨l, hl, rfl⟩, m, ho⟩ := hm
      exact ⟨by simpa [hl] using number, m, sub ho⟩

theorem Main.Matches.mono {main : Main ξ σ ρ α} (hm : main.Matches s) (steps : Steps s s')
    (number : s'.line.map (·.number) = s.line.map (·.number)) : main.Matches s' :=
  hm.after steps.suffix.subset number

/-- What is due at no later time than the clock shows has been woken. -/
theorem woken_of_due (hi : s.Inv) (ha : s.advance? = some s') {m : Nat}
    (hm : (m, .main) ∈ s.timers) (hle : m ≤ s'.clock) : s'.woken = true := by
  obtain ⟨due, who, rest, -, rfl⟩ := advance_eq ha
  have hmem : (m, Sleeper.main) ∈ s.timers.takeWhile (·.1 ≤ max s.clock due) := by
    have split := List.takeWhile_append_dropWhile
      (p := fun p : Nat × Sleeper σ => p.1 ≤ max s.clock due) (l := s.timers)
    rw [← split] at hm
    refine (List.mem_append.1 hm).resolve_right fun h => ?_
    exact absurd (lt_of_mem_dropWhile hi.sorted h) (Nat.not_lt.2 hle)
  simp only [wakeDue, Bool.or_eq_true, List.any_eq_true]
  exact .inr ⟨_, hmem, rfl⟩

/-- A member of a group that is not decided has not answered. -/
theorem exists_unanswered {h : History σ} {t : Ticket} {size : Nat}
    (hn : FanIn.outcome? (h.slots t size) = none) : ∃ i < size, h.answer? t i = none := by
  simpa [History.slots] using FanIn.exists_none_of_outcome?_eq_none hn

/-- Something is going on as long as an effect is being resolved. -/
theorem timers_ne_nil (hi : s.Inv) (hr : s.ready = []) (hw : s.Waiting) {t : Ticket} {w : Work σ}
    (hb : s.Busy n t w) : s.timers ≠ [] := by
  obtain ⟨inbox, hl⟩ := id hb
  have hu := (hi.onLine _ hl).underway t w rfl
  have pending := hw n t w hb
  cases w with
  | single due job =>
      obtain ⟨-, -, -, -, -, -, -, -, -, -, -, -, timer⟩ := hu.single_inv
      exact List.ne_nil_of_mem (timer pending)
  | group e slots =>
      obtain ⟨rfl, -, -, -, -, -, -, -, atWork⟩ := hu.group_inv
      obtain ⟨i, hi, hn⟩ := exists_unanswered pending
      intro ht
      simpa [crew, hr, ht] using atWork i hi hn

theorem advance_line (ha : s.advance? = some s') : s'.line = s.line := by
  obtain ⟨due, who, rest, -, rfl⟩ := advance_eq ha
  rfl

/-- What holds when the tasks have had their turn: another round may begin. -/
theorem endRound_sound {main : Main ξ σ ρ α} (hi : s.Inv) (hp : 0 < s.nextLine)
    (hm : main.Matches s) (hw : s.woken = false → s.Waiting) (quiet : s.Quiet) :
    (endRound main s).Sound s := by
  unfold endRound
  split
  · exact ⟨.refl, hi, hp, hm, hw, fun _ _ _ _ _ => .inr quiet⟩
  · next hstill =>
    obtain ⟨hwoken, hready⟩ : s.woken = false ∧ s.ready = [] := by simpa using hstill
    have waiting := hw hwoken
    split
    · next s' ha =>
      have steps : Steps s s' := .single (.advance s s' hready waiting ha)
      have line := advance_line ha
      refine ⟨steps, steps.inv hi, Nat.lt_of_lt_of_le hp steps.nextLine_le,
        hm.mono steps (by rw [line]), ?_, ?_⟩
      · rintro h n t w ⟨inbox, hl⟩
        rw [line] at hl
        have pending := waiting n t w ⟨inbox, hl⟩
        cases w with
        | group e slots => exact pending
        | single due job =>
            obtain ⟨-, -, -, -, -, -, -, -, -, -, -, -, timer⟩ :=
              ((hi.onLine _ hl).underway t _ rfl).single_inv
            refine Nat.lt_of_not_le fun hle => ?_
            rw [woken_of_due hi ha (timer pending) hle] at h
            cases h
      · rintro n t e slots ⟨inbox, hl⟩
        exact .inl (waiting n t (.group e slots) ⟨inbox, line ▸ hl⟩)
    · next ha =>
      refine ⟨.refl, fun n t w hb => timers_ne_nil hi hready waiting hb ?_⟩
      unfold advance? at ha
      split at ha
      · assumption
      · cases ha

theorem settleRound_sound {main : Main ξ σ ρ α} (hi : s.Inv) (hp : 0 < s.nextLine)
    (hm : main.Matches s) (hw : s.woken = false → s.Waiting) : (settleRound main s).Sound s := by
  obtain ⟨steps, beside⟩ := drain_steps hi
  refine Round.Sound.after (endRound_sound (steps.inv hi)
    (Nat.lt_of_lt_of_le hp steps.nextLine_le) (hm.mono steps beside.number) (fun h => ?_) ?_) steps
  · obtain ⟨hwoken, hline⟩ := beside.line h
    rintro n t w ⟨inbox, hl⟩
    rw [beside.clock]
    exact hw hwoken n t w ⟨inbox, hline ▸ hl⟩
  · obtain ⟨more, hmore, herrands⟩ := beside.ready
    rw [Quiet, hmore]
    exact List.filterMap_eq_nil_iff.2 fun t ht => herrands t ht _

theorem round_sound {main : Main ξ σ ρ α} (hs : Poised main s) : (round main s).Sound s := by
  unfold round
  split
  · have step : Steps s { s with woken := false } := .single (.touch s s.state s.world false)
    have ht : (turn main { s with woken := false }).Sound s :=
      (turn_sound (step.inv hs.inv) hs.positive (hs.main.mono step rfl) hs.fresh).after step
    split
    · next hr =>
      rw [hr] at ht
      exact ht
    · next hr =>
      rw [hr] at ht
      exact ht
    · next main' s' hr =>
      rw [hr] at ht
      obtain ⟨steps, matched, waiting⟩ := ht
      exact (settleRound_sound (steps.inv hs.inv)
        (Nat.lt_of_lt_of_le hs.positive steps.nextLine_le) matched fun _ => waiting).after steps
  · next hw =>
    exact settleRound_sound hs.inv hs.positive hs.main fun _ => hs.waiting (by simpa using hw)

/-! ## Runs -/

/-- However many rounds a run is given, it is a sequence of steps. -/
theorem rounds_sound (k : Nat) {main : Main ξ σ ρ α} (hs : Poised main s) :
    Steps s (rounds k main s).scheduler ∧
      ((rounds k main s).Over ∨ ∃ s', rounds k main s = .unfinished s') := by
  induction k generalizing main s with
  | zero => exact ⟨.refl, .inr ⟨s, rfl⟩⟩
  | succ k ih =>
      have hr := round_sound hs
      unfold rounds
      split
      · next r hround =>
        rw [hround] at hr
        exact hr.imp_right .inl
      · next main' s' hround =>
        rw [hround] at hr
        obtain ⟨steps, halted⟩ := ih hr.2
        exact ⟨hr.1.trans steps, halted⟩

/-- A run that is given more rounds goes on where it stopped, unless it is
over. -/
theorem rounds_add (j : Nat) {main : Main ξ σ ρ α} (hs : Poised main s) :
    (∃ main' : Main ξ σ ρ α, Poised main' (rounds j main s).scheduler ∧
      ∀ k, rounds (j + k) main s = rounds k main' (rounds j main s).scheduler) ∨
    (rounds j main s).Over ∧ ∀ k, rounds (j + k) main s = rounds j main s := by
  induction j generalizing main s with
  | zero => exact .inl ⟨main, hs, fun k => by rw [Nat.zero_add]; rfl⟩
  | succ j ih =>
      have hr := round_sound hs
      cases hround : round main s with
      | done r =>
          rw [hround] at hr
          exact .inr ⟨by simpa [rounds, hround] using hr.2,
            fun k => by simp [rounds, hround, Nat.succ_add]⟩
      | next main' s' =>
          rw [hround] at hr
          simpa [rounds, hround, Nat.succ_add] using ih hr.2

/-- What a run comes to within a number of rounds. -/
def runFor (p : Routine ξ σ ρ α) (s : Scheduler ξ σ) (k : Nat) : Result ξ σ α :=
  rounds k (.before p) { s with woken := true }

theorem run_eq_runFor (p : Routine ξ σ ρ α) (s : Scheduler ξ σ) : run p s = runFor p s horizon :=
  rfl

/-- The schedulers beside which a routine may be run: a new one, and one that
is left when a routine has been run, whatever happens to the state and the
world in between. -/
inductive Reachable : Scheduler ξ σ → Prop where
  | fresh (x : ξ) (w : World σ) : Reachable { state := x, world := w }
  | touch (s : Scheduler ξ σ) (x : ξ) (w : World σ) (h : Reachable s) :
      Reachable { s with state := x, world := w }
  | finished (s s' : Scheduler ξ σ) {ρ α : Type} (p : Routine ξ σ ρ α) (k : Nat) (a : α)
      (h : Reachable s) (hr : runFor p s k = .finished a s') : Reachable s'
  | crashed (s s' : Scheduler ξ σ) {ρ α : Type} (p : Routine ξ σ ρ α) (k : Nat)
      (h : Reachable s) (hr : runFor p s k = .crashed s') : Reachable s'

theorem fresh_inv (x : ξ) (w : World σ) : Inv { state := x, world := w } where
  orderly := trivial
  past := by simp
  lines := by simp
  tickets := by simp
  outcomes := by simp [outcome?]
  handles := by simp [handles]
  pending := by simp
  ended := by simp [History.Opened]
  onLine := by simp
  engaged := by simp [crew]
  distinct := by simp [crew]
  unanswered := by simp [crew]
  late := by simp [crew]
  sorted := by simp
  ahead := by simp

theorem poised_before (hi : s.Inv) (hp : 0 < s.nextLine) (hl : s.line = none)
    (p : Routine ξ σ ρ α) : Poised (.before p) { s with woken := true } where
  inv := (Step.touch s s.state s.world true).inv hi
  positive := hp
  main := hl
  waiting h := by cases h
  fresh n t e slots := by
    rintro ⟨inbox, h⟩
    rw [show s.line = none from hl] at h
    cases h

theorem Reachable.rests (h : Reachable s) : s.Inv ∧ 0 < s.nextLine ∧ s.line = none := by
  induction h with
  | fresh x w => exact ⟨fresh_inv x w, Nat.one_pos, rfl⟩
  | touch s x w _ ih => exact ⟨(Step.touch s x w s.woken).inv ih.1, ih.2⟩
  | finished s s' p k _ _ hr ih | crashed s s' p k _ hr ih =>
      have poised := poised_before ih.1 ih.2.1 ih.2.2 p
      obtain ⟨steps, halted⟩ := rounds_sound k poised
      rw [show rounds k _ _ = _ from hr] at steps halted
      rcases halted with hl | ⟨s'', h⟩
      · exact ⟨steps.inv poised.inv, Nat.lt_of_lt_of_le poised.positive steps.nextLine_le, hl⟩
      · cases h

theorem Reachable.poised (h : Reachable s) (p : Routine ξ σ ρ α) :
    Poised (.before p) { s with woken := true } :=
  poised_before h.rests.1 h.rests.2.1 h.rests.2.2 p

/-- What a run leaves behind is in order, however far it has come. -/
theorem Reachable.inv (h : Reachable s) (p : Routine ξ σ ρ α) (k : Nat) :
    (runFor p s k).scheduler.Inv :=
  (rounds_sound k (h.poised p)).1.inv (h.poised p).inv

/-! ## What every step keeps -/

/-- So it is at the beginning, and every step keeps it. -/
structure Invariant (P : Scheduler ξ σ → Prop) : Prop where
  fresh : ∀ x w, P { state := x, world := w }
  step : ∀ {s s' : Scheduler ξ σ}, Step s s' → s.Inv → P s → P s'

namespace Invariant

variable {P : Scheduler ξ σ → Prop}

theorem steps (hP : Invariant P) (h : Steps s s') (hi : s.Inv) (hs : P s) : P s' := by
  induction h with
  | refl => exact hs
  | tail steps step ih => exact hP.step step (Steps.inv steps hi) ih

theorem rounds (hP : Invariant P) (h : Reachable s) (hs : P s) (p : Routine ξ σ ρ α) (k : Nat) :
    P (runFor p s k).scheduler :=
  hP.steps (rounds_sound k (h.poised p)).1 (h.poised p).inv
    (hP.step (.touch s s.state s.world true) h.rests.1 hs)

/-- So it is wherever a run may begin, -/
theorem reachable (hP : Invariant P) (h : Reachable s) : P s := by
  induction h with
  | fresh x w => exact hP.fresh x w
  | touch s x w h ih => exact hP.step (.touch s x w s.woken) h.rests.1 ih
  | finished s s' p k _ h hr ih | crashed s s' p k h hr ih =>
      have kept := hP.rounds h ih p k
      rwa [hr] at kept

/-- and however far it has come. -/
theorem runFor (hP : Invariant P) (h : Reachable s) (p : Routine ξ σ ρ α) (k : Nat) :
    P (Scheduler.runFor p s k).scheduler :=
  hP.rounds h (hP.reachable h) p k

end Invariant

end Switchboard.Scheduler
