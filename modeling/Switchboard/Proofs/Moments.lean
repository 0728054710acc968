import Switchboard.Proofs.Onward

/-!
# Switchboard.Proofs.Moments

A run, moment by moment.  The functions that run a routine, a script or an errand
go as far as they can; here each of them goes on by one thing at a time, so that
one can say what has its turn at every moment, and what stands before it and
behind it.

* `Focus`, `Moment` — what has its turn, and everything as it stands then;
* `Moment.next` — one thing later;
* `Stands.complete_next` — whatever a moment comes to, the next one comes to;
* `Stands.next` — what is so at every moment;
* `runFor_eq` — at every moment of a run all the rest of it is still to come.
-/

namespace Switchboard.Scheduler

variable {ξ σ ρ α : Type}

/-! ## Moments -/

/-- What has its turn at a moment. -/
inductive Focus (ξ σ ρ α : Type) where
  /-- A round begins. -/
  | round (main : Main ξ σ ρ α)
  | routine (p : Routine ξ σ ρ α)
  /-- A script is looked at; its interpreter is at work on nothing. -/
  | script (around : Surroundings σ) (line : Nat) (standing : Standing ξ σ ρ)
      (after : Except Failure ρ → Routine ξ σ ρ α)
  /-- The interpreter of a script that cannot go on. -/
  | interpreter (around : Surroundings σ) (line : Nat) (standing : Standing ξ σ ρ)
      (after : Except Failure ρ → Routine ξ σ ρ α)
  /-- The first tasks in the queue, so many of them. -/
  | tasks (main : Main ξ σ ρ α) (turns : Nat)
  /-- An errand, and so many tasks after it. -/
  | errand (main : Main ξ σ ρ α) (turns : Nat) (line : Nat) (e : Errand σ)
  | finished (result : α)
  | crashed
  | stuck

/-- What has its turn, and everything as it stands then. -/
structure Moment (ξ σ ρ α : Type) where
  focus : Focus ξ σ ρ α
  scheduler : Scheduler ξ σ

namespace Moment

/-- The main routine cannot go on, and the tasks have their turns. -/
def blocked (main : Main ξ σ ρ α) (s : Scheduler ξ σ) : Moment ξ σ ρ α :=
  ⟨.tasks main s.ready.length, s⟩

def afterRound (main : Main ξ σ ρ α) (s : Scheduler ξ σ) : Moment ξ σ ρ α :=
  if s.woken then
    let s := { s with woken := false }
    match main with
    | .before p => ⟨.routine p, s⟩
    | .asleep due next => if due ≤ s.clock then ⟨.routine next, s⟩ else blocked main s
    | .within around line standing after => match s.proceed with
      | .settled s => ⟨.script around line standing after, s⟩
      | .waiting s => blocked main s
      | .crashed s => ⟨.crashed, s.closeLine false⟩
  else blocked main s

def afterRoutine : Routine ξ σ ρ α → Scheduler ξ σ → Moment ξ σ ρ α
  | .done a, s => ⟨.finished a, s⟩
  | .crash, s => ⟨.crashed, s⟩
  | .look next, s => ⟨.routine (next s.clock s.state s.world), s⟩
  | .write change next, s => ⟨.routine next, { s with state := change s.state }⟩
  | .note change next, s => ⟨.routine next, { s with world := change s.world }⟩
  | .sleep ms next, s =>
    if ms = 0 then ⟨.routine next, s⟩
    else blocked (.asleep (s.clock + ms) next) (s.addTimer (s.clock + ms) .main)
  | .emit e next, s =>
    ⟨.routine (next (s.emit (s.nextLine - 1) e).1), (s.emit (s.nextLine - 1) e).2⟩
  | .peek t next, s => match s.outcome? t with
    | some o => ⟨.routine (next (some o)), s.log (.resumed t o)⟩
    | none => ⟨.routine (next none), s⟩
  | .interpret around script after, s =>
    ⟨.script around s.nextLine (.before script) after, s.openLine around⟩

def afterScript (around : Surroundings σ) (line : Nat)
    (after : Except Failure ρ → Routine ξ σ ρ α) :
    Standing ξ σ ρ → Scheduler ξ σ → Moment ξ σ ρ α
  | .before (.done r), s => ⟨.routine (after r), s.closeLine true⟩
  | .before (.look next), s =>
    ⟨.script around line (.before (next s.clock s.state s.world)) after, s⟩
  | .before (.write change next), s =>
    ⟨.script around line (.before next) after, { s with state := change s.state }⟩
  | .before (.note change next), s =>
    ⟨.script around line (.before next) after, { s with world := change s.world }⟩
  | .before (.spawn e next), s =>
    ⟨.script around line (.before next) after, s.enqueue (.errand line e)⟩
  | .before (.emit e next), s =>
    ⟨.script around line (.before (next (s.emit line e).1)) after, (s.emit line e).2⟩
  | .before (.drop t next), s => ⟨.script around line (.before next) after, s.drop t⟩
  | .before (.sleep ms next), s =>
    if ms = 0 then ⟨.script around line (.before next) after, s⟩
    else ⟨.script around line (.asleep (s.clock + ms) next) after, s.addTimer (s.clock + ms) .main⟩
  | .before (.await t next), s => match s.outcome? t with
    | some o => ⟨.script around line (.before (next o)) after, s.log (.resumed t o)⟩
    | none => ⟨.interpreter around line (.before (.await t next)) after, s.notePoll (some t)⟩
  | .asleep due next, s =>
    if due ≤ s.clock then ⟨.script around line (.before next) after, s⟩
    else ⟨.interpreter around line (.asleep due next) after, s.notePoll none⟩

/-- The interpreter takes one effect.  When it is settled the script is looked at
again. -/
def afterInterpreter (around : Surroundings σ) (line : Nat) (standing : Standing ξ σ ρ)
    (after : Except Failure ρ → Routine ξ σ ρ α) (s : Scheduler ξ σ) : Moment ξ σ ρ α :=
  match s.take? with
  | none => blocked (.within around line standing after) s
  | some ((t, e), s) => match start around s t e with
    | .settled s => ⟨.script around line standing after, s⟩
    | .waiting s => blocked (.within around line standing after) s
    | .crashed s => ⟨.crashed, s.closeLine false⟩

def afterTasks (main : Main ξ σ ρ α) : (turns : Nat) → Scheduler ξ σ → Moment ξ σ ρ α
  | 0, s => match endRound main s with
    | .next main s => ⟨.round main, s⟩
    | .done _ => ⟨.stuck, s⟩
  | turns + 1, s => match s.ready with
    | [] => ⟨.tasks main 0, s⟩
    | .errand line e :: rest => ⟨.errand main turns line e, { s with ready := rest }⟩
    | task :: rest => ⟨.tasks main turns, { s with ready := rest }.runTask task⟩

def afterErrand (main : Main ξ σ ρ α) (turns line : Nat) :
    Errand σ → Scheduler ξ σ → Moment ξ σ ρ α
  | .done, s => ⟨.tasks main turns, s⟩
  | .look next, s => ⟨.errand main turns line (next s.clock s.world), s⟩
  | .write change next, s => ⟨.errand main turns line next, { s with world := change s.world }⟩
  | .emit e next, s =>
    ⟨.errand main turns line (next (s.emit line e).1), (s.emit line e).2⟩
  | .await t next, s => match s.outcome? t with
    | some o => ⟨.errand main turns line (next o), s.log (.resumed t o)⟩
    | none => ⟨.tasks main turns, { s with parked := s.parked ++ [⟨t, line, next⟩] }⟩
  | .drop t next, s => ⟨.errand main turns line next, s.drop t⟩
  | .sleep ms next, s =>
    if ms = 0 then ⟨.errand main turns line next, s⟩
    else ⟨.tasks main turns, s.addTimer (s.clock + ms) (.task (.errand line next))⟩

/-- One thing later.  A run that is over stays where it is. -/
def next (m : Moment ξ σ ρ α) : Moment ξ σ ρ α :=
  match m.focus with
  | .round main => afterRound main m.scheduler
  | .routine p => afterRoutine p m.scheduler
  | .script around line standing after => afterScript around line after standing m.scheduler
  | .interpreter around line standing after =>
    afterInterpreter around line standing after m.scheduler
  | .tasks main turns => afterTasks main turns m.scheduler
  | .errand main turns line e => afterErrand main turns line e m.scheduler
  | .finished _ | .crashed | .stuck => m

/-- The rounds that begin at a moment: one or none. -/
def rounds (m : Moment ξ σ ρ α) : Nat :=
  match m.focus with
  | .round _ => 1
  | _ => 0

end Moment

/-! ## What a moment comes to -/

/-- What comes of the end of a round when a number of rounds follow it. -/
def Round.complete (k : Nat) : Round ξ σ ρ α → Result ξ σ α
  | .done r => r
  | .next main s => rounds k main s

namespace Moment

/-- What a moment comes to when a number of rounds follow it. -/
def complete (k : Nat) (m : Moment ξ σ ρ α) : Result ξ σ α :=
  match m.focus with
  | .round main => Scheduler.rounds k main m.scheduler
  | .routine p => (runRoutine p m.scheduler).complete k
  | .script around line standing after => goOn around line standing after k m.scheduler
  | .interpreter around line standing after =>
    ((giveWay around line standing m.scheduler).turn around line after
      fun r => runRoutine (after r)).complete k
  | .tasks main turns => (endRound main (m.scheduler.runReady turns)).complete k
  | .errand main turns line e =>
    (endRound main ((runErrand line e m.scheduler).runReady turns)).complete k
  | .finished a => .finished a m.scheduler
  | .crashed => .crashed m.scheduler
  | .stuck => .stuck m.scheduler

variable {s : Scheduler ξ σ} {k : Nat}

theorem complete_blocked (main : Main ξ σ ρ α) (s : Scheduler ξ σ) (k : Nat) :
    (blocked main s).complete k = (Turn.blocked main s).complete k := by
  show (endRound main s.drain).complete k = _
  rw [Turn.complete_blocked, settleRound]
  cases endRound main s.drain <;> rfl

theorem complete_afterRound (main : Main ξ σ ρ α) (s : Scheduler ξ σ) (k : Nat) :
    (afterRound main s).complete k = Scheduler.rounds (k + 1) main s := by
  rw [rounds_succ, opening, afterRound]
  split
  · cases main with
    | before p => rfl
    | asleep due next =>
        simp only [turn]
        split
        · rfl
        · exact complete_blocked _ _ _
    | within around line standing after =>
        simp only [turn, continueLine]
        cases proceed { s with woken := false } with
        | settled s' => rfl
        | waiting s' => exact complete_blocked _ _ _
        | crashed s' => rfl
  · exact complete_blocked _ _ _

theorem complete_afterRoutine (p : Routine ξ σ ρ α) (s : Scheduler ξ σ) (k : Nat) :
    (afterRoutine p s).complete k = (runRoutine p s).complete k := by
  cases p with
  | done | crash | look | write | note | emit | interpret => rfl
  | sleep ms next =>
      simp only [afterRoutine, runRoutine]
      split
      · rfl
      · exact complete_blocked _ _ _
  | peek t next =>
      simp only [afterRoutine, runRoutine]
      cases s.outcome? t <;> rfl

/-- A script that cannot go on gives way. -/
theorem goOn_halts {around : Surroundings σ} {line : Nat} {standing : Standing ξ σ ρ}
    (halts : standing.Halts s) (after : Except Failure ρ → Routine ξ σ ρ α) (k : Nat) :
    goOn around line standing after k s =
      complete k ⟨.interpreter around line standing after, s.notePoll standing.wanted⟩ := by
  rw [goOn, continueScript_halts halts]
  rfl

theorem complete_afterScript (around : Surroundings σ) (line : Nat) (standing : Standing ξ σ ρ)
    (after : Except Failure ρ → Routine ξ σ ρ α) (s : Scheduler ξ σ) (k : Nat) :
    (afterScript around line after standing s).complete k =
      goOn around line standing after k s := by
  cases standing with
  | asleep due next =>
      by_cases hdue : due ≤ s.clock
      · rw [afterScript, if_pos hdue, goOn, continueScript, if_pos hdue]
        rfl
      · have halts : (Standing.asleep due next : Standing ξ σ ρ).Halts s := Nat.lt_of_not_le hdue
        rw [afterScript, if_neg hdue, goOn_halts halts]
        rfl
  | before script =>
      cases script with
      | done | look | write | note | spawn | emit | drop => rfl
      | sleep ms next =>
          by_cases hms : ms = 0
          · rw [afterScript, if_pos hms, goOn, continueScript, runScript, if_pos hms]
            rfl
          · have hdue : ¬ s.clock + ms ≤ (s.addTimer (s.clock + ms) .main).clock := by
              simp [addTimer, hms]
            rw [afterScript, if_neg hms, goOn, continueScript, runScript_sleep hms,
              ← continueScript_asleep hdue]
            rfl
      | await t next =>
          cases ho : s.outcome? t with
          | some o => simp only [afterScript, goOn, continueScript, runScript, ho]; rfl
          | none =>
              have halts : (Standing.before (.await t next) : Standing ξ σ ρ).Halts s := ho
              rw [goOn_halts halts]
              simp only [afterScript, ho]
              rfl

theorem complete_afterInterpreter {around : Surroundings σ} {line : Nat} {standing : Standing ξ σ ρ}
    (free : s.Free line) (halts : standing.Halts s) (after : Except Failure ρ → Routine ξ σ ρ α)
    (k : Nat) :
    (afterInterpreter around line standing after s).complete k =
      complete k ⟨.interpreter around line standing after, s⟩ := by
  show _ = ((giveWay around line standing s).turn around line after
    fun r => runRoutine (after r)).complete k
  obtain ⟨inbox, hl⟩ := free
  cases inbox with
  | nil =>
      rw [afterInterpreter, take?_empty hl, giveWay_empty hl halts]
      exact complete_blocked _ _ _
  | cons first inbox =>
      obtain ⟨t, e⟩ := first
      rw [afterInterpreter, take?_next hl, giveWay_next hl halts]
      dsimp only
      cases start around _ t e with
      | settled s' => rfl
      | waiting s' => exact complete_blocked _ _ _
      | crashed s' => rfl

theorem complete_afterTasks (main : Main ξ σ ρ α) (turns : Nat) (s : Scheduler ξ σ) (k : Nat) :
    (afterTasks main turns s).complete k =
      (endRound main (s.runReady turns)).complete k := by
  cases turns with
  | zero =>
      simp only [afterTasks, runReady]
      rcases endRound_cases s with ⟨s', h⟩ | h
      · simp only [h]
        rfl
      · simp only [h]
        rfl
  | succ turns =>
      simp only [afterTasks, runReady]
      split <;> rename_i hr <;> simp only [hr]
      · rfl
      · rfl
      · rfl

theorem complete_afterErrand (main : Main ξ σ ρ α) (turns line : Nat) (e : Errand σ)
    (s : Scheduler ξ σ) (k : Nat) :
    (afterErrand main turns line e s).complete k =
      (endRound main ((runErrand line e s).runReady turns)).complete k := by
  cases e with
  | done | look | write | emit | drop => rfl
  | await t next =>
      simp only [afterErrand, runErrand]
      cases s.outcome? t <;> rfl
  | sleep ms next =>
      simp only [afterErrand, runErrand]
      split <;> rfl

end Moment

/-! ## What is so at every moment -/

variable {s s' : Scheduler ξ σ} {main : Main ξ σ ρ α} {turns n k : Nat} {around : Surroundings σ}
  {after : Except Failure ρ → Routine ξ σ ρ α}

/-- The first tasks in the queue have their turns.  Whoever stands behind them is no
member of a group. -/
structure Draining (main : Main ξ σ ρ α) (turns : Nat) (s : Scheduler ξ σ) : Prop where
  main : main.Matches s
  waiting : s.woken = false → s.Waiting
  errands : ∀ t ∈ s.ready.drop turns, ∀ due, t.member? due = none

/-- What a task does leaves the other tasks their turns. -/
theorem Draining.beside (h : Draining main turns s) (sub : s.history ⊆ s'.history)
    (beside : s.Beside s') : Draining main turns s' where
  main := h.main.after sub beside.number
  waiting hw := by
    obtain ⟨hwoken, hline⟩ := beside.line hw
    rintro n t w ⟨inbox, hl⟩
    rw [beside.clock]
    exact h.waiting hwoken n t w ⟨inbox, hline ▸ hl⟩
  errands t ht := by
    obtain ⟨more, hmore, herrands⟩ := beside.ready
    rw [hmore, List.drop_append] at ht
    rcases List.mem_append.1 ht with ht | ht
    · exact h.errands t ht
    · exact herrands t (List.drop_subset _ _ ht)

/-- The first task leaves the queue. -/
theorem Draining.leave {task : Task σ} {rest : List (Task σ)} (h : Draining main (turns + 1) s)
    (hr : s.ready = task :: rest) : Draining main turns { s with ready := rest } where
  main := by
    cases main with
    | before | asleep | within => exact h.main
  waiting := h.waiting
  errands t ht := h.errands t (by rw [hr]; exact ht)

/-- What is so while something has its turn. -/
def Focus.Sound (s : Scheduler ξ σ) : Focus ξ σ ρ α → Prop
  | .round main => Poised main s
  | .routine _ | .finished _ | .crashed => s.line = none
  | .script around n _ _ => s.Free n ∧ s.history.Opened n around
  | .interpreter around n standing _ =>
    s.Free n ∧ s.history.Opened n around ∧ standing.Halts s ∧ s.Polled n
  | .tasks main turns => Draining main turns s
  | .errand main turns n _ => Draining main turns s ∧ n < s.nextLine
  | .stuck => ∀ n t w, ¬ s.Busy n t w

namespace Moment

/-- What is so at a moment. -/
structure Stands (m : Moment ξ σ ρ α) : Prop where
  inv : m.scheduler.Inv
  positive : 0 < m.scheduler.nextLine
  focus : m.focus.Sound m.scheduler

/-- A moment comes about by a sequence of steps. -/
def Sound (s : Scheduler ξ σ) (m : Moment ξ σ ρ α) : Prop :=
  Steps s m.scheduler ∧ m.focus.Sound m.scheduler

theorem Sound.stands {m : Moment ξ σ ρ α} (h : m.Sound s) (hi : s.Inv) (hp : 0 < s.nextLine) :
    m.Stands :=
  ⟨h.1.inv hi, Nat.lt_of_lt_of_le hp h.1.nextLine_le, h.2⟩

theorem blocked_sound (steps : Steps s s') (hm : main.Matches s') (hw : s'.Waiting) :
    (blocked main s').Sound s :=
  ⟨steps, hm, fun _ => hw, fun t ht => by simp [blocked] at ht⟩

theorem afterRound_sound (h : Poised main s) : (afterRound main s).Sound s := by
  unfold afterRound
  split
  · have touch : Steps s { s with woken := false } := .single (.touch s s.state s.world false)
    cases main with
    | before p => exact ⟨touch, h.main⟩
    | asleep due next =>
        dsimp only
        split
        · exact ⟨touch, h.main⟩
        · exact blocked_sound touch h.main (waiting_of_line_none h.main)
    | within around n standing after =>
        obtain ⟨⟨l, hl, rfl⟩, ho⟩ := h.main
        have sound := proceed_sound (touch.inv h.inv) (l := l) hl h.fresh
        dsimp only
        cases hp : proceed { s with woken := false } with
        | settled s' =>
            rw [hp] at sound
            exact ⟨touch.trans sound.1, sound.2, sound.1.opened ho⟩
        | waiting s' =>
            rw [hp] at sound
            exact blocked_sound (touch.trans sound.1) ⟨sound.2.line, sound.1.opened ho⟩
              sound.2.waiting
        | crashed s' =>
            rw [hp] at sound
            obtain ⟨steps, t, hb⟩ := sound
            exact ⟨(touch.trans steps).tail (.breakOff s' _ t hb), closeLine_line s' false⟩
  · next hw => exact blocked_sound .refl h.main (h.waiting (by simpa using hw))

theorem afterRoutine_sound (p : Routine ξ σ ρ α) (hp : 0 < s.nextLine) (hl : s.line = none) :
    (afterRoutine p s).Sound s := by
  cases p with
  | done | crash | look => exact ⟨.refl, hl⟩
  | write change next => exact ⟨.single (.touch s (change s.state) s.world s.woken), hl⟩
  | note change next => exact ⟨.single (.touch s s.state (change s.world) s.woken), hl⟩
  | sleep ms next =>
      by_cases hms : ms = 0
      · rw [afterRoutine, if_pos hms]
        exact ⟨.refl, hl⟩
      · rw [afterRoutine, if_neg hms]
        exact blocked_sound (.single (.rest s (s.clock + ms) .main (by omega) rfl nofun)) hl
          (waiting_of_line_none hl)
  | interpret around script after =>
      exact ⟨.single (.interpret s around hl), ⟨[], rfl⟩, s.clock, List.mem_cons_self⟩
  | emit e next =>
      exact ⟨.single (.emit s (s.nextLine - 1) e (by omega)), s.emit_line_of_none e hl _⟩
  | peek t next =>
      cases ho : s.outcome? t with
      | some o =>
          simp only [afterRoutine, ho]
          exact ⟨.single (.resume s t o ho), hl⟩
      | none =>
          simp only [afterRoutine, ho]
          exact ⟨.refl, hl⟩

theorem afterScript_sound (standing : Standing ξ σ ρ) (hi : s.Inv) (hf : s.Free n)
    (ho : s.history.Opened n around) : (afterScript around n after standing s).Sound s := by
  have lt : n < s.nextLine := by
    obtain ⟨inbox, hl⟩ := id hf
    exact hi.line_lt hl
  have polls (standing : Standing ξ σ ρ) (halts : standing.Halts s) :
      (⟨.interpreter around n standing after, s.notePoll standing.wanted⟩ :
        Moment ξ σ ρ α).Sound s := by
    have steps : Steps s (s.log (.polled n standing.wanted)) := .single (.poll s n _ hf)
    rw [hf.notePoll]
    exact ⟨steps, hf, steps.opened ho, halts.log _, s.polled_log n _⟩
  cases standing with
  | asleep due next =>
      by_cases hdue : due ≤ s.clock
      · rw [afterScript, if_pos hdue]
        exact ⟨.refl, hf, ho⟩
      · rw [afterScript, if_neg hdue]
        exact polls (.asleep due next) (Nat.lt_of_not_le hdue)
  | before script =>
      cases script with
      | done r => exact ⟨.single (.finish s n hf), closeLine_line s true⟩
      | look next => exact ⟨.refl, hf, ho⟩
      | write change next =>
          exact ⟨.single (.touch s (change s.state) s.world s.woken), hf, ho⟩
      | note change next =>
          exact ⟨.single (.touch s s.state (change s.world) s.woken), hf, ho⟩
      | spawn e next => exact ⟨.single (.spawn s n e lt), hf, ho⟩
      | emit e next =>
          have steps : Steps s (s.emit n e).2 := .single (.emit s n e lt)
          exact ⟨steps, emit_free hf e, steps.opened ho⟩
      | drop t next => exact ⟨.single (.drop s t), hf, ho⟩
      | sleep ms next =>
          by_cases hms : ms = 0
          · rw [afterScript, if_pos hms]
            exact ⟨.refl, hf, ho⟩
          · rw [afterScript, if_neg hms]
            exact ⟨.single (.rest s (s.clock + ms) .main (by omega) rfl nofun), hf, ho⟩
      | await t next =>
          cases hout : s.outcome? t with
          | some o =>
              have steps : Steps s (s.log (.resumed t o)) := .single (.resume s t o hout)
              simp only [afterScript, hout]
              exact ⟨steps, hf, steps.opened ho⟩
          | none =>
              simp only [afterScript, hout]
              exact polls (.before (.await t next)) hout

theorem afterInterpreter_sound (standing : Standing ξ σ ρ) (hf : s.Free n)
    (ho : s.history.Opened n around) (hp : s.Polled n) :
    (afterInterpreter around n standing after s).Sound s := by
  obtain ⟨inbox, hl⟩ := id hf
  cases inbox with
  | nil =>
      rw [afterInterpreter, take?_empty hl]
      exact blocked_sound .refl ⟨⟨_, hl, rfl⟩, ho⟩ hf.waiting
  | cons first inbox =>
      obtain ⟨t, e⟩ := first
      have sound := start_sound (hp.next hl ho)
      rw [afterInterpreter, take?_next hl]
      dsimp only
      cases hstart : start around _ t e with
      | settled s' =>
          rw [hstart] at sound
          exact ⟨sound.1, sound.2, sound.1.opened ho⟩
      | waiting s' =>
          rw [hstart] at sound
          exact blocked_sound sound.1 ⟨sound.2.line, sound.1.opened ho⟩ sound.2.waiting
      | crashed s' =>
          rw [hstart] at sound
          obtain ⟨steps, t', hb⟩ := sound
          exact ⟨steps.tail (.breakOff s' n t' hb), closeLine_line s' false⟩

theorem afterTasks_sound (hi : s.Inv) (hp : 0 < s.nextLine) (h : Draining main turns s) :
    (afterTasks main turns s).Sound s := by
  cases turns with
  | zero =>
      have quiet : s.Quiet := List.filterMap_eq_nil_iff.2 fun t ht => h.errands t ht _
      have sound := endRound_sound hi hp h.main h.waiting quiet
      rcases endRound_cases s with ⟨s', hs⟩ | hs
      · rw [hs] at sound
        simp only [afterTasks, hs]
        exact sound
      · rw [hs] at sound
        simp only [afterTasks, hs]
        exact ⟨.refl, sound.2⟩
  | succ turns =>
      cases hr : s.ready with
      | nil =>
          simp only [afterTasks, hr]
          exact ⟨.refl, h.main, h.waiting, fun t ht => by simp [hr] at ht⟩
      | cons task rest =>
          have left := h.leave hr
          have steps := runTask_steps hi hr
          have beside := runTask_beside { s with ready := rest } task
          cases task with
          | errand line e =>
              have hn : line < s.nextLine := hi.handles line (by simp [handles, hr, Task.handle?])
              simp only [afterTasks, hr]
              exact ⟨.single (.pop s line e rest hr), left, hn⟩
          | begin t i c job =>
              simp only [afterTasks, hr]
              exact ⟨steps, left.beside steps.suffix.subset beside⟩
          | resume t i job =>
              simp only [afterTasks, hr]
              exact ⟨steps, left.beside steps.suffix.subset beside⟩

theorem afterErrand_sound (e : Errand σ) (h : Draining main turns s) (hn : n < s.nextLine) :
    (afterErrand main turns n e s).Sound s := by
  cases e with
  | done => exact ⟨.refl, h⟩
  | look next => exact ⟨.refl, h, hn⟩
  | write change next =>
      have steps : Steps s { s with world := change s.world } :=
        .single (.touch s s.state (change s.world) s.woken)
      have beside : s.Beside { s with world := change s.world } :=
        .of_eq rfl rfl rfl rfl rfl (.of_eq rfl rfl rfl)
      exact ⟨steps, h.beside steps.suffix.subset beside, hn⟩
  | emit e next =>
      have steps : Steps s (s.emit n e).2 := .single (.emit s n e hn)
      exact ⟨steps, h.beside steps.suffix.subset (.emit s n e), (emit_nextLine s n e).symm ▸ hn⟩
  | await t next =>
      cases ho : s.outcome? t with
      | some o =>
          have steps : Steps s (s.log (.resumed t o)) := .single (.resume s t o ho)
          simp only [afterErrand, ho]
          have beside : s.Beside (s.log (.resumed t o)) :=
            .of_eq rfl rfl rfl rfl rfl (.log s trivial)
          exact ⟨steps, h.beside steps.suffix.subset beside, hn⟩
      | none =>
          have steps : Steps s { s with parked := s.parked ++ [⟨t, n, next⟩] } :=
            .single (.park s ⟨t, n, next⟩ hn ho)
          simp only [afterErrand, ho]
          exact ⟨steps, h.beside steps.suffix.subset
            (.of_eq rfl rfl rfl rfl rfl (.of_eq rfl rfl rfl))⟩
  | drop t next =>
      have steps : Steps s (s.drop t) := .single (.drop s t)
      exact ⟨steps, h.beside steps.suffix.subset (.of_eq rfl rfl rfl rfl rfl (.drop s t)), hn⟩
  | sleep ms next =>
      by_cases hms : ms = 0
      · rw [afterErrand, if_pos hms]
        exact ⟨.refl, h, hn⟩
      · have steps : Steps s (s.addTimer (s.clock + ms) (.task (.errand n next))) := by
          refine .single (.rest s _ _ (by omega) rfl ?_)
          rintro n' h
          cases h
          exact hn
        rw [afterErrand, if_neg hms]
        exact ⟨steps, h.beside steps.suffix.subset
          (.of_eq rfl rfl rfl rfl rfl (.of_eq rfl rfl rfl))⟩

/-- One thing more keeps what is so at every moment, and is a sequence of steps. -/
theorem Stands.next {m : Moment ξ σ ρ α} (h : m.Stands) : m.next.Sound m.scheduler := by
  obtain ⟨focus, s⟩ := m
  obtain ⟨hi, hp, h⟩ := h
  cases focus with
  | round main => exact afterRound_sound h
  | routine p => exact afterRoutine_sound p hp h
  | script around n standing after => exact afterScript_sound standing hi h.1 h.2
  | interpreter around n standing after => exact afterInterpreter_sound standing h.1 h.2.1 h.2.2.2
  | tasks main turns => exact afterTasks_sound hi hp h
  | errand main turns n e => exact afterErrand_sound e h.1 h.2
  | finished | crashed | stuck => exact ⟨.refl, h⟩

/-- Whatever a moment comes to, the next one comes to, but for the round that has
begun meanwhile. -/
theorem Stands.complete_next {m : Moment ξ σ ρ α} (h : m.Stands) (k : Nat) :
    m.next.complete k = m.complete (m.rounds + k) := by
  obtain ⟨focus, s⟩ := m
  rw [Nat.add_comm]
  cases focus with
  | round main => exact complete_afterRound main s k
  | routine p => exact complete_afterRoutine p s k
  | script around n standing after => exact complete_afterScript around n standing after s k
  | interpreter around n standing after =>
      exact complete_afterInterpreter h.focus.1 h.focus.2.2.1 after k
  | tasks main turns => exact complete_afterTasks main turns s k
  | errand main turns n e => exact complete_afterErrand main turns n e s k
  | finished | crashed | stuck => rfl

end Moment

/-! ## The moments of a run -/

/-- The moments of a run, in their order. -/
def moment (p : Routine ξ σ ρ α) (s : Scheduler ξ σ) : Nat → Moment ξ σ ρ α
  | 0 => ⟨.round (.before p), { s with woken := true }⟩
  | j + 1 => (moment p s j).next

/-- The rounds that have begun by a moment of a run. -/
def begun (p : Routine ξ σ ρ α) (s : Scheduler ξ σ) : Nat → Nat
  | 0 => 0
  | j + 1 => begun p s j + (moment p s j).rounds

variable {p : Routine ξ σ ρ α} {j : Nat}

theorem Reachable.stands (hs : Reachable s) (p : Routine ξ σ ρ α) (j : Nat) :
    (moment p s j).Stands := by
  induction j with
  | zero => exact ⟨(hs.poised p).inv, hs.rests.2.1, hs.poised p⟩
  | succ j ih => exact ih.next.stands ih.inv ih.positive

theorem Reachable.moment_orderly (hs : Reachable s) (p : Routine ξ σ ρ α) (j : Nat) :
    (moment p s j).scheduler.history.Orderly :=
  (hs.stands p j).inv.orderly

/-- At every moment of a run the whole run is still to come, but for the rounds that
have begun. -/
theorem runFor_eq (hs : Reachable s) (p : Routine ξ σ ρ α) (j k : Nat) :
    runFor p s (begun p s j + k) = (moment p s j).complete k := by
  induction j generalizing k with
  | zero =>
      rw [begun, Nat.zero_add]
      rfl
  | succ j ih =>
      rw [begun, Nat.add_assoc, ih]
      exact ((hs.stands p j).complete_next k).symm

theorem Reachable.moment_steps (hs : Reachable s) (p : Routine ξ σ ρ α) {i j : Nat} (h : i ≤ j) :
    Steps (moment p s i).scheduler (moment p s j).scheduler := by
  induction h with
  | refl => exact .refl
  | @step j _ ih => exact ih.trans (hs.stands p j).next.1

/-- What every step keeps is so at every moment. -/
theorem Invariant.moment {P : Scheduler ξ σ → Prop} (hP : Invariant P) (hs : Reachable s)
    (p : Routine ξ σ ρ α) (j : Nat) : P (moment p s j).scheduler :=
  hP.steps (hs.moment_steps p (Nat.zero_le j)) (hs.stands p 0).inv
    (hP.step (.touch s s.state s.world true) hs.rests.1 (hP.reachable hs))

end Switchboard.Scheduler
