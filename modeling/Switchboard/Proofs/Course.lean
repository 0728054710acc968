import Switchboard.Proofs.Onward
import Switchboard.Proofs.Pace

/-!
# Switchboard.Proofs.Course

The course of an effect, from the moment at which it is taken off its line to
the moment at which its outcome is sent.  The script does not run in between, so
what becomes of the effect does not depend on what the script will do; all that
the script leaves in it is a note of what it waits for.

* `TasksKeep` — what tasks and the clock keep, as long as errands are of a kind;
* `pull` — the moment at which an effect is taken, and `continueScript_pull`, that
  the script stands where it stood;
* `without` — a scheduler on whose line the effect has never been, and `pull_eq`,
  that what is different has only been noted;
* `Course` — the rounds in which it is being resolved;
* `Runs.goOn` — the rest of a run is the course of the effect and then the rest
  of the run after it;
* `exists_runs` — every effect runs its course, and whatever is kept on the way
  is so in the end.
-/

namespace Switchboard

/-- The work on an effect, without the answers that have come. -/
def Work.bare {σ : Type} : Work σ → Work σ
  | .single due job => .single due job
  | .group e slots => .group e (List.replicate slots.length none)

/-- A line without what tasks may add to it. -/
def Line.bare {σ : Type} (l : Line σ) : Line σ :=
  { l with inbox := [], current := l.current.map fun p => (p.1, p.2.bare) }

namespace Scheduler

variable {ξ σ ρ α : Type} {s s' s₁ : Scheduler ξ σ} {n k : Nat} {t : Ticket} {e : Effect}
  {c : Command} {around : Surroundings σ} {inbox : List (Ticket × Effect)} {wanted : Option Ticket}
  {slots : List (Option Answer)}

/-! ## What tasks keep -/

/-- Errands of a kind keep a property, whatever they do, and what is left of them is of
the same kind. -/
structure ErrandsKeep (E : Errand σ → Prop) (P : Scheduler ξ σ → Prop) : Prop where
  look : ∀ next now w, E (.look next) → E (next now w)
  write : ∀ s change next, E (.write change next) → P s →
    P { s with world := change s.world } ∧ E next
  emit : ∀ s n e next, E (.emit e next) → P s → P (s.emit n e).2 ∧ ∀ t, E (next t)
  resume : ∀ s t o next, E (.await t next) → P s → P (s.log (.resumed t o)) ∧ E (next o)
  park : ∀ s n t next, E (.await t next) → P s → P { s with parked := s.parked ++ [⟨t, n, next⟩] }
  drop : ∀ s t next, E (.drop t next) → P s → P (s.drop t) ∧ E next
  sleep : ∀ s n ms next, E (.sleep ms next) → P s →
    P (s.addTimer (s.clock + ms) (.task (.errand n next))) ∧ E next

theorem ErrandsKeep.runErrand {E : Errand σ → Prop} {P : Scheduler ξ σ → Prop}
    (hP : ErrandsKeep E P) {e : Errand σ} (he : E e) (n : Nat) (h : P s) :
    P (Scheduler.runErrand n e s) := by
  induction e generalizing s with
  | done => exact h
  | look next ih => exact ih _ _ (hP.look next _ _ he) h
  | write change next ih =>
      obtain ⟨h, he⟩ := hP.write s change next he h
      exact ih he h
  | emit e next ih =>
      obtain ⟨h, he⟩ := hP.emit s n e next he h
      exact ih _ (he _) h
  | await t next ih =>
      unfold Scheduler.runErrand
      split
      · next o _ =>
        obtain ⟨h, he⟩ := hP.resume s t o next he h
        exact ih o he h
      · exact hP.park s n t next he h
  | drop t next ih =>
      obtain ⟨h, he⟩ := hP.drop s t next he h
      exact ih he h
  | sleep ms next ih =>
      obtain ⟨h', he⟩ := hP.sleep s n ms next he h
      unfold Scheduler.runErrand
      split
      · exact ih he h
      · exact h'

/-- Tasks keep a property, and so does the clock, as long as errands are of a kind. -/
structure TasksKeep (E : Errand σ → Prop) (P : Scheduler ξ σ → Prop) : Prop
    extends ErrandsKeep E P where
  errand : ∀ s n e, P s → .errand n e ∈ s.ready → E e
  leave : ∀ s task rest, P s → s.ready = task :: rest → P { s with ready := rest }
  start : ∀ s t i c, P s → P (s.log (.started t i c))
  touch : ∀ s w, P s → P { s with world := w }
  report : ∀ s t i a, P s → P (s.report t i a)
  rest : ∀ s due t i j, P s → P (s.addTimer due (.task (.resume t i j)))
  wake : ∀ s clock, P s → P (wakeDue { s with clock })

namespace TasksKeep

variable {E : Errand σ → Prop} {P : Scheduler ξ σ → Prop}

theorem runMember (hP : TasksKeep E P) (h : P s) (t : Ticket) (i : Nat) (j : Job σ Answer) :
    P (s.runMember t i j) := by
  unfold Scheduler.runMember
  split
  · exact hP.report _ _ _ _ (hP.touch _ _ h)
  · exact hP.report _ _ _ _ (hP.touch _ _ h)
  · exact hP.rest _ _ _ _ _ (hP.touch _ _ h)

theorem runReady (hP : TasksKeep E P) (turns : Nat) (h : P s) : P (s.runReady turns) := by
  induction turns generalizing s with
  | zero => exact h
  | succ turns ih =>
      unfold Scheduler.runReady
      split
      · exact h
      · next task rest hr =>
        have left := hP.leave s task rest h hr
        refine ih ?_
        cases task with
        | begin t i c j => exact hP.runMember (hP.start _ t i c left) t i j
        | resume t i j => exact hP.runMember left t i j
        | errand n e =>
            exact hP.runErrand (hP.errand s n e h (hr ▸ List.mem_cons_self)) n left

theorem next? (hP : TasksKeep E P) (h : P s) (hs : s.next? = some s₁) : P s₁ := by
  have drained : P s.drain := hP.runReady _ h
  unfold Scheduler.next? at hs
  split at hs
  · exact Option.some.inj hs ▸ drained
  · obtain ⟨due, who, rest, -, rfl⟩ := advance_eq hs
    exact hP.wake _ _ drained

end TasksKeep

/-! ## What becomes of a line meanwhile -/

theorem emit_bare (s : Scheduler ξ σ) (n : Nat) (e : Effect) :
    (s.emit n e).2.line.map Line.bare = s.line.map Line.bare := by
  by_cases hl : ∃ l, s.line = some l ∧ l.number = n
  · obtain ⟨l, hl, rfl⟩ := hl
    rw [emit_open s e hl, hl]
    rfl
  · rw [emit_closed s e fun l h hn => hl ⟨l, h, hn⟩]
    rfl

theorem report_bare (s : Scheduler ξ σ) (t : Ticket) (i : Nat) (a : Answer) :
    (s.report t i a).line.map Line.bare = s.line.map Line.bare := by
  by_cases hb : ∃ n e slots, s.Busy n t (.group e slots)
  · obtain ⟨n, e, slots, inbox, hl⟩ := hb
    rw [report_group s a hl, hl]
    simp [Scheduler.log, Line.bare, Work.bare]
  · rw [report_other s a fun n e slots h => hb ⟨n, e, slots, h⟩]
    rfl

theorem tasksKeep_bare (bare : Option (Line σ)) :
    TasksKeep (fun _ => True) fun s : Scheduler ξ σ => s.line.map Line.bare = bare where
  look _ _ _ he := he
  write _ _ _ _ h := ⟨h, trivial⟩
  emit s n e _ _ h := ⟨(emit_bare s n e).trans h, fun _ => trivial⟩
  resume _ _ _ _ _ h := ⟨h, trivial⟩
  park _ _ _ _ _ h := h
  drop _ _ _ _ h := ⟨h, trivial⟩
  sleep _ _ _ _ _ h := ⟨h, trivial⟩
  errand _ _ _ _ _ := trivial
  leave _ _ _ h _ := h
  start _ _ _ _ h := h
  touch _ _ h := h
  report s t i a h := (report_bare s t i a).trans h
  rest _ _ _ _ _ h := h
  wake _ _ h := h

/-- Tasks and the clock leave a line as it is, but for emissions and answers. -/
theorem next?_bare (hs : s.next? = some s₁) : s₁.line.map Line.bare = s.line.map Line.bare :=
  (tasksKeep_bare (s.line.map Line.bare)).next? rfl hs

/-- The interpreter stays at work on an effect. -/
theorem Busy.bare {w : Work σ} (hb : s.Busy n t w)
    (same : s₁.line.map Line.bare = s.line.map Line.bare) :
    ∃ w', w'.bare = w.bare ∧ s₁.Busy n t w' := by
  obtain ⟨inbox, hl⟩ := hb
  rw [hl] at same
  obtain ⟨⟨n', inbox', current⟩, hl', line⟩ := Option.map_eq_some_iff.1 same
  obtain ⟨number, -, current⟩ := Line.mk.inj line
  obtain ⟨⟨u, w'⟩, rfl, work⟩ := Option.map_eq_some_iff.1 current
  obtain ⟨rfl, work⟩ := Prod.mk.inj work
  obtain rfl : n' = n := number
  exact ⟨w', work, inbox', hl'⟩

/-- A group that is being resolved goes on being resolved. -/
theorem Busy.group_next? (hb : s.Busy n t (.group e slots)) (hs : s.next? = some s₁) :
    ∃ slots', slots'.length = slots.length ∧ s₁.Busy n t (.group e slots') := by
  obtain ⟨w, work, busy⟩ := hb.bare (next?_bare hs)
  cases w with
  | single due job => cases work
  | group e' slots' =>
      obtain ⟨rfl, blank⟩ := Work.group.inj work
      exact ⟨slots', by simpa using congrArg List.length blank, busy⟩

theorem next?_suffix (hi : s.Inv) (hs : s.next? = some s₁) : s.history <:+ s₁.history := by
  have suffix := (drain_steps hi).1.suffix
  unfold next? at hs
  split at hs
  · cases hs
    exact suffix
  · obtain ⟨due, who, rest, -, rfl⟩ := advance_eq hs
    exact suffix

/-! ## The moment at which an effect is taken -/

/-- The same scheduler when the oldest effect has been taken off its line, while
the script waits for an outcome, or for none. -/
def pull (s : Scheduler ξ σ) (n : Nat) (wanted : Option Ticket) (t : Ticket) (e : Effect)
    (inbox : List (Ticket × Effect)) : Scheduler ξ σ :=
  { s.log (.polled n wanted) with line := some { number := n, inbox } }.log (.taken n t e)

/-- The same scheduler if the oldest effect had never been on its line, with any
past. -/
def without (past : History σ) (s : Scheduler ξ σ) : Scheduler ξ σ :=
  { s with line := s.line.map fun l => { l with inbox := l.inbox.tail }, history := past }

/-- What is noted when the oldest effect of a line is taken. -/
def taking (s : Scheduler ξ σ) (n : Nat) (wanted : Option Ticket) (t : Ticket) (e : Effect) :
    History σ :=
  (s.clock, .taken n t e) :: (s.clock, .polled n wanted) :: s.history

theorem pull_eq (hl : s.line = some { number := n, inbox := (t, e) :: inbox })
    (wanted : Option Ticket) :
    s.pull n wanted t e inbox = (s.without []).since (s.taking n wanted t e) := by
  simp only [without, hl]
  rfl

/-- An effect with an unknown member is settled at once, with the first name that
is unknown, and nothing else is done. -/
theorem start_unknown (unknown : e.commands.find? (fun c => (around.resolve? c).isNone) = some c)
    (s : Scheduler ξ σ) (t : Ticket) :
    start around s t e = .settled (s.settle t (.error (.unknownCommand c.name))) := by
  have none := List.find?_some unknown
  have group : startGroup around s t e =
      .settled (s.settle t (.error (.unknownCommand c.name))) := by
    unfold startGroup
    cases hm : members around t 0 e.commands with
    | ok tasks =>
        have known := members_known hm c (List.mem_of_find?_eq_some unknown)
        simp [Option.isNone_iff_eq_none.1 none] at known
    | error name =>
        obtain ⟨c', first, rfl⟩ := members_error hm
        obtain rfl := Option.some.inj (unknown.symm.trans first)
        rfl
  cases e with
  | sequence cs | mapping cs => exact group
  | single c' =>
      obtain rfl : c' = c := List.mem_singleton.1 (List.mem_of_find?_eq_some unknown) ▸ rfl
      simp only [start, Option.isNone_iff_eq_none.1 none]

/-- A script that has to wait stands where it stood as long as the oldest effect
on its line has not been settled, and goes on from there. -/
theorem continueScript_pull (hl : s.line = some { number := n, inbox := (t, e) :: inbox })
    {standing : Standing ξ σ ρ} (waits : standing.Waits s) :
    continueScript around n standing s =
      match start around (s.pull n standing.wanted t e inbox) t e with
      | .settled s => continueScript around n standing s
      | .waiting s => .blocked standing s
      | .crashed s => .crashed s := by
  have free : s.Free n := ⟨_, hl⟩
  have polled : (s.log (.polled n standing.wanted)).line =
      some { number := n, inbox := (t, e) :: inbox } := hl
  rw [continueScript_halts waits.halts, free.notePoll, giveWay_next polled (waits.halts.log _)]
  rfl

/-! ## The rounds in which it is being resolved -/

/-- An effect that is being resolved runs its course: after a number of rounds it
has been settled, and the script has its turn. -/
inductive Course : Scheduler ξ σ → Nat → Scheduler ξ σ → Prop where
  | settled {s s₁ s' : Scheduler ξ σ} (next : s.next? = some s₁) (woken : s₁.woken = true)
      (settles : proceed { s₁ with woken := false } = .settled s') : Course s 1 s'
  | waiting {s s₁ s₂ s' : Scheduler ξ σ} {j : Nat} (next : s.next? = some s₁)
      (woken : s₁.woken = true) (waits : proceed { s₁ with woken := false } = .waiting s₂)
      (rest : Course s₂ j s') : Course s (j + 1) s'
  | asleep {s s₁ s' : Scheduler ξ σ} {j : Nat} (next : s.next? = some s₁)
      (idle : s₁.woken = false) (rest : Course s₁ j s') : Course s (j + 1) s'

/-- A round of a script that waits for an effect that is being resolved. -/
theorem complete_within (next : s.next? = some s₁) (standing : Standing ξ σ ρ)
    (after : Except Failure ρ → Routine ξ σ ρ α) (k : Nat) :
    (Turn.blocked (.within around n standing after) s).complete (k + 1) =
      (opening (.within around n standing after) s₁).complete k := by
  rw [Turn.complete_blocked, settleRound_eq, next]
  exact rounds_succ k _ s₁

theorem opening_within (woken : s.woken = true) (standing : Standing ξ σ ρ)
    (after : Except Failure ρ → Routine ξ σ ρ α) :
    opening (.within around n standing after) s =
      match proceed { s with woken := false } with
      | .settled s => (continueScript around n standing s).turn around n after
          fun r => runRoutine (after r)
      | .waiting s => .blocked (.within around n standing after) s
      | .crashed s => .crashed (s.closeLine false) := by
  rw [opening, if_pos woken, turn, continueLine]
  cases proceed { s with woken := false } <;> rfl

/-- When an effect has run its course the rest of the run is still to come. -/
theorem Course.complete {j : Nat} (h : Course s j s') (standing : Standing ξ σ ρ)
    (after : Except Failure ρ → Routine ξ σ ρ α) (k : Nat) :
    (Turn.blocked (.within around n standing after) s).complete (j + k) =
      goOn around n standing after k s' := by
  induction h with
  | settled next woken settles =>
      rw [Nat.add_comm, complete_within next, opening_within woken, settles]
      rfl
  | waiting next woken waits rest ih =>
      rw [Nat.add_right_comm, complete_within next, opening_within woken, waits]
      exact ih
  | asleep next idle rest ih =>
      rw [Nat.add_right_comm, complete_within next, opening, if_neg (by simp [idle])]
      exact ih

/-- What becomes of an effect that has just been taken: it is settled at once, or
it runs its course. -/
inductive Runs (around : Surroundings σ) (t : Ticket) (e : Effect) (s : Scheduler ξ σ) :
    Nat → Scheduler ξ σ → Prop where
  | atOnce {s' : Scheduler ξ σ} (settles : start around s t e = .settled s') :
      Runs around t e s 0 s'
  | later {s₁ s' : Scheduler ξ σ} {j : Nat} (waits : start around s t e = .waiting s₁)
      (course : Course s₁ j s') : Runs around t e s j s'

/-- The rest of a run, after the effect that is the oldest one on its line. -/
theorem Runs.goOn {standing : Standing ξ σ ρ} {j : Nat}
    (h : Runs around t e (s.pull n standing.wanted t e inbox) j s')
    (hl : s.line = some { number := n, inbox := (t, e) :: inbox }) (waits : standing.Waits s)
    (after : Except Failure ρ → Routine ξ σ ρ α) (k : Nat) :
    Scheduler.goOn around n standing after (j + k) s =
      Scheduler.goOn around n standing after k s' := by
  rw [Scheduler.goOn, continueScript_pull hl waits]
  cases h with
  | atOnce settles =>
      rw [settles, Nat.zero_add]
      rfl
  | later waits course =>
      rw [waits]
      exact course.complete standing after k

/-! ## Every effect runs its course -/

/-- What the interpreter comes to: one thing while it waits, and another when the
effect is settled. -/
def Progress.Fulfils (I Q : Scheduler ξ σ → Prop) : Progress ξ σ → Prop
  | .settled s => Q s
  | .waiting s => I s
  | .crashed _ => False

/-- While an effect is being resolved there is another round. -/
theorem Busy.exists_next {w : Work σ} (hb : s.Busy n t w) {main : Main ξ σ ρ α}
    (hr : (Turn.blocked main s).Sound s) (hi : s.Inv) (hp : 0 < s.nextLine) :
    ∃ s₁, s.next? = some s₁ ∧ Poised main s₁ := by
  have sound := hr.settleRound hi hp
  rw [settleRound_eq] at sound
  cases hs : s.next? with
  | some s₁ =>
      rw [hs] at sound
      exact ⟨s₁, rfl, sound.2⟩
  | none =>
      rw [hs] at sound
      obtain ⟨w, -, hb⟩ := hb.bare ((tasksKeep_bare (s.line.map Line.bare)).runReady _ rfl)
      exact absurd hb sound.2.not_busy

/-- Whatever is kept while an effect is being resolved leads to what is so when it
is settled, and it is settled in the end. -/
theorem exists_course {I Q : Scheduler ξ σ → Prop} (busy : ∀ s, I s → ∃ w, s.Busy n t w)
    (next : ∀ s s₁, s.Inv → I s → s.next? = some s₁ → I s₁)
    (proceeds : ∀ s, s.Inv → I s → (proceed { s with woken := false }).Fulfils I Q)
    {standing : Standing ξ σ ρ} {after : Except Failure ρ → Routine ξ σ ρ α}
    (hr : (Turn.blocked (.within around n standing after) s).Sound s) (hi : s.Inv)
    (hp : 0 < s.nextLine) (h : I s)
    (settled : ((Turn.blocked (.within around n standing after) s).complete
      k).scheduler.history.Settled t) : ∃ j s', Course s j s' ∧ Q s' := by
  -- Each round either settles the effect or leaves one round less for it.
  induction k generalizing s with
  | zero =>
      obtain ⟨w, hb⟩ := busy s h
      obtain ⟨s₁, hs, poised⟩ := hb.exists_next hr hi hp
      obtain ⟨w, inbox, hl⟩ := busy s₁ (next s s₁ hi h hs)
      rw [Turn.complete_blocked, settleRound_eq, hs] at settled
      exact absurd settled (poised.inv.unsettled_current hl)
  | succ k ih =>
      obtain ⟨w, hb⟩ := busy s h
      obtain ⟨s₁, hs, poised⟩ := hb.exists_next hr hi hp
      have kept := next s s₁ hi h hs
      rw [complete_within hs] at settled
      by_cases woken : s₁.woken = true
      · have touch : Step s₁ { s₁ with woken := false } := .touch s₁ s₁.state s₁.world false
        have sound := turn_sound (touch.inv poised.inv) poised.positive
          (poised.main.mono (.single touch) rfl) poised.fresh
        have goes := proceeds s₁ poised.inv kept
        rw [opening_within woken] at settled
        rw [turn, continueLine] at sound
        cases hproceed : proceed { s₁ with woken := false } with
        | settled s' =>
            rw [hproceed] at goes
            exact ⟨1, s', .settled hs woken hproceed, goes⟩
        | crashed s' =>
            rw [hproceed] at goes
            exact goes.elim
        | waiting s₂ =>
            rw [hproceed] at goes sound settled
            obtain ⟨steps, matched, waiting⟩ := sound
            obtain ⟨j, s', course, done⟩ := ih ⟨.refl, matched, waiting⟩
              (steps.inv (touch.inv poised.inv))
              (Nat.lt_of_lt_of_le poised.positive steps.nextLine_le) goes settled
            exact ⟨j + 1, s', .waiting hs woken hproceed course, done⟩
      · have idle : s₁.woken = false := by simpa using woken
        rw [opening, if_neg woken] at settled
        obtain ⟨j, s', course, done⟩ := ih ⟨.refl, poised.main, poised.waiting idle⟩ poised.inv
          poised.positive kept settled
        exact ⟨j + 1, s', .asleep hs idle course, done⟩

/-- An effect that is the oldest one on its line runs its course when it is
taken. -/
theorem exists_runs {I Q : Scheduler ξ σ → Prop} (ha : s.Attends around n)
    (hl : s.line = some { number := n, inbox := (t, e) :: inbox }) {standing : Standing ξ σ ρ}
    (waits : standing.Waits s)
    (begins : (start around (s.pull n standing.wanted t e inbox) t e).Fulfils I Q)
    (busy : ∀ s, I s → ∃ w, s.Busy n t w)
    (next : ∀ s s₁, s.Inv → I s → s.next? = some s₁ → I s₁)
    (proceeds : ∀ s, s.Inv → I s → (proceed { s with woken := false }).Fulfils I Q) :
    ∃ j s', Runs around t e (s.pull n standing.wanted t e inbox) j s' ∧ Q s' := by
  cases hp : start around (s.pull n standing.wanted t e inbox) t e with
  | settled s' =>
      rw [hp] at begins
      exact ⟨0, s', .atOnce hp, begins⟩
  | crashed s' =>
      rw [hp] at begins
      exact begins.elim
  | waiting s₁ =>
      rw [hp] at begins
      have sound := ha.turn_sound standing fun _ => (.done () : Routine ξ σ ρ Unit)
      rw [continueScript_pull hl waits, hp] at sound
      obtain ⟨steps, matched, waiting⟩ := sound
      have blocked : (Turn.blocked (.within around n standing
          fun _ => (.done () : Routine ξ σ ρ Unit)) s₁).Sound s₁ := ⟨.refl, matched, waiting⟩
      have hi := steps.inv ha.inv
      have positive := Nat.lt_of_lt_of_le ha.positive steps.nextLine_le
      obtain ⟨w, inbox, hb⟩ := busy s₁ begins
      obtain ⟨m, e', taken⟩ := ((hi.onLine _ hb).underway t w rfl).taken
      obtain ⟨k, settled⟩ := blocked.settles hi positive
        ((blocked.complete hi positive 0).suffix.subset taken)
      obtain ⟨j, s', course, done⟩ :=
        exists_course busy next proceeds blocked hi positive begins settled
      exact ⟨j, s', .later hp course, done⟩

end Scheduler

end Switchboard
