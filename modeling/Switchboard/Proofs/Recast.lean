import Switchboard.Proofs.Course

/-!
# Switchboard.Proofs.Recast

A group is resolved in the same way whatever its shape is.  Tasks read neither
the shape of a group nor the effect that is being resolved, and the outcome of a
group comes from the answers of its commands; the shape makes a difference only
when the outcome is sent.

* `recast` — another effect in the place of the group that is being resolved;
* `Course.recast` — a group of another shape runs the same course;
* `Runs.recast` — two groups of the same commands from the beginning.
-/

namespace Switchboard

/-- The work on a group is that on another effect. -/
def Work.recast {σ : Type} (e' : Effect) : Work σ → Work σ
  | .single due job => .single due job
  | .group _ slots => .group e' slots

def Line.recast {σ : Type} (e' : Effect) (l : Line σ) : Line σ :=
  { l with current := l.current.map fun p => (p.1, p.2.recast e') }

/-- The values of a group are as many as its commands. -/
def FanIn.Sized (r : Except Failure (List Json)) (size : Nat) : Prop :=
  ∀ vs, r = .ok vs → vs.length = size

theorem FanIn.sized_of_outcome? {slots : List (Option Answer)} {r : Except Failure (List Json)}
    (hr : outcome? slots = some r) : Sized r slots.length := by
  rintro vs rfl
  simp [outcome?_eq_ok.1 hr]

namespace Scheduler

variable {ξ σ ρ α : Type} {s s' s₁ : Scheduler ξ σ} {n j : Nat} {t : Ticket} {e e' : Effect}
  {around : Surroundings σ} {inbox : List (Ticket × Effect)} {past past' : History σ}
  {slots : List (Option Answer)}

/-! ## Another effect in the place of a group -/

/-- The same scheduler if the group that is being resolved were another effect, and
had another past. -/
def recast (e' : Effect) (past : History σ) (s : Scheduler ξ σ) : Scheduler ξ σ :=
  { s with line := s.line.map (Line.recast e'), history := s.history ++ past }

theorem emit_recast (s : Scheduler ξ σ) (n : Nat) (e : Effect) :
    (s.recast e' past).emit n e = ((s.emit n e).1, (s.emit n e).2.recast e' past) := by
  unfold emit
  cases hl : s.line with
  | none => simp only [recast, log, hl]; rfl
  | some l =>
      simp only [recast, log, hl, Option.map_some, Line.recast]
      split <;> rfl

theorem report_recast (s : Scheduler ξ σ) (t : Ticket) (i : Nat) (a : Answer) :
    (s.recast e' past).report t i a = (s.report t i a).recast e' past := by
  unfold report
  rcases hl : s.line with _ | ⟨n, inbox, _ | ⟨u, ⟨due, job⟩ | ⟨e, slots⟩⟩⟩
  all_goals simp only [recast, log, hl, Option.map_some, Option.map_none, Line.recast, Work.recast]
  · rfl
  · rfl
  · rfl
  · split <;> rfl

theorem unread_recast (e' : Effect) (past : History σ) : Unread (recast (ξ := ξ) e' past) where
  clock _ := rfl
  world _ := rfl
  ready _ := rfl
  timers _ := rfl
  woken _ := rfl
  outcome? _ _ := rfl
  log _ _ := rfl
  touch _ _ := rfl
  queue _ _ := rfl
  rest _ _ _ := rfl
  park _ _ := rfl
  drop _ _ := rfl
  emit := emit_recast
  report := report_recast
  wake _ _ := rfl

theorem Unread.next? {T : Scheduler ξ σ → Scheduler ξ σ} (hT : Unread T) (s : Scheduler ξ σ) :
    (T s).next? = s.next?.map T := by
  unfold Scheduler.next?
  rw [hT.drain, hT.woken, hT.ready, hT.advance?]
  split <;> rfl

theorem Busy.recast (hb : s.Busy n t (.group e slots)) (e' : Effect) (past : History σ) :
    (s.recast e' past).Busy n t (.group e' slots) := by
  obtain ⟨inbox, hl⟩ := hb
  exact ⟨inbox, by simp [Scheduler.recast, hl, Line.recast, Work.recast]⟩

/-- Tasks and the clock do the same beside a group of another shape. -/
theorem Busy.next?_both (hb : s.Busy n t (.group e slots)) (hs : (s.since past).next? = some s₁)
    (e' : Effect) (past' : History σ) :
    ∃ y : Scheduler ξ σ, (∃ slots', slots'.length = slots.length ∧ y.Busy n t (.group e slots')) ∧
      s₁ = y.since past ∧
      (s.recast e' past').next? = some (y.recast e' past') := by
  rw [(unread_since past).next?] at hs
  obtain ⟨y, hy, rfl⟩ := Option.map_eq_some_iff.1 hs
  refine ⟨y, hb.group_next? hy, rfl, ?_⟩
  rw [(unread_recast e' past').next?, hy]
  rfl

/-! ## The course of a group -/

/-- A group of another shape is settled at the same moment. -/
theorem proceed_recast (hb : s.Busy n t (.group e slots)) (e' : Effect) (past : History σ) :
    (s.recast e' past).proceed = match FanIn.outcome? slots with
      | some r => .settled (((s.setCurrent none).settle t (r.map e'.resumed)).since past)
      | none => .waiting (s.recast e' past) := by
  have free : (s.recast e' past).setCurrent none = (s.setCurrent none).since past := by
    simp [Scheduler.recast, setCurrent, since, Function.comp_def, Line.recast]
  rw [proceed_group (hb.recast e' past), free]
  rfl

/-- A group of another shape runs the same course, and its outcome comes from the
same values or from the same failure. -/
theorem Course.recast (h : Course (s.since past) j s') (hb : s.Busy n t (.group e slots))
    (e' : Effect) (past' : History σ) :
    ∃ (x : Scheduler ξ σ) (r : Except Failure (List Json)), FanIn.Sized r slots.length ∧
      s' = (x.settle t (r.map e.resumed)).since past ∧
        Course (s.recast e' past') j ((x.settle t (r.map e'.resumed)).since past') := by
  generalize hX : s.since past = X at h
  induction h generalizing s slots with
  | settled next woken settles =>
      obtain ⟨y, ⟨slots', length, hb⟩, rfl, next'⟩ := hb.next?_both (hX ▸ next) e' past'
      have asleep : Busy { y with woken := false } n t (.group e slots') := hb
      have here := settles.symm.trans <| (proceed_since past { y with woken := false }).trans <|
        congrArg (Progress.map (since past)) (proceed_group asleep)
      have there := proceed_recast asleep e' past'
      cases hr : FanIn.outcome? slots' with
      | none =>
          rw [hr] at here
          cases here
      | some r =>
          rw [hr] at here there
          exact ⟨_, r, length ▸ FanIn.sized_of_outcome? hr, Progress.settled.inj here,
            .settled next' woken there⟩
  | waiting next woken waits rest ih =>
      obtain ⟨y, ⟨slots', length, hb⟩, rfl, next'⟩ := hb.next?_both (hX ▸ next) e' past'
      have asleep : Busy { y with woken := false } n t (.group e slots') := hb
      have here := waits.symm.trans <| (proceed_since past { y with woken := false }).trans <|
        congrArg (Progress.map (since past)) (proceed_group asleep)
      have there := proceed_recast asleep e' past'
      cases hr : FanIn.outcome? slots' with
      | some r =>
          rw [hr] at here
          cases here
      | none =>
          rw [hr] at here there
          obtain ⟨x, r, sized, same, course⟩ := ih asleep (Progress.waiting.inj here).symm
          exact ⟨x, r, length ▸ sized, same, .waiting next' woken there course⟩
  | asleep next idle rest ih =>
      obtain ⟨y, ⟨slots', length, hb⟩, rfl, next'⟩ := hb.next?_both (hX ▸ next) e' past'
      obtain ⟨x, r, sized, same, course⟩ := ih hb rfl
      exact ⟨x, r, length ▸ sized, same, .asleep next' idle course⟩

/-! ## Groups from their beginning -/

/-- Which commands a group consists of decides what is started of it, and whether
it has to be waited for. -/
theorem start_recast (hl : s.line = some { number := n, inbox }) (he : e.IsGroup)
    (he' : e'.IsGroup) (same : e'.commands = e.commands) (around : Surroundings σ) :
    (∃ (x : Scheduler ξ σ) (r : Except Failure (List Json)), FanIn.Sized r e.size ∧
      start around s t e = .settled (x.settle t (r.map e.resumed)) ∧
        start around s t e' = .settled (x.settle t (r.map e'.resumed))) ∨
      ∃ (s₁ : Scheduler ξ σ) (slots : List (Option Answer)), slots.length = e.size ∧
        s₁.Busy n t (.group e slots) ∧ start around s t e = .waiting s₁ ∧
          start around s t e' = .waiting (s₁.recast e' []) := by
  rw [start_group he, start_group he']
  unfold startGroup
  rw [same]
  cases hm : members around t 0 e.commands with
  | error name => exact .inl ⟨s, .error (.unknownCommand name), nofun, rfl, rfl⟩
  | ok tasks =>
      have length : (List.replicate tasks.length (none : Option Answer)).length = e.size := by
        rw [List.length_replicate, members_length hm, Effect.size]
      simp only [runGroup]
      cases hr : FanIn.outcome? (List.replicate tasks.length none) with
      | some r => exact .inl ⟨_, r, length ▸ FanIn.sized_of_outcome? hr, rfl, rfl⟩
      | none =>
          refine .inr ⟨_, List.replicate tasks.length none, length, ⟨inbox, ?_⟩, rfl, ?_⟩
          · simp [setCurrent, hl]
          · simp [setCurrent, hl, Scheduler.recast, Line.recast, Work.recast]

/-- Two groups of the same commands run the same course from the same moment on,
whatever their shapes are, and whatever had happened before. -/
theorem Runs.recast (h : Runs around t e (s.since past) j s') (he : e.IsGroup) (he' : e'.IsGroup)
    (same : e'.commands = e.commands) (hl : s.line = some { number := n, inbox })
    (past' : History σ) :
    ∃ (x : Scheduler ξ σ) (r : Except Failure (List Json)), FanIn.Sized r e.size ∧
      s' = (x.settle t (r.map e.resumed)).since past ∧
        Runs around t e' (s.since past') j ((x.settle t (r.map e'.resumed)).since past') := by
  have here : start around (s.since past) t e = _ := start_since past s t e
  have there : start around (s.since past') t e' = _ := start_since past' s t e'
  rcases start_recast hl he he' same around (t := t) with
    ⟨x, r, sized, settled, settled'⟩ | ⟨s₁, slots, length, hb, waits, waits'⟩
  · rw [settled] at here
    rw [settled'] at there
    refine ⟨x, r, sized, ?_⟩
    cases h with
    | atOnce settles => exact ⟨Progress.settled.inj (settles.symm.trans here), .atOnce there⟩
    | later waits => cases waits.symm.trans here
  · rw [waits] at here
    rw [waits'] at there
    cases h with
    | atOnce settles => cases settles.symm.trans here
    | later waits course =>
        obtain rfl := Progress.waiting.inj (waits.symm.trans here)
        obtain ⟨x, r, sized, rfl, course'⟩ := course.recast hb e' past'
        have forget : (s₁.recast e' []).since past' = s₁.recast e' past' := by
          simp [Scheduler.recast, since]
        exact ⟨x, r, length ▸ sized, rfl, .later there (forget ▸ course')⟩

/-- A group of known commands, or of unknown ones, runs its course. -/
theorem exists_runs_group (ha : s.Attends around n) (he : e.IsGroup)
    (hl : s.line = some { number := n, inbox := (t, e) :: inbox }) {standing : Standing ξ σ ρ}
    (waits : standing.Waits s) :
    ∃ j s', Runs around t e (s.pull n standing.wanted t e inbox) j s' := by
  have begins : (start around (s.pull n standing.wanted t e inbox) t e).Fulfils
      (fun s => ∃ slots, s.Busy n t (.group e slots)) fun _ => True := by
    rcases start_recast (s := s.pull n standing.wanted t e inbox) rfl he he rfl around with
      ⟨x, r, -, settled, -⟩ | ⟨s₁, slots, -, hb, waits, -⟩
    · rw [settled]
      trivial
    · rw [waits]
      exact ⟨slots, hb⟩
  obtain ⟨j, s', runs, -⟩ := exists_runs ha hl waits begins
    (fun s ⟨slots, hb⟩ => ⟨_, hb⟩)
    (fun s s₁ _ ⟨slots, hb⟩ hs => (hb.group_next? hs).imp fun _ => And.right)
    (fun s _ ⟨slots, hb⟩ => by
      rw [proceed_group (s := { s with woken := false }) hb]
      cases FanIn.outcome? slots with
      | some r => trivial
      | none => exact ⟨slots, hb⟩)
  exact ⟨j, s', runs⟩

end Scheduler

end Switchboard
