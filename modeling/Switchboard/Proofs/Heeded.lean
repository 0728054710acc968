import Switchboard.Proofs.Course

/-!
# Switchboard.Proofs.Heeded

Emissions that are heeded.  The outcome of an emission can be had as long as
nobody drops it.  Errands can do so, so what is said of them is said of all that
they still have to do, and is kept while they do it.

* `Errands` — every errand is of a kind, wherever it waits for its turn;
* `Heeded` — nobody has dropped an emission, and nobody will;
* `Course.heeded`, `Runs.heeded` — nor has anybody when an effect has run its
  course.
-/

namespace Switchboard

variable {ξ σ ν : Type}

/-- An errand leaves alone what is in view of others, and does not drop an
emission of theirs. -/
def Errand.Spares (view : World σ → ν) (t : Ticket) : Errand σ → Prop
  | .done => True
  | .look next => ∀ now w, (next now w).Spares view t
  | .write change next => (∀ w, view (change w) = view w) ∧ next.Spares view t
  | .emit _ next => ∀ u, (next u).Spares view t
  | .await _ next => ∀ o, (next o).Spares view t
  | .drop u next => u ≠ t ∧ next.Spares view t
  | .sleep _ next => next.Spares view t

namespace Scheduler

variable {view : World σ → ν} {t u : Ticket} {n : Nat} {e : Effect} {s s' s₁ : Scheduler ξ σ}
  {around : Surroundings σ}

/-! ## Errands -/

/-- Every errand is of a kind, those that wait and those that sleep, too. -/
structure Errands (P : Errand σ → Prop) (s : Scheduler ξ σ) : Prop where
  ready : ∀ n e, .errand n e ∈ s.ready → P e
  timers : ∀ due n e, (due, .task (.errand n e)) ∈ s.timers → P e
  parked : ∀ w ∈ s.parked, P (.await w.ticket w.next)

namespace Errands

variable {P : Errand σ → Prop}

theorem of_subset (h : s.Errands P) (ready : s'.ready ⊆ s.ready) (timers : s'.timers ⊆ s.timers)
    (parked : s'.parked ⊆ s.parked) : s'.Errands P :=
  ⟨fun n e he => h.ready n e (ready he), fun due n e he => h.timers due n e (timers he),
    fun w hw => h.parked w (parked hw)⟩

theorem settle (h : s.Errands P) (t : Ticket) (o : Outcome) : (s.settle t o).Errands P := by
  refine ⟨fun n e he => ?_, h.timers, fun w hw => h.parked w (s.settle_parked t o hw)⟩
  rcases List.mem_append.1 he with he | he
  · exact h.ready n e he
  · obtain ⟨w, hw, heq⟩ := List.mem_map.1 he
    cases heq
    exact h.parked w (s.waiters_subset t hw)

theorem emit (h : s.Errands P) (n : Nat) (e : Effect) : (s.emit n e).2.Errands P := by
  by_cases hl : ∃ l, s.line = some l ∧ l.number = n
  · obtain ⟨l, hl, rfl⟩ := hl
    rw [emit_open s e hl]
    exact ⟨h.ready, h.timers, h.parked⟩
  · rw [emit_closed s e fun l h hn => hl ⟨l, h, hn⟩]
    have noted : Errands P ({ s with nextTicket := s.nextTicket + 1 }.log
        (.emitted n s.nextTicket e)) := ⟨h.ready, h.timers, h.parked⟩
    exact noted.settle _ _

theorem addTimer (h : s.Errands P) (due : Nat) (who : Sleeper σ)
    (hwho : ∀ n e, who = .task (.errand n e) → P e) : (s.addTimer due who).Errands P := by
  refine ⟨h.ready, fun due' n e he => ?_, h.parked⟩
  rcases mem_insertTimer.1 he with heq | he
  · exact hwho n e (Prod.mk.inj heq).2.symm
  · exact h.timers due' n e he

theorem wakeDue (h : s.Errands P) (clock : Nat) :
    (Scheduler.wakeDue { s with clock }).Errands P := by
  refine ⟨fun n e he => ?_,
    fun due n e he => h.timers due n e ((List.dropWhile_sublist _).subset he), h.parked⟩
  rcases List.mem_append.1 he with he | he
  · exact h.ready n e he
  · obtain ⟨⟨due, who⟩, hp, htask⟩ := List.mem_filterMap.1 he
    have hp := (List.takeWhile_sublist _).subset hp
    cases who with
    | main => cases htask
    | task task =>
        cases htask
        exact h.timers due n e hp

end Errands

/-! ## Emissions -/

/-- Nobody has dropped an emission, and no errand will; nor will one touch what is in
view. -/
structure Heeded (view : World σ → ν) (t : Ticket) (s : Scheduler ξ σ) : Prop where
  kept : s.dropped t = false
  errands : s.Errands (Errand.Spares view t)

namespace Heeded

theorem of_subset (h : s.Heeded view t) (dropped : s'.dropped = s.dropped)
    (ready : s'.ready ⊆ s.ready) (timers : s'.timers ⊆ s.timers) (parked : s'.parked ⊆ s.parked) :
    s'.Heeded view t :=
  ⟨dropped ▸ h.kept, h.errands.of_subset ready timers parked⟩

theorem same (h : s.Heeded view t) (dropped : s'.dropped = s.dropped) (ready : s'.ready = s.ready)
    (timers : s'.timers = s.timers) (parked : s'.parked = s.parked) : s'.Heeded view t :=
  h.of_subset dropped (ready ▸ List.Subset.refl _) (timers ▸ List.Subset.refl _)
    (parked ▸ List.Subset.refl _)

theorem settle (h : s.Heeded view t) (u : Ticket) (o : Outcome) : (s.settle u o).Heeded view t :=
  ⟨by rw [settle_dropped, h.kept], h.errands.settle u o⟩

theorem emit (h : s.Heeded view t) (n : Nat) (e : Effect) : (s.emit n e).2.Heeded view t := by
  refine ⟨?_, h.errands.emit n e⟩
  by_cases hl : ∃ l, s.line = some l ∧ l.number = n
  · obtain ⟨l, hl, rfl⟩ := hl
    rw [emit_open s e hl]
    exact h.kept
  · rw [emit_closed s e fun l h hn => hl ⟨l, h, hn⟩, settle_dropped]
    exact h.kept

theorem drop (h : s.Heeded view t) (hu : u ≠ t) : (s.drop u).Heeded view t :=
  ⟨by simp [Scheduler.drop, h.kept, hu.symm], ⟨h.errands.ready, h.errands.timers, h.errands.parked⟩⟩

theorem addTimer (h : s.Heeded view t) (due : Nat) (who : Sleeper σ)
    (errand : ∀ n e, who = .task (.errand n e) → e.Spares view t) :
    (s.addTimer due who).Heeded view t :=
  ⟨h.kept, h.errands.addTimer due who errand⟩

theorem park (h : s.Heeded view t) {w : Waiter σ}
    (hw : (Errand.await w.ticket w.next).Spares view t) :
    Heeded view t { s with parked := s.parked ++ [w] } := by
  refine ⟨h.kept, h.errands.ready, h.errands.timers, fun w' hw' => ?_⟩
  rcases List.mem_append.1 hw' with hw' | hw'
  · exact h.errands.parked w' hw'
  · obtain rfl := List.mem_singleton.1 hw'
    exact hw

theorem report (h : s.Heeded view t) (u : Ticket) (i : Nat) (a : Answer) :
    (s.report u i a).Heeded view t := by
  by_cases hb : ∃ n e slots, s.Busy n u (.group e slots)
  · obtain ⟨n, e, slots, inbox, hl⟩ := hb
    rw [report_group s a hl]
    exact h.same rfl rfl rfl rfl
  · rw [report_other s a fun n e slots h => hb ⟨n, e, slots, h⟩]
    exact h.same rfl rfl rfl rfl

theorem tasksKeep (view : World σ → ν) (t : Ticket) :
    TasksKeep (Errand.Spares view t) (Heeded (ξ := ξ) view t) where
  look _ now w he := he now w
  write _ _ _ he h := ⟨h.same rfl rfl rfl rfl, he.2⟩
  emit _ n e _ he h := ⟨h.emit n e, he⟩
  resume _ _ o _ he h := ⟨h.same rfl rfl rfl rfl, he o⟩
  park _ _ _ _ he h := h.park he
  drop _ _ _ he h := ⟨h.drop he.1, he.2⟩
  sleep _ n _ next he h := by
    refine ⟨h.addTimer _ _ fun n' e heq => ?_, he⟩
    cases heq
    exact he
  errand _ n e h he := h.errands.ready n e he
  leave _ _ _ h hr :=
    h.of_subset rfl (hr ▸ List.subset_cons_self _ _) (List.Subset.refl _) (List.Subset.refl _)
  start _ _ _ _ h := h.same rfl rfl rfl rfl
  touch _ _ h := h.same rfl rfl rfl rfl
  report _ t i a h := h.report t i a
  rest _ _ _ _ _ h := h.addTimer _ _ nofun
  wake _ _ h := ⟨h.kept, h.errands.wakeDue _⟩

theorem next? (h : s.Heeded view t) (hs : s.next? = some s₁) : s₁.Heeded view t :=
  (tasksKeep view t).next? h hs

theorem runSingle (h : s.Heeded view t) (u : Ticket) (j : Job σ Answer) :
    (s.runSingle u j).state.Heeded view t := by
  unfold Scheduler.runSingle
  split
  · refine Heeded.settle ?_ _ _
    exact h.same rfl rfl rfl rfl
  · exact h.same rfl rfl rfl rfl
  · exact (h.addTimer _ .main nofun).same rfl rfl rfl rfl

theorem runGroup (h : s.Heeded view t) (u : Ticket) (e : Effect) (slots : List (Option Answer)) :
    (s.runGroup u e slots).state.Heeded view t := by
  unfold Scheduler.runGroup
  split
  · refine Heeded.settle ?_ _ _
    exact h.same rfl rfl rfl rfl
  · exact h.same rfl rfl rfl rfl

theorem proceed (h : s.Heeded view t) : s.proceed.state.Heeded view t := by
  unfold Scheduler.proceed
  split
  · split
    · exact h.runSingle _ _
    · exact h
  · exact h.runGroup _ _ _
  · exact h

/-- The members of a group are no errands. -/
theorem members (h : s.Heeded view t) {u : Ticket} {i : Nat} {cs : List Command}
    {tasks : List (Task σ)} (hm : members around u i cs = .ok tasks) :
    Heeded view t { s with ready := s.ready ++ tasks } := by
  refine ⟨h.kept, fun n e he => ?_, h.errands.timers, h.errands.parked⟩
  refine (List.mem_append.1 he).elim (h.errands.ready n e) fun he => ?_
  obtain ⟨k, c, j, heq, -⟩ := mem_members hm he
  cases heq

theorem start (h : s.Heeded view t) (u : Ticket) (e : Effect) :
    (start around s u e).state.Heeded view t := by
  have group : (startGroup around s u e).state.Heeded view t := by
    unfold startGroup
    cases hm : Scheduler.members around u 0 e.commands with
    | error name => exact h.settle _ _
    | ok tasks => exact (h.members hm).runGroup _ _ _
  cases e with
  | sequence cs | mapping cs => exact group
  | single c =>
      unfold Scheduler.start
      dsimp only
      split
      · exact h.settle _ _
      · refine runSingle ?_ _ _
        exact h.same rfl rfl rfl rfl

end Heeded

/-- What is heeded is so when an effect has run its course. -/
theorem Course.heeded {k : Nat} (course : Course s k s') (h : s.Heeded view t) :
    s'.Heeded view t := by
  have proceeds {s s₁ : Scheduler ξ σ} (h : s.Heeded view t) (next : s.next? = some s₁) :
      (Scheduler.proceed { s₁ with woken := false }).state.Heeded view t := by
    have asleep : Heeded view t { s₁ with woken := false } := (h.next? next).same rfl rfl rfl rfl
    exact asleep.proceed
  induction course with
  | settled next woken settles =>
      have h := proceeds h next
      rwa [settles] at h
  | waiting next woken waits rest ih =>
      have h := proceeds h next
      rw [waits] at h
      exact ih h
  | asleep next idle rest ih => exact ih (h.next? next)

theorem Runs.heeded {k : Nat} {u : Ticket} (runs : Runs around u e s k s') (h : s.Heeded view t) :
    s'.Heeded view t := by
  have starts : (start around s u e).state.Heeded view t := h.start u e
  cases runs with
  | atOnce settles => rwa [settles] at starts
  | later waits course =>
      rw [waits] at starts
      exact course.heeded starts

end Scheduler

end Switchboard
