import Switchboard.Proofs.History
import Switchboard.Scheduler.Run

/-!
# Switchboard.Proofs.State

What each operation of the scheduler does to the parts of its state, one
equation a part.  Nothing here looks further than one operation; the modules
that follow cite these equations and open no operation themselves.

Two readings of the tasks are added: the *crew*, which is every member of a
group that has not answered, with the time up to which it sleeps, and the
*handles*, the numbers of the lines on which errands may emit.
-/

namespace Switchboard

variable {ξ σ ρ α : Type}

/-- A member of a group that has not answered yet. -/
structure Member (σ : Type) where
  ticket : Ticket
  index : Nat
  due : Nat
  job : Job σ Answer

def Member.key (m : Member σ) : Ticket × Nat := (m.ticket, m.index)

namespace Task

/-- The member that a task runs, if it runs one. -/
def member? (due : Nat) : Task σ → Option (Member σ)
  | .begin t i _ j => some ⟨t, i, due, j⟩
  | .resume t i j => some ⟨t, i, due, j⟩
  | .errand _ _ => none

/-- The line to which a task has a handle, if it has one. -/
def handle? : Task σ → Option Nat
  | .errand n _ => some n
  | _ => none

end Task

namespace Sleeper

def member? (due : Nat) (w : Sleeper σ) : Option (Member σ) := w.task?.bind (·.member? due)

def handle? (w : Sleeper σ) : Option Nat := w.task?.bind (·.handle?)

end Sleeper

namespace Scheduler

/-! ## Readings of the state -/

/-- The members of groups that have not answered yet. -/
def crew (s : Scheduler ξ σ) : List (Member σ) :=
  s.ready.filterMap (·.member? s.clock) ++ s.timers.filterMap fun p => p.2.member? p.1

/-- The lines on which errands may emit. -/
def handles (s : Scheduler ξ σ) : List Nat :=
  s.ready.filterMap (·.handle?) ++ s.timers.filterMap (·.2.handle?) ++ s.parked.map (·.line)

/-- The line is open, and its interpreter is at work on no effect. -/
def Free (s : Scheduler ξ σ) (n : Nat) : Prop :=
  ∃ inbox, s.line = some { number := n, inbox }

/-- The interpreter is at work on an effect. -/
def Busy (s : Scheduler ξ σ) (n : Nat) (t : Ticket) (w : Work σ) : Prop :=
  ∃ inbox, s.line = some { number := n, inbox, current := some (t, w) }

end Scheduler

/-- The outcome of an effect that is being resolved cannot be known yet. -/
def Work.Pending (now : Nat) : Work σ → Prop
  | .single due _ => now < due
  | .group _ slots => FanIn.outcome? slots = none

namespace Scheduler

/-- Whatever is being resolved has to be waited for. -/
def Waiting (s : Scheduler ξ σ) : Prop := ∀ n t w, s.Busy n t w → w.Pending s.clock

theorem Free.not_busy {s : Scheduler ξ σ} {n n' : Nat} {t : Ticket} {w : Work σ}
    (h : s.Free n) : ¬ s.Busy n' t w := by
  rintro ⟨inbox, hb⟩
  obtain ⟨inbox', hf⟩ := h
  simp [hb] at hf

theorem Free.waiting {s : Scheduler ξ σ} {n : Nat} (h : s.Free n) : s.Waiting :=
  fun _ _ _ hb => absurd hb h.not_busy

/-! ## Timers -/

section Timers

variable {due d : Nat} {who w : Sleeper σ} {timers : List (Nat × Sleeper σ)}

theorem insertTimer_perm (due : Nat) (who : Sleeper σ) (timers : List (Nat × Sleeper σ)) :
    (insertTimer due who timers).Perm ((due, who) :: timers) := by
  induction timers with
  | nil => exact .refl _
  | cons p rest ih =>
      obtain ⟨d, w⟩ := p
      unfold insertTimer
      split
      · exact (ih.cons _).trans (.swap _ _ _)
      · exact .refl _

theorem mem_insertTimer {p : Nat × Sleeper σ} :
    p ∈ insertTimer due who timers ↔ p = (due, who) ∨ p ∈ timers := by
  rw [(insertTimer_perm due who timers).mem_iff, List.mem_cons]

theorem forall_mem_insertTimer {P : Nat × Sleeper σ → Prop} (new : P (due, who))
    (old : ∀ p ∈ timers, P p) : ∀ p ∈ insertTimer due who timers, P p := by
  intro p hp
  rcases mem_insertTimer.1 hp with rfl | hp
  · exact new
  · exact old p hp

theorem insertTimer_sorted (h : timers.Pairwise (·.1 ≤ ·.1)) :
    (insertTimer due who timers).Pairwise (·.1 ≤ ·.1) := by
  induction timers with
  | nil => simp [insertTimer]
  | cons p rest ih =>
      obtain ⟨d, w⟩ := p
      obtain ⟨hd, hr⟩ := List.pairwise_cons.1 h
      unfold insertTimer
      split
      · next le =>
        exact List.pairwise_cons.2 ⟨forall_mem_insertTimer le hd, ih hr⟩
      · next gt =>
        refine List.pairwise_cons.2 ⟨fun q hq => ?_, h⟩
        rcases List.mem_cons.1 hq with rfl | hq
        · exact Nat.le_of_not_le gt
        · exact Nat.le_trans (Nat.le_of_not_le gt) (hd q hq)

/-- What is not due yet is due later. -/
theorem lt_of_mem_dropWhile {now : Nat} {p : Nat × Sleeper σ}
    (h : timers.Pairwise (·.1 ≤ ·.1)) (hp : p ∈ timers.dropWhile (·.1 ≤ now)) : now < p.1 := by
  induction timers with
  | nil => cases hp
  | cons q rest ih =>
      obtain ⟨hq, hr⟩ := List.pairwise_cons.1 h
      rw [List.dropWhile_cons] at hp
      split at hp
      · exact ih hr hp
      · next gt =>
        have gt : now < q.1 := by simpa using gt
        rcases List.mem_cons.1 hp with rfl | hp
        · exact gt
        · exact Nat.lt_of_lt_of_le gt (hq p hp)

end Timers

theorem crew_of_eq {s s' : Scheduler ξ σ} (ready : s'.ready = s.ready)
    (timers : s'.timers = s.timers) (clock : s'.clock = s.clock) : s'.crew = s.crew := by
  simp only [crew, ready, timers, clock]

/-- A member at the head of the queue is the first of the crew. -/
theorem crew_head {s : Scheduler ξ σ} {task : Task σ} {rest : List (Task σ)} {m : Member σ}
    (hr : s.ready = task :: rest) (hm : task.member? s.clock = some m) :
    s.crew = m :: crew { s with ready := rest } := by
  simp [crew, hr, hm]

theorem advance_eq {s s' : Scheduler ξ σ} (ha : s.advance? = some s') :
    ∃ due who rest, s.timers = (due, who) :: rest ∧
      s' = wakeDue { s with clock := max s.clock due } := by
  unfold advance? at ha
  split at ha
  · cases ha
  · next due who rest ht => exact ⟨due, who, rest, ht, (Option.some.inj ha).symm⟩

variable (s : Scheduler ξ σ)

/-! ## Sending outcomes -/

theorem lookup_cons_eq {β : Type} (t u : Ticket) (b : β) (rest : List (Ticket × β)) :
    ((t, b) :: rest).lookup u = if u = t then some b else rest.lookup u := by
  by_cases h : u = t
  · simp [h]
  · have hb : (u == t) = false := by simpa using h
    simp [List.lookup_cons, h, hb]

section Settle

variable (t u : Ticket) (o : Outcome)

@[simp] theorem settle_history : (s.settle t o).history = (s.clock, .settled t o) :: s.history := by
  unfold settle; split <;> rfl

@[simp] theorem settle_line : (s.settle t o).line = s.line := rfl

@[simp] theorem settle_clock : (s.settle t o).clock = s.clock := rfl

@[simp] theorem settle_timers : (s.settle t o).timers = s.timers := rfl

@[simp] theorem settle_nextTicket : (s.settle t o).nextTicket = s.nextTicket := by
  unfold settle; split <;> rfl

@[simp] theorem settle_nextLine : (s.settle t o).nextLine = s.nextLine := by
  unfold settle; split <;> rfl

@[simp] theorem settle_dropped : (s.settle t o).dropped = s.dropped := by
  unfold settle; split <;> rfl

theorem settled_settle :
    (s.settle t o).history.Settled u ↔ u = t ∨ s.history.Settled u := by
  simp [eq_comm]

theorem settle_outcome? :
    (s.settle t o).outcome? u =
      if u = t ∧ s.dropped t = false then some o else s.outcome? u := by
  cases hd : s.dropped t <;> simp [settle, outcome?, log, hd, lookup_cons_eq]

theorem waiters_subset : s.waiters t ⊆ s.parked := by
  unfold waiters
  split
  · exact List.nil_subset _
  · exact List.filter_sublist.subset

theorem settle_parked : (s.settle t o).parked ⊆ s.parked := by
  simp only [settle, log]
  split
  · exact List.Subset.refl _
  · exact List.filter_sublist.subset

@[simp] theorem settle_crew : (s.settle t o).crew = s.crew := by
  simp [crew, settle, log, List.filterMap_append, List.filterMap_map, Function.comp_def,
    Waiter.task, Task.member?]

theorem settle_handles : (s.settle t o).handles ⊆ s.handles := by
  have hw := s.waiters_subset t
  have hp := s.settle_parked t o
  intro n hn
  have hr : (s.settle t o).ready = s.ready ++ (s.waiters t).map Waiter.task := rfl
  simp only [handles, hr, settle_timers, List.filterMap_append, List.filterMap_map,
    List.mem_append, List.mem_filterMap, List.mem_map, Function.comp_apply, Waiter.task,
    Task.handle?] at hn ⊢
  grind

end Settle

section SettleAll

variable (o : Outcome) (ts : List Ticket)

@[simp] theorem settleAll_history :
    (s.settleAll o ts).history =
      (ts.map fun t => (s.clock, .settled t o)).reverse ++ s.history := by
  induction ts generalizing s with
  | nil => rfl
  | cons t ts ih => simpa [settleAll] using ih (s.settle t o)

/-- What the sending of an outcome leaves alone is left alone by many. -/
theorem settleAll_of_settle {β : Type} (f : Scheduler ξ σ → β)
    (h : ∀ s t, f (s.settle t o) = f s) : f (s.settleAll o ts) = f s := by
  induction ts generalizing s with
  | nil => rfl
  | cons t ts ih => exact (ih (s.settle t o)).trans (h s t)

@[simp] theorem settleAll_line : (s.settleAll o ts).line = s.line :=
  s.settleAll_of_settle o ts (·.line) fun _ _ => rfl

@[simp] theorem settleAll_nextLine : (s.settleAll o ts).nextLine = s.nextLine :=
  s.settleAll_of_settle o ts (·.nextLine) fun s t => s.settle_nextLine t o

@[simp] theorem settleAll_dropped : (s.settleAll o ts).dropped = s.dropped :=
  s.settleAll_of_settle o ts (·.dropped) fun s t => s.settle_dropped t o

end SettleAll

/-! ## Dropping -/

@[simp] theorem drop_line (t : Ticket) : (s.drop t).line = s.line := rfl

@[simp] theorem drop_clock (t : Ticket) : (s.drop t).clock = s.clock := rfl

@[simp] theorem drop_world (t : Ticket) : (s.drop t).world = s.world := rfl

@[simp] theorem drop_ready (t : Ticket) : (s.drop t).ready = s.ready := rfl

@[simp] theorem drop_woken (t : Ticket) : (s.drop t).woken = s.woken := rfl

theorem drop_outcome? (t u : Ticket) :
    (s.drop t).outcome? u = if u = t then none else s.outcome? u := by
  simp only [drop, outcome?]
  induction s.outcomes with
  | nil => simp
  | cons p rest ih =>
      obtain ⟨v, o⟩ := p
      by_cases hv : v = t <;> simp [hv, lookup_cons_eq] <;> grind

/-! ## Emitting -/

section Emit

variable (n : Nat) (e : Effect)

@[simp] theorem emit_ticket : (s.emit n e).1 = s.nextTicket := by
  unfold emit
  grind

theorem emit_open {l : Line σ} (hl : s.line = some l) :
    (s.emit l.number e).2 =
      { s with
        nextTicket := s.nextTicket + 1
        line := some { l with inbox := l.inbox ++ [(s.nextTicket, e)] }
        woken := true }.log (.emitted l.number s.nextTicket e) := by
  simp [emit, log, hl]

theorem emit_closed {n : Nat} (hl : ∀ l, s.line = some l → l.number ≠ n) :
    (s.emit n e).2 =
      ({ s with nextTicket := s.nextTicket + 1 }.log (.emitted n s.nextTicket e)).settle
        s.nextTicket (.error .detached) := by
  unfold emit
  cases h : s.line with
  | none => simp [log]
  | some l => simp [log, hl l h]

theorem emit_line_of_none (hl : s.line = none) (n : Nat) : (s.emit n e).2.line = none := by
  rw [emit_closed s e (by simp [hl])]
  exact hl

theorem emit_crew : (s.emit n e).2.crew = s.crew := by
  by_cases hl : ∃ l, s.line = some l ∧ l.number = n
  · obtain ⟨l, hl, rfl⟩ := hl
    rw [emit_open s e hl]
    exact crew_of_eq rfl rfl rfl
  · rw [emit_closed s e fun l h hn => hl ⟨l, h, hn⟩, settle_crew]
    exact crew_of_eq rfl rfl rfl

@[simp] theorem emit_nextLine : (s.emit n e).2.nextLine = s.nextLine := by
  unfold emit
  grind [settle_nextLine, log]

end Emit

/-! ## Answers -/

theorem report_group {n t i : Nat} {e : Effect} {slots : List (Option Answer)}
    {inbox : List (Ticket × Effect)} (a : Answer)
    (hl : s.line = some { number := n, inbox, current := some (t, .group e slots) }) :
    s.report t i a =
      { s with
        line := some
          { number := n, inbox, current := some (t, .group e (slots.set i (some a))) }
        woken := true }.log (.answered t i a) := by
  simp [report, log, hl]

@[simp] theorem report_history (t : Ticket) (i : Nat) (a : Answer) :
    (s.report t i a).history = (s.clock, .answered t i a) :: s.history := by
  unfold report
  simp only [log]
  split
  · split <;> rfl
  · rfl

theorem report_other {t i : Nat} (a : Answer)
    (hl : ∀ n e slots, ¬ s.Busy n t (.group e slots)) :
    s.report t i a = s.log (.answered t i a) := by
  unfold report
  simp only [log]
  split
  · next hl' =>
    split
    · next ht => subst ht; exact absurd ⟨_, hl'⟩ (hl _ _ _)
    · rfl
  · rfl

theorem report_crew (t : Ticket) (i : Nat) (a : Answer) : (s.report t i a).crew = s.crew := by
  by_cases hb : ∃ n e slots, s.Busy n t (.group e slots)
  · obtain ⟨n, e, slots, inbox, hl⟩ := hb
    rw [report_group s a hl]
    exact crew_of_eq rfl rfl rfl
  · rw [report_other s a fun n e slots h => hb ⟨n, e, slots, h⟩]
    exact crew_of_eq rfl rfl rfl

/-! ## Timers -/

theorem addTimer_crew (due : Nat) (who : Sleeper σ) :
    (s.addTimer due who).crew.Perm ((who.member? due).toList ++ s.crew) := by
  have hp := (insertTimer_perm due who s.timers).filterMap fun p => p.2.member? p.1
  simp only [crew, addTimer]
  refine (hp.append_left _).trans ?_
  rw [List.filterMap_cons]
  cases who.member? due with
  | none => exact .refl _
  | some m => exact List.perm_middle

theorem addTimer_crew_subset (due : Nat) (who : Sleeper σ) : s.crew ⊆ (s.addTimer due who).crew :=
  fun _ hm => (s.addTimer_crew due who).mem_iff.2 (List.mem_append_right _ hm)

theorem mem_addTimer_handles {due n : Nat} {who : Sleeper σ} :
    n ∈ (s.addTimer due who).handles ↔ who.handle? = some n ∨ n ∈ s.handles := by
  simp only [handles, addTimer, List.mem_append, List.mem_filterMap, mem_insertTimer]
  grind

/-! ## The members of a group -/

section Members

variable {around : Surroundings σ} {t k : Nat} {cs : List Command} {tasks : List (Task σ)}

theorem members_cons_ok {c : Command} (h : members around t k (c :: cs) = .ok tasks) :
    ∃ j rest, around.resolve? c = some j ∧ members around t (k + 1) cs = .ok rest ∧
      tasks = .begin t k c j :: rest := by
  unfold members at h
  split at h
  · cases h
  · next j hj =>
    cases hm : members around t (k + 1) cs with
    | error name => simp [hm, Except.map] at h
    | ok rest => exact ⟨j, rest, hj, rfl, by simpa [hm, Except.map, eq_comm] using h⟩

/-- Every task of a group begins the resolver of one of its commands. -/
theorem mem_members (h : members around t k cs = .ok tasks) {task : Task σ} (ht : task ∈ tasks) :
    ∃ i c j, task = .begin t (k + i) c j ∧ cs[i]? = some c ∧ around.resolve? c = some j := by
  induction cs generalizing k tasks with
  | nil =>
      cases h
      simp at ht
  | cons c cs ih =>
      obtain ⟨j, rest, hj, hrest, rfl⟩ := members_cons_ok h
      rcases List.mem_cons.1 ht with rfl | ht
      · exact ⟨0, c, j, rfl, rfl, hj⟩
      · obtain ⟨i, c', j', rfl, hc, hj'⟩ := ih hrest ht
        exact ⟨i + 1, c', j', by rw [Nat.add_assoc, Nat.add_comm 1], hc, hj'⟩

/-- The tasks of a group are those of its members, in their order. -/
theorem members_keys (h : members around t k cs = .ok tasks) (due : Nat) :
    (tasks.filterMap (·.member? due)).map Member.key =
      (List.range' k cs.length).map fun i => (t, i) := by
  induction cs generalizing k tasks with
  | nil =>
      cases h
      rfl
  | cons c cs ih =>
      obtain ⟨j, rest, hj, hrest, rfl⟩ := members_cons_ok h
      simp [Task.member?, Member.key, List.range'_succ, ← ih hrest]

theorem members_length (h : members around t k cs = .ok tasks) : tasks.length = cs.length := by
  induction cs generalizing k tasks with
  | nil =>
      cases h
      rfl
  | cons c cs ih =>
      obtain ⟨j, rest, hj, hrest, rfl⟩ := members_cons_ok h
      simp [ih hrest]

theorem members_known (h : members around t k cs = .ok tasks) :
    ∀ c ∈ cs, (around.resolve? c).isSome := by
  induction cs generalizing k tasks with
  | nil => simp
  | cons c cs ih =>
      obtain ⟨j, rest, hj, hrest, rfl⟩ := members_cons_ok h
      exact List.forall_mem_cons.2 ⟨by simp [hj], ih hrest⟩

/-- What stops a group is the first of its names that is unknown. -/
theorem members_error {name : String} (h : members around t k cs = .error name) :
    ∃ c, cs.find? (fun c => (around.resolve? c).isNone) = some c ∧ c.name = name := by
  induction cs generalizing k with
  | nil => cases h
  | cons c cs ih =>
      unfold members at h
      split at h
      · next hn =>
        cases h
        exact ⟨c, by simp [hn], rfl⟩
      · next j hj =>
        cases hm : members around t (k + 1) cs with
        | error name' =>
            simp only [hm, Except.map, Except.error.injEq] at h
            obtain ⟨c', hc', hname⟩ := ih (h ▸ hm)
            exact ⟨c', by simp [hj, hc'], hname⟩
        | ok rest => simp [hm, Except.map] at h

end Members

end Scheduler

end Switchboard
