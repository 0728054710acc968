import Switchboard.Proofs.Rounds

/-!
# Switchboard.Proofs.Dropping

Dropping what nobody waits for changes nothing else.  A program *forgoes* a
ticket when it neither waits for it nor looks at it, wherever it may come; what
it finds in the state and in the world is then such that it cannot come upon
the ticket there.  A scheduler in which everybody forgoes a ticket goes on in
the same way whether or not the ticket is dropped.

* `Forgoes` — what programs, tasks and the main routine must not do;
* `Forgone` — nobody in a scheduler waits for a ticket, or ever will;
* `rounds_drop` — dropping and running change places.
-/

namespace Switchboard

variable {ξ σ ρ α : Type} {X : ξ → Prop} {W : World σ → Prop} {τ : Ticket}

/-! ## Programs that forgo a ticket -/

/-- A job keeps the world as it should be. -/
def Job.Keeps (W : World σ → Prop) : Job σ α → Prop
  | .done _ | .crash => True
  | .look next => ∀ now w, W w → (next now w).Keeps W
  | .write change next => (∀ w, W w → W (change w)) ∧ next.Keeps W
  | .sleep _ next => next.Keeps W

def Errand.Forgoes (W : World σ → Prop) (τ : Ticket) : Errand σ → Prop
  | .done => True
  | .look next => ∀ now w, W w → (next now w).Forgoes W τ
  | .write change next => (∀ w, W w → W (change w)) ∧ next.Forgoes W τ
  | .emit _ next => ∀ t, t ≠ τ → (next t).Forgoes W τ
  | .await t next => t ≠ τ ∧ ∀ o, (next o).Forgoes W τ
  | .drop _ next | .sleep _ next => next.Forgoes W τ

def Script.Forgoes (X : ξ → Prop) (W : World σ → Prop) (τ : Ticket) : Script ξ σ ρ → Prop
  | .done _ => True
  | .look next => ∀ now x w, X x → W w → (next now x w).Forgoes X W τ
  | .write change next => (∀ x, X x → X (change x)) ∧ next.Forgoes X W τ
  | .note change next => (∀ w, W w → W (change w)) ∧ next.Forgoes X W τ
  | .emit _ next => ∀ t, t ≠ τ → (next t).Forgoes X W τ
  | .await t next => t ≠ τ ∧ ∀ o, (next o).Forgoes X W τ
  | .drop _ next | .sleep _ next => next.Forgoes X W τ
  | .spawn errand next => errand.Forgoes W τ ∧ next.Forgoes X W τ

def Surroundings.Keeps (W : World σ → Prop) (around : Surroundings σ) : Prop :=
  ∀ c job, around.resolve? c = some job → job.Keeps W

def Routine.Forgoes (X : ξ → Prop) (W : World σ → Prop) (τ : Ticket) : Routine ξ σ ρ α → Prop
  | .done _ | .crash => True
  | .look next => ∀ now x w, X x → W w → (next now x w).Forgoes X W τ
  | .write change next => (∀ x, X x → X (change x)) ∧ next.Forgoes X W τ
  | .note change next => (∀ w, W w → W (change w)) ∧ next.Forgoes X W τ
  | .sleep _ next => next.Forgoes X W τ
  | .interpret around script next =>
    around.Keeps W ∧ script.Forgoes X W τ ∧ ∀ r, (next r).Forgoes X W τ
  | .emit _ next => ∀ t, t ≠ τ → (next t).Forgoes X W τ
  | .peek t next => t ≠ τ ∧ ∀ o, (next o).Forgoes X W τ

def Task.Forgoes (W : World σ → Prop) (τ : Ticket) : Task σ → Prop
  | .begin _ _ _ job | .resume _ _ job => job.Keeps W
  | .errand _ e => e.Forgoes W τ

theorem Job.Keeps.burst {j : Job σ α} (hj : j.Keeps W) (now : Nat) {w : World σ} (hw : W w) :
    W (j.burst now w).2 ∧
      ∀ due next, (j.burst now w).1 = .asleep due next → next.Keeps W := by
  induction j generalizing w with
  | done a => exact ⟨hw, fun _ _ h => by cases h⟩
  | crash => exact ⟨hw, fun _ _ h => by cases h⟩
  | look next ih => exact ih now w (hj now w hw) hw
  | write change next ih => exact ih hj.2 (hj.1 w hw)
  | sleep ms next ih =>
      unfold Job.burst
      split
      · exact ih hj hw
      · refine ⟨hw, fun due next' h => ?_⟩
        cases h
        exact hj

namespace Scheduler

variable {s s' : Scheduler ξ σ} {n : Nat} {t : Ticket} {around : Surroundings σ}
  {wanted : Option Ticket}

def Work.Forgoes (W : World σ → Prop) : Work σ → Prop
  | .single _ job => job.Keeps W
  | .group _ _ => True

/-- Nobody waits for a ticket that has been given out, and nobody will. -/
structure Forgone (X : ξ → Prop) (W : World σ → Prop) (τ : Ticket) (s : Scheduler ξ σ) : Prop where
  issued : τ < s.nextTicket
  state : X s.state
  world : W s.world
  ready : ∀ t ∈ s.ready, t.Forgoes W τ
  timers : ∀ due t, (due, .task t) ∈ s.timers → t.Forgoes W τ
  parked : ∀ w ∈ s.parked, w.ticket ≠ τ ∧ ∀ o, (w.next o).Forgoes W τ
  work : ∀ n t w, s.Busy n t w → Work.Forgoes W w

/-! ## What is done to the state -/

theorem outcome?_drop (h : t ≠ τ) : (s.drop τ).outcome? t = s.outcome? t := by
  rw [drop_outcome?, if_neg h]

theorem drop_comm (s : Scheduler ξ σ) (t τ : Ticket) : (s.drop τ).drop t = (s.drop t).drop τ := by
  simp only [drop, List.filter_filter]
  congr 1
  · exact List.filter_congr fun p _ => Bool.and_comm _ _
  · funext u
    exact Bool.or_left_comm _ _ _

namespace Forgone

theorem settle_drop (h : s.Forgone X W τ) (t : Ticket) (o : Outcome) :
    (s.drop τ).settle t o = (s.settle t o).drop τ := by
  by_cases ht : t = τ
  · subst ht
    have nobody : s.waiters t = [] := by
      have : s.parked.filter (·.ticket = t) = [] :=
        List.filter_eq_nil_iff.2 fun w hw => by simpa using (h.parked w hw).1
      simp [waiters, this]
    have others : s.parked.filter (fun w => !decide (w.ticket = t)) = s.parked :=
      List.filter_eq_self.2 fun w hw => by simpa using (h.parked w hw).1
    have gone : (s.drop t).waiters t = [] := by simp [waiters, drop]
    simp only [settle, nobody, gone]
    cases hd : s.dropped t <;> simp [drop, log, others]
  · simp only [settle, drop, waiters, log, ht, decide_false, Bool.false_or]
    cases hd : s.dropped t <;> simp [ht]

theorem settle (h : s.Forgone X W τ) (t : Ticket) (o : Outcome) : (s.settle t o).Forgone X W τ where
  issued := by simpa using h.issued
  state := h.state
  world := h.world
  ready u hu := by
    rcases List.mem_append.1 hu with hu | hu
    · exact h.ready u hu
    · obtain ⟨w, hw, rfl⟩ := List.mem_map.1 hu
      exact h.parked w (s.waiters_subset t hw)
  timers := h.timers
  parked w hw := h.parked w (s.settle_parked t o hw)
  work := h.work

theorem drop (h : s.Forgone X W τ) (t : Ticket) : (s.drop t).Forgone X W τ := { h with }

theorem log (h : s.Forgone X W τ) (ev : Event σ) : (s.log ev).Forgone X W τ := { h with }

theorem settleAll (h : s.Forgone X W τ) (o : Outcome) (ts : List Ticket) :
    (s.drop τ).settleAll o ts = (s.settleAll o ts).drop τ ∧ (s.settleAll o ts).Forgone X W τ := by
  induction ts generalizing s with
  | nil => exact ⟨rfl, h⟩
  | cons t ts ih =>
      have step := ih (h.settle t o)
      rw [← h.settle_drop t o] at step
      exact step

theorem closeLine (h : s.Forgone X W τ) (finished : Bool) :
    (s.drop τ).closeLine finished = (s.closeLine finished).drop τ ∧
      (s.closeLine finished).Forgone X W τ := by
  unfold Scheduler.closeLine
  rw [drop_line]
  cases hl : s.line with
  | none => exact ⟨rfl, h⟩
  | some l =>
      have closed : Forgone X W τ ({ s with line := none }.log (.ended l.number finished)) :=
        { h with
          work := by
            rintro n t w ⟨inbox, hb⟩
            cases hb }
      exact closed.settleAll _ _

theorem emit (h : s.Forgone X W τ) (n : Nat) (e : Effect) :
    (s.drop τ).emit n e = ((s.emit n e).1, (s.emit n e).2.drop τ) ∧
      (s.emit n e).2.Forgone X W τ ∧ (s.emit n e).1 ≠ τ := by
  have hne : (s.emit n e).1 ≠ τ := by
    rw [emit_ticket]
    exact Nat.ne_of_gt h.issued
  have ticket : ((s.drop τ).emit n e).1 = (s.emit n e).1 := by
    rw [emit_ticket, emit_ticket]
    rfl
  have issued : τ < s.nextTicket + 1 := Nat.lt_succ_of_lt h.issued
  by_cases hl : ∃ l, s.line = some l ∧ l.number = n
  · obtain ⟨l, hl, rfl⟩ := hl
    refine ⟨Prod.ext ticket ?_, ?_, hne⟩
    · rw [emit_open s e hl, emit_open (s.drop τ) e hl]
      rfl
    · rw [emit_open s e hl]
      refine { h with issued := issued, work := ?_ }
      rintro n t w ⟨inbox, hb⟩
      have hc : l.current = some (t, w) := by simp_all [Scheduler.log]
      exact h.work l.number t w ⟨l.inbox, by rw [hl, ← hc]⟩
  · have closed (l : Line σ) (h : s.line = some l) : l.number ≠ n := fun hn => hl ⟨l, h, hn⟩
    have noted : Forgone X W τ ({ s with nextTicket := s.nextTicket + 1 }.log
        (.emitted n s.nextTicket e)) := { h with issued := issued }
    refine ⟨Prod.ext ticket ?_, ?_, hne⟩
    · rw [emit_closed s e closed, emit_closed (s.drop τ) e closed]
      exact noted.settle_drop _ _
    · rw [emit_closed s e closed]
      exact noted.settle _ _

/-! ## Tasks -/

theorem report (h : s.Forgone X W τ) (t : Ticket) (i : Nat) (a : Answer) :
    (s.drop τ).report t i a = (s.report t i a).drop τ ∧ (s.report t i a).Forgone X W τ := by
  by_cases hb : ∃ n e slots, s.Busy n t (.group e slots)
  · obtain ⟨n, e, slots, inbox, hl⟩ := hb
    rw [report_group s a hl, report_group (s.drop τ) a hl]
    refine ⟨rfl, { h with work := ?_ }⟩
    rintro n' t' w ⟨inbox', hb⟩
    cases hb
    trivial
  · rw [report_other s a fun n e slots h => hb ⟨n, e, slots, h⟩,
      report_other (s.drop τ) a fun n e slots h => hb ⟨n, e, slots, h⟩]
    exact ⟨rfl, h.log _⟩

theorem addTimer (h : s.Forgone X W τ) (due : Nat) (who : Sleeper σ)
    (hw : ∀ t, who = .task t → t.Forgoes W τ) : (s.addTimer due who).Forgone X W τ :=
  { h with
    timers := fun due' t ht => by
      rcases mem_insertTimer.1 ht with heq | ht
      · exact hw t (Prod.mk.inj heq).2.symm
      · exact h.timers due' t ht }

theorem runMember (h : s.Forgone X W τ) (t : Ticket) (i : Nat) {j : Job σ Answer}
    (hj : j.Keeps W) : (s.drop τ).runMember t i j = (s.runMember t i j).drop τ ∧
      (s.runMember t i j).Forgone X W τ := by
  have hb := hj.burst s.clock h.world
  unfold Scheduler.runMember
  rw [drop_clock, drop_world]
  rcases hburst : j.burst s.clock s.world with ⟨pause, w⟩
  rw [hburst] at hb
  have touched : Forgone X W τ { s with world := w } := { h with world := hb.1 }
  cases pause with
  | done a => exact touched.report t i a
  | crashed => exact touched.report t i _
  | asleep due next =>
      refine ⟨rfl, touched.addTimer due _ fun task heq => ?_⟩
      cases heq
      exact hb.2 due next rfl

theorem runErrand (n : Nat) {e : Errand σ} (he : e.Forgoes W τ) (h : s.Forgone X W τ) :
    Scheduler.runErrand n e (s.drop τ) = (Scheduler.runErrand n e s).drop τ ∧
      (Scheduler.runErrand n e s).Forgone X W τ := by
  induction e generalizing s with
  | done => exact ⟨rfl, h⟩
  | look next ih => exact ih _ _ (he _ _ h.world) h
  | write change next ih =>
      have changed : Forgone X W τ { s with world := change s.world } :=
        { h with world := he.1 _ h.world }
      exact ih he.2 changed
  | emit e next ih =>
      obtain ⟨emit, forgone, hne⟩ := h.emit n e
      simp only [Scheduler.runErrand, emit]
      exact ih _ (he _ hne) forgone
  | await t next ih =>
      simp only [Scheduler.runErrand, outcome?_drop he.1]
      split
      · exact ih _ (he.2 _) (h.log _)
      · refine ⟨rfl, { h with parked := fun w hw => ?_ }⟩
        rcases List.mem_append.1 hw with hw | hw
        · exact h.parked w hw
        · cases List.mem_singleton.1 hw
          exact he
  | drop t next ih =>
      simp only [Scheduler.runErrand, drop_comm s t τ]
      exact ih he (h.drop t)
  | sleep ms next ih =>
      unfold Scheduler.runErrand
      split
      · exact ih he h
      · refine ⟨rfl, h.addTimer _ _ fun task heq => ?_⟩
        cases heq
        exact he

theorem runTask {task : Task σ} (ht : task.Forgoes W τ) (h : s.Forgone X W τ) :
    (s.drop τ).runTask task = (s.runTask task).drop τ ∧ (s.runTask task).Forgone X W τ := by
  cases task with
  | begin t i c job => exact (h.log _).runMember t i ht
  | resume t i job => exact h.runMember t i ht
  | errand n e => exact runErrand n ht h

theorem runReady (turns : Nat) (h : s.Forgone X W τ) :
    (s.drop τ).runReady turns = (s.runReady turns).drop τ ∧
      (s.runReady turns).Forgone X W τ := by
  induction turns generalizing s with
  | zero => exact ⟨rfl, h⟩
  | succ turns ih =>
      unfold Scheduler.runReady
      rw [drop_ready]
      cases hr : s.ready with
      | nil => exact ⟨rfl, h⟩
      | cons t rest =>
          have popped : Forgone X W τ { s with ready := rest } :=
            { h with ready := fun u hu => h.ready u (hr ▸ List.mem_cons_of_mem _ hu) }
          obtain ⟨run, forgone⟩ := popped.runTask (h.ready t (hr ▸ List.mem_cons_self))
          obtain ⟨rest', forgone⟩ := ih forgone
          exact ⟨by rw [← rest', ← run]; rfl, forgone⟩

theorem drain (h : s.Forgone X W τ) :
    (s.drop τ).drain = s.drain.drop τ ∧ s.drain.Forgone X W τ :=
  h.runReady s.ready.length

end Forgone

/-! ## Effects -/

/-- Drop a ticket wherever the interpreter has come. -/
def Progress.drop (τ : Ticket) : Progress ξ σ → Progress ξ σ
  | .settled s => .settled (s.drop τ)
  | .waiting s => .waiting (s.drop τ)
  | .crashed s => .crashed (s.drop τ)

namespace Forgone

theorem notePoll (h : s.Forgone X W τ) (wanted : Option Ticket) :
    (s.drop τ).notePoll wanted = (s.notePoll wanted).drop τ ∧
      (s.notePoll wanted).Forgone X W τ := by
  unfold Scheduler.notePoll
  rw [drop_line]
  cases s.line with
  | none => exact ⟨rfl, h⟩
  | some l => exact ⟨rfl, h.log _⟩

theorem take? (h : s.Forgone X W τ) :
    (s.drop τ).take? = s.take?.map (fun p => (p.1, p.2.drop τ)) ∧
      ∀ p, s.take? = some p → p.2.Forgone X W τ := by
  unfold Scheduler.take?
  rw [drop_line]
  rcases hl : s.line with _ | ⟨n, _ | ⟨first, inbox⟩, current⟩
  · exact ⟨rfl, fun p hp => by cases hp⟩
  · exact ⟨rfl, fun p hp => by cases hp⟩
  · refine ⟨rfl, fun p hp => ?_⟩
    cases hp
    refine { h with work := ?_ }
    rintro n' t w ⟨inbox', hb⟩
    cases hb
    exact h.work n t w ⟨_, hl⟩

theorem setCurrent (h : s.Forgone X W τ) (current : Option (Ticket × Work σ))
    (hc : ∀ t w, current = some (t, w) → Work.Forgoes W w) :
    (s.setCurrent current).Forgone X W τ :=
  { h with
    work := by
      rintro n t w ⟨inbox, hb⟩
      obtain ⟨l, -, hl⟩ := Option.map_eq_some_iff.1 hb
      exact hc t w (congrArg Line.current hl) }

theorem runSingle (h : s.Forgone X W τ) (t : Ticket) {job : Job σ Answer} (hj : job.Keeps W) :
    (s.drop τ).runSingle t job = (s.runSingle t job).drop τ ∧
      (s.runSingle t job).state.Forgone X W τ := by
  have hb := hj.burst s.clock h.world
  unfold Scheduler.runSingle
  rw [drop_clock, drop_world]
  rcases hburst : job.burst s.clock s.world with ⟨pause, w⟩
  rw [hburst] at hb
  have touched : Forgone X W τ { s with world := w } := { h with world := hb.1 }
  cases pause with
  | done a =>
      have told := (touched.log (.answered t 0 a)).setCurrent none fun _ _ hc => by cases hc
      exact ⟨congrArg Progress.settled (told.settle_drop t (a.map .single)), told.settle t _⟩
  | crashed =>
      refine ⟨rfl, touched.setCurrent _ fun _ _ hc => ?_⟩
      cases hc
      trivial
  | asleep due next =>
      have asleep := touched.addTimer due .main fun _ heq => by cases heq
      refine ⟨rfl, asleep.setCurrent _ fun _ _ hc => ?_⟩
      cases hc
      exact hb.2 due next rfl

theorem runGroup (h : s.Forgone X W τ) (t : Ticket) (e : Effect) (slots : List (Option Answer)) :
    (s.drop τ).runGroup t e slots = (s.runGroup t e slots).drop τ ∧
      (s.runGroup t e slots).state.Forgone X W τ := by
  unfold Scheduler.runGroup
  split
  · next r _ =>
    have free := h.setCurrent none fun _ _ hc => by cases hc
    exact ⟨congrArg Progress.settled (free.settle_drop t (r.map e.resumed)), free.settle t _⟩
  · refine ⟨rfl, h.setCurrent _ fun _ _ hc => ?_⟩
    cases hc
    trivial

theorem start (h : s.Forgone X W τ) (ha : around.Keeps W) (t : Ticket) (e : Effect) :
    Scheduler.start around (s.drop τ) t e = (Scheduler.start around s t e).drop τ ∧
      (Scheduler.start around s t e).state.Forgone X W τ := by
  have refuse (f : Failure) := congrArg Progress.settled (h.settle_drop t (.error f))
  have group (e : Effect) :
      startGroup around (s.drop τ) t e = (startGroup around s t e).drop τ ∧
        (startGroup around s t e).state.Forgone X W τ := by
    unfold startGroup
    split
    · exact ⟨refuse _, h.settle t _⟩
    · next tasks hm =>
      have joined : Forgone X W τ { s with ready := s.ready ++ tasks } :=
        { h with
          ready := fun task ht => by
            rcases List.mem_append.1 ht with ht | ht
            · exact h.ready task ht
            · obtain ⟨i, c, job, rfl, -, hj⟩ := mem_members hm ht
              exact ha c job hj }
      exact joined.runGroup t e _
  unfold Scheduler.start
  cases e with
  | sequence cs => exact group _
  | mapping cs => exact group _
  | single c =>
      dsimp only
      cases hj : around.resolve? c with
      | none => exact ⟨refuse _, h.settle t _⟩
      | some job => exact (h.log (.started t 0 c)).runSingle t (ha c job hj)

theorem proceed (h : s.Forgone X W τ) :
    (s.drop τ).proceed = s.proceed.drop τ ∧ s.proceed.state.Forgone X W τ := by
  unfold Scheduler.proceed
  rw [drop_line, drop_clock]
  rcases hl : s.line with _ | ⟨n, inbox, _ | ⟨t, ⟨due, job⟩ | ⟨e, slots⟩⟩⟩
  · exact ⟨rfl, h⟩
  · exact ⟨rfl, h⟩
  · have hj : job.Keeps W := h.work n t _ ⟨inbox, hl⟩
    dsimp only
    split
    · exact h.runSingle t hj
    · exact ⟨rfl, h⟩
  · exact h.runGroup t e slots

theorem arrived (hw : wanted ≠ some τ) : (s.drop τ).arrived wanted = s.arrived wanted := by
  cases wanted with
  | none => rfl
  | some t =>
      simp only [Scheduler.arrived, Option.bind_some]
      rw [outcome?_drop fun ht => hw (congrArg some ht)]

theorem serve (h : s.Forgone X W τ) (ha : around.Keeps W) (hw : wanted ≠ some τ) (steps : Nat) :
    Scheduler.serve around wanted steps (s.drop τ) =
        (Scheduler.serve around wanted steps s).drop τ ∧
      (Scheduler.serve around wanted steps s).state.Forgone X W τ := by
  induction steps generalizing s with
  | zero => exact ⟨rfl, h⟩
  | succ steps ih =>
      obtain ⟨take, taken⟩ := h.take?
      unfold Scheduler.serve
      rw [take]
      cases ht : s.take? with
      | none => exact ⟨rfl, h⟩
      | some p =>
          obtain ⟨⟨t, e⟩, s'⟩ := p
          obtain ⟨start, started⟩ := (taken _ ht).start ha t e
          simp only [Option.map_some]
          dsimp only at start started
          rw [start]
          cases hp : Scheduler.start around s' t e with
          | waiting s'' | crashed s'' =>
              rw [hp] at started
              exact ⟨rfl, started⟩
          | settled s'' =>
              rw [hp] at started
              have started : s''.Forgone X W τ := started
              simp only [Progress.drop, arrived hw]
              split
              · exact ⟨rfl, started⟩
              · obtain ⟨poll, polled⟩ := started.notePoll wanted
                rw [poll]
                exact ih polled

theorem serveLine (h : s.Forgone X W τ) (ha : around.Keeps W) (wanted : Option Ticket)
    (hw : wanted ≠ some τ) :
    Scheduler.serveLine around wanted ((s.drop τ).notePoll wanted) =
        (Scheduler.serveLine around wanted (s.notePoll wanted)).drop τ ∧
      (Scheduler.serveLine around wanted (s.notePoll wanted)).state.Forgone X W τ := by
  obtain ⟨poll, polled⟩ := h.notePoll wanted
  rw [poll]
  exact polled.serve ha hw (s.notePoll wanted).backlog

end Forgone

/-! ## Scripts -/

def Standing.Forgoes (X : ξ → Prop) (W : World σ → Prop) (τ : Ticket) :
    Standing ξ σ ρ → Prop
  | .before script | .asleep _ script => script.Forgoes X W τ

def Interpreted.drop (τ : Ticket) : Interpreted ξ σ ρ → Interpreted ξ σ ρ
  | .finished r s => .finished r (s.drop τ)
  | .blocked standing s => .blocked standing (s.drop τ)
  | .crashed s => .crashed (s.drop τ)

def Interpreted.Forgone (X : ξ → Prop) (W : World σ → Prop) (τ : Ticket) :
    Interpreted ξ σ ρ → Prop
  | .finished _ s | .crashed s => s.Forgone X W τ
  | .blocked standing s => standing.Forgoes X W τ ∧ s.Forgone X W τ

namespace Forgone

theorem stand {r : Progress ξ σ} (h : r.state.Forgone X W τ) (standing : Standing ξ σ ρ)
    (hst : standing.Forgoes X W τ) :
    (r.drop τ).stand standing = (r.stand standing).drop τ ∧
      (r.stand standing).Forgone X W τ := by
  cases r with
  | settled s | waiting s => exact ⟨rfl, hst, h⟩
  | crashed s => exact ⟨rfl, h⟩

theorem runScript (ha : around.Keeps W) (n : Nat) {script : Script ξ σ ρ}
    (hf : script.Forgoes X W τ) (h : s.Forgone X W τ) :
    Scheduler.runScript around n script (s.drop τ) =
        (Scheduler.runScript around n script s).drop τ ∧
      (Scheduler.runScript around n script s).Forgone X W τ := by
  induction script generalizing s with
  | done r => exact ⟨rfl, h⟩
  | look next ih => exact ih _ _ _ (hf _ _ _ h.state h.world) h
  | write change next ih =>
      have changed : Forgone X W τ { s with state := change s.state } :=
        { h with state := hf.1 _ h.state }
      exact ih hf.2 changed
  | note change next ih =>
      have changed : Forgone X W τ { s with world := change s.world } :=
        { h with world := hf.1 _ h.world }
      exact ih hf.2 changed
  | spawn e next ih =>
      have spawned : Forgone X W τ (s.enqueue (.errand n e)) :=
        { h with
          ready := fun t ht => by
            rcases List.mem_append.1 ht with ht | ht
            · exact h.ready t ht
            · cases List.mem_singleton.1 ht
              exact hf.1 }
      exact ih hf.2 spawned
  | emit e next ih =>
      obtain ⟨emit, forgone, hne⟩ := h.emit n e
      simp only [Scheduler.runScript, emit]
      exact ih _ (hf _ hne) forgone
  | drop t next ih =>
      simp only [Scheduler.runScript, drop_comm s t τ]
      exact ih hf (h.drop t)
  | sleep ms next ih =>
      by_cases hms : ms = 0
      · rw [Scheduler.runScript, Scheduler.runScript, if_pos hms, if_pos hms]
        exact ih hf h
      · have asleep := h.addTimer (s.clock + ms) .main fun _ heq => by cases heq
        obtain ⟨serve, served⟩ := asleep.serveLine ha none fun heq => by cases heq
        have stand := served.stand (.asleep (s.clock + ms) next) hf
        rw [← serve] at stand
        rw [runScript_sleep hms, runScript_sleep hms]
        exact stand
  | await t next ih =>
      obtain ⟨serve, served⟩ := h.serveLine ha (some t) fun heq => hf.1 (Option.some.inj heq)
      simp only [Scheduler.runScript, outcome?_drop hf.1]
      split
      · exact ih _ (hf.2 _) (h.log _)
      · rw [serve]
        cases hp : Scheduler.serveLine around (some t) (s.notePoll (some t)) with
        | waiting s' =>
            rw [hp] at served
            exact ⟨rfl, hf, served⟩
        | crashed s' =>
            rw [hp] at served
            exact ⟨rfl, served⟩
        | settled s' =>
            rw [hp] at served
            have served : s'.Forgone X W τ := served
            simp only [Progress.drop, outcome?_drop hf.1]
            split
            · exact ih _ (hf.2 _) (served.log _)
            · exact ⟨rfl, hf, served⟩

theorem continueScript (ha : around.Keeps W) (n : Nat) {standing : Standing ξ σ ρ}
    (hf : standing.Forgoes X W τ) (h : s.Forgone X W τ) :
    Scheduler.continueScript around n standing (s.drop τ) =
        (Scheduler.continueScript around n standing s).drop τ ∧
      (Scheduler.continueScript around n standing s).Forgone X W τ := by
  cases standing with
  | before script => exact runScript ha n hf h
  | asleep due next =>
      by_cases hdue : due ≤ s.clock
      · have hdue' : due ≤ (s.drop τ).clock := hdue
        rw [Scheduler.continueScript, Scheduler.continueScript, if_pos hdue, if_pos hdue']
        exact runScript ha n hf h
      · obtain ⟨serve, served⟩ := h.serveLine ha none fun heq => by cases heq
        have stand := served.stand (.asleep due next) hf
        rw [← serve] at stand
        have hdue' : ¬ due ≤ (s.drop τ).clock := hdue
        rw [continueScript_asleep hdue, continueScript_asleep hdue']
        exact stand

theorem continueLine (ha : around.Keeps W) (n : Nat) {standing : Standing ξ σ ρ}
    (hf : standing.Forgoes X W τ) (h : s.Forgone X W τ) :
    Scheduler.continueLine around n standing (s.drop τ) =
        (Scheduler.continueLine around n standing s).drop τ ∧
      (Scheduler.continueLine around n standing s).Forgone X W τ := by
  obtain ⟨proceed, forgone⟩ := h.proceed
  unfold Scheduler.continueLine
  rw [proceed]
  cases hp : s.proceed with
  | settled s' =>
      rw [hp] at forgone
      exact continueScript ha n hf forgone
  | waiting s' =>
      rw [hp] at forgone
      exact ⟨rfl, hf, forgone⟩
  | crashed s' =>
      rw [hp] at forgone
      exact ⟨rfl, forgone⟩

end Forgone

/-! ## Routines -/

def Main.Forgoes (X : ξ → Prop) (W : World σ → Prop) (τ : Ticket) : Main ξ σ ρ α → Prop
  | .before routine | .asleep _ routine => routine.Forgoes X W τ
  | .within around _ standing next =>
    around.Keeps W ∧ standing.Forgoes X W τ ∧ ∀ r, (next r).Forgoes X W τ

def Turn.drop (τ : Ticket) : Turn ξ σ ρ α → Turn ξ σ ρ α
  | .finished a s => .finished a (s.drop τ)
  | .blocked main s => .blocked main (s.drop τ)
  | .crashed s => .crashed (s.drop τ)

def Turn.Forgone (X : ξ → Prop) (W : World σ → Prop) (τ : Ticket) : Turn ξ σ ρ α → Prop
  | .finished _ s | .crashed s => s.Forgone X W τ
  | .blocked main s => main.Forgoes X W τ ∧ s.Forgone X W τ

def Result.drop (τ : Ticket) : Result ξ σ α → Result ξ σ α
  | .finished a s => .finished a (s.drop τ)
  | .crashed s => .crashed (s.drop τ)
  | .stuck s => .stuck (s.drop τ)
  | .unfinished s => .unfinished (s.drop τ)

def Round.drop (τ : Ticket) : Round ξ σ ρ α → Round ξ σ ρ α
  | .done r => .done (r.drop τ)
  | .next main s => .next main (s.drop τ)

/-- What a round leaves to be done by somebody who forgoes a ticket. -/
def Round.Forgone (X : ξ → Prop) (W : World σ → Prop) (τ : Ticket) : Round ξ σ ρ α → Prop
  | .done _ => True
  | .next main s => main.Forgoes X W τ ∧ s.Forgone X W τ

namespace Forgone

theorem turnOf {r r' : Interpreted ξ σ ρ} (hr : r' = r.drop τ) (h : r.Forgone X W τ)
    (ha : around.Keeps W) (n : Nat) {next : Except Failure ρ → Routine ξ σ ρ α}
    (hn : ∀ o, (next o).Forgoes X W τ) {go : Except Failure ρ → Scheduler ξ σ → Turn ξ σ ρ α}
    (ih : ∀ o s, s.Forgone X W τ → go o (s.drop τ) = (go o s).drop τ ∧ (go o s).Forgone X W τ) :
    r'.turn around n next go = (r.turn around n next go).drop τ ∧
      (r.turn around n next go).Forgone X W τ := by
  subst hr
  cases r with
  | finished o s =>
      obtain ⟨close, closed⟩ := Forgone.closeLine h true
      simp only [Interpreted.drop, Interpreted.turn, close]
      exact ih o _ closed
  | blocked standing s => exact ⟨rfl, ⟨ha, h.1, hn⟩, h.2⟩
  | crashed s =>
      obtain ⟨close, closed⟩ := Forgone.closeLine h false
      simp only [Interpreted.drop, Interpreted.turn, close]
      exact ⟨rfl, closed⟩

theorem openLine (h : s.Forgone X W τ) (around : Surroundings σ) :
    (s.openLine around).Forgone X W τ :=
  { h with
    work := by
      rintro n t w ⟨inbox, hb⟩
      cases hb }

theorem runRoutine {p : Routine ξ σ ρ α} (hf : p.Forgoes X W τ) (h : s.Forgone X W τ) :
    Scheduler.runRoutine p (s.drop τ) = (Scheduler.runRoutine p s).drop τ ∧
      (Scheduler.runRoutine p s).Forgone X W τ := by
  induction p generalizing s with
  | done a => exact ⟨rfl, h⟩
  | crash => exact ⟨rfl, h⟩
  | look next ih => exact ih _ _ _ (hf _ _ _ h.state h.world) h
  | write change next ih =>
      have changed : Forgone X W τ { s with state := change s.state } :=
        { h with state := hf.1 _ h.state }
      exact ih hf.2 changed
  | note change next ih =>
      have changed : Forgone X W τ { s with world := change s.world } :=
        { h with world := hf.1 _ h.world }
      exact ih hf.2 changed
  | sleep ms next ih =>
      unfold Scheduler.runRoutine
      split
      · exact ih hf h
      · exact ⟨rfl, hf, h.addTimer _ _ fun _ heq => by cases heq⟩
  | emit e next ih =>
      obtain ⟨emit, forgone, hne⟩ := h.emit (s.nextLine - 1) e
      have emit : (s.drop τ).emit ((s.drop τ).nextLine - 1) e = _ := emit
      simp only [Scheduler.runRoutine, emit]
      exact ih _ (hf _ hne) forgone
  | peek t next ih =>
      simp only [Scheduler.runRoutine, outcome?_drop hf.1]
      split
      · exact ih _ (hf.2 _) (h.log _)
      · exact ih _ (hf.2 _) h
  | interpret around script next ih =>
      obtain ⟨ha, hscript, hnext⟩ := hf
      obtain ⟨run, forgone⟩ := (h.openLine around).runScript ha s.nextLine hscript
      exact turnOf run forgone ha s.nextLine hnext fun o s h => ih o (hnext o) h

theorem turn {main : Main ξ σ ρ α} (hm : main.Forgoes X W τ) (h : s.Forgone X W τ) :
    Scheduler.turn main (s.drop τ) = (Scheduler.turn main s).drop τ ∧
      (Scheduler.turn main s).Forgone X W τ := by
  cases main with
  | before routine => exact runRoutine hm h
  | asleep due next =>
      unfold Scheduler.turn
      dsimp only
      rw [drop_clock]
      split
      · exact runRoutine hm h
      · exact ⟨rfl, hm, h⟩
  | within around n standing next =>
      obtain ⟨ha, hst, hnext⟩ := hm
      obtain ⟨run, forgone⟩ := h.continueLine ha n hst
      exact turnOf run forgone ha n hnext fun o s h => runRoutine (hnext o) h

/-! ## Rounds -/

theorem advance? (h : s.Forgone X W τ) :
    (s.drop τ).advance? = s.advance?.map (·.drop τ) ∧
      ∀ s', s.advance? = some s' → s'.Forgone X W τ := by
  refine ⟨?_, fun s' ha => ?_⟩
  · rcases s with ⟨_, _, _, _, _ | ⟨⟨due, who⟩, rest⟩, _, _, _, _, _, _, _, _⟩ <;> rfl
  · obtain ⟨due, who, rest, -, rfl⟩ := advance_eq ha
    refine { h with
      ready := fun t ht => ?_
      timers := fun due' t ht => h.timers due' t ((List.dropWhile_sublist _).subset ht) }
    rcases List.mem_append.1 ht with ht | ht
    · exact h.ready t ht
    · obtain ⟨⟨due', who'⟩, hp, htask⟩ := List.mem_filterMap.1 ht
      cases who' with
      | main => cases htask
      | task t' =>
          cases htask
          exact h.timers due' t ((List.takeWhile_sublist _).subset hp)

theorem settleRound {main : Main ξ σ ρ α} (hm : main.Forgoes X W τ) (h : s.Forgone X W τ) :
    Scheduler.settleRound main (s.drop τ) = (Scheduler.settleRound main s).drop τ ∧
      (Scheduler.settleRound main s).Forgone X W τ := by
  obtain ⟨drain, drained⟩ := h.drain
  obtain ⟨advance, advanced⟩ := drained.advance?
  unfold Scheduler.settleRound endRound
  simp only [drain, advance, drop_woken, drop_ready]
  split
  · exact ⟨rfl, hm, drained⟩
  · cases ha : s.drain.advance? with
    | none => exact ⟨rfl, trivial⟩
    | some s' => exact ⟨rfl, hm, advanced s' ha⟩

theorem round {main : Main ξ σ ρ α} (hm : main.Forgoes X W τ) (h : s.Forgone X W τ) :
    Scheduler.round main (s.drop τ) = (Scheduler.round main s).drop τ ∧
      (Scheduler.round main s).Forgone X W τ := by
  have still : Forgone X W τ { s with woken := false } := { h with }
  obtain ⟨turn, forgone⟩ := still.turn hm
  unfold Scheduler.round
  rw [drop_woken]
  split
  · have turn : Scheduler.turn main { s.drop τ with woken := false } = _ := turn
    rw [turn]
    cases ht : Scheduler.turn main { s with woken := false } with
    | finished a s' => exact ⟨rfl, trivial⟩
    | crashed s' => exact ⟨rfl, trivial⟩
    | blocked main' s' =>
        rw [ht] at forgone
        exact settleRound forgone.1 forgone.2
  · exact settleRound hm h

end Forgone

/-- Dropping what nobody will wait for changes nothing else of a run. -/
theorem rounds_drop {main : Main ξ σ ρ α} (k : Nat) (hm : main.Forgoes X W τ)
    (h : s.Forgone X W τ) : rounds k main (s.drop τ) = (rounds k main s).drop τ := by
  induction k generalizing main s with
  | zero => rfl
  | succ k ih =>
      obtain ⟨round, forgone⟩ := h.round hm
      simp only [rounds, round]
      cases hr : Scheduler.round main s with
      | done r => rfl
      | next main' s' =>
          rw [hr] at forgone
          exact ih forgone.1 forgone.2

/-- Whether a ticket has been dropped makes no difference to what others do,
now or later, or to what they may receive. -/
structure Indifferent (X : ξ → Prop) (W : World σ → Prop) (τ : Ticket) (s : Scheduler ξ σ) :
    Prop where
  /-- It may be an errand that drops it, -/
  errand : ∀ n (e : Errand σ), e.Forgoes W τ →
    runErrand n (.drop τ e) s = (runErrand n e s).drop τ
  /-- or the script, -/
  script : ∀ {ρ : Type} around n (script : Script ξ σ ρ), around.Keeps W →
    script.Forgoes X W τ →
      runScript around n (.drop τ script) s = (runScript around n script s).drop τ
  /-- or somebody between two rounds. -/
  rounds : ∀ {ρ α : Type} k (main : Main ξ σ ρ α), main.Forgoes X W τ →
    (rounds k main (s.drop τ)).scheduler.history = (rounds k main s).scheduler.history ∧
      ∀ t, t ≠ τ → (rounds k main (s.drop τ)).scheduler.outcome? t =
        (rounds k main s).scheduler.outcome? t

theorem Forgone.indifferent (h : s.Forgone X W τ) : Indifferent X W τ s where
  errand n e he := (Forgone.runErrand n he h).1
  script around n script ha hf := (Forgone.runScript ha n hf h).1
  rounds k main hm := by
    have scheduler : (Scheduler.rounds k main (s.drop τ)).scheduler =
        (Scheduler.rounds k main s).scheduler.drop τ := by
      rw [rounds_drop k hm h]
      cases Scheduler.rounds k main s <;> rfl
    rw [scheduler]
    exact ⟨rfl, fun t ht => outcome?_drop ht⟩

end Scheduler

end Switchboard
