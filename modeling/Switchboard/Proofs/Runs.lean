import Mathlib.Logic.Relation
import Switchboard.Proofs.FanIn
import Switchboard.Proofs.Resolving

/-!
# Switchboard.Proofs.Runs

Whatever runs beside the main routine or within it is a sequence of steps:
errands, members of groups, the interpreter and scripts, one lemma a function.
Each lemma also says how the function leaves the line, which is what allows
the next step.
-/

namespace Switchboard.Scheduler

variable {ξ σ ρ α : Type} {s s' s'' : Scheduler ξ σ} {n : Nat} {t : Ticket}
  {around : Surroundings σ}

/-! ## Sequences of steps -/

abbrev Steps : Scheduler ξ σ → Scheduler ξ σ → Prop := Relation.ReflTransGen Step

theorem emit_suffix (s : Scheduler ξ σ) (n : Nat) (e : Effect) :
    s.history <:+ (s.emit n e).2.history := by
  by_cases hl : ∃ l, s.line = some l ∧ l.number = n
  · obtain ⟨l, hl, rfl⟩ := hl
    rw [emit_open s e hl]
    exact List.suffix_cons _ _
  · rw [emit_closed s e fun l h hn => hl ⟨l, h, hn⟩]
    exact (List.suffix_cons _ _).trans (List.suffix_cons _ _)

theorem closeLine_suffix (s : Scheduler ξ σ) (finished : Bool) :
    s.history <:+ (s.closeLine finished).history := by
  unfold closeLine
  split
  · exact List.suffix_refl _
  · rw [settleAll_history]
    exact (List.suffix_cons _ _).trans (List.suffix_append _ _)

theorem closeLine_ended {l : Line σ} (hl : s.line = some l) (finished : Bool) :
    (s.closeLine finished).history.Ended l.number := by
  unfold closeLine
  rw [hl, settleAll_history]
  exact ⟨s.clock, finished, List.mem_append_right _ List.mem_cons_self⟩

/-- A step adds to the history and takes nothing back. -/
theorem Step.suffix (h : Step s s') : s.history <:+ s'.history := by
  cases h with
  | emit n e => exact emit_suffix s n e
  | work t i j rest =>
      unfold runMember
      split
      · exact report_history _ t i _ ▸ List.suffix_cons _ _
      · exact report_history _ t i _ ▸ List.suffix_cons _ _
      · exact List.suffix_refl _
  | refuse => exact (List.suffix_cons _ _).trans (List.suffix_cons _ _)
  | takeSingle => exact (List.suffix_cons _ _).trans (List.suffix_cons _ _)
  | single n t job =>
      unfold runSingle
      split
      · exact (List.suffix_cons _ _).trans (List.suffix_cons _ _)
      · exact List.suffix_refl _
      · exact List.suffix_refl _
  | decide => exact List.suffix_cons _ _
  | finish => exact closeLine_suffix s true
  | breakOff => exact closeLine_suffix s false
  | advance _ _ _ ha =>
      obtain ⟨due, who, rest, -, rfl⟩ := advance_eq ha
      exact List.suffix_refl _
  | touch | drop | spawn | pop | park | rest => exact List.suffix_refl _
  | resume | begin | interpret | poll | takeGroup => exact List.suffix_cons _ _

theorem Steps.inv (h : Steps s s') (hi : s.Inv) : s'.Inv := by
  induction h with
  | refl => exact hi
  | tail _ step ih => exact step.inv ih

theorem Steps.suffix (h : Steps s s') : s.history <:+ s'.history := by
  induction h with
  | refl => exact List.suffix_refl _
  | tail _ step ih => exact ih.trans step.suffix

theorem Steps.opened (h : Steps s s') (ho : s.history.Opened n around) :
    s'.history.Opened n around :=
  ho.imp fun _ => (h.suffix.subset ·)

/-! ## Tasks -/

/-- An event by which nothing becomes of the effects that were emitted before
a ticket. -/
def Fresh (bound : Ticket) : Event σ → Prop
  | .taken _ _ _ => False
  | .settled t _ => bound ≤ t
  | _ => True

/-- Nothing becomes of the effects that have been emitted, but that they may
be dropped. -/
structure Silent (s s' : Scheduler ξ σ) : Prop where
  dropped : ∀ t, s.dropped t = true → s'.dropped t = true
  nextTicket : s.nextTicket ≤ s'.nextTicket
  history : ∃ news, s'.history = news ++ s.history ∧ ∀ p ∈ news, Fresh s.nextTicket p.2

namespace Silent

theorem of_eq (dropped : s'.dropped = s.dropped) (nextTicket : s'.nextTicket = s.nextTicket)
    (history : s'.history = s.history) : s.Silent s' :=
  ⟨fun t h => by rw [dropped]; exact h, Nat.le_of_eq nextTicket.symm, [], history, by simp⟩

theorem trans (h : s.Silent s') (h' : s'.Silent s'') : s.Silent s'' where
  dropped t ht := h'.dropped t (h.dropped t ht)
  nextTicket := Nat.le_trans h.nextTicket h'.nextTicket
  history := by
    obtain ⟨news, hnews, hfresh⟩ := h.history
    obtain ⟨news', hnews', hfresh'⟩ := h'.history
    refine ⟨news' ++ news, by rw [hnews', hnews, List.append_assoc], fun p hp => ?_⟩
    rcases List.mem_append.1 hp with hp | hp
    · have := hfresh' p hp
      obtain ⟨m, ev⟩ := p
      cases ev with
      | settled t o => exact Nat.le_trans h.nextTicket this
      | _ => exact this
    · exact hfresh p hp

theorem log (s : Scheduler ξ σ) {ev : Event σ} (hev : Fresh s.nextTicket ev) :
    s.Silent (s.log ev) :=
  ⟨fun _ h => h, Nat.le_refl _, [(s.clock, ev)], rfl, by simpa using hev⟩

theorem drop (s : Scheduler ξ σ) (t : Ticket) : s.Silent (s.drop t) :=
  ⟨fun u h => by simp [Scheduler.drop, h], Nat.le_refl _, [], rfl, by simp⟩

theorem emit (s : Scheduler ξ σ) (n : Nat) (e : Effect) : s.Silent (s.emit n e).2 := by
  by_cases hl : ∃ l, s.line = some l ∧ l.number = n
  · obtain ⟨l, hl, rfl⟩ := hl
    rw [emit_open s e hl]
    exact ⟨fun _ h => h, Nat.le_succ _, [(s.clock, .emitted l.number s.nextTicket e)], rfl,
      by simp [Fresh]⟩
  · rw [emit_closed s e fun l h hn => hl ⟨l, h, hn⟩]
    exact ⟨fun _ h => by simpa [Scheduler.log] using h, by simp [Scheduler.log],
      [(s.clock, .settled s.nextTicket _), (s.clock, .emitted n s.nextTicket e)], rfl,
      by simp [Fresh]⟩

theorem report (s : Scheduler ξ σ) (t : Ticket) (i : Nat) (a : Answer) :
    s.Silent (s.report t i a) := by
  by_cases hb : ∃ n e slots, s.Busy n t (.group e slots)
  · obtain ⟨n, e, slots, inbox, hl⟩ := hb
    rw [report_group s a hl]
    exact ⟨fun _ h => h, Nat.le_refl _, [(s.clock, .answered t i a)], rfl, by simp [Fresh]⟩
  · rw [report_other s a fun n e slots h => hb ⟨n, e, slots, h⟩]
    exact log s trivial

end Silent

/-- Which line it is, and which effect is being resolved there. -/
def holder (l : Line σ) : Nat × Option Ticket := (l.number, l.current.map (·.1))

/-- What a task leaves alone: the clock, the numbers of the lines and the effect
that is being resolved.  It adds errands to the queue, and it wakes the main
routine when it changes the line. -/
structure Beside (s s' : Scheduler ξ σ) : Prop where
  clock : s'.clock = s.clock
  nextLine : s'.nextLine = s.nextLine
  ready : ∃ more, s'.ready = s.ready ++ more ∧ ∀ t ∈ more, ∀ due, t.member? due = none
  holder : s'.line.map Scheduler.holder = s.line.map Scheduler.holder
  line : s'.woken = false → s.woken = false ∧ s'.line = s.line
  silent : s.Silent s'

namespace Beside

theorem of_eq (clock : s'.clock = s.clock) (nextLine : s'.nextLine = s.nextLine)
    (ready : s'.ready = s.ready) (line : s'.line = s.line) (woken : s'.woken = s.woken)
    (silent : s.Silent s') : s.Beside s' :=
  ⟨clock, nextLine, ⟨[], by simp [ready], by simp⟩, by rw [line], fun h => ⟨woken ▸ h, line⟩,
    silent⟩

theorem trans (h : s.Beside s') (h' : s'.Beside s'') : s.Beside s'' where
  clock := h'.clock.trans h.clock
  nextLine := h'.nextLine.trans h.nextLine
  ready := by
    obtain ⟨more, hr, hm⟩ := h.ready
    obtain ⟨more', hr', hm'⟩ := h'.ready
    refine ⟨more ++ more', by rw [hr', hr, List.append_assoc], fun t ht => ?_⟩
    exact (List.mem_append.1 ht).elim (hm t) (hm' t)
  holder := h'.holder.trans h.holder
  line hw := by
    obtain ⟨hw', hl'⟩ := h'.line hw
    obtain ⟨hw, hl⟩ := h.line hw'
    exact ⟨hw, hl'.trans hl⟩
  silent := h.silent.trans h'.silent

theorem after (h : s'.Beside s'') (clock : s'.clock = s.clock)
    (nextLine : s'.nextLine = s.nextLine) (ready : s'.ready = s.ready) (line : s'.line = s.line)
    (woken : s'.woken = s.woken) (silent : s.Silent s') : s.Beside s'' :=
  (of_eq clock nextLine ready line woken silent).trans h

theorem number (h : s.Beside s') : s'.line.map (·.number) = s.line.map (·.number) := by
  simpa [Scheduler.holder, Function.comp_def] using
    congrArg (Option.map Prod.fst) h.holder

theorem emit (s : Scheduler ξ σ) (n : Nat) (e : Effect) : s.Beside (s.emit n e).2 := by
  have silent := Silent.emit s n e
  by_cases hl : ∃ l, s.line = some l ∧ l.number = n
  · obtain ⟨l, hl, rfl⟩ := hl
    rw [emit_open s e hl] at silent ⊢
    exact ⟨rfl, rfl, ⟨[], by simp [log], by simp⟩, by simp [log, hl, Scheduler.holder],
      fun h => (by cases h), silent⟩
  · rw [emit_closed s e fun l h hn => hl ⟨l, h, hn⟩] at silent ⊢
    refine ⟨rfl, settle_nextLine _ _ _, ⟨_, rfl, fun task ht due => ?_⟩, rfl, fun h => ⟨h, rfl⟩,
      silent⟩
    obtain ⟨w, -, rfl⟩ := List.mem_map.1 ht
    rfl

theorem report (s : Scheduler ξ σ) (t : Ticket) (i : Nat) (a : Answer) :
    s.Beside (s.report t i a) := by
  have silent := Silent.report s t i a
  by_cases hb : ∃ n e slots, s.Busy n t (.group e slots)
  · obtain ⟨n, e, slots, inbox, hl⟩ := hb
    rw [report_group s a hl] at silent ⊢
    exact ⟨rfl, rfl, ⟨[], by simp [log], by simp⟩, by simp [log, hl, Scheduler.holder],
      fun h => (by cases h), silent⟩
  · rw [report_other s a fun n e slots h => hb ⟨n, e, slots, h⟩] at silent ⊢
    exact of_eq rfl rfl rfl rfl rfl silent

end Beside

theorem runMember_beside (s : Scheduler ξ σ) (t : Ticket) (i : Nat) (job : Job σ Answer) :
    s.Beside (s.runMember t i job) := by
  unfold runMember
  split
  · exact (Beside.report _ t i _).after rfl rfl rfl rfl rfl (.of_eq rfl rfl rfl)
  · exact (Beside.report _ t i _).after rfl rfl rfl rfl rfl (.of_eq rfl rfl rfl)
  · exact .of_eq rfl rfl rfl rfl rfl (.of_eq rfl rfl rfl)

theorem runErrand_beside (n : Nat) (e : Errand σ) (s : Scheduler ξ σ) :
    s.Beside (runErrand n e s) := by
  induction e generalizing s with
  | done => exact .of_eq rfl rfl rfl rfl rfl (.of_eq rfl rfl rfl)
  | look next ih => exact ih _ _ s
  | write change next ih =>
      exact (ih { s with world := change s.world }).after rfl rfl rfl rfl rfl (.of_eq rfl rfl rfl)
  | emit e next ih => exact .trans (.emit s n e) (ih _ _)
  | await t next ih =>
      unfold runErrand
      split
      · next o _ => exact (ih o (s.log (.resumed t o))).after rfl rfl rfl rfl rfl (.log s trivial)
      · exact .of_eq rfl rfl rfl rfl rfl (.of_eq rfl rfl rfl)
  | drop t next ih => exact (ih (s.drop t)).after rfl rfl rfl rfl rfl (.drop s t)
  | sleep ms next ih =>
      unfold runErrand
      split
      · exact ih s
      · exact .of_eq rfl rfl rfl rfl rfl (.of_eq rfl rfl rfl)

theorem runTask_beside (s : Scheduler ξ σ) (task : Task σ) : s.Beside (s.runTask task) := by
  cases task with
  | begin t i c job => exact (runMember_beside _ t i job).after rfl rfl rfl rfl rfl (.log _ trivial)
  | resume t i job => exact runMember_beside s t i job
  | errand n e => exact runErrand_beside n e s

theorem runErrand_steps (e : Errand σ) (hn : n < s.nextLine) : Steps s (runErrand n e s) := by
  induction e generalizing s with
  | done => exact .refl
  | look next ih => exact ih _ _ hn
  | write change next ih =>
      exact .head (.touch s s.state (change s.world) s.woken)
        (ih (s := { s with world := change s.world }) hn)
  | emit e next ih => exact .head (.emit s n e hn) (ih _ (by simpa using hn))
  | await t next ih =>
      unfold runErrand
      split
      · next o ho => exact .head (.resume s t o ho) (ih o (s := s.log (.resumed t o)) hn)
      · next ho => exact .single (.park s ⟨t, n, next⟩ hn ho)
  | drop t next ih => exact .head (.drop s t) (ih (s := s.drop t) hn)
  | sleep ms next ih =>
      unfold runErrand
      split
      · exact ih hn
      · next hms =>
        refine .single (.rest s (s.clock + ms) (.task (.errand n next)) (by omega) rfl ?_)
        rintro n' h
        cases h
        exact hn

theorem runTask_steps (hi : s.Inv) {task : Task σ} {rest : List (Task σ)}
    (hr : s.ready = task :: rest) : Steps s (runTask { s with ready := rest } task) := by
  cases task with
  | begin t i c job =>
      exact .head (.begin s t i c job rest hr) (.single (.work _ t i job rest rfl))
  | resume t i job => exact .single (.work s t i job rest hr)
  | errand n e =>
      have hn : n < s.nextLine := hi.handles n (by simp [Scheduler.handles, hr, Task.handle?])
      exact .head (.pop s n e rest hr) (runErrand_steps (s := { s with ready := rest }) e hn)

theorem runReady_steps (hi : s.Inv) (turns : Nat) :
    Steps s (s.runReady turns) ∧
      Beside { s with ready := s.ready.drop turns } (s.runReady turns) := by
  induction turns generalizing s with
  | zero => exact ⟨.refl, .of_eq rfl rfl rfl rfl rfl (.of_eq rfl rfl rfl)⟩
  | succ turns ih =>
      unfold runReady
      split
      · next hr => exact ⟨.refl, .of_eq rfl rfl (by simp [hr]) rfl rfl (.of_eq rfl rfl rfl)⟩
      · next task rest hr =>
        have steps := runTask_steps hi hr
        have beside := runTask_beside { s with ready := rest } task
        obtain ⟨steps', beside'⟩ := ih (steps.inv hi)
        refine ⟨steps.trans steps', .trans ?_ beside'⟩
        obtain ⟨more, hmore, herrands⟩ := beside.ready
        refine ⟨beside.clock, beside.nextLine, ⟨more.drop (turns - rest.length), ?_, ?_⟩,
          beside.holder, beside.line,
          beside.silent.dropped, beside.silent.nextTicket, beside.silent.history⟩
        · simp only [hmore, hr, List.drop_succ_cons, List.drop_append]
        · exact fun t ht => herrands t (List.drop_subset _ _ ht)

theorem drain_steps (hi : s.Inv) :
    Steps s s.drain ∧ Beside { s with ready := [] } s.drain := by
  simpa [drain] using runReady_steps hi s.ready.length

theorem closeLine_line (s : Scheduler ξ σ) (finished : Bool) :
    (s.closeLine finished).line = none := by
  unfold closeLine
  split
  · assumption
  · rw [settleAll_line]
    rfl

theorem Step.nextLine_le (h : Step s s') : s.nextLine ≤ s'.nextLine := by
  cases h with
  | emit n e => simp
  | work t i j rest =>
      exact Nat.le_of_eq (runMember_beside { s with ready := rest } t i j).nextLine.symm
  | interpret => exact Nat.le_succ _
  | single n t job =>
      unfold runSingle
      split <;> simp [Progress.state, setCurrent, log, addTimer]
  | finish | breakOff =>
      unfold closeLine
      split <;> simp [log]
  | advance _ _ _ ha =>
      obtain ⟨due, who, rest, -, rfl⟩ := advance_eq ha
      exact Nat.le_refl _
  | touch | drop | spawn | pop | park | rest | resume | begin | poll | refuse | takeSingle
  | takeGroup | decide => simp [log, addTimer, enqueue, Scheduler.drop, setCurrent]

theorem Steps.nextLine_le (h : Steps s s') : s.nextLine ≤ s'.nextLine := by
  induction h with
  | refl => exact Nat.le_refl _
  | tail _ step ih => exact Nat.le_trans ih step.nextLine_le

theorem waiting_of_line_none (hl : s.line = none) : s.Waiting := by
  rintro n t w ⟨inbox, h⟩
  rw [hl] at h
  cases h

/-! ## The interpreter -/

/-- The interpreter is open on a line and can do nothing more for now. -/
structure Blocked (s : Scheduler ξ σ) (n : Nat) : Prop where
  waiting : s.Waiting
  line : ∃ l, s.line = some l ∧ l.number = n

theorem Busy.blocked {w : Work σ} (hb : s.Busy n t w) (hw : w.Pending s.clock) : s.Blocked n := by
  obtain ⟨inbox, hl⟩ := hb
  refine ⟨?_, _, hl, rfl⟩
  rintro n' t' w' ⟨inbox', hl'⟩
  rw [hl] at hl'
  cases hl'
  exact hw

theorem Free.blocked (hf : s.Free n) : s.Blocked n :=
  ⟨hf.waiting, by obtain ⟨inbox, hl⟩ := hf; exact ⟨_, hl, rfl⟩⟩

/-- The interpreter has broken off: the resolver that is at work has crashed. -/
def Broken (s : Scheduler ξ σ) (n : Nat) : Prop := ∃ t, s.Busy n t (.single s.clock .crash)

/-- The interpreter of a line has stopped after a sequence of steps. -/
def Progress.Sound (s : Scheduler ξ σ) (n : Nat) : Progress ξ σ → Prop
  | .settled s' => Steps s s' ∧ s'.Free n
  | .waiting s' => Steps s s' ∧ s'.Blocked n
  | .crashed s' => Steps s s' ∧ s'.Broken n

theorem Progress.Sound.after {p : Progress ξ σ} (hp : p.Sound s' n) (h : Steps s s') :
    p.Sound s n := by
  cases p with
  | settled | waiting | crashed => exact hp.imp_left h.trans

theorem runSingle_sound {job : Job σ Answer} (hb : s.Busy n t (.single s.clock job)) :
    (s.runSingle t job).Sound s n := by
  have step := Step.single s n t job hb
  have hs := Job.stops_burst s.clock job s.world
  obtain ⟨inbox, hl⟩ := hb
  unfold runSingle at *
  rcases hb : job.burst s.clock s.world with ⟨p, w⟩
  rw [hb] at step hs
  cases p with
  | done a => exact ⟨.single step, inbox, by simp [setCurrent, log, hl]⟩
  | crashed => exact ⟨.single step, t, inbox, by simp [setCurrent, hl]⟩
  | asleep due next =>
      obtain ⟨ms, hms, rfl, -⟩ := hs
      refine ⟨.single step, Busy.blocked (t := t) (w := .single (s.clock + ms) next)
        ⟨inbox, by simp [setCurrent, addTimer, hl]⟩ ?_⟩
      simpa [Work.Pending, setCurrent, addTimer] using hms

/-- A group is settled as soon as it is decided. -/
theorem runGroup_busy {e : Effect} {slots : List (Option Answer)}
    (hb : s.Busy n t (.group e slots)) :
    s.runGroup t e slots = match FanIn.outcome? slots with
      | some r => .settled ((s.setCurrent none).settle t (r.map e.resumed))
      | none => .waiting s := by
  obtain ⟨inbox, hl⟩ := hb
  have same : s.setCurrent (some (t, .group e slots)) = s := by rw [setCurrent_eq hl, ← hl]
  cases hr : FanIn.outcome? slots <;> simp only [runGroup, hr, same]

theorem runGroup_sound {e : Effect} {slots : List (Option Answer)}
    (hb : s.Busy n t (.group e slots))
    (hq : FanIn.outcome? slots = none ∨ e.size = 0 ∨ s.Quiet) :
    (s.runGroup t e slots).Sound s n := by
  rw [runGroup_busy hb]
  split
  · next r hr =>
    have hq := hq.resolve_left (by simp [hr])
    have step := Step.decide s n t e slots r hb hr hq
    obtain ⟨inbox, hl⟩ := hb
    exact ⟨.single step, inbox, by simp [setCurrent, hl]⟩
  · next hr => exact ⟨.refl, hb.blocked hr⟩

theorem runSingle_setCurrent (s : Scheduler ξ σ) (t : Ticket) (job : Job σ Answer)
    (c : Option (Ticket × Work σ)) : (s.setCurrent c).runSingle t job = s.runSingle t job := by
  simp only [runSingle, setCurrent, log, addTimer, Option.map_map, Function.comp_def]

theorem runGroup_setCurrent (s : Scheduler ξ σ) (t : Ticket) (e : Effect)
    (slots : List (Option Answer)) (c : Option (Ticket × Work σ)) :
    (s.setCurrent c).runGroup t e slots = s.runGroup t e slots := by
  simp only [runGroup, setCurrent, Option.map_map, Function.comp_def]

theorem startGroup_sound {e : Effect} {inbox : List (Ticket × Effect)}
    (hx : s.Next n around t e inbox) (he : e.IsGroup) :
    (startGroup around ({ s with line := some { number := n, inbox } }.log (.taken n t e)) t
      e).Sound s n := by
  unfold startGroup
  split
  · next name hm =>
    obtain ⟨c, hc, rfl⟩ := members_error hm
    exact ⟨.single (.refuse s n around t e inbox c hx hc), inbox, rfl⟩
  · next tasks hm =>
    have hlen : tasks.length = e.size := members_length hm
    rw [hlen, ← runGroup_setCurrent _ _ _ _ (some (t, .group e (List.replicate e.size none)))]
    refine (runGroup_sound ⟨inbox, by simp [setCurrent, log]⟩ ?_).after
      (.single (.takeGroup s n around t e inbox tasks hx he hm))
    by_cases hz : e.size = 0
    · exact .inr (.inl hz)
    · exact .inl (FanIn.outcome?_replicate_none hz)

theorem start_sound {e : Effect} {inbox : List (Ticket × Effect)}
    (hx : s.Next n around t e inbox) :
    (start around ({ s with line := some { number := n, inbox } }.log (.taken n t e)) t
      e).Sound s n := by
  cases e with
  | sequence cs => exact startGroup_sound hx trivial
  | mapping cs => exact startGroup_sound hx trivial
  | single c =>
      cases hr : around.resolve? c with
      | none =>
          have hc : (Effect.single c).commands.find? (fun c => (around.resolve? c).isNone) =
              some c := by
            simp [Effect.commands, hr]
          simp only [start, hr]
          exact ⟨.single (.refuse s n around t (.single c) inbox c hx hc), inbox, rfl⟩
      | some job =>
          simp only [start, hr]
          rw [← runSingle_setCurrent _ _ _ (some (t, .single s.clock job))]
          exact (runSingle_sound ⟨inbox, by simp [setCurrent, log]⟩).after
            (.single (.takeSingle s n around t c inbox job hx hr))

/-- A resolver that is at work in its place goes on when it is due. -/
theorem proceed_single {due : Nat} {job : Job σ Answer} (hb : s.Busy n t (.single due job)) :
    s.proceed = if due ≤ s.clock then s.runSingle t job else .waiting s := by
  obtain ⟨inbox, hl⟩ := hb
  simp only [proceed, hl]

theorem proceed_group {e : Effect} {slots : List (Option Answer)}
    (hb : s.Busy n t (.group e slots)) :
    s.proceed = match FanIn.outcome? slots with
      | some r => .settled ((s.setCurrent none).settle t (r.map e.resumed))
      | none => .waiting s := by
  rw [← runGroup_busy hb]
  obtain ⟨inbox, hl⟩ := hb
  simp only [proceed, hl]

/-- The interpreter of a line goes on with what is being resolved. -/
theorem proceed_sound (hi : s.Inv) {l : Line σ} (hl : s.line = some l)
    (fresh : ∀ n t e slots, s.Busy n t (.group e slots) →
      FanIn.outcome? slots = none ∨ s.Quiet) : s.proceed.Sound s l.number := by
  obtain ⟨n, inbox, current⟩ := l
  cases current with
  | none =>
      have idle : s.proceed = .settled s := by simp only [proceed, hl]
      rw [idle]
      exact ⟨.refl, inbox, hl⟩
  | some p =>
      obtain ⟨t, w⟩ := p
      have busy : s.Busy n t w := ⟨inbox, hl⟩
      cases w with
      | single due job =>
          obtain ⟨m₀, d, c, around, job₀, -, -, -, -, -, hle, -⟩ :=
            ((hi.onLine _ hl).underway t _ rfl).single_inv
          rw [proceed_single busy]
          split
          · next hdue =>
            obtain rfl := Nat.le_antisymm hdue hle
            exact runSingle_sound busy
          · next hdue => exact ⟨.refl, busy.blocked (Nat.lt_of_not_le hdue)⟩
      | group e slots =>
          rw [proceed_group busy, ← runGroup_busy busy]
          exact runGroup_sound busy ((fresh n t e slots busy).imp_right .inr)

/-! ## Serving a line -/

section Serve

variable {wanted : Option Ticket} {steps : Nat}

theorem Free.notePoll (hf : s.Free n) (wanted : Option Ticket) :
    s.notePoll wanted = s.log (.polled n wanted) := by
  obtain ⟨inbox, hl⟩ := hf
  rw [Scheduler.notePoll, hl]

theorem Free.polled (hf : s.Free n) (wanted : Option Ticket) : (s.notePoll wanted).Free n := by
  rw [hf.notePoll]
  exact hf

theorem take?_empty (hl : s.line = some { number := n, inbox := [] }) : s.take? = none := by
  rw [take?, hl]

theorem take?_next {e : Effect} {inbox : List (Ticket × Effect)}
    (hl : s.line = some { number := n, inbox := (t, e) :: inbox }) :
    s.take? = some ((t, e), { s with line := some { number := n, inbox } }.log (.taken n t e)) := by
  rw [take?, hl]

theorem serve_empty (hl : s.line = some { number := n, inbox := [] }) :
    serve around wanted steps s = .settled s := by
  cases steps with
  | zero => rfl
  | succ steps => rw [serve, take?_empty hl]

theorem serve_next {e : Effect} {inbox : List (Ticket × Effect)}
    (hl : s.line = some { number := n, inbox := (t, e) :: inbox }) :
    serve around wanted (steps + 1) s =
      match start around
          ({ s with line := some { number := n, inbox } }.log (.taken n t e)) t e with
      | .settled s =>
        if s.arrived wanted then .settled s else serve around wanted steps (s.notePoll wanted)
      | .waiting s => .waiting s
      | .crashed s => .crashed s := by
  rewrite [serve, take?_next hl]
  rfl

/-- The script of a line has just been looked at. -/
def Polled (s : Scheduler ξ σ) (n : Nat) : Prop :=
  ∃ w past, s.history = (s.clock, .polled n w) :: past

theorem polled_log (s : Scheduler ξ σ) (n : Nat) (w : Option Ticket) :
    (s.log (.polled n w)).Polled n :=
  ⟨w, s.history, rfl⟩

theorem Polled.next {e : Effect} {inbox : List (Ticket × Effect)} (hp : s.Polled n)
    (hl : s.line = some { number := n, inbox := (t, e) :: inbox })
    (ho : s.history.Opened n around) : s.Next n around t e inbox :=
  ⟨hl, hp, ho⟩

theorem serve_sound (hi : s.Inv) (hf : s.Free n) (ho : s.history.Opened n around)
    (hp : s.Polled n) : (serve around wanted steps s).Sound s n := by
  induction steps generalizing s with
  | zero => exact ⟨.refl, hf⟩
  | succ steps ih =>
      obtain ⟨inbox, hl⟩ := id hf
      cases inbox with
      | nil =>
          rw [serve_empty hl]
          exact ⟨.refl, hf⟩
      | cons first inbox =>
          obtain ⟨t, e⟩ := first
          have hs := start_sound (hp.next hl ho)
          rw [serve_next hl]
          split
          · next s' hstart =>
            rw [hstart] at hs
            obtain ⟨steps', hf'⟩ := hs
            split
            · exact ⟨steps', hf'⟩
            · have poll : Steps s (s'.log (.polled n wanted)) :=
                steps'.tail (.poll s' n wanted hf')
              rw [hf'.notePoll]
              exact (ih (poll.inv hi) hf' (poll.opened ho) (s'.polled_log n wanted)).after poll
          · next hstart => exact hstart ▸ hs
          · next hstart => exact hstart ▸ hs

/-- A line is served when its script has been looked at. -/
theorem serveLine_sound (hi : s.Inv) (hf : s.Free n) (ho : s.history.Opened n around)
    (wanted : Option Ticket) :
    (serveLine around wanted (s.notePoll wanted)).Sound s n := by
  have poll : Steps s (s.log (.polled n wanted)) := .single (.poll s n wanted hf)
  rw [hf.notePoll]
  exact (serve_sound (poll.inv hi) hf (poll.opened ho) (s.polled_log n wanted)).after poll

end Serve

/-! ## Scripts -/

/-- A script that has been served and cannot go on stands where it stood. -/
def Progress.stand (standing : Standing ξ σ ρ) : Progress ξ σ → Interpreted ξ σ ρ
  | .settled s | .waiting s => .blocked standing s
  | .crashed s => .crashed s

theorem runScript_sleep {ms : Nat} (hms : ms ≠ 0) (next : Script ξ σ ρ) :
    runScript around n (.sleep ms next) s =
      (serveLine around none ((s.addTimer (s.clock + ms) .main).notePoll none)).stand
        (.asleep (s.clock + ms) next) := by
  rw [runScript, if_neg hms]
  dsimp only
  cases serveLine around none ((s.addTimer (s.clock + ms) .main).notePoll none) <;> rfl

theorem continueScript_asleep {due : Nat} (hdue : ¬ due ≤ s.clock) (next : Script ξ σ ρ) :
    continueScript around n (.asleep due next) s =
      (serveLine around none (s.notePoll none)).stand (.asleep due next) := by
  rw [continueScript, if_neg hdue]
  cases serveLine around none (s.notePoll none) <;> rfl

/-- What came of running a script came about by a sequence of steps. -/
def Interpreted.Sound (s : Scheduler ξ σ) (n : Nat) : Interpreted ξ σ ρ → Prop
  | .finished _ s' => Steps s s' ∧ s'.Free n
  | .blocked _ s' => Steps s s' ∧ s'.Blocked n
  | .crashed s' => Steps s s' ∧ s'.Broken n

theorem Interpreted.Sound.after {r : Interpreted ξ σ ρ} (hr : r.Sound s' n) (h : Steps s s') :
    r.Sound s n := by
  cases r with
  | finished | blocked | crashed => exact hr.imp_left h.trans

theorem Progress.Sound.stand {r : Progress ξ σ} (hr : r.Sound s n) (standing : Standing ξ σ ρ) :
    (r.stand standing).Sound s n := by
  cases r with
  | settled => exact hr.imp_right Free.blocked
  | waiting | crashed => exact hr

theorem emit_free (hf : s.Free n) (e : Effect) : (s.emit n e).2.Free n := by
  obtain ⟨inbox, hl⟩ := hf
  have hopen := emit_open s e hl
  exact ⟨inbox ++ [(s.nextTicket, e)], by rw [hopen]; rfl⟩

theorem runScript_sound (script : Script ξ σ ρ) (hi : s.Inv) (hf : s.Free n)
    (ho : s.history.Opened n around) : (runScript around n script s).Sound s n := by
  have lt {s : Scheduler ξ σ} (hi : s.Inv) (hf : s.Free n) : n < s.nextLine := by
    obtain ⟨inbox, hl⟩ := hf
    exact hi.line_lt hl
  induction script generalizing s with
  | done r => exact ⟨.refl, hf⟩
  | look next ih => exact ih _ _ _ hi hf ho
  | write change next ih =>
      have step := Step.touch s (change s.state) s.world s.woken
      exact (ih (step.inv hi) hf ho).after (.single step)
  | note change next ih =>
      have step := Step.touch s s.state (change s.world) s.woken
      exact (ih (step.inv hi) hf ho).after (.single step)
  | spawn e next ih =>
      have step := Step.spawn s n e (lt hi hf)
      exact (ih (step.inv hi) hf ho).after (.single step)
  | emit e next ih =>
      have steps : Steps s (s.emit n e).2 := .single (.emit s n e (lt hi hf))
      exact (ih _ (steps.inv hi) (emit_free hf e) (steps.opened ho)).after steps
  | drop t next ih =>
      have step := Step.drop s t
      exact (ih (step.inv hi) hf ho).after (.single step)
  | sleep ms next ih =>
      by_cases hms : ms = 0
      · rw [runScript, if_pos hms]
        exact ih hi hf ho
      · have step := Step.rest s (s.clock + ms) .main (by omega) rfl fun n h => by cases h
        rw [runScript_sleep hms]
        exact ((serveLine_sound (step.inv hi) hf ho none).after (.single step)).stand _
  | await t next ih =>
      unfold runScript
      split
      · next o hout =>
        have steps : Steps s (s.log (.resumed t o)) := .single (.resume s t o hout)
        exact (ih o (steps.inv hi) hf (steps.opened ho)).after steps
      · have hs := serveLine_sound hi hf ho (some t)
        split
        · next hp =>
          rw [hp] at hs
          exact hs
        · next hp =>
          rw [hp] at hs
          exact hs
        · next s' hp =>
          rw [hp] at hs
          obtain ⟨steps, hf'⟩ := hs
          split
          · next o hout =>
            have steps' : Steps s (s'.log (.resumed t o)) := steps.tail (.resume s' t o hout)
            exact (ih o (steps'.inv hi) hf' (steps'.opened ho)).after steps'
          · exact ⟨steps, hf'.blocked⟩

theorem continueScript_sound (standing : Standing ξ σ ρ) (hi : s.Inv) (hf : s.Free n)
    (ho : s.history.Opened n around) : (continueScript around n standing s).Sound s n := by
  cases standing with
  | before script => exact runScript_sound script hi hf ho
  | asleep due next =>
      by_cases hdue : due ≤ s.clock
      · rw [continueScript, if_pos hdue]
        exact runScript_sound next hi hf ho
      · rw [continueScript_asleep hdue]
        exact (serveLine_sound hi hf ho none).stand _

theorem continueLine_sound (standing : Standing ξ σ ρ) (hi : s.Inv) {l : Line σ}
    (hl : s.line = some l) (ho : s.history.Opened l.number around)
    (fresh : ∀ n t e slots, s.Busy n t (.group e slots) →
      FanIn.outcome? slots = none ∨ s.Quiet) :
    (continueLine around l.number standing s).Sound s l.number := by
  have hs := proceed_sound hi hl fresh
  unfold continueLine
  split
  · next s' hp =>
    rw [hp] at hs
    exact (continueScript_sound standing (hs.1.inv hi) hs.2 (hs.1.opened ho)).after hs.1
  · next hp =>
    rw [hp] at hs
    exact hs
  · next hp =>
    rw [hp] at hs
    exact hs

end Switchboard.Scheduler
