import Switchboard.Proofs.Eventually
import Switchboard.Proofs.Soon

/-!
# Switchboard.Proofs.Sparing

What one moment does to those who wait.  Whoever stands in the queue stays there
until it has its turn, and whoever is parked is put there when its outcome is sent;
an effect leaves its line when the interpreter takes it, and nobody else makes it
do so; and an outcome is handed to whoever looks for it and goes on with it.

* `Spares` — what everything else leaves alone;
* `Moment.Does`, `Stands.does` — what can be done at a moment, a constructor each;
* `Stands.taking` — when an effect is taken, and which;
* `Happens.resumes`, `Happens.started_launched` — whoever is said to go on does
  so, and whoever is said to be started is.
-/

namespace Switchboard

/-- An event in which nothing is handed on: neither an effect to the interpreter nor a
command to its resolver nor an outcome to whoever waits for it. -/
def Event.Plain {σ : Type} : Event σ → Prop
  | .polled _ _ | .taken _ _ _ | .started _ _ _ | .resumed _ _ => False
  | _ => True

namespace Scheduler

variable {ξ σ ρ α : Type} {s s' s'' : Scheduler ξ σ} {main : Main ξ σ ρ α} {turns n m j : Nat}
  {t : Ticket} {e : Effect} {o : Outcome} {around : Surroundings σ}
  {after : Except Failure ρ → Routine ξ σ ρ α} {p : Routine ξ σ ρ α}

/-! ## What is begun -/

/-- A member is started when it has its first turn. -/
def launching (s : Scheduler ξ σ) : Task σ → Scheduler ξ σ
  | .begin t i c _ => s.log (.started t i c)
  | .resume _ _ _ | .errand _ _ => s

/-- The resolver of a single command is started when the command is taken. -/
def engaging (s : Scheduler ξ σ) (around : Surroundings σ) (t : Ticket) : Effect → Scheduler ξ σ
  | .single c => match around.resolve? c with
    | some _ => s.log (.started t 0 c)
    | none => s
  | .sequence _ | .mapping _ => s

/-- Something is begun, and nothing else has been done. -/
structure Begun (s s' : Scheduler ξ σ) (started : Ticket → Nat → Command → Prop) : Prop where
  ready : s'.ready = s.ready
  parked : s'.parked = s.parked
  history : s'.history = s.history ∨
    ∃ t i c, started t i c ∧ s'.history = (s.clock, .started t i c) :: s.history

theorem begun_launching (s : Scheduler ξ σ) (task : Task σ) :
    Begun s (s.launching task) fun t i c => ∃ job, task = .begin t i c job := by
  cases task with
  | begin t i c job => exact ⟨rfl, rfl, .inr ⟨t, i, c, ⟨job, rfl⟩, rfl⟩⟩
  | resume | errand => exact ⟨rfl, rfl, .inl rfl⟩

theorem begun_engaging (s : Scheduler ξ σ) (around : Surroundings σ) (t : Ticket) (e : Effect) :
    Begun s (s.engaging around t e) fun u i c =>
      u = t ∧ i = 0 ∧ e = .single c ∧ ∃ job, around.resolve? c = some job := by
  cases e with
  | sequence | mapping => exact ⟨rfl, rfl, .inl rfl⟩
  | single c =>
      cases hr : around.resolve? c with
      | none =>
          have same : s.engaging around t (.single c) = s := by simp only [engaging, hr]
          exact ⟨by rw [same], by rw [same], .inl (by rw [same])⟩
      | some job =>
          refine ⟨by simp [engaging, hr, log], by simp [engaging, hr, log], .inr ?_⟩
          exact ⟨t, 0, c, ⟨rfl, rfl, rfl, job, hr⟩, by simp [engaging, hr, log]⟩

namespace Begun

variable {P : Ticket → Nat → Command → Prop}

theorem takenOn (h : s.Begun s' P) (n : Nat) :
    s'.history.takenOn n = s.history.takenOn n := by
  rcases h.history with h | ⟨t, i, c, -, h⟩ <;> rw [h]
  rw [History.takenOn_cons]
  exact List.append_nil _

theorem resumed (h : s.Begun s' P) (hr : (m, .resumed t o) ∈ s'.history) :
    (m, .resumed t o) ∈ s.history := by
  rcases h.history with h | ⟨t, i, c, -, h⟩ <;> rw [h] at hr
  · exact hr
  · exact (List.mem_cons.1 hr).resolve_left (by simp)

theorem started (h : s.Begun s' P) {i : Nat} {c : Command}
    (hr : (m, .started t i c) ∈ s'.history) :
    (m, .started t i c) ∈ s.history ∨ P t i c ∧ s.clock = m := by
  rcases h.history with h | ⟨t, i, c, begun, h⟩ <;> rw [h] at hr
  · exact .inl hr
  · rcases List.mem_cons.1 hr with hr | hr
    · cases hr
      exact .inr ⟨begun, rfl⟩
    · exact .inl hr

theorem suffix (h : s.Begun s' P) : s.history <:+ s'.history := by
  rcases h.history with h | ⟨t, i, c, -, h⟩
  · rw [h]
  · rw [h]
    exact List.suffix_cons _ _

end Begun

/-! ## Nobody is passed over -/

/-- Whoever stands in the queue keeps its place, whoever is parked stays or is put
into the queue when its outcome is sent, and nothing is handed on. -/
structure Spares (s s' : Scheduler ξ σ) : Prop where
  ready : s.ready <+: s'.ready
  parked : ∀ w ∈ s.parked, w ∈ s'.parked ∨ w.task ∈ s'.ready ∧ s'.history.Settled w.ticket
  history : ∃ news, s'.history = news ++ s.history ∧ ∀ p ∈ news, p.2.Plain

namespace Spares

theorem of_eq (ready : s'.ready = s.ready) (parked : s'.parked = s.parked)
    (history : s'.history = s.history) : s.Spares s' :=
  ⟨ready ▸ List.prefix_refl _, fun _ hw => .inl (parked ▸ hw), [], history, by simp⟩

theorem refl (s : Scheduler ξ σ) : s.Spares s := of_eq rfl rfl rfl

theorem trans (h : s.Spares s') (h' : s'.Spares s'') : s.Spares s'' where
  ready := h.ready.trans h'.ready
  parked w hw := by
    rcases h.parked w hw with hw | hw
    · exact h'.parked w hw
    · obtain ⟨news, hnews, -⟩ := h'.history
      refine .inr ⟨h'.ready.subset hw.1, hw.2.mono ?_⟩
      rw [hnews]
      exact List.subset_append_right _ _
  history := by
    obtain ⟨news, hnews, plain⟩ := h.history
    obtain ⟨news', hnews', plain'⟩ := h'.history
    refine ⟨news' ++ news, by rw [hnews', hnews, List.append_assoc], fun p hp => ?_⟩
    exact (List.mem_append.1 hp).elim (plain' p) (plain p)

theorem behind (h : s'.Spares s'') (ready : s'.ready = s.ready) (parked : s'.parked = s.parked)
    (history : s'.history = s.history) : s.Spares s'' :=
  (of_eq ready parked history).trans h

theorem note {ev : Event σ} (ready : s'.ready = s.ready) (parked : s'.parked = s.parked)
    (history : s'.history = (s.clock, ev) :: s.history) (plain : ev.Plain) : s.Spares s' :=
  ⟨ready ▸ List.prefix_refl _, fun _ hw => .inl (parked ▸ hw), [(s.clock, ev)], history,
    by simpa using plain⟩

theorem log (s : Scheduler ξ σ) {ev : Event σ} (plain : ev.Plain) : s.Spares (s.log ev) :=
  note rfl rfl rfl plain

theorem enqueue (s : Scheduler ξ σ) (tasks : List (Task σ)) :
    s.Spares { s with ready := s.ready ++ tasks } :=
  ⟨List.prefix_append _ _, fun _ => .inl, [], rfl, by simp⟩

theorem park (s : Scheduler ξ σ) (w : Waiter σ) :
    s.Spares { s with parked := s.parked ++ [w] } :=
  ⟨List.prefix_refl _, fun _ hw => .inl (List.mem_append_left _ hw), [], rfl, by simp⟩

theorem settle (s : Scheduler ξ σ) (t : Ticket) (o : Outcome) : s.Spares (s.settle t o) where
  ready := List.prefix_append _ _
  parked w hw := by
    simp only [Scheduler.settle, Scheduler.log, waiters]
    by_cases hd : s.dropped t
    · simp only [hd, if_true]
      exact .inl hw
    · by_cases hwt : w.ticket = t
      · refine .inr ⟨List.mem_append_right _ (List.mem_map.2
          ⟨w, by simpa [hd] using ⟨hw, hwt⟩, rfl⟩), s.clock, o, ?_⟩
        rw [hwt]
        exact List.mem_cons_self
      · exact .inl (by simpa [hd] using ⟨hw, hwt⟩)
  history := ⟨[(s.clock, .settled t o)], settle_history s t o, by simp [Event.Plain]⟩

theorem settleAll (s : Scheduler ξ σ) (o : Outcome) (ts : List Ticket) :
    s.Spares (s.settleAll o ts) := by
  induction ts generalizing s with
  | nil => exact refl s
  | cons t ts ih => exact (settle s t o).trans (ih _)

theorem closeLine (s : Scheduler ξ σ) (finished : Bool) : s.Spares (s.closeLine finished) := by
  unfold Scheduler.closeLine
  split
  · exact refl s
  · next l _ =>
    have ended : s.Spares ({ s with line := none }.log (.ended l.number finished)) :=
      note rfl rfl rfl trivial
    exact ended.trans (settleAll _ _ _)

theorem emit (s : Scheduler ξ σ) (n : Nat) (e : Effect) : s.Spares (s.emit n e).2 := by
  by_cases hl : ∃ l, s.line = some l ∧ l.number = n
  · obtain ⟨l, hl, rfl⟩ := hl
    rw [emit_open s e hl]
    exact note rfl rfl rfl trivial
  · rw [emit_closed s e fun l h hn => hl ⟨l, h, hn⟩]
    have emitted : s.Spares
        ({ s with nextTicket := s.nextTicket + 1 }.log (.emitted n s.nextTicket e)) :=
      note rfl rfl rfl trivial
    exact emitted.trans (settle _ _ _)

theorem report (s : Scheduler ξ σ) (t : Ticket) (i : Nat) (a : Answer) :
    s.Spares (s.report t i a) := by
  by_cases hb : ∃ n e slots, s.Busy n t (.group e slots)
  · obtain ⟨n, e, slots, inbox, hl⟩ := hb
    rw [report_group s a hl]
    exact note rfl rfl rfl trivial
  · rw [report_other s a fun n e slots h => hb ⟨n, e, slots, h⟩]
    exact .log s trivial

theorem runMember (s : Scheduler ξ σ) (t : Ticket) (i : Nat) (job : Job σ Answer) :
    s.Spares (s.runMember t i job) := by
  unfold Scheduler.runMember
  split
  · next a w _ => exact (report { s with world := w } t i a).behind rfl rfl rfl
  · next w _ => exact (report { s with world := w } t i _).behind rfl rfl rfl
  · exact .of_eq rfl rfl rfl

theorem runSingle (s : Scheduler ξ σ) (t : Ticket) (job : Job σ Answer) :
    s.Spares (s.runSingle t job).state := by
  unfold Scheduler.runSingle
  split
  · next a w _ =>
    have answered : s.Spares (({ s with world := w }.log (.answered t 0 a)).setCurrent none) :=
      note rfl rfl rfl trivial
    exact answered.trans (settle _ t (a.map .single))
  · exact .of_eq rfl rfl rfl
  · exact .of_eq rfl rfl rfl

theorem runGroup (s : Scheduler ξ σ) (t : Ticket) (e : Effect) (slots : List (Option Answer)) :
    s.Spares (s.runGroup t e slots).state := by
  unfold Scheduler.runGroup
  split
  · exact (settle (s.setCurrent none) t _).behind rfl rfl rfl
  · exact .of_eq rfl rfl rfl

theorem startGroup (around : Surroundings σ) (s : Scheduler ξ σ) (t : Ticket) (e : Effect) :
    s.Spares (Scheduler.startGroup around s t e).state := by
  unfold Scheduler.startGroup
  split
  · exact settle s t _
  · exact (enqueue s _).trans (runGroup _ t e _)

theorem start (around : Surroundings σ) (s : Scheduler ξ σ) (t : Ticket) (e : Effect) :
    (s.engaging around t e).Spares (Scheduler.start around s t e).state := by
  cases e with
  | sequence cs => exact startGroup around s t (.sequence cs)
  | mapping cs => exact startGroup around s t (.mapping cs)
  | single c =>
      cases hr : around.resolve? c with
      | none =>
          simp only [Scheduler.start, engaging, hr]
          exact settle s t _
      | some job =>
          simp only [Scheduler.start, engaging, hr]
          exact runSingle _ t job

theorem proceed (s : Scheduler ξ σ) : s.Spares s.proceed.state := by
  unfold Scheduler.proceed
  split
  · split
    · exact runSingle s _ _
    · exact refl s
  · exact runGroup s _ _ _
  · exact refl s

theorem advance (ha : s.advance? = some s') : s.Spares s' := by
  obtain ⟨due, who, rest, -, rfl⟩ := advance_eq ha
  exact ⟨List.prefix_append _ _, fun _ => .inl, [], rfl, by simp⟩

theorem suffix (h : s.Spares s') : s.history <:+ s'.history := by
  obtain ⟨news, hnews, -⟩ := h.history
  exact ⟨news, hnews.symm⟩

theorem takenOn (h : s.Spares s') (n : Nat) : s'.history.takenOn n = s.history.takenOn n := by
  obtain ⟨news, hnews, plain⟩ := h.history
  rw [hnews]
  clear hnews
  induction news with
  | nil => rfl
  | cons q news ih =>
      have none : q.2.taking? n = none := by
        have := plain q List.mem_cons_self
        cases he : q.2 <;> simp [he, Event.Plain, Event.taking?] at this ⊢
      rw [List.cons_append, History.takenOn_cons, none, Option.toList_none, List.append_nil]
      exact ih fun p hp => plain p (List.mem_cons_of_mem _ hp)

/-- What has been handed on has been handed on before. -/
theorem old (h : s.Spares s') {ev : Event σ} (he : ¬ ev.Plain) (hr : (m, ev) ∈ s'.history) :
    (m, ev) ∈ s.history := by
  obtain ⟨news, hnews, plain⟩ := h.history
  rw [hnews] at hr
  exact (List.mem_append.1 hr).resolve_left fun hr => he (plain _ hr)

theorem resumed (h : s.Spares s') (hr : (m, .resumed t o) ∈ s'.history) :
    (m, .resumed t o) ∈ s.history := h.old id hr

theorem started (h : s.Spares s') {i : Nat} {c : Command}
    (hr : (m, .started t i c) ∈ s'.history) : (m, .started t i c) ∈ s.history := h.old id hr

end Spares

/-! ## What can be done at a moment -/

/-- The outcome for which somebody looks who has its turn, and what has its turn when
it is there. -/
def Focus.awaits? : Focus ξ σ ρ α → Option (Ticket × (Outcome → Focus ξ σ ρ α))
  | .routine (.peek t next) => some (t, fun o => .routine (next (some o)))
  | .script around n (.before (.await t next)) after =>
    some (t, fun o => .script around n (.before (next o)) after)
  | .errand main turns n (.await t next) => some (t, fun o => .errand main turns n (next o))
  | _ => none

namespace Moment

/-- Whoever finds the outcome for which it looks goes on with it. -/
theorem next_of_awaits {m : Moment ξ σ ρ α} {go : Outcome → Focus ξ σ ρ α}
    (ha : m.focus.awaits? = some (t, go)) (ho : m.scheduler.outcome? t = some o) :
    m.next = ⟨go o, m.scheduler.log (.resumed t o)⟩ := by
  obtain ⟨focus, s⟩ := m
  have ha : focus.awaits? = some (t, go) := ha
  have ho : s.outcome? t = some o := ho
  unfold Focus.awaits? at ha
  split at ha <;> cases ha
  · simp only [Moment.next, afterRoutine, ho]
  · simp only [Moment.next, afterScript, ho]
  · simp only [Moment.next, afterErrand, ho]

/-- A task has its turn. -/
def Turns (task : Task σ) (m : Moment ξ σ ρ α) : Prop :=
  ∃ main turns rest, m.focus = .tasks main (turns + 1) ∧ m.scheduler.ready = task :: rest

/-- What is done at a moment. -/
inductive Does (m : Moment ξ σ ρ α) : Prop where
  /-- Somebody goes on with an outcome. -/
  | hands (t : Ticket) (o : Outcome) (go : Outcome → Focus ξ σ ρ α)
      (awaits : m.focus.awaits? = some (t, go)) (outcome : m.scheduler.outcome? t = some o)
      (next : m.next = ⟨go o, m.scheduler.log (.resumed t o)⟩)
  /-- The script cannot go on, and gives way to its interpreter. -/
  | polls (around : Surroundings σ) (n : Nat) (standing : Standing ξ σ ρ)
      (after : Except Failure ρ → Routine ξ σ ρ α)
      (focus : m.focus = .script around n standing after) (halts : standing.Halts m.scheduler)
      (next : m.next = ⟨.interpreter around n standing after,
        m.scheduler.log (.polled n standing.wanted)⟩)
  /-- The interpreter takes the oldest effect of its line. -/
  | takes (around : Surroundings σ) (n : Nat) (standing : Standing ξ σ ρ)
      (after : Except Failure ρ → Routine ξ σ ρ α) (t : Ticket) (e : Effect)
      (inbox : List (Ticket × Effect))
      (focus : m.focus = .interpreter around n standing after)
      (line : m.scheduler.line = some { number := n, inbox := (t, e) :: inbox })
      (s : Scheduler ξ σ)
      (begun : (m.scheduler.log (.taken n t e)).Begun s fun u i c =>
        u = t ∧ i = 0 ∧ e = .single c ∧ ∃ job, around.resolve? c = some job)
      (spares : s.Spares m.next.scheduler)
  /-- The first task in the queue has its turn. -/
  | turn (main : Main ξ σ ρ α) (turns : Nat) (task : Task σ) (rest : List (Task σ))
      (focus : m.focus = .tasks main (turns + 1)) (ready : m.scheduler.ready = task :: rest)
      (s : Scheduler ξ σ)
      (begun : Begun { m.scheduler with ready := rest } s fun t i c =>
        ∃ job, task = .begin t i c job)
      (spares : s.Spares m.next.scheduler)
  | other (spares : m.scheduler.Spares m.next.scheduler)

theorem afterRound_spares (main : Main ξ σ ρ α) (s : Scheduler ξ σ) :
    s.Spares (afterRound main s).scheduler := by
  unfold afterRound
  split
  · cases main with
    | before p => exact .of_eq rfl rfl rfl
    | asleep due next =>
        dsimp only
        split
        · exact .of_eq rfl rfl rfl
        · exact .of_eq rfl rfl rfl
    | within around n standing after =>
        have proceeds := (Spares.proceed { s with woken := false }).behind (s := s) rfl rfl rfl
        dsimp only
        cases hp : Scheduler.proceed { s with woken := false } with
        | settled s' | waiting s' =>
            rw [hp] at proceeds
            exact proceeds
        | crashed s' =>
            rw [hp] at proceeds
            exact proceeds.trans (.closeLine s' false)
  · exact .refl s

theorem afterTasks_rests (main : Main ξ σ ρ α) (s : Scheduler ξ σ) :
    s.Spares (afterTasks main 0 s).scheduler := by
  have ends (s' : Scheduler ξ σ) (h : endRound main s = .next main s') : s.Spares s' := by
    unfold endRound at h
    split at h
    · cases h
      exact .refl s
    · split at h
      · next ha =>
        cases h
        exact .advance ha
      · cases h
  rcases endRound_cases s with ⟨s', hs⟩ | hs
  · have spares := ends s' (hs main)
    simp only [afterTasks, hs]
    exact spares
  · simp only [afterTasks, hs]
    exact .refl s

/-- What a task does is done beside the other tasks. -/
theorem afterTasks_spares {task : Task σ} {rest : List (Task σ)} (main : Main ξ σ ρ α)
    (turns : Nat) (hr : s.ready = task :: rest) :
    Spares (launching { s with ready := rest } task) (afterTasks main (turns + 1) s).scheduler := by
  cases task with
  | errand line e =>
      simp only [afterTasks, hr]
      exact .refl _
  | resume t i job =>
      simp only [afterTasks, hr]
      exact .runMember _ t i job
  | begin t i c job =>
      simp only [afterTasks, hr]
      exact .runMember _ t i job

theorem does_await {m : Moment ξ σ ρ α} {go : Outcome → Focus ξ σ ρ α}
    (awaits : m.focus.awaits? = some (t, go)) (outcome : m.scheduler.outcome? t = some o) :
    m.Does :=
  .hands t o go awaits outcome (next_of_awaits awaits outcome)

theorem does_routine (p : Routine ξ σ ρ α) (s : Scheduler ξ σ) : Does ⟨.routine p, s⟩ := by
  cases p with
  | done | crash | look => exact .other (.refl s)
  | write | note => exact .other (.of_eq rfl rfl rfl)
  | interpret around script after => exact .other (.note rfl rfl rfl trivial)
  | emit e next => exact .other (.emit s _ e)
  | sleep ms next =>
      refine .other ?_
      by_cases hms : ms = 0
      · simp only [Moment.next, afterRoutine, if_pos hms]
        exact .refl s
      · simp only [Moment.next, afterRoutine, if_neg hms]
        exact .of_eq rfl rfl rfl
  | peek t next =>
      cases ho : s.outcome? t with
      | some o => exact does_await rfl ho
      | none =>
          refine .other ?_
          simp only [Moment.next, afterRoutine, ho]
          exact .refl s

theorem does_script (standing : Standing ξ σ ρ) (after : Except Failure ρ → Routine ξ σ ρ α)
    (free : s.Free n) : Does ⟨.script around n standing after, s⟩ := by
  by_cases halts : standing.Halts s
  · refine .polls around n standing after rfl halts ?_
    simp only [Moment.next, afterScript_halts halts, free.notePoll]
  cases standing with
  | asleep due next =>
      refine .other ?_
      simp only [Moment.next, afterScript, if_pos (Nat.not_lt.1 halts)]
      exact .refl s
  | before script =>
      cases script with
      | done r => exact .other (.closeLine s true)
      | look next => exact .other (.refl s)
      | write | note => exact .other (.of_eq rfl rfl rfl)
      | spawn e next => exact .other (.enqueue s [.errand n e])
      | emit e next => exact .other (.emit s n e)
      | drop t next => exact .other (.of_eq rfl rfl rfl)
      | sleep ms next =>
          refine .other ?_
          by_cases hms : ms = 0
          · simp only [Moment.next, afterScript, if_pos hms]
            exact .refl s
          · simp only [Moment.next, afterScript, if_neg hms]
            exact .of_eq rfl rfl rfl
      | await t next =>
          obtain ⟨o, ho⟩ := Option.ne_none_iff_exists'.1 halts
          exact does_await rfl ho

theorem does_interpreter {standing : Standing ξ σ ρ} (free : s.Free n)
    (after : Except Failure ρ → Routine ξ σ ρ α) :
    Does ⟨.interpreter around n standing after, s⟩ := by
  obtain ⟨inbox, hl⟩ := free
  cases inbox with
  | nil =>
      refine .other ?_
      simp only [Moment.next, afterInterpreter, take?_empty hl]
      exact .refl s
  | cons first inbox =>
      obtain ⟨t, e⟩ := first
      have begun := begun_engaging
        ({ s with line := some { number := n, inbox } }.log (.taken n t e)) around t e
      have starts := Spares.start around
        ({ s with line := some { number := n, inbox } }.log (.taken n t e)) t e
      refine .takes around n standing after t e inbox rfl hl _
        ⟨begun.ready, begun.parked, begun.history⟩ ?_
      simp only [Moment.next, afterInterpreter, take?_next hl]
      cases hstart : Scheduler.start around _ t e with
      | settled s' | waiting s' =>
          rw [hstart] at starts
          exact starts
      | crashed s' =>
          rw [hstart] at starts
          exact starts.trans (.closeLine s' false)

theorem does_tasks (main : Main ξ σ ρ α) (turns : Nat) (s : Scheduler ξ σ) :
    Does ⟨.tasks main turns, s⟩ := by
  cases turns with
  | zero => exact .other (afterTasks_rests main s)
  | succ turns =>
      cases hr : s.ready with
      | nil =>
          refine .other ?_
          simp only [Moment.next, afterTasks, hr]
          exact .refl s
      | cons task rest =>
          exact .turn main turns task rest rfl hr _ (begun_launching _ task)
            (afterTasks_spares main turns hr)

theorem does_errand (main : Main ξ σ ρ α) (turns : Nat) (e : Errand σ) (s : Scheduler ξ σ) :
    Does ⟨.errand main turns n e, s⟩ := by
  cases e with
  | done | look => exact .other (.refl s)
  | write | drop => exact .other (.of_eq rfl rfl rfl)
  | emit e next => exact .other (.emit s n e)
  | await t next =>
      cases ho : s.outcome? t with
      | some o => exact does_await rfl ho
      | none =>
          refine .other ?_
          simp only [Moment.next, afterErrand, ho]
          exact .park s ⟨t, n, next⟩
  | sleep ms next =>
      refine .other ?_
      by_cases hms : ms = 0
      · simp only [Moment.next, afterErrand, if_pos hms]
        exact .refl s
      · simp only [Moment.next, afterErrand, if_neg hms]
        exact .of_eq rfl rfl rfl

theorem Stands.does {m : Moment ξ σ ρ α} (h : m.Stands) : m.Does := by
  obtain ⟨focus, s⟩ := m
  cases focus with
  | round main => exact .other (afterRound_spares main s)
  | routine p => exact does_routine p s
  | script around n standing after => exact does_script standing after h.focus.1
  | interpreter around n standing after => exact does_interpreter h.focus.1 after
  | tasks main turns => exact does_tasks main turns s
  | errand main turns n e => exact does_errand main turns e s
  | finished | crashed | stuck => exact .other (.refl s)

/-- An effect is taken when an interpreter has its turn, and it is the oldest on the
line. -/
theorem Stands.taking {m : Moment ξ σ ρ α} (h : m.Stands) (n : Nat) :
    m.next.scheduler.history.takenOn n = m.scheduler.history.takenOn n ∨
      ∃ around standing after t e inbox, m.focus = .interpreter around n standing after ∧
        m.scheduler.line = some { number := n, inbox := (t, e) :: inbox } ∧
        m.next.scheduler.history.takenOn n = m.scheduler.history.takenOn n ++ [(t, e)] ∧
        (m.scheduler.clock, .taken n t e) :: m.scheduler.history <:+ m.next.scheduler.history := by
  have other (ev : Event σ) (hev : ev.taking? n = none) {s' : Scheduler ξ σ}
      (hs : s' = m.scheduler.log ev) :
      s'.history.takenOn n = m.scheduler.history.takenOn n := by
    rw [hs, log, History.takenOn_cons, hev, Option.toList_none, List.append_nil]
  cases h.does with
  | hands t o go awaits outcome next =>
      exact .inl (other (.resumed t o) rfl (congrArg Moment.scheduler next))
  | polls around n' standing after focus halts next =>
      exact .inl (other (.polled n' standing.wanted) rfl (congrArg Moment.scheduler next))
  | turn main turns task rest focus ready s begun spares =>
      exact .inl ((spares.takenOn n).trans (begun.takenOn n))
  | other spares => exact .inl (spares.takenOn n)
  | takes around n' standing after t e inbox focus line s begun spares =>
      have taken := (spares.takenOn n).trans (begun.takenOn n)
      rw [log, History.takenOn_cons] at taken
      by_cases hn : n' = n
      · subst hn
        exact .inr ⟨around, standing, after, t, e, inbox, focus, line,
          by simpa [Event.taking?] using taken, begun.suffix.trans spares.suffix⟩
      · exact .inl (by simpa [Event.taking?, hn] using taken)

end Moment

/-! ## Outcomes are handed on -/

/-- Somebody who has its turn looks for an outcome, finds it, and has its turn again
with it at once. -/
def Handed (p : Routine ξ σ ρ α) (s : Scheduler ξ σ) (m : Nat) (t : Ticket) (o : Outcome) : Prop :=
  ∃ j go, (moment p s j).focus.awaits? = some (t, go) ∧
    (moment p s j).scheduler.clock = m ∧ (moment p s j).scheduler.outcome? t = some o ∧
    moment p s (j + 1) = ⟨go o, (moment p s j).scheduler.log (.resumed t o)⟩

theorem handed_of_mem (hs : Reachable s) (p : Routine ξ σ ρ α) (j : Nat)
    (h : (m, .resumed t o) ∈ (moment p s j).scheduler.history) :
    (m, .resumed t o) ∈ s.history ∨ Handed p s m t o := by
  induction j with
  | zero => exact .inl h
  | succ j ih =>
      cases (hs.stands p j).does with
      | hands t' o' go awaits outcome next =>
          rw [moment, next] at h
          rcases List.mem_cons.1 h with heq | h
          · cases heq
            exact .inr ⟨j, go, awaits, rfl, outcome, next⟩
          · exact ih h
      | polls around n standing after focus halts next =>
          rw [moment, next] at h
          exact ih ((List.mem_cons.1 h).resolve_left (by simp))
      | takes around n standing after t' e inbox focus line s' begun spares =>
          exact ih ((List.mem_cons.1 (begun.resumed (spares.resumed h))).resolve_left (by simp))
      | turn main turns task rest focus ready s' begun spares =>
          exact ih (begun.resumed (spares.resumed h))
      | other spares => exact ih (spares.resumed h)

/-- A resolver is started: a member of a group has its first turn, or the interpreter
takes a single command. -/
inductive Launched (p : Routine ξ σ ρ α) (s : Scheduler ξ σ) (m : Nat) (t : Ticket) (i : Nat)
    (c : Command) : Prop where
  | member (j : Nat) (job : Job σ Answer) (clock : (moment p s j).scheduler.clock = m)
      (turn : (moment p s j).Turns (.begin t i c job))
  | single (j : Nat) (around : Surroundings σ) (n : Nat) (standing : Standing ξ σ ρ)
      (after : Except Failure ρ → Routine ξ σ ρ α) (job : Job σ Answer)
      (inbox : List (Ticket × Effect)) (clock : (moment p s j).scheduler.clock = m)
      (first : i = 0) (known : around.resolve? c = some job)
      (focus : (moment p s j).focus = .interpreter around n standing after)
      (line : (moment p s j).scheduler.line =
        some { number := n, inbox := (t, .single c) :: inbox })

theorem launched_of_mem (hs : Reachable s) (p : Routine ξ σ ρ α) (j : Nat) {i : Nat} {c : Command}
    (h : (m, .started t i c) ∈ (moment p s j).scheduler.history) :
    (m, .started t i c) ∈ s.history ∨ Launched p s m t i c := by
  induction j with
  | zero => exact .inl h
  | succ j ih =>
      cases (hs.stands p j).does with
      | hands t' o' go awaits outcome next =>
          rw [moment, next] at h
          exact ih ((List.mem_cons.1 h).resolve_left (by simp))
      | polls around n standing after focus halts next =>
          rw [moment, next] at h
          exact ih ((List.mem_cons.1 h).resolve_left (by simp))
      | takes around n standing after t' e inbox focus line s' begun spares =>
          rcases begun.started (spares.started h) with old | ⟨⟨rfl, rfl, rfl, job, known⟩, rfl⟩
          · exact ih ((List.mem_cons.1 old).resolve_left (by simp))
          · exact .inr (.single j around n standing after job inbox rfl rfl known focus line)
      | turn main turns task rest focus ready s' begun spares =>
          rcases begun.started (spares.started h) with old | ⟨⟨job, rfl⟩, rfl⟩
          · exact ih old
          · exact .inr (.member j job rfl ⟨main, turns, rest, focus, ready⟩)
      | other spares => exact ih (spares.started h)

/-- What happens in a run happens at one of its moments, and all that happens there
does. -/
theorem Reachable.happens_iff (hs : Reachable s) (p : Routine ξ σ ρ α) {ev : Event σ} :
    Happens p s m ev ↔ ∃ j, (m, ev) ∈ (moment p s j).scheduler.history := by
  constructor
  · rintro ⟨k, h⟩
    obtain ⟨j, same⟩ := hs.exists_moment p k
    exact ⟨j, by rwa [historyFor, same] at h⟩
  · rintro ⟨j, h⟩
    obtain ⟨i, hi, begins⟩ := (hs.stands p j).soon_begins.exists_moment
    have whole := runFor_eq hs p i 0
    refine ⟨begun p s i, ?_⟩
    rw [historyFor, ← Nat.add_zero (begun p s i), whole, Moment.complete_begins begins]
    exact (hs.moment_steps p hi).suffix.subset h

theorem Happens.of_moment (hs : Reachable s) (j i : Nat) {ev : Event σ}
    (h : (moment p s j).scheduler.history[i]? = some (m, ev)) : Happens p s m ev :=
  (hs.happens_iff p).2 ⟨j, List.mem_of_getElem? h⟩

/-- Whoever is said to be started is, in this run or before it. -/
theorem Happens.started_launched (hs : Reachable s) {i : Nat} {c : Command}
    (h : Happens p s m (.started t i c)) :
    (m, .started t i c) ∈ s.history ∨ Launched p s m t i c := by
  obtain ⟨j, h⟩ := (hs.happens_iff p).1 h
  exact launched_of_mem hs p j h

/-- Somebody goes on with an outcome, in this run or before it. -/
structure Resumes (p : Routine ξ σ ρ α) (s : Scheduler ξ σ) (m : Nat) (t : Ticket) (o : Outcome) :
    Prop where
  happens : Happens p s m (.resumed t o)
  handed : (m, .resumed t o) ∈ s.history ∨ Handed p s m t o

/-- Whoever is said to go on with an outcome does so. -/
theorem Happens.resumes (hs : Reachable s) (h : Happens p s m (.resumed t o)) :
    Resumes p s m t o := by
  refine ⟨h, ?_⟩
  obtain ⟨j, h⟩ := (hs.happens_iff p).1 h
  exact handed_of_mem hs p j h

end Scheduler

end Switchboard
