import Switchboard.Proofs.Sparing

/-!
# Switchboard.Proofs.Bursts

How a member of a group runs.  It runs in bursts, one at each of its turns: from
where it stands until it sleeps or has an answer, in the world as it finds it, and
the world is left as the burst has made it.  Nobody else runs it in between, and
after its answer it has no more turns.

* `Job.Runs` — a burst, and what it makes of the world;
* `Moment.Mans`, `Stands.mans` — what becomes of the members of groups at a moment;
* `Plays` — the turns of a member, one after the other;
* `Plays.run` — once its group has been taken, the turns of a member are its bursts.
-/

namespace Switchboard

variable {ξ σ ρ α : Type}

namespace Job

/-- A job runs at a time until it stops: where it stops, and what has become of the
world.  Each of its changes is made once, in its place. -/
inductive Runs (now : Nat) : Job σ α → World σ → Pause σ α → World σ → Prop where
  | done (a : α) (w : World σ) : Runs now (.done a) w (.done a) w
  | crash (w : World σ) : Runs now .crash w .crashed w
  | look {next : Nat → World σ → Job σ α} {w w' : World σ} {pause : Pause σ α}
      (h : Runs now (next now w) w pause w') : Runs now (.look next) w pause w'
  | write {change : World σ → World σ} {next : Job σ α} {w w' : World σ} {pause : Pause σ α}
      (h : Runs now next (change w) pause w') : Runs now (.write change next) w pause w'
  | nap {next : Job σ α} {w w' : World σ} {pause : Pause σ α}
      (h : Runs now next w pause w') : Runs now (.sleep 0 next) w pause w'
  | sleep {ms : Nat} (next : Job σ α) (w : World σ) (pos : 0 < ms) :
      Runs now (.sleep ms next) w (.asleep (now + ms) next) w

theorem runs_burst (now : Nat) (j : Job σ α) (w : World σ) :
    j.Runs now w (j.burst now w).1 (j.burst now w).2 := by
  induction j generalizing w with
  | done a => exact .done a w
  | crash => exact .crash w
  | look next ih => exact .look (ih now w w)
  | write change next ih => exact .write (ih (change w))
  | sleep ms next ih =>
      unfold burst
      split
      · next h => subst h; exact .nap (ih w)
      · next h => exact .sleep next w (Nat.pos_of_ne_zero h)

/-- What a member has answered that has stopped. -/
def Pause.answer? : Pause σ Answer → Option Answer
  | .done a => some a
  | .crashed => some (.error .crashedMember)
  | .asleep _ _ => none

end Job

/-- What is left of a member that has had its turn. -/
def Member.rest? (member : Member σ) : Job.Pause σ Answer → Option (Member σ)
  | .asleep due next => some { member with due, job := next }
  | .done _ | .crashed => none

namespace Scheduler

variable {s s' : Scheduler ξ σ} {main : Main ξ σ ρ α} {turns n i j k : Nat}
  {around : Surroundings σ} {after : Except Failure ρ → Routine ξ σ ρ α}
  {p : Routine ξ σ ρ α} {m : Moment ξ σ ρ α} {t : Ticket} {e : Effect} {key : Ticket × Nat}
  {member : Member σ}

/-! ## What becomes of the members -/

theorem closeLine_crew (s : Scheduler ξ σ) (finished : Bool) :
    (s.closeLine finished).crew = s.crew := by
  unfold closeLine
  split
  · rfl
  · rw [settleAll_of_settle _ _ _ crew fun s t => s.settle_crew t _]
    exact crew_of_eq rfl rfl rfl

/-- A timer that is no member's leaves the crew alone. -/
theorem addTimer_crew_other (s : Scheduler ξ σ) (due : Nat) {who : Sleeper σ}
    (other : who.member? due = none) : (s.addTimer due who).crew.Perm s.crew := by
  have perm := s.addTimer_crew due who
  rwa [other, Option.toList_none, List.nil_append] at perm

theorem runSingle_crew (s : Scheduler ξ σ) (t : Ticket) (job : Job σ Answer) :
    (s.runSingle t job).state.crew.Perm s.crew := by
  unfold runSingle
  split
  · rw [Progress.state, settle_crew]
    exact .refl _
  · exact .refl _
  · next due next w _ => exact addTimer_crew_other { s with world := w } due rfl

theorem runGroup_crew (s : Scheduler ξ σ) (t : Ticket) (e : Effect) (slots : List (Option Answer)) :
    (s.runGroup t e slots).state.crew = s.crew := by
  unfold runGroup
  split
  · rw [Progress.state, settle_crew]
    rfl
  · rfl

theorem proceed_crew (s : Scheduler ξ σ) : s.proceed.state.crew.Perm s.crew := by
  unfold proceed
  split
  · split
    · exact runSingle_crew s _ _
    · exact .refl _
  · rw [runGroup_crew]
  · exact .refl _

/-- The members that join a crew when an effect is taken. -/
def joining (around : Surroundings σ) (t : Ticket) (e : Effect) (now : Nat) : List (Member σ) :=
  match e with
  | .single _ => []
  | e => match members around t 0 e.commands with
    | .error _ => []
    | .ok tasks => tasks.filterMap (Task.member? now)

theorem startGroup_crew (around : Surroundings σ) (s : Scheduler ξ σ) (t : Ticket) {e : Effect}
    (composite : e.IsGroup) :
    (startGroup around s t e).state.crew.Perm (joining around t e s.clock ++ s.crew) := by
  have joins : joining around t e s.clock = match members around t 0 e.commands with
      | .error _ => []
      | .ok tasks => tasks.filterMap (Task.member? s.clock) := by
    cases e with
    | single c => exact composite.elim
    | sequence | mapping => rfl
  rw [joins]
  unfold startGroup
  cases members around t 0 e.commands with
  | error name =>
      dsimp only [Progress.state]
      rw [settle_crew]
      exact .refl _
  | ok tasks =>
      dsimp only
      rw [runGroup_crew]
      simp only [crew, List.filterMap_append]
      rw [← List.append_assoc]
      exact List.perm_append_comm.append_right _

theorem start_crew (around : Surroundings σ) (s : Scheduler ξ σ) (t : Ticket) (e : Effect) :
    (start around s t e).state.crew.Perm (joining around t e s.clock ++ s.crew) := by
  cases e with
  | sequence cs => exact startGroup_crew (e := .sequence cs) around s t trivial
  | mapping cs => exact startGroup_crew (e := .mapping cs) around s t trivial
  | single c =>
      cases hr : around.resolve? c with
      | none =>
          simp only [start, hr, Progress.state, settle_crew]
          exact .refl _
      | some job =>
          simp only [start, hr]
          exact (runSingle_crew _ t job).trans (.of_eq (crew_of_eq rfl rfl rfl))

theorem start_ready (around : Surroundings σ) (s : Scheduler ξ σ) {tasks : List (Task σ)}
    (composite : e.IsGroup) (ht : members around t 0 e.commands = .ok tasks) :
    s.ready ++ tasks <+: (start around s t e).state.ready := by
  have group : s.ready ++ tasks <+: (startGroup around s t e).state.ready := by
    unfold startGroup
    rw [ht]
    exact (Spares.runGroup { s with ready := s.ready ++ tasks } t e _).ready
  cases e with
  | single c => exact composite.elim
  | sequence | mapping => exact group

/-- Whoever joins does so with the ticket of the effect, and at once. -/
theorem mem_joining {now : Nat} (h : member ∈ joining around t e now) :
    member.ticket = t ∧ e.IsGroup := by
  have inTasks {e : Effect} (h : member ∈ match members around t 0 e.commands with
      | .error _ => []
      | .ok tasks => tasks.filterMap (Task.member? now)) : member.ticket = t := by
    cases hm : members around t 0 e.commands with
    | error name => rw [hm] at h; cases h
    | ok tasks =>
        rw [hm] at h
        obtain ⟨task, ht, h⟩ := List.mem_filterMap.1 h
        obtain ⟨i, c, job, rfl, -⟩ := mem_members hm ht
        cases h
        rfl
  cases e with
  | single c => cases h
  | sequence cs => exact ⟨inTasks (e := .sequence cs) h, trivial⟩
  | mapping cs => exact ⟨inTasks (e := .mapping cs) h, trivial⟩

/-- The tasks of a group begin the resolvers of its commands, each in its place. -/
theorem members_forall₂ {cs : List Command} {tasks : List (Task σ)}
    (h : members around t k cs = .ok tasks) :
    List.Forall₂ (fun task (q : Command × Nat) => ∃ job, around.resolve? q.1 = some job ∧
      task = .begin t q.2 q.1 job) tasks (cs.zipIdx k) := by
  induction cs generalizing k tasks with
  | nil =>
      cases h
      exact .nil
  | cons c cs ih =>
      obtain ⟨job, rest, hj, hrest, rfl⟩ := members_cons_ok h
      exact .cons ⟨job, hj, rfl⟩ (ih hrest)

theorem exists_members {cs : List Command} (known : ∀ c ∈ cs, (around.resolve? c).isSome) :
    ∃ tasks, members around t k cs = .ok tasks := by
  cases hm : members around t k cs with
  | ok tasks => exact ⟨tasks, rfl⟩
  | error name =>
      obtain ⟨c, first, -⟩ := members_error hm
      have unknown := List.find?_some first
      rw [Option.isNone_iff_eq_none] at unknown
      simpa [unknown] using known c (List.mem_of_find?_eq_some first)

theorem begin_mem_members {cs : List Command} {tasks : List (Task σ)} {i : Nat} {c : Command}
    {job : Job σ Answer} (h : members around t k cs = .ok tasks) (hc : cs[i]? = some c)
    (hj : around.resolve? c = some job) : .begin t (k + i) c job ∈ tasks := by
  induction cs generalizing k i tasks with
  | nil => cases hc
  | cons c' cs ih =>
      obtain ⟨job', rest, hj', hrest, rfl⟩ := members_cons_ok h
      cases i with
      | zero =>
          cases hc
          cases hj'.symm.trans hj
          exact List.mem_cons_self
      | succ i =>
          rw [show k + (i + 1) = k + 1 + i by omega]
          exact List.mem_cons_of_mem _ (ih hrest hc)

theorem mem_joining_of_known {tasks : List (Task σ)} {now i : Nat} {c : Command}
    {job : Job σ Answer} (composite : e.IsGroup) (ht : members around t 0 e.commands = .ok tasks)
    (hc : e.commands[i]? = some c) (hj : around.resolve? c = some job) :
    (⟨t, i, now, job⟩ : Member σ) ∈ joining around t e now := by
  have inTasks : (⟨t, i, now, job⟩ : Member σ) ∈ tasks.filterMap (Task.member? now) :=
    List.mem_filterMap.2 ⟨_, begin_mem_members ht hc hj, by rw [Nat.zero_add]; rfl⟩
  cases e with
  | single c => exact composite.elim
  | sequence | mapping =>
      simp only [joining, ht]
      exact inTasks

namespace Moment

/-- The member whose turn it is. -/
def member? (m : Moment ξ σ ρ α) : Option (Member σ) :=
  match m.focus, m.scheduler.ready with
  | .tasks _ (_ + 1), task :: _ => task.member? m.scheduler.clock
  | _, _ => none

/-- What becomes of the members of groups at a moment. -/
inductive Mans (m : Moment ξ σ ρ α) : Prop where
  /-- A member has its turn, and runs until it stops. -/
  | works (member : Member σ) (others : List (Member σ)) (pause : Job.Pause σ Answer)
      (turn : m.member? = some member) (before : m.scheduler.crew = member :: others)
      (due : m.scheduler.clock = member.due)
      (runs : member.job.Runs member.due m.scheduler.world pause m.next.scheduler.world)
      (after : m.next.scheduler.crew.Perm ((member.rest? pause).toList ++ others))
      (told : ∀ a, pause.answer? = some a →
        (member.due, .answered member.ticket member.index a) ∈ m.next.scheduler.history)
  /-- The members of a group join that is taken at this moment. -/
  | joins (around : Surroundings σ) (n : Nat) (t : Ticket) (e : Effect)
      (turn : m.member? = none) (opened : m.scheduler.history.Opened n around)
      (taken : (m.scheduler.clock, .taken n t e) :: m.scheduler.history <:+
        m.next.scheduler.history)
      (crew : m.next.scheduler.crew.Perm
        (joining around t e m.scheduler.clock ++ m.scheduler.crew))
  | same (turn : m.member? = none) (crew : m.next.scheduler.crew.Perm m.scheduler.crew)

theorem afterRound_crew (main : Main ξ σ ρ α) (s : Scheduler ξ σ) :
    (afterRound main s).scheduler.crew.Perm s.crew := by
  unfold afterRound
  split
  · cases main with
    | before p => exact .refl _
    | asleep due next =>
        dsimp only
        split
        · exact .refl _
        · exact .refl _
    | within around n standing after =>
        have proceeds := proceed_crew { s with woken := false }
        dsimp only
        cases hp : proceed { s with woken := false } with
        | settled s' | waiting s' =>
            rw [hp] at proceeds
            exact proceeds
        | crashed s' =>
            rw [hp] at proceeds
            exact (List.Perm.of_eq (closeLine_crew s' false)).trans proceeds
  · exact .refl _

theorem afterRoutine_crew (p : Routine ξ σ ρ α) (s : Scheduler ξ σ) :
    (afterRoutine p s).scheduler.crew.Perm s.crew := by
  cases p with
  | done | crash | look | write | note | interpret => exact .refl _
  | emit e next => exact .of_eq (emit_crew s _ e)
  | sleep ms next =>
      rw [afterRoutine]
      split
      · exact .refl _
      · exact addTimer_crew_other s _ rfl
  | peek t next => cases ho : s.outcome? t <;> simp only [afterRoutine, ho] <;> exact .refl _

theorem afterScript_crew (standing : Standing ξ σ ρ) (free : s.Free n) :
    (afterScript around n after standing s).scheduler.crew.Perm s.crew := by
  by_cases halts : standing.Halts s
  · rw [afterScript_halts halts, free.notePoll]
    exact .refl _
  cases standing with
  | asleep due next =>
      rw [afterScript, if_pos (Nat.not_lt.1 halts)]
  | before script =>
      cases script with
      | done r => exact .of_eq (closeLine_crew s true)
      | look | write | note | drop => exact .refl _
      | spawn e next =>
          exact .of_eq (by simp [afterScript, crew, enqueue, List.filterMap_append, Task.member?])
      | emit e next => exact .of_eq (emit_crew s n e)
      | sleep ms next =>
          rw [afterScript]
          split
          · exact .refl _
          · exact addTimer_crew_other s _ rfl
      | await t next =>
          obtain ⟨o, ho⟩ := Option.ne_none_iff_exists'.1 halts
          simp only [afterScript, ho]
          exact .refl _

theorem afterErrand_crew (main : Main ξ σ ρ α) (turns n : Nat) (e : Errand σ)
    (s : Scheduler ξ σ) : (afterErrand main turns n e s).scheduler.crew.Perm s.crew := by
  cases e with
  | done | look | write | drop => exact .refl _
  | emit e next => exact .of_eq (emit_crew s n e)
  | await t next => cases ho : s.outcome? t <;> simp only [afterErrand, ho] <;> exact .refl _
  | sleep ms next =>
      rw [afterErrand]
      split
      · exact .refl _
      · exact addTimer_crew_other s _ rfl

/-- When the clock moves, whoever is due comes into the queue. -/
theorem afterTasks_crew (hi : s.Inv) (main : Main ξ σ ρ α) :
    (afterTasks main 0 s).scheduler.crew = s.crew := by
  rw [afterTasks, endRound]
  split
  · rename_i h
    split at h
    · cases h
      rfl
    · next empty =>
      split at h
      · next ha =>
        cases h
        refine hi.advance_crew ?_ ha
        simpa using (by simpa using empty : _ ∧ _).2
      · cases h
  · rfl

theorem report_world (s : Scheduler ξ σ) (t : Ticket) (i : Nat) (a : Answer) :
    (s.report t i a).world = s.world := by
  unfold report
  simp only [log]
  split
  · split <;> rfl
  · rfl

/-- A member that has its turn runs until it stops. -/
theorem runMember_runs (s : Scheduler ξ σ) (t : Ticket) (i : Nat) (job : Job σ Answer) :
    ∃ pause, job.Runs s.clock s.world pause (s.runMember t i job).world ∧
      (s.runMember t i job).crew.Perm
        ((Member.rest? ⟨t, i, s.clock, job⟩ pause).toList ++ s.crew) ∧
      ∀ a, pause.answer? = some a →
        (s.clock, .answered t i a) ∈ (s.runMember t i job).history := by
  have runs := job.runs_burst s.clock s.world
  refine ⟨(job.burst s.clock s.world).1, ?_⟩
  unfold runMember
  generalize job.burst s.clock s.world = stopped at runs ⊢
  obtain ⟨pause, w⟩ := stopped
  have told (a : Answer) :
      (s.clock, .answered t i a) ∈ (report { s with world := w } t i a).history := by
    rw [report_history]
    exact List.mem_cons_self
  cases pause with
  | done a =>
      dsimp only
      rw [report_world, report_crew]
      exact ⟨runs, .refl _, fun _ ha => by cases ha; exact told a⟩
  | crashed =>
      dsimp only
      rw [report_world, report_crew]
      exact ⟨runs, .refl _, fun _ ha => by cases ha; exact told _⟩
  | asleep due next => exact ⟨runs, addTimer_crew { s with world := w } due _, nofun⟩

/-- A task that runs a member gives it its turn. -/
theorem mans_member {task : Task σ} {rest : List (Task σ)} (hr : s.ready = task :: rest)
    (hm : task.member? s.clock = some member) : Mans ⟨.tasks main (turns + 1), s⟩ := by
  have before := crew_head hr hm
  have due : s.clock = member.due := by cases task <;> cases hm <;> rfl
  have turn : Moment.member? ⟨.tasks main (turns + 1), s⟩ = some member := by
    simp only [Moment.member?, hr]
    exact hm
  have works (s' : Scheduler ξ σ) (clock : s'.clock = s.clock) (world : s'.world = s.world)
      (crew : s'.crew = Scheduler.crew { s with ready := rest })
      (next : Moment.next ⟨.tasks main (turns + 1), s⟩ =
        ⟨.tasks main turns, s'.runMember member.ticket member.index member.job⟩) :
      Mans ⟨.tasks main (turns + 1), s⟩ := by
    obtain ⟨pause, runs, after, told⟩ := runMember_runs s' member.ticket member.index member.job
    rw [clock, due] at runs after told
    rw [world] at runs
    rw [crew] at after
    refine .works member _ pause turn before due ?_ ?_ ?_ <;> rw [next]
    · exact runs
    · exact after
    · exact told
  cases task with
  | errand n e => cases hm
  | resume t i job =>
      cases hm
      exact works { s with ready := rest } rfl rfl rfl
        (by simp only [Moment.next, afterTasks, hr]; rfl)
  | begin t i c job =>
      cases hm
      exact works ({ s with ready := rest }.log (.started t i c)) rfl rfl
        (crew_of_eq rfl rfl rfl) (by simp only [Moment.next, afterTasks, hr]; rfl)

theorem mans_tasks (hi : s.Inv) (main : Main ξ σ ρ α) (turns : Nat) :
    Mans ⟨.tasks main turns, s⟩ := by
  cases turns with
  | zero =>
      exact .same (by cases h : s.ready <;> rfl) (.of_eq (afterTasks_crew hi main))
  | succ turns =>
      cases hr : s.ready with
      | nil =>
          refine .same (by simp only [Moment.member?, hr]) ?_
          simp only [Moment.next, afterTasks, hr]
          exact .refl _
      | cons task rest =>
          cases hm : task.member? s.clock with
          | some member => exact mans_member hr hm
          | none =>
              refine .same (by simp only [Moment.member?, hr, hm]) ?_
              cases task with
              | errand n e =>
                  simp only [Moment.next, afterTasks, hr]
                  simp [crew, hr, Task.member?]
              | begin | resume => cases hm

/-- The interpreter takes an effect, and if it is a group its members join. -/
theorem joins_of_line (around : Surroundings σ) (standing : Standing ξ σ ρ)
    (after : Except Failure ρ → Routine ξ σ ρ α) {inbox : List (Ticket × Effect)}
    (hl : s.line = some { number := n, inbox := (t, e) :: inbox }) :
    (s.clock, .taken n t e) :: s.history <:+
        (afterInterpreter around n standing after s).scheduler.history ∧
      (afterInterpreter around n standing after s).scheduler.crew.Perm
        (joining around t e s.clock ++ s.crew) ∧
      ∀ tasks, e.IsGroup → members around t 0 e.commands = .ok tasks →
        s.ready ++ tasks <+: (afterInterpreter around n standing after s).scheduler.ready := by
  let s' := log { s with line := some { number := n, inbox } } (.taken n t e)
  have next : s.take? = some ((t, e), s') := take?_next hl
  have taken : (s.clock, .taken n t e) :: s.history <:+ (start around s' t e).state.history :=
    (begun_engaging s' around t e).suffix.trans (Spares.start around s' t e).suffix
  have crew : (start around s' t e).state.crew.Perm (joining around t e s.clock ++ s.crew) :=
    start_crew around s' t e
  have ready (tasks : List (Task σ)) (composite : e.IsGroup)
      (ht : members around t 0 e.commands = .ok tasks) :
      s.ready ++ tasks <+: (start around s' t e).state.ready :=
    start_ready around s' composite ht
  cases hstart : start around s' t e with
  | settled s'' | waiting s'' =>
      rw [hstart] at taken crew ready
      simp only [afterInterpreter, next, hstart]
      exact ⟨taken, crew, ready⟩
  | crashed s'' =>
      rw [hstart] at taken crew ready
      simp only [afterInterpreter, next, hstart]
      exact ⟨taken.trans (closeLine_suffix s'' false),
        (List.Perm.of_eq (closeLine_crew s'' false)).trans crew,
        fun tasks composite ht =>
          (ready tasks composite ht).trans (Spares.closeLine s'' false).ready⟩

theorem mans_interpreter {standing : Standing ξ σ ρ}
    (h : Stands ⟨.interpreter around n standing after, s⟩) :
    Mans ⟨.interpreter around n standing after, s⟩ := by
  have turn : Moment.member? ⟨.interpreter around n standing after, s⟩ = none := by
    cases h : s.ready <;> rfl
  obtain ⟨inbox, hl⟩ : s.Free n := h.focus.1
  cases inbox with
  | nil =>
      refine .same turn ?_
      simp only [Moment.next, afterInterpreter, take?_empty hl]
      exact .refl _
  | cons first inbox =>
      obtain ⟨t, e⟩ := first
      obtain ⟨taken, crew, -⟩ := joins_of_line around standing after hl
      exact .joins around n t e turn h.focus.2.1 taken crew

/-- Nobody joins a group but when it is taken, and no member runs but in its turns. -/
theorem Stands.mans (h : m.Stands) : m.Mans := by
  obtain ⟨focus, s⟩ := m
  have idle {focus : Focus ξ σ ρ α} (hf : ∀ main turns, focus ≠ .tasks main turns) :
      Moment.member? ⟨focus, s⟩ = none := by
    unfold Moment.member?
    split
    · next h _ => exact absurd h (hf _ _)
    · rfl
  cases focus with
  | round main => exact .same (idle nofun) (afterRound_crew main s)
  | routine p => exact .same (idle nofun) (afterRoutine_crew p s)
  | script around n standing after =>
      exact .same (idle nofun) (afterScript_crew standing h.focus.1)
  | interpreter around n standing after => exact mans_interpreter h
  | tasks main turns => exact mans_tasks h.inv main turns
  | errand main turns n e => exact .same (idle nofun) (afterErrand_crew main turns n e s)
  | finished | crashed | stuck => exact .same (idle nofun) (.refl _)

end Moment

/-! ## The turns of a member -/

/-- A member of a group that has not answered, as far as it has come. -/
def member? (s : Scheduler ξ σ) (key : Ticket × Nat) : Option (Member σ) :=
  s.crew.find? (·.key = key)

theorem InvBut.member?_eq_some_iff (hi : s.Inv) :
    s.member? key = some member ↔ member ∈ s.crew ∧ member.key = key := by
  constructor
  · intro h
    exact ⟨List.mem_of_find?_eq_some h, by simpa using List.find?_some h⟩
  · rintro ⟨hm, rfl⟩
    cases h : s.member? member.key with
    | none => simpa using List.find?_eq_none.1 h member hm
    | some member' =>
        have same : member'.key = member.key := by simpa using List.find?_some h
        rw [List.inj_on_of_nodup_map hi.distinct (List.mem_of_find?_eq_some h) hm same]

theorem InvBut.member?_eq_none (absent : ∀ member ∈ s.crew, member.key ≠ key) :
    s.member? key = none :=
  List.find?_eq_none.2 fun member hm => by simpa using absent member hm

/-- Who is in the crew of two schedulers stands for the same members. -/
theorem InvBut.member?_congr (hi : s.Inv) (hi' : s'.Inv)
    (same : ∀ member : Member σ, member.key = key → (member ∈ s'.crew ↔ member ∈ s.crew)) :
    s'.member? key = s.member? key := by
  refine Option.ext fun member => ?_
  rw [hi'.member?_eq_some_iff, hi.member?_eq_some_iff]
  exact and_congr_left fun h => same member h

/-- How a member runs, from where it stands at first, turn by turn: at which moments it
has its turns, and what is left of it then. -/
inductive Plays (p : Routine ξ σ ρ α) (s : Scheduler ξ σ) (first : Option (Member σ)) :
    List Nat → Option (Member σ) → Prop where
  | start : Plays p s first [] first
  /-- It has a turn when it is due, and runs until it stops, in the world as it is. -/
  | turn {js : List Nat} {j : Nat} {member : Member σ} {pause : Job.Pause σ Answer}
      (h : Plays p s first js (some member)) (due : (moment p s j).scheduler.clock = member.due)
      (runs : member.job.Runs member.due (moment p s j).scheduler.world pause
        (moment p s (j + 1)).scheduler.world)
      (told : ∀ a, pause.answer? = some a → (member.due, .answered member.ticket member.index a) ∈
        (moment p s (j + 1)).scheduler.history) :
      Plays p s first (js ++ [j]) (member.rest? pause)

/-- The moments of a run at which a member has its turn, before one of them. -/
def turnsOf (p : Routine ξ σ ρ α) (s : Scheduler ξ σ) (key : Ticket × Nat) (j : Nat) : List Nat :=
  (List.range j).filter fun i => (moment p s i).member?.map Member.key = some key

theorem turnsOf_succ (p : Routine ξ σ ρ α) (s : Scheduler ξ σ) (key : Ticket × Nat) (j : Nat) :
    turnsOf p s key (j + 1) =
      turnsOf p s key j ++
        if (moment p s j).member?.map Member.key = some key then [j] else [] := by
  rw [turnsOf, List.range_succ, List.filter_append, ← turnsOf]
  congr 1
  simp only [List.filter_cons, List.filter_nil, decide_eq_true_eq]

section Turns

variable {l l' n' : Nat} {e' : Effect}

/-- What is taken has not been taken before. -/
theorem untaken_of_taken {h h' : History σ} (ho : h'.Orderly)
    (hs : (l, .taken n t e) :: h <:+ h') : (l', .taken n' t e') ∉ h := by
  intro before
  obtain ⟨rfl, rfl, rfl⟩ := ho.taken_unique (hs.subset (List.mem_cons_of_mem _ before))
    (hs.subset List.mem_cons_self)
  obtain ⟨idle, -, unsettled, -⟩ := ho.fits hs
  exact unsettled (idle.served _ ((History.mem_takenOn h).2 ⟨_, before⟩))

/-- Whoever is at work is a member of a group that has been taken. -/
theorem InvBut.taken_of_crew (hi : s.Inv) (hm : member ∈ s.crew) :
    ∃ l n e, (l, .taken n member.ticket e) ∈ s.history := by
  obtain ⟨l, n, e, _, _, _, _, taken, -⟩ := hi.engaged member hm
  exact ⟨l, n, e, taken⟩

/-- A member that has its turn stands in the queue. -/
theorem Moment.Stands.mem_crew (h : m.Stands) (turn : m.member? = some member) :
    member ∈ m.scheduler.crew := by
  cases h.mans with
  | works member' others pause turn' before due runs after told =>
      cases turn'.symm.trans turn
      rw [before]
      exact List.mem_cons_self
  | joins around n t e turn' | same turn' =>
      rw [turn'] at turn
      cases turn

/-- Of a member whose group has been taken nothing is changed at a moment, unless it has
its turn. -/
theorem Moment.Stands.goes (h : m.Stands) {i : Nat}
    (taken : (l, .taken n t e) ∈ m.scheduler.history) :
    (m.member?.map Member.key ≠ some (t, i) ∧
      m.next.scheduler.member? (t, i) = m.scheduler.member? (t, i)) ∨
    ∃ member pause, m.member? = some member ∧ member.key = (t, i) ∧
      m.scheduler.member? (t, i) = some member ∧ m.scheduler.clock = member.due ∧
      member.job.Runs member.due m.scheduler.world pause m.next.scheduler.world ∧
      m.next.scheduler.member? (t, i) = member.rest? pause ∧
      ∀ a, pause.answer? = some a →
        (member.due, .answered member.ticket member.index a) ∈ m.next.scheduler.history := by
  have hi := h.inv
  have hi' := h.later.inv
  cases h.mans with
  | same turn crew =>
      refine .inl ⟨by simp [turn], hi.member?_congr hi' fun _ _ => crew.mem_iff⟩
  | joins around n' t' e' turn opened taken' crew =>
      refine .inl ⟨by simp [turn], hi.member?_congr hi' fun member key => ?_⟩
      rw [crew.mem_iff, List.mem_append]
      refine or_iff_right fun joins => ?_
      -- The group that is taken now is another one.
      obtain rfl : t = t' := (Prod.ext_iff.1 key).1.symm.trans (mem_joining joins).1
      exact untaken_of_taken hi'.orderly taken' taken
  | works member others pause turn before due runs after told =>
      have distinct := hi.distinct
      rw [before, List.map_cons, List.nodup_cons] at distinct
      by_cases key : member.key = (t, i)
      · refine .inr ⟨member, pause, turn, key, hi.member?_eq_some_iff.2
          ⟨before ▸ List.mem_cons_self, key⟩, due, runs, ?_, told⟩
        cases rest : member.rest? pause with
        | none =>
            rw [rest] at after
            refine InvBut.member?_eq_none fun other hother same => distinct.1 ?_
            rw [key, ← same]
            exact List.mem_map_of_mem (after.mem_iff.1 hother)
        | some left =>
            rw [rest] at after
            refine hi'.member?_eq_some_iff.2 ⟨after.mem_iff.2 List.mem_cons_self, ?_⟩
            rw [← key]
            cases pause with
            | done | crashed => cases rest
            | asleep => cases rest; rfl
      · refine .inl ⟨by simp [turn, key], hi.member?_congr hi' fun other same => ?_⟩
        -- What is left of the member that has its turn is another one, as it was before.
        have left : other ∉ (member.rest? pause).toList := fun h => by
          cases pause with
          | done | crashed => cases h
          | asleep due next =>
              cases List.mem_singleton.1 h
              exact key same
        rw [after.mem_iff, before, List.mem_append, List.mem_cons]
        exact or_congr (iff_of_false left fun h => key (h ▸ same)) Iff.rfl

/-- Once its group has been taken, the turns of a member are its bursts. -/
theorem Plays.run (hs : Reachable s) {i : Nat} {first : Option (Member σ)}
    (plays : Plays p s first (turnsOf p s (t, i) j) ((moment p s j).scheduler.member? (t, i)))
    (taken : (l, .taken n t e) ∈ (moment p s j).scheduler.history) (h : j ≤ k) :
    Plays p s first (turnsOf p s (t, i) k) ((moment p s k).scheduler.member? (t, i)) := by
  induction h with
  | refl => exact plays
  | @step k hk ih =>
      rw [turnsOf_succ]
      rcases (hs.stands p k).goes (i := i) ((hs.moment_steps p hk).suffix.subset taken) with
        ⟨rests, same⟩ | ⟨member, pause, turn, key, left, due, runs, rest, told⟩
      · rw [if_neg rests, List.append_nil, moment, same]
        exact ih
      · rw [if_pos (by rw [turn, Option.map_some, key]), moment, rest]
        rw [left] at ih
        exact .turn ih due runs told

/-- Before its group is taken a member has no turns. -/
theorem turnsOf_untaken (hs : Reachable s) (i : Nat)
    (untaken : ∀ l n e, (l, .taken n t e) ∉ (moment p s j).scheduler.history) :
    turnsOf p s (t, i) j = [] := by
  refine List.filter_eq_nil_iff.2 fun k hk turn => ?_
  obtain ⟨member, turn, key⟩ := Option.map_eq_some_iff.1 (of_decide_eq_true turn)
  have stands := hs.stands p k
  obtain ⟨l, n, e, taken⟩ := stands.inv.taken_of_crew (stands.mem_crew turn)
  obtain rfl : member.ticket = t := (Prod.ext_iff.1 key).1
  exact untaken l n e
    ((hs.moment_steps p (Nat.le_of_lt (List.mem_range.1 hk))).suffix.subset taken)

/-- What is taken in a run is taken at one of its moments. -/
theorem exists_taking (new : (l, .taken n t e) ∉ s.history)
    (taken : (l, .taken n t e) ∈ (moment p s j).scheduler.history) :
    ∃ i < j, (l, .taken n t e) ∉ (moment p s i).scheduler.history ∧
      (l, .taken n t e) ∈ (moment p s (i + 1)).scheduler.history := by
  induction j with
  | zero => exact absurd taken new
  | succ j ih =>
      by_cases before : (l, .taken n t e) ∈ (moment p s j).scheduler.history
      · obtain ⟨i, hi, h⟩ := ih before
        exact ⟨i, Nat.lt_succ_of_lt hi, h⟩
      · exact ⟨j, Nat.lt_succ_self j, before, taken⟩

/-- What is so when an effect has just been taken. -/
structure Joined (p : Routine ξ σ ρ α) (s : Scheduler ξ σ) (around : Surroundings σ) (l : Nat)
    (t : Ticket) (e : Effect) (j : Nat) : Prop where
  clock : (moment p s j).scheduler.clock = l
  idle : (moment p s j).member? = none
  untaken : ∀ l n e, (l, .taken n t e) ∉ (moment p s j).scheduler.history
  crew : (moment p s (j + 1)).scheduler.crew.Perm
    (joining around t e l ++ (moment p s j).scheduler.crew)
  ready : ∀ tasks, e.IsGroup → members around t 0 e.commands = .ok tasks →
    (moment p s j).scheduler.ready ++ tasks <+: (moment p s (j + 1)).scheduler.ready

theorem Reachable.joined (hs : Reachable s)
    (untaken : (l, .taken n t e) ∉ (moment p s j).scheduler.history)
    (taken : (l, .taken n t e) ∈ (moment p s (j + 1)).scheduler.history) :
    ∃ around, (moment p s j).scheduler.history.Opened n around ∧ Joined p s around l t e j := by
  have stands := hs.stands p j
  have ho := hs.moment_orderly p (j + 1)
  have old : (t, e) ∉ (moment p s j).scheduler.history.takenOn n := fun h => by
    obtain ⟨l', h⟩ := (History.mem_takenOn _).1 h
    obtain ⟨rfl, -, -⟩ := ho.taken_unique taken
      ((hs.moment_steps p (Nat.le_succ j)).suffix.subset h)
    exact untaken h
  have new : (t, e) ∈ (moment p s (j + 1)).scheduler.history.takenOn n :=
    (History.mem_takenOn _).2 ⟨l, taken⟩
  rcases stands.taking n with
    same | ⟨around, standing, after, t', e', inbox, focus, line, more, past⟩
  · exact absurd (same ▸ new) old
  · have more : (moment p s (j + 1)).scheduler.history.takenOn n = _ := more
    rw [more] at new
    cases List.mem_singleton.1 ((List.mem_append.1 new).resolve_left old)
    obtain ⟨rfl, -, -⟩ := ho.taken_unique taken (past.subset List.mem_cons_self)
    have sound := stands.focus
    rw [focus] at sound
    have next : moment p s (j + 1) =
        Moment.afterInterpreter around n standing after (moment p s j).scheduler := by
      rw [moment, Moment.next, focus]
    obtain ⟨-, crew, ready⟩ := Moment.joins_of_line around standing after line
    refine ⟨around, sound.2.1, rfl, ?_, fun l n e => untaken_of_taken ho past, next ▸ crew,
      next ▸ ready⟩
    rw [Moment.member?, focus]

/-- A member of a group that is taken in a run has not had a turn when it joins. -/
theorem Joined.start (hs : Reachable s) (joined : Joined p s around l t e j)
    {tasks : List (Task σ)} {i : Nat} {c : Command} {job : Job σ Answer} (composite : e.IsGroup)
    (ht : members around t 0 e.commands = .ok tasks) (hc : e.commands[i]? = some c)
    (hj : around.resolve? c = some job) :
    Plays p s (some ⟨t, i, l, job⟩) (turnsOf p s (t, i) (j + 1))
      ((moment p s (j + 1)).scheduler.member? (t, i)) := by
  have none : turnsOf p s (t, i) (j + 1) = [] := by
    rw [turnsOf_succ, turnsOf_untaken hs i joined.untaken, joined.idle]
    rfl
  have member : (moment p s (j + 1)).scheduler.member? (t, i) = some ⟨t, i, l, job⟩ :=
    (hs.stands p (j + 1)).inv.member?_eq_some_iff.2 ⟨joined.crew.mem_iff.2
      (List.mem_append_left _ (mem_joining_of_known composite ht hc hj)), rfl⟩
  rw [none, member]
  exact .start

end Turns

end Scheduler

end Switchboard
