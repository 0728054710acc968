import Switchboard.Proofs.Rounds

/-!
# Switchboard.Proofs.Starting

Which resolvers are started, and when.  An effect whose commands are all known
has the resolver of each of them started, once, in their order, and another
effect has none of them started: what has been started of an effect and what
stands in the queue to be started are together all that there is to start.
Nothing waits for its start longer than the moment at which its effect is taken,
and nothing is started once the effect is settled.
-/

namespace Switchboard

variable {ξ σ ρ α : Type}

/-! ## What there is to start -/

/-- The command of an effect whose resolver begins, with its index. -/
def Event.start? (t : Ticket) : Event σ → Option (Command × Nat)
  | .started u i c => if u = t then some (c, i) else none
  | _ => none

/-- The command of an effect whose resolver a task is going to begin. -/
def Task.start? (t : Ticket) : Task σ → Option (Command × Nat)
  | .begin u i c _ => if u = t then some (c, i) else none
  | _ => none

/-- The commands of an effect whose resolvers have been started, in order. -/
def History.starts (h : History σ) (t : Ticket) : List (Command × Nat) :=
  h.reverse.filterMap (·.2.start? t)

/-- The commands of an effect whose resolvers are to be started: all of them, or
none where one is unknown. -/
def Surroundings.starts (around : Surroundings σ) (e : Effect) : List (Command × Nat) :=
  if e.commands.all fun c => (around.resolve? c).isSome then e.commands.zipIdx else []

theorem Surroundings.starts_known {around : Surroundings σ} {e : Effect}
    (known : ∀ c ∈ e.commands, (around.resolve? c).isSome) :
    around.starts e = e.commands.zipIdx :=
  if_pos (List.all_eq_true.mpr known)

theorem Surroundings.starts_unknown {around : Surroundings σ} {e : Effect} {c : Command}
    (unknown : e.commands.find? (fun c => (around.resolve? c).isNone) = some c) :
    around.starts e = [] := by
  refine if_neg fun known => ?_
  have none := List.find?_some unknown
  have some := List.all_eq_true.mp known c (List.mem_of_find?_eq_some unknown)
  rw [Option.isNone_iff_eq_none] at none
  rw [none] at some
  cases some

@[simp] theorem History.starts_cons (h : History σ) (p : Nat × Event σ) (t : Ticket) :
    History.starts (p :: h) t = h.starts t ++ (p.2.start? t).toList := by
  cases hp : p.2.start? t <;> simp [starts, List.filterMap_append, hp]

theorem History.starts_append {news h : History σ} {t : Ticket}
    (quiet : ∀ p ∈ news, p.2.start? t = none) : starts (news ++ h) t = h.starts t := by
  have none : news.reverse.filterMap (·.2.start? t) = [] :=
    List.filterMap_eq_nil_iff.mpr fun p hp => quiet p (List.mem_reverse.mp hp)
  rw [starts, List.reverse_append, List.filterMap_append, none, List.append_nil, starts]

theorem History.starts_mono {h h' : History σ} (hs : h <:+ h') (t : Ticket) :
    h.starts t <+: h'.starts t :=
  (List.reverse_prefix.2 hs).filterMap _

theorem History.mem_starts {h : History σ} {t : Ticket} {c : Command} {i : Nat} :
    (c, i) ∈ h.starts t ↔ ∃ m, (m, .started t i c) ∈ h := by
  simp only [starts, List.mem_filterMap, List.mem_reverse]
  constructor
  · rintro ⟨⟨m, ev⟩, hm, he⟩
    cases ev <;> simp_all [Event.start?]
    obtain ⟨rfl, rfl, rfl⟩ := he
    exact ⟨m, hm⟩
  · rintro ⟨m, hm⟩
    exact ⟨_, hm, by simp [Event.start?]⟩

namespace Scheduler

variable {s s' : Scheduler ξ σ} {n : Nat} {t : Ticket} {e : Effect} {around : Surroundings σ}
  {inbox : List (Ticket × Effect)}

/-- The commands of an effect whose resolvers are about to be started. -/
def toStart (s : Scheduler ξ σ) (t : Ticket) : List (Command × Nat) :=
  s.ready.filterMap (·.start? t)

/-- The tasks of a group start its commands. -/
theorem members_starts {k : Nat} {cs : List Command} {tasks : List (Task σ)}
    (h : members around t k cs = .ok tasks) (u : Ticket) :
    tasks.filterMap (·.start? u) = if t = u then cs.zipIdx k else [] := by
  induction cs generalizing k tasks with
  | nil =>
      cases h
      simp
  | cons c cs ih =>
      obtain ⟨j, rest, -, hrest, rfl⟩ := members_cons_ok h
      by_cases hu : t = u
      · have first : (Task.begin t k c j).start? u = some (c, k) := if_pos hu
        rw [List.filterMap_cons_some first, ih hrest, if_pos hu, if_pos hu, List.zipIdx_cons]
      · have first : (Task.begin t k c j).start? u = none := if_neg hu
        rw [List.filterMap_cons_none first, ih hrest, if_neg hu, if_neg hu]

/-- Whoever is about to be started is a member of the crew. -/
theorem toStart_eq_nil (absent : ∀ m ∈ s.crew, m.ticket ≠ t) : s.toStart t = [] := by
  refine List.filterMap_eq_nil_iff.2 fun task htask => ?_
  cases task with
  | begin u i c j =>
      have crew : (⟨u, i, s.clock, j⟩ : Member σ) ∈ s.crew :=
        List.mem_append_left _ (List.mem_filterMap.2 ⟨_, htask, rfl⟩)
      exact if_neg (absent _ crew)
  | resume | errand => rfl

/-- No member of a group is to be started while none stands in the queue. -/
theorem Quiet.toStart_eq_nil (quiet : s.Quiet) : s.toStart t = [] := by
  refine List.filterMap_eq_nil_iff.2 fun task htask => ?_
  have stopped := List.filterMap_eq_nil_iff.1 quiet task htask
  cases task with
  | begin => cases stopped
  | resume | errand => rfl

/-! ## The invariant -/

/-- The resolvers of every effect are started in order, and at once. -/
structure Launches (s : Scheduler ξ σ) : Prop where
  prompt : ∀ m t i c, (m, .started t i c) ∈ s.history → ∃ n e, (m, .taken n t e) ∈ s.history
  waiting : ∀ t p, p ∈ s.toStart t → ∃ n e, (s.clock, .taken n t e) ∈ s.history
  asleep : ∀ p ∈ s.timers, ∀ task, p.2.task? = some task → ∀ t, task.start? t = none
  all : ∀ m n t e around, (m, .taken n t e) ∈ s.history → s.history.Opened n around →
    s.history.starts t ++ s.toStart t = around.starts e
  settled : ∀ m t o past, (m, .settled t o) :: past <:+ s.history →
    History.starts past t = s.history.starts t ∧ s.toStart t = []

/-- An event that says nothing of what is to be started. -/
def Calm : Event σ → Prop
  | .opened _ _ | .taken _ _ _ | .started _ _ _ | .settled _ _ => False
  | _ => True

namespace Launches

/-- Of what has not been taken, nothing is started. -/
theorem untaken (h : s.Launches) (none : ∀ m n e, (m, .taken n t e) ∉ s.history) :
    s.history.starts t = [] ∧ s.toStart t = [] := by
  constructor
  · rw [List.eq_nil_iff_forall_not_mem]
    rintro ⟨c, i⟩ hp
    obtain ⟨m, started⟩ := History.mem_starts.1 hp
    obtain ⟨n, e, taken⟩ := h.prompt m t i c started
    exact none m n e taken
  · rw [List.eq_nil_iff_forall_not_mem]
    intro p hp
    obtain ⟨n, e, taken⟩ := h.waiting t p hp
    exact none _ n e taken

theorem next (h : s.Launches) (hi : s.Inv) (hx : s.Next n around t e inbox) :
    s.history.starts t = [] ∧ s.toStart t = [] :=
  h.untaken fun m n' e' taken => hi.next_untaken hx n' e' ((s.history.mem_takenOn).2 ⟨m, taken⟩)

/-- A step that starts nothing. -/
theorem keep (h : s.Launches) (news : History σ) (history : s'.history = news ++ s.history)
    (calm : ∀ p ∈ news, Calm p.2) (clock : s'.clock = s.clock)
    (ready : ∀ t, s'.toStart t = s.toStart t)
    (timers : ∀ p ∈ s'.timers, p ∈ s.timers ∨
      ∀ task, p.2.task? = some task → ∀ t, task.start? t = none) : s'.Launches := by
  have starts (t : Ticket) : s'.history.starts t = s.history.starts t := by
    rw [history]
    refine History.starts_append fun p hp => ?_
    have := calm p hp
    obtain ⟨m, ev⟩ := p
    cases ev <;> first | rfl | exact this.elim
  have old {p : Nat × Event σ} (hp : p ∈ s'.history) (loud : ¬ Calm p.2) : p ∈ s.history := by
    rw [history] at hp
    exact (List.mem_append.1 hp).resolve_left fun h => loud (calm p h)
  have sub : s.history ⊆ s'.history := history ▸ List.subset_append_right _ _
  refine ⟨fun m t i c hm => ?_, fun t p hp => ?_, fun p hp => ?_, fun m n t e around ht ho => ?_,
    fun m t o past hs => ?_⟩
  · obtain ⟨n, e, taken⟩ := h.prompt m t i c (old hm id)
    exact ⟨n, e, sub taken⟩
  · rw [ready] at hp
    obtain ⟨n, e, taken⟩ := h.waiting t p hp
    exact ⟨n, e, clock ▸ sub taken⟩
  · exact (timers p hp).elim (h.asleep p) id
  · obtain ⟨m', ho⟩ := ho
    rw [starts, ready]
    exact h.all m n t e around (old ht id) ⟨m', old ho id⟩
  · have hs : (m, .settled t o) :: past <:+ s.history := by
      rw [history] at hs
      clear history starts old sub
      induction news with
      | nil => exact hs
      | cons q news ih =>
          rcases List.suffix_cons_iff.1 hs with heq | hs
          · cases heq
            exact (calm _ List.mem_cons_self).elim
          · exact ih (fun p hp => calm p (List.mem_cons_of_mem _ hp)) hs
    rw [starts, ready]
    exact h.settled m t o past hs

/-- A step that notes nothing. -/
theorem still (h : s.Launches) (history : s'.history = s.history) (clock : s'.clock = s.clock)
    (ready : ∀ t, s'.toStart t = s.toStart t)
    (timers : ∀ p ∈ s'.timers, p ∈ s.timers ∨
      ∀ task, p.2.task? = some task → ∀ t, task.start? t = none) : s'.Launches :=
  h.keep [] history (by simp) clock ready timers

/-- A calm event is noted. -/
theorem note (h : s.Launches) (ev : Event σ) (calm : Calm ev) : (s.log ev).Launches :=
  h.keep [(s.clock, ev)] rfl (by simpa using calm) rfl (fun _ => rfl) fun _ => .inl

theorem toStart_settle (s : Scheduler ξ σ) (t : Ticket) (o : Outcome) (u : Ticket) :
    (s.settle t o).toStart u = s.toStart u := by
  have none : ((s.waiters t).map Waiter.task).filterMap (·.start? u) = [] := by
    refine List.filterMap_eq_nil_iff.2 fun task htask => ?_
    obtain ⟨w, -, rfl⟩ := List.mem_map.1 htask
    rfl
  show (s.ready ++ (s.waiters t).map Waiter.task).filterMap (·.start? u) = _
  rw [List.filterMap_append, none, List.append_nil, toStart]

/-- An outcome is sent when everything has been started. -/
theorem settle (h : s.Launches) (done : s.toStart t = []) (o : Outcome) :
    (s.settle t o).Launches := by
  have starts (u : Ticket) : (s.settle t o).history.starts u = s.history.starts u := by
    rw [settle_history, History.starts_cons]
    exact List.append_nil _
  have sub : s.history ⊆ (s.settle t o).history := by
    rw [settle_history]
    exact List.subset_cons_self _ _
  refine ⟨fun m u i c hm => ?_, fun u p hp => ?_, h.asleep, fun m n u e around ht ho => ?_,
    fun m u o' past hs => ?_⟩
  · obtain ⟨n, e, taken⟩ := h.prompt m u i c (by simpa using hm)
    exact ⟨n, e, sub taken⟩
  · rw [toStart_settle] at hp
    obtain ⟨n, e, taken⟩ := h.waiting u p hp
    exact ⟨n, e, sub taken⟩
  · rw [starts, toStart_settle]
    exact h.all m n u e around (by simpa using ht) (by simpa using ho)
  · rw [starts, toStart_settle]
    rw [settle_history] at hs
    rcases List.suffix_cons_iff.1 hs with heq | hs
    · cases heq
      exact ⟨rfl, done⟩
    · exact h.settled m u o' past hs

theorem settleAll (h : s.Launches) {ts : List Ticket} (done : ∀ t ∈ ts, s.toStart t = [])
    (o : Outcome) : (s.settleAll o ts).Launches := by
  induction ts generalizing s with
  | nil => exact h
  | cons t ts ih =>
      obtain ⟨first, rest⟩ := List.forall_mem_cons.1 done
      refine ih (h.settle first o) fun u hu => ?_
      rw [toStart_settle]
      exact rest u hu

/-- A line is closed while no group is being resolved. -/
theorem closeLine (h : s.Launches) (hi : s.Inv) (finished : Bool) {l : Line σ}
    (hl : s.line = some l) (ungrouped : ∀ t e slots, l.current ≠ some (t, .group e slots)) :
    (s.closeLine finished).Launches := by
  simp only [Scheduler.closeLine, hl]
  have ended : ({ s with line := none }.log (.ended l.number finished)).Launches :=
    h.keep [(s.clock, .ended l.number finished)] rfl (by simp [Calm]) rfl
      (fun _ => rfl) fun _ => .inl
  refine ended.settleAll (fun t ht => ?_) _
  show s.toStart t = []
  refine toStart_eq_nil fun m hm hmt => ?_
  exact hi.crew_not_pending hl ungrouped hm (hmt ▸ ht)

theorem emit (h : s.Launches) (hi : s.Inv) (n : Nat) (e : Effect) : (s.emit n e).2.Launches := by
  by_cases hl : ∃ l, s.line = some l ∧ l.number = n
  · obtain ⟨l, hl, rfl⟩ := hl
    rw [emit_open s e hl]
    exact h.keep [(s.clock, .emitted l.number s.nextTicket e)] rfl (by simp [Calm]) rfl
      (fun _ => rfl) fun _ => .inl
  · rw [emit_closed s e fun l h hn => hl ⟨l, h, hn⟩]
    have emitted : ({ s with nextTicket := s.nextTicket + 1 }.log
        (.emitted n s.nextTicket e)).Launches :=
      h.keep [(s.clock, .emitted n s.nextTicket e)] rfl (by simp [Calm]) rfl
        (fun _ => rfl) fun _ => .inl
    refine emitted.settle ?_ _
    exact (h.untaken fun m n' e' taken =>
      hi.not_taken_next n' e' ((s.history.mem_takenOn).2 ⟨m, taken⟩)).2

/-- A line is opened: nothing has been taken off it. -/
theorem openLine (h : s.Launches) (hi : s.Inv) (around : Surroundings σ) :
    (s.openLine around).Launches := by
  have starts (t : Ticket) : (s.openLine around).history.starts t = s.history.starts t :=
    (History.starts_cons ..).trans (List.append_nil _)
  refine ⟨fun m t i c hm => ?_, fun t p hp => ?_, h.asleep, fun m n t e around' ht ho => ?_,
    fun m t o past hs => ?_⟩
  · obtain ⟨n, e, taken⟩ := h.prompt m t i c (by simpa [Scheduler.openLine, log] using hm)
    exact ⟨n, e, List.mem_cons_of_mem _ taken⟩
  · obtain ⟨n, e, taken⟩ := h.waiting t p hp
    exact ⟨n, e, List.mem_cons_of_mem _ taken⟩
  · have ht : (m, .taken n t e) ∈ s.history := by simpa [Scheduler.openLine, log] using ht
    rw [starts]
    refine h.all m n t e around' ht ?_
    have ho : Event.opened s.nextLine around = .opened n around' ∨ s.history.Opened n around' := by
      simpa [Scheduler.openLine, log] using ho
    refine ho.resolve_left fun heq => ?_
    cases heq
    exact Nat.lt_irrefl _ (hi.lines _ ht _ rfl)
  · have hs : (m, .settled t o) :: past <:+ s.history :=
      (List.suffix_cons_iff.1 hs).resolve_left fun heq => by cases (List.cons.inj heq).1
    rw [starts]
    exact h.settled m t o past hs

/-! ## Effects and their resolvers -/

/-- An effect is taken, and all that is to be started of it waits for its
start. -/
theorem take (h : s.Launches) (hi : s.Inv) (hx : s.Next n around t e inbox)
    (history : s'.history = (s.clock, .taken n t e) :: s.history) (clock : s'.clock = s.clock)
    (timers : s'.timers = s.timers) (own : s'.toStart t = around.starts e)
    (others : ∀ u, u ≠ t → s'.toStart u = s.toStart u) : s'.Launches := by
  have untaken : ∀ m n' e', (m, .taken n' t e') ∉ s.history := fun m n' e' taken =>
    hi.next_untaken hx n' e' ((s.history.mem_takenOn).2 ⟨m, taken⟩)
  have starts (u : Ticket) : s'.history.starts u = s.history.starts u := by
    rw [history, History.starts_cons]
    exact List.append_nil _
  refine ⟨fun m u i c hm => ?_, fun u p hp => ?_, timers ▸ h.asleep,
    fun m n' u e' around' ht ho => ?_, fun m u o past hs => ?_⟩
  · obtain ⟨n', e', taken⟩ := h.prompt m u i c (by simpa [history] using hm)
    exact ⟨n', e', history ▸ List.mem_cons_of_mem _ taken⟩
  · rw [history, clock]
    by_cases hu : u = t
    · exact ⟨n, e, hu ▸ List.mem_cons_self⟩
    · rw [others u hu] at hp
      obtain ⟨n', e', taken⟩ := h.waiting u p hp
      exact ⟨n', e', List.mem_cons_of_mem _ taken⟩
  · have ho : s.history.Opened n' around' := by simpa [history] using ho
    rw [starts]
    rw [history] at ht
    rcases List.mem_cons.1 ht with heq | ht
    · cases heq
      rw [(h.next hi hx).1, own, hi.orderly.opened_unique ho hx.opened]
      rfl
    · have hu : u ≠ t := fun hu => untaken m n' e' (hu ▸ ht)
      rw [others u hu]
      exact h.all m n' u e' around' ht ho
  · have hs : (m, .settled u o) :: past <:+ s.history := by
      rw [history] at hs
      exact (List.suffix_cons_iff.1 hs).resolve_left fun heq => by cases (List.cons.inj heq).1
    have hu : u ≠ t := fun hu => hi.next_unsettled hx ⟨m, o, hu ▸ hs.subset List.mem_cons_self⟩
    rw [starts, others u hu]
    exact h.settled m u o past hs

/-- An effect is refused: nothing is to be started of it. -/
theorem refuse (h : s.Launches) (hi : s.Inv) (hx : s.Next n around t e inbox) {c : Command}
    (unknown : e.commands.find? (fun c => (around.resolve? c).isNone) = some c) (o : Outcome) :
    (({ s with line := some { number := n, inbox } }.log (.taken n t e)).settle t o).Launches := by
  have untaken := (h.next hi hx).2
  have none : s.toStart t = around.starts e := by rw [untaken, Surroundings.starts_unknown unknown]
  have taken : ({ s with line := some { number := n, inbox } }.log (.taken n t e)).Launches :=
    h.take hi hx rfl rfl rfl none fun _ _ => rfl
  exact taken.settle untaken o

/-- A group is taken, and all its members wait for their start. -/
theorem takeGroup (h : s.Launches) (hi : s.Inv) (hx : s.Next n around t e inbox)
    {tasks : List (Task σ)} (ht : members around t 0 e.commands = .ok tasks)
    (line : Option (Line σ)) :
    ({ s with line, ready := s.ready ++ tasks }.log (.taken n t e)).Launches := by
  have toStart (u : Ticket) : (s.ready ++ tasks).filterMap (·.start? u) =
      s.toStart u ++ if t = u then e.commands.zipIdx else [] := by
    rw [List.filterMap_append, members_starts ht, Scheduler.toStart]
  refine h.take hi hx rfl rfl rfl ((toStart t).trans ?_) fun u hu => (toStart u).trans ?_
  · rw [(h.next hi hx).2, if_pos rfl, Surroundings.starts_known (members_known ht), List.nil_append]
  · rw [if_neg fun h => hu h.symm, List.append_nil]

/-- A resolver is started. -/
theorem begin (h : s.Launches) {i : Nat} {c : Command} {j : Job σ Answer} {rest : List (Task σ)}
    (hr : s.ready = .begin t i c j :: rest) :
    ({ s with ready := .resume t i j :: rest }.log (.started t i c)).Launches := by
  let s' : Scheduler ξ σ := { s with ready := .resume t i j :: rest }.log (.started t i c)
  have toStart (u : Ticket) : s.toStart u = (if t = u then [(c, i)] else []) ++ s'.toStart u := by
    show s.ready.filterMap (·.start? u) = _ ++ (Task.resume t i j :: rest).filterMap (·.start? u)
    rw [hr]
    by_cases hu : t = u <;> simp [Task.start?, hu]
  have starts (u : Ticket) :
      s'.history.starts u = s.history.starts u ++ if t = u then [(c, i)] else [] := by
    by_cases hu : t = u <;> simp [s', log, Event.start?, hu]
  have first : (c, i) ∈ s.toStart t := by
    rw [toStart, if_pos rfl]
    exact List.mem_cons_self
  refine ⟨fun m u i' c' hm => ?_, fun u p hp => ?_, h.asleep, fun m n u e around ht ho => ?_,
    fun m u o past hs => ?_⟩
  · rcases List.mem_cons.1 hm with heq | hm
    · cases heq
      obtain ⟨n, e, taken⟩ := h.waiting t _ first
      exact ⟨n, e, List.mem_cons_of_mem _ taken⟩
    · obtain ⟨n, e, taken⟩ := h.prompt m u i' c' hm
      exact ⟨n, e, List.mem_cons_of_mem _ taken⟩
  · obtain ⟨n, e, taken⟩ := h.waiting u p (toStart u ▸ List.mem_append_right _ hp)
    exact ⟨n, e, List.mem_cons_of_mem _ taken⟩
  · rw [← h.all m n u e around (by simpa [log] using ht) (by simpa [log] using ho), toStart, starts,
      List.append_assoc]
  · have hs : (m, .settled u o) :: past <:+ s.history :=
      (List.suffix_cons_iff.1 hs).resolve_left fun heq => by cases (List.cons.inj heq).1
    obtain ⟨same, none⟩ := h.settled m u o past hs
    have hu : t ≠ u := by
      rintro rfl
      rw [none] at first
      cases first
    rw [toStart, if_neg hu] at none
    rw [starts, if_neg hu, List.append_nil]
    exact ⟨same, none⟩

/-- A task that starts nothing leaves the head of the queue. -/
theorem leave (h : s.Launches) {task : Task σ} {rest : List (Task σ)} (hr : s.ready = task :: rest)
    (idle : ∀ t, task.start? t = none) : Launches { s with ready := rest } := by
  refine h.still rfl rfl (fun u => ?_) fun _ => .inl
  show rest.filterMap (·.start? u) = s.ready.filterMap (·.start? u)
  rw [hr, List.filterMap_cons_none (idle u)]

/-- A single command is taken, and its resolver is started at once. -/
theorem takeSingle (h : s.Launches) (hi : s.Inv) {c : Command}
    (hx : s.Next n around t (.single c) inbox) {job : Job σ Answer}
    (hj : around.resolve? c = some job) (line : Option (Line σ)) :
    (({ s with line }.log (.taken n t (.single c))).log (.started t 0 c)).Launches := by
  have known : ∀ c' ∈ (Effect.single c).commands, (around.resolve? c').isSome := by
    simp [Effect.commands, hj]
  -- It is as if it had stood at the head of the queue.
  have taken : ({ s with ready := .begin t 0 c job :: s.ready }.log
      (.taken n t (.single c))).Launches := by
    refine h.take hi hx rfl rfl rfl ?_ fun u hu => ?_
    · have first : (Task.begin t 0 c job).start? t = some (c, 0) := if_pos rfl
      show (Task.begin t 0 c job :: s.ready).filterMap (·.start? t) = _
      rw [List.filterMap_cons_some first, Surroundings.starts_known known]
      exact congrArg _ (h.next hi hx).2
    · have other : (Task.begin t 0 c job).start? u = none := if_neg fun h => hu h.symm
      exact List.filterMap_cons_none other
  have left := (taken.begin rfl).leave rfl fun _ => rfl
  exact left.still rfl rfl (fun _ => rfl) fun _ => .inl

theorem addTimer (h : s.Launches) (due : Nat) (who : Sleeper σ)
    (idle : ∀ task, who.task? = some task → ∀ t, task.start? t = none) :
    (s.addTimer due who).Launches := by
  refine h.still rfl rfl (fun _ => rfl) fun p hp => ?_
  rcases mem_insertTimer.1 hp with rfl | hp
  · exact .inr idle
  · exact .inl hp

theorem report (h : s.Launches) (t : Ticket) (i : Nat) (a : Answer) :
    (s.report t i a).Launches := by
  have told := h.note (.answered t i a) trivial
  by_cases hb : ∃ n e slots, s.Busy n t (.group e slots)
  · obtain ⟨n, e, slots, inbox, hl⟩ := hb
    rw [report_group s a hl]
    exact told.still rfl rfl (fun _ => rfl) fun _ => .inl
  · rw [report_other s a fun n e slots h => hb ⟨n, e, slots, h⟩]
    exact told

theorem runMember (h : s.Launches) (t : Ticket) (i : Nat) (j : Job σ Answer) :
    (s.runMember t i j).Launches := by
  have touched (w : World σ) : Launches { s with world := w } :=
    h.still rfl rfl (fun _ => rfl) fun _ => .inl
  unfold Scheduler.runMember
  split
  · next w _ => exact (touched w).report t i _
  · next w _ => exact (touched w).report t i _
  · next due next w _ =>
    refine (touched w).addTimer due _ fun task htask u => ?_
    cases htask
    rfl

theorem runSingle (h : s.Launches) (done : s.toStart t = []) (job : Job σ Answer) :
    (s.runSingle t job).state.Launches := by
  unfold Scheduler.runSingle
  split
  · next a w _ =>
    have told : (s.log (.answered t 0 a)).Launches := h.note _ trivial
    have free : (({ s with world := w }.log (.answered t 0 a)).setCurrent none).Launches :=
      told.still rfl rfl (fun _ => rfl) fun _ => .inl
    exact free.settle done _
  · exact h.still rfl rfl (fun _ => rfl) fun _ => .inl
  · next due next w _ =>
    have resting := h.addTimer due .main fun task htask => by cases htask
    exact resting.still rfl rfl (fun _ => rfl) fun _ => .inl

/-- The members of a group that is decided have been started. -/
theorem toStart_decided (h : s.Launches) (hi : s.Inv) {slots : List (Option Answer)}
    (hb : s.Busy n t (.group e slots)) (hq : e.size = 0 ∨ s.Quiet) : s.toStart t = [] := by
  refine hq.elim (fun hq => ?_) Quiet.toStart_eq_nil
  obtain ⟨inbox, hline⟩ := hb
  obtain ⟨-, m₀, around, taken, opened, -⟩ := ((hi.onLine _ hline).underway t _ rfl).group_inv
  have none : e.commands = [] := List.length_eq_zero_iff.1 hq
  have nothing : around.starts e = [] := by simp [Surroundings.starts, none]
  exact (List.append_eq_nil_iff.1 ((h.all m₀ n t e around taken opened).trans nothing)).2

/-- The clock moves on when nothing waits for its start. -/
theorem advance (h : s.Launches) (hr : s.ready = []) (ha : s.advance? = some s') :
    s'.Launches := by
  obtain ⟨due, who, rest, -, rfl⟩ := advance_eq ha
  have none (u : Ticket) : s.toStart u = [] := by rw [toStart, hr, List.filterMap_nil]
  have woken (u : Ticket) : (wakeDue { s with clock := max s.clock due }).toStart u = [] := by
    rw [toStart, wakeDue, hr, List.nil_append]
    refine List.filterMap_eq_nil_iff.2 fun task htask => ?_
    obtain ⟨p, hp, htask⟩ := List.mem_filterMap.1 htask
    exact h.asleep p ((List.takeWhile_sublist _).subset hp) task htask u
  refine { h with
    waiting := fun u p hp => ?_
    asleep := fun p hp => h.asleep p ((List.dropWhile_sublist _).subset hp)
    all := fun m n u e around ht ho => ?_
    settled := fun m u o past hs => ⟨(h.settled m u o past hs).1, woken u⟩ }
  · rw [woken] at hp
    cases hp
  · rw [woken, ← none u]
    exact h.all m n u e around ht ho

end Launches

/-! ## Steps -/

theorem Step.launches (h : Step s s') (hi : s.Inv) (hl : s.Launches) : s'.Launches := by
  cases h with
  | touch | drop => exact hl.still rfl rfl (fun _ => rfl) fun _ => .inl
  | park => exact hl.still rfl rfl (fun _ => rfl) fun _ => .inl
  | resume | poll => exact hl.note _ trivial
  | emit n e => exact hl.emit hi n e
  | spawn n e =>
      refine hl.still rfl rfl (fun u => ?_) fun _ => .inl
      show (s.ready ++ [Task.errand n e]).filterMap (·.start? u) = _
      rw [List.filterMap_append]
      exact List.append_nil _
  | pop n e rest hr => exact hl.leave hr fun _ => rfl
  | rest due who hd hm hn =>
      refine hl.addTimer due _ fun task htask u => ?_
      rw [Sleeper.member?, htask] at hm
      cases task with
      | begin => cases hm
      | resume | errand => rfl
  | begin t i c j rest hr => exact hl.begin hr
  | work t i j rest hr =>
      have left := hl.leave hr fun _ => rfl
      exact left.runMember t i j
  | interpret around => exact hl.openLine hi around
  | refuse n around t e inbox c hx hc => exact hl.refuse hi hx hc _
  | takeSingle n around t c inbox job hx hj => exact hl.takeSingle hi hx hj _
  | takeGroup n around t e inbox tasks hx _ ht => exact hl.takeGroup hi hx ht _
  | single n t job hb =>
      have absent (m : Member σ) (hm : m ∈ s.crew) : m.ticket ≠ t := by
        rintro rfl
        exact hi.apart hm n _ job hb
      exact hl.runSingle (toStart_eq_nil absent) job
  | decide n t e slots r hb hr hq =>
      have free : (s.setCurrent none).Launches := hl.still rfl rfl (fun _ => rfl) fun _ => .inl
      exact free.settle (hl.toStart_decided hi hb hq) _
  | finish n hf =>
      obtain ⟨inbox, hline⟩ := hf
      exact hl.closeLine hi true hline (by simp)
  | breakOff n t hb =>
      obtain ⟨inbox, hline⟩ := hb
      exact hl.closeLine hi false hline (by simp)
  | advance _ hr _ ha => exact hl.advance hr ha

/-! ## Runs -/

theorem invariant_launches : Invariant (Launches (ξ := ξ) (σ := σ)) where
  fresh _ _ := ⟨by simp, by simp [toStart], by simp, by simp, by simp⟩
  step h hi := h.launches hi

/-- However far a run has come, it has started what there was to start. -/
theorem Reachable.runFor_launches (h : Reachable s) (p : Routine ξ σ ρ α) (k : Nat) :
    (runFor p s k).scheduler.Launches :=
  invariant_launches.runFor h p k

end Scheduler

end Switchboard
