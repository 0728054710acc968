import Switchboard.Proofs.Kept

/-!
# Switchboard.Proofs.Resolving

The steps in which an effect is resolved keep the invariant: a resolver
answers or falls asleep, an outcome is sent, the line is closed, and the clock
moves on.
-/

namespace Switchboard.Scheduler

variable {ξ σ : Type} {s s' : Scheduler ξ σ} {owed : List Ticket} {n : Nat} {t : Ticket}
  {inbox : List (Ticket × Effect)} {w : Work σ}

theorem setCurrent_eq {current c : Option (Ticket × Work σ)}
    (hl : s.line = some { number := n, inbox, current }) :
    s.setCurrent c = { s with line := some { number := n, inbox, current := c } } := by
  simp [setCurrent, hl]

/-- The interpreter is not at work on an effect. -/
def Aside (s : Scheduler ξ σ) (t : Ticket) : Prop := ∀ n w, ¬ s.Busy n t w

theorem Free.aside (hf : s.Free n) : s.Aside t := fun _ _ => hf.not_busy

/-! ## What is known of an effect that is being resolved -/

theorem Underway.single_inv {due : Nat} {j : Job σ Answer} (hu : s.Underway n t (.single due j)) :
    ∃ m₀ d c around job, (m₀, .taken n t (.single c)) ∈ s.history ∧ s.history.Opened n around ∧
      around.resolve? c = some job ∧ job.After d j ∧ due = m₀ + d ∧ s.clock ≤ due ∧
      s.history.answer? t 0 = none ∧ (s.clock < due → (due, .main) ∈ s.timers) := by
  generalize hw : Work.single due j = w at hu
  cases hu with
  | single m₀ d c around job job' taken opened known after clock unanswered timer =>
      cases hw
      exact ⟨m₀, d, c, around, job, taken, opened, known, after, rfl, clock, unanswered, timer⟩
  | group => cases hw

theorem Underway.group_inv {e : Effect} {slots : List (Option Answer)}
    (hu : s.Underway n t (.group e slots)) :
    slots = s.history.slots t e.size ∧ ∃ m₀ around, (m₀, .taken n t e) ∈ s.history ∧
      s.history.Opened n around ∧ e.IsGroup ∧ (∀ c ∈ e.commands, (around.resolve? c).isSome) ∧
      (m₀ < s.clock → FanIn.outcome? ((s.history.before s.clock).slots t e.size) = none) ∧
      ∀ i < e.size, s.history.answer? t i = none → (t, i) ∈ s.crew.map Member.key := by
  generalize hw : Work.group e slots = w at hu
  cases hu with
  | single => cases hw
  | group m₀ e around taken opened composite known undecided atWork =>
      cases hw
      exact ⟨rfl, m₀, around, taken, opened, composite, known, undecided, atWork⟩

namespace InvBut

/-! ## The effect that is being resolved -/

/-- The interpreter lays an effect aside; its outcome is owed. -/
theorem release (hi : s.Inv) (hl : s.line = some { number := n, inbox, current := some (t, w) }) :
    InvBut { s with line := some { number := n, inbox } } [t] := by
  have hol := hi.onLine _ hl
  refine { hi with
    pending := fun m n' u e he => ?_
    ended := fun n' around h => by simpa [hl] using hi.ended n' around h
    onLine := fun l hl' => ?_
    engaged := hi.engaged }
  · rcases hi.pending m n' u e he with h | ⟨l, hl', hn, hu⟩ | hu
    · exact .inl h
    · rw [hl] at hl'
      cases hl'
      simp only [Line.pending, Option.map_some, Option.toList_some, List.singleton_append,
        List.mem_cons] at hu
      rcases hu with rfl | hu
      · exact .inr (.inr (List.mem_singleton_self u))
      · exact .inr (.inl ⟨_, rfl, hn, by simpa [Line.pending] using hu⟩)
    · cases hu
  · cases hl'
    refine ⟨hol.opened, hol.unended, hol.queue, fun p hp => ?_, fun u hu => hol.unsettled u ?_,
      by simp⟩
    · have := hol.served p hp
      simp only [Option.map_some, Option.some.injEq, List.mem_singleton] at this ⊢
      grind
    · exact List.mem_append_right _ (by simpa [Line.pending] using hu)

theorem unsettled_current (hi : s.Inv)
    (hl : s.line = some { number := n, inbox, current := some (t, w) }) :
    ¬ s.history.Settled t :=
  (hi.onLine _ hl).unsettled t (by simp [Line.pending])

/-- What is being resolved has been taken, so it does not wait any more. -/
theorem current_not_waiting (hi : s.Inv)
    (hl : s.line = some { number := n, inbox, current := some (t, w) }) :
    t ∉ inbox.map (·.1) := by
  have hol := hi.onLine _ hl
  obtain ⟨m, e, taken⟩ := (hol.underway t w rfl).taken
  have hd := hi.orderly.sentOn_nodup n
  rw [hol.queue, List.map_append, List.nodup_append] at hd
  intro ht
  exact hd.2.2 t (List.mem_map.2 ⟨_, (s.history.mem_takenOn).2 ⟨m, taken⟩, rfl⟩) t ht rfl

/-- A member of a group belongs to the group, not to a single command. -/
theorem crew_not_single (hi : s.InvBut owed) {m₀ : Nat} {c : Command}
    (taken : (m₀, .taken n t (.single c)) ∈ s.history) {m : Member σ} (hm : m ∈ s.crew) :
    m.ticket ≠ t := by
  rintro rfl
  obtain ⟨m₁, n', e, ht, he, -⟩ := hi.crew_taken hm
  obtain ⟨-, -, rfl⟩ := hi.orderly.taken_unique ht taken
  exact he

/-- A member of a group is not at work in its place. -/
theorem apart (hi : s.InvBut owed) {m : Member σ} (hm : m ∈ s.crew) (n due : Nat)
    (job : Job σ Answer) : ¬ s.Busy n m.ticket (.single due job) := by
  rintro ⟨inbox, hl⟩
  obtain ⟨m₀, d, c, around, job₀, taken, -⟩ := ((hi.onLine _ hl).underway _ _ rfl).single_inv
  exact hi.crew_not_single taken hm rfl

/-! ## Members and resolvers -/

/-- A member of a group goes, while its group is not being looked at. -/
theorem leave (hi : s.InvBut owed) (aside : s.Aside t) {i : Nat} {j : Job σ Answer}
    {rest : List (Task σ)} (hr : s.ready = .resume t i j :: rest) :
    InvBut { s with ready := rest } owed := by
  have crew := crew_head hr rfl
  have sub {m : Member σ} (hm : m ∈ Scheduler.crew { s with ready := rest }) : m ∈ s.crew :=
    crew ▸ List.mem_cons_of_mem _ hm
  refine { hi with
    handles := fun n' hn' =>
      hi.handles n' (by simpa [Scheduler.handles, hr, Task.handle?] using hn')
    onLine := fun l hl => ?_
    engaged := fun m hm => hi.engaged m (sub hm)
    distinct := by
      have hd := hi.distinct
      rw [crew] at hd
      exact (List.nodup_cons.1 hd).2
    unanswered := fun m hm => hi.unanswered m (sub hm)
    late := fun m hm => hi.late m (sub hm) }
  have hol := hi.onLine l hl
  refine { hol with underway := fun u w hw => ?_ }
  refine (hol.underway u w hw).mono (List.Subset.refl _) rfl (fun _ => rfl) (fun _ => rfl)
    (fun k hk hu => ?_) fun _ h => h
  rw [crew, List.map_cons, List.mem_cons] at hk
  refine hk.resolve_left fun h => aside l.number w ⟨l.inbox, ?_⟩
  have htu : u = t := by rw [← hu, h]; rfl
  rw [hl, ← htu, ← hw]

/-- The resolver of a command has answered. -/
theorem answered (hi : s.InvBut owed) (aside : s.Aside t) {i : Nat} {a : Answer}
    (unanswered : s.history.answer? t i = none)
    (late : ∀ m o, (m, .settled t o) ∈ s.history → m < s.clock)
    (authentic : s.history.Authentic s.clock t i a)
    (absent : ∀ m ∈ s.crew, m.key ≠ (t, i)) : (s.log (.answered t i a)).InvBut owed := by
  have sub : s.history ⊆ (s.clock, .answered t i a) :: s.history := List.subset_cons_self _ _
  refine
    { orderly := ⟨⟨unanswered, late, authentic⟩, hi.past, hi.orderly⟩
      past := List.forall_mem_cons.2 ⟨Nat.le_refl _, hi.past⟩
      lines := List.forall_mem_cons.2 ⟨fun n h => (by cases h), hi.lines⟩
      tickets := fun m n u e he => hi.tickets m n u e (by simpa [log] using he)
      outcomes := fun u o ho => (hi.outcomes u o ho).imp fun _ h => sub h
      handles := hi.handles
      pending := fun m n u e he => by
        simpa [log] using hi.pending m n u e (by simpa [log] using he)
      ended := fun n around h => by simpa [log] using hi.ended n around (by simpa [log] using h)
      onLine := fun l hl => ?_
      engaged := fun m hm => (hi.engaged m hm).mono sub
      distinct := hi.distinct
      unanswered := fun m hm => ?_
      late := fun m hm m' o ho => hi.late m hm m' o (by simpa [log] using ho)
      sorted := hi.sorted
      ahead := hi.ahead }
  · have hol := hi.onLine l hl
    refine ⟨by simpa [log] using hol.opened, by simpa [log] using hol.unended,
      by simpa [log, Event.emission?, Event.taking?] using hol.queue,
      fun p hp => by simpa [log] using hol.served p (by simpa [log, Event.taking?] using hp),
      fun u hu => by simpa [log] using hol.unsettled u hu, fun u w hw => ?_⟩
    have hne : t ≠ u := fun h => aside l.number w ⟨l.inbox, by rw [h, ← hw]; exact hl⟩
    exact (hol.underway u w hw).mono sub rfl (fun i' => by simp [log, Event.answer?, hne])
      (fun i' => by simp [log]) (fun k hk _ => hk) fun _ h => h
  · have hne : ¬ (t = m.ticket ∧ i = m.index) := by
      rintro ⟨rfl, rfl⟩
      exact absent m hm rfl
    simpa [log, Event.answer?, hne] using hi.unanswered m hm

/-! ## Single commands -/

theorem single (hi : s.Inv) {job : Job σ Answer} (hb : s.Busy n t (.single s.clock job)) :
    (s.runSingle t job).state.Inv := by
  obtain ⟨inbox, hl⟩ := hb
  obtain ⟨m₀, d, c, around, job₀, taken, opened, known, after, hdue, -, unanswered, -⟩ :=
    ((hi.onLine _ hl).underway t _ rfl).single_inv
  have hs := Job.stops_burst s.clock job s.world
  unfold runSingle
  rcases hb : job.burst s.clock s.world with ⟨p, w⟩
  rw [hb] at hs
  have touched := hi.touch s.state w s.woken
  cases p with
  | done a =>
      have late (m : Nat) (o : Outcome) (h : (m, .settled t o) ∈ s.history) : m < s.clock :=
        absurd ⟨m, o, h⟩ (hi.unsettled_current hl)
      have authentic : s.history.Authentic s.clock t 0 a :=
        ⟨m₀, n, .single c, around, c, job₀, d, taken, opened, rfl, known,
          .inl (by simpa using after.trans hs), .inr (by simpa using after.trans hs), hdue⟩
      have aside : Aside { s with world := w, line := some { number := n, inbox } } t :=
        Free.aside ⟨inbox, rfl⟩
      have told := (touched.release hl).answered aside unanswered late authentic
        (fun m hm h => hi.crew_not_single taken hm (congrArg Prod.fst h))
      have := told.settle (by simpa [log] using hi.unsettled_current hl)
        (.resolved n m₀ (.single c) around _ (by simpa [log] using taken)
          (by simpa [log] using opened) (by simpa [log] using (hi.onLine _ hl).unended)
          (.single c a (by simp [known]) (by simp [log])))
        (fun m hm h => absurd h (hi.crew_not_single taken hm)) fun l hl' h => ?_
      · simpa [Progress.state, setCurrent, log, hl] using this
      · cases hl'
        exact hi.current_not_waiting hl (by simpa [Line.pending] using h)
  | crashed =>
      have := (touched.release hl).attach rfl (hi.unsettled_current hl)
        (.single m₀ d c around job₀ .crash taken opened known (after.trans hs) (Nat.le_of_eq hdue)
          unanswered fun h => absurd h (hdue ▸ Nat.lt_irrefl _))
      simpa [Progress.state, setCurrent, hl, hdue] using this
  | asleep due next =>
      obtain ⟨ms, hms, rfl, hnext⟩ := hs
      have resting : (addTimer { s with world := w } (s.clock + ms) .main).Inv :=
        touched.rest (by simpa using hms) rfl fun n' h => by cases h
      have := (resting.release hl).attach rfl (hi.unsettled_current hl)
        (.single m₀ (d + ms) c around job₀ next taken opened known (after.trans hnext)
          (by simp only [addTimer]; omega) unanswered fun _ => mem_insertTimer.2 (.inl (by
            rw [hdue, Nat.add_assoc])))
      simpa [Progress.state, setCurrent, addTimer, hl, hdue, Nat.add_assoc] using this

/-! ## Groups -/

theorem decide (hi : s.Inv) {e : Effect} {slots : List (Option Answer)}
    {r : Except Failure (List Json)} (hb : s.Busy n t (.group e slots))
    (hr : FanIn.outcome? slots = some r) (hq : e.size = 0 ∨ s.Quiet) :
    Inv ((s.setCurrent none).settle t (r.map e.resumed)) := by
  obtain ⟨inbox, hl⟩ := hb
  obtain ⟨hslots, m₀, around, taken, opened, composite, known, undecided, atWork⟩ :=
    ((hi.onLine _ hl).underway t _ rfl).group_inv
  -- Whoever has not answered by now sleeps.
  have later (m : Member σ) (hm : m ∈ s.crew) (ht : m.ticket = t) : s.clock < m.due := by
    rcases hq with hq | hq
    · obtain ⟨m₁, n', e', ht', -, hidx⟩ := hi.crew_taken hm
      obtain ⟨-, -, rfl⟩ := hi.orderly.taken_unique (ht ▸ ht') taken
      omega
    · rw [Scheduler.crew, hq, List.nil_append, List.mem_filterMap] at hm
      obtain ⟨p, hp, hm⟩ := hm
      have hdue : m.due = p.1 := by
        obtain ⟨task, -, hm⟩ := Option.bind_eq_some_iff.1 hm
        cases task <;> cases hm <;> rfl
      exact hdue ▸ hi.ahead p hp
  have asleep (i : Nat) (hlt : i < e.size) (hn : s.history.answer? t i = none) :
      around.Asleep e i (s.clock - m₀) := by
    obtain ⟨m, hm, hkey⟩ := List.mem_map.1 (atWork i hlt hn)
    obtain ⟨rfl, rfl⟩ := Prod.mk.injEq .. ▸ hkey
    obtain ⟨m₁, n', e', around', c, job, d, taken', opened', -, hc, hj, after, hdue⟩ :=
      hi.engaged m hm
    obtain ⟨rfl, rfl, rfl⟩ := hi.orderly.taken_unique taken' taken
    rw [hi.orderly.opened_unique opened' opened] at hj
    have past : m₁ ≤ s.clock := hi.past _ taken
    have hlt := later m hm rfl
    exact ⟨c, job, d, m.job, hc, hj, after, by omega⟩
  rw [setCurrent_eq hl]
  refine (hi.release hl).settle (hi.unsettled_current hl) ?_ later fun l hl' h => ?_
  · exact .resolved n m₀ e around _ taken opened (hi.onLine _ hl).unended
      (.group e r composite known (hslots ▸ hr) undecided asleep)
  · cases hl'
    exact hi.current_not_waiting hl (by simpa [Line.pending] using h)

/-- The answers that are there, when one more is. -/
theorem slots_answered (h : History σ) (m size : Nat) (i : Nat) (a : Answer) :
    History.slots ((m, .answered t i a) :: h) t size = (h.slots t size).set i (some a) := by
  refine List.ext_getElem? fun k => ?_
  by_cases hk : k < size
  · rw [History.getElem?_slots _ _ hk, List.getElem?_set]
    by_cases hik : i = k
    · simp [hik, hk, Event.answer?]
    · simp [hik, History.getElem?_slots _ _ hk, Event.answer?]
  · simp [hk]

/-- A member that has its turn answers, while its group is not being looked at. -/
theorem told (hi : s.InvBut owed) (aside : s.Aside t) {i : Nat} {j : Job σ Answer}
    {rest : List (Task σ)} {a : Answer} (hr : s.ready = .resume t i j :: rest)
    (hj : j.Answers 0 a) (w : World σ) :
    InvBut ({ s with ready := rest, world := w }.log (.answered t i a)) owed := by
  have crew := crew_head hr rfl
  have member : ⟨t, i, s.clock, j⟩ ∈ s.crew := crew ▸ List.mem_cons_self
  obtain ⟨m₀, n', e, around, c, job, d, taken, opened, composite, hc, known, after, hdue⟩ :=
    hi.engaged _ member
  have authentic : s.history.Authentic s.clock t i a :=
    ⟨m₀, n', e, around, c, job, d, taken, opened, hc, known, by simpa using after.answers hj,
      .inl composite, hdue⟩
  have absent : ∀ m ∈ Scheduler.crew { s with ready := rest }, m.key ≠ (t, i) := by
    have hd := hi.distinct
    rw [crew, List.map_cons, List.nodup_cons] at hd
    exact fun m hm h => hd.1 (List.mem_map.2 ⟨m, hm, h⟩)
  have left := (hi.leave aside hr).touch s.state w s.woken
  exact left.answered aside (hi.unanswered _ member) (hi.late _ member) authentic absent

theorem report (hi : s.Inv) {i : Nat} {j : Job σ Answer} {rest : List (Task σ)} {a : Answer}
    (hr : s.ready = .resume t i j :: rest) (hj : j.Answers 0 a) (w : World σ) :
    Inv (Scheduler.report { s with ready := rest, world := w } t i a) := by
  have crew := crew_head hr rfl
  by_cases hb : ∃ n e slots, s.Busy n t (.group e slots)
  · -- The group is being resolved, and sees the answer.
    obtain ⟨n, e, slots, inbox, hl⟩ := hb
    obtain ⟨rfl, m₁, around, taken, opened, composite, known, undecided, atWork⟩ :=
      ((hi.onLine _ hl).underway t _ rfl).group_inv
    have told := (hi.release hl).told (Free.aside ⟨inbox, rfl⟩) hr hj w
    rw [report_group { s with ready := rest, world := w } a hl, ← slots_answered s.history s.clock]
    have seen := told.attach rfl (by simpa [log] using hi.unsettled_current hl)
      (.group m₁ e around (by simpa [log] using taken) (by simpa [log] using opened) composite
        known (fun h => ?_) fun k hk ha => ?_)
    · exact seen.touch s.state w true
    · simpa [log] using undecided h
    · simp only [log, History.answer?_cons, Event.answer?, true_and] at ha
      have hne : i ≠ k := fun h => by simp [h] at ha
      have hk' := atWork k hk (by simpa [hne] using ha)
      rw [crew, List.map_cons, List.mem_cons] at hk'
      exact hk'.resolve_left fun h => hne (congrArg Prod.snd h).symm
  · -- It is settled already, and nobody listens any more.
    have aside : s.Aside t := by
      rintro n w ⟨inbox, hl⟩
      cases w with
      | group e slots => exact hb ⟨n, e, slots, inbox, hl⟩
      | single due job => exact hi.apart (crew ▸ List.mem_cons_self) n due job ⟨inbox, hl⟩
    rw [report_other { s with ready := rest, world := w } a fun n e slots h => hb ⟨n, e, slots, h⟩]
    exact hi.told aside hr hj w

theorem work (hi : s.Inv) {i : Nat} {j : Job σ Answer} {rest : List (Task σ)}
    (hr : s.ready = .resume t i j :: rest) :
    Inv (Scheduler.runMember { s with ready := rest } t i j) := by
  have hs := Job.stops_burst s.clock j s.world
  unfold runMember
  rcases hb : j.burst s.clock s.world with ⟨p, w⟩
  rw [hb] at hs
  cases p with
  | done a => exact hi.report hr (.inl hs) w
  | crashed => exact hi.report hr (.inr ⟨hs, rfl⟩) w
  | asleep due next =>
      obtain ⟨ms, hms, rfl, hnext⟩ := hs
      have perm := addTimer_crew { s with ready := rest, world := w } (s.clock + ms)
        (.task (.resume t i next))
      have crew := crew_head hr rfl
      refine hi.frame (.refl _) hi.orderly hi.past hi.lines rfl rfl rfl rfl (fun _ _ => id)
        (fun n h => hi.handles n ?_) ⟨?_, fun m hm => ?_, fun m hm => ?_⟩
        (insertTimer_sorted hi.sorted)
        (forall_mem_insertTimer (Nat.lt_add_of_pos_right hms) hi.ahead)
        fun due h => mem_insertTimer.2 (.inr h)
      · rcases (mem_addTimer_handles _).1 h with h | h
        · cases h
        · simpa [Scheduler.handles, hr, Task.handle?] using h
      · rw [crew]
        exact perm.map Member.key
      · rcases List.mem_append.1 (perm.mem_iff.1 hm) with hm | hm
        · cases List.mem_singleton.1 hm
          obtain ⟨m₀, n', e, around, c, job, d, taken, opened, composite, hc, known, after, hdue⟩ :=
            hi.engaged ⟨t, i, s.clock, j⟩ (crew ▸ List.mem_cons_self)
          exact ⟨m₀, n', e, around, c, job, d + ms, taken, opened, composite, hc, known,
            after.trans hnext, by simp only at hdue ⊢; omega⟩
        · exact hi.engaged m (crew ▸ List.mem_cons_of_mem _ hm)
      · rcases List.mem_append.1 (perm.mem_iff.1 hm) with hm | hm
        · cases List.mem_singleton.1 hm
          exact ⟨⟨t, i, s.clock, j⟩, crew ▸ List.mem_cons_self, rfl, Nat.le_add_right _ _⟩
        · exact ⟨m, crew ▸ List.mem_cons_of_mem _ hm, rfl, Nat.le_refl _⟩

/-! ## Closing the line -/

/-- The line is closed, and whatever was pending on it is owed an outcome. -/
theorem hangUp (hi : s.Inv) {l : Line σ} (hl : s.line = some l) {finished : Bool}
    (idle : finished = true → s.history.Idle l.number) :
    InvBut ({ s with line := none }.log (.ended l.number finished)) l.pending := by
  refine hi.happen rfl (hi.line_lt hl) rfl ⟨(hi.onLine l hl).unended, idle⟩ rfl rfl rfl rfl rfl
    (Nat.le_refl _) (fun m n u e he => hi.tickets m n u e (by simpa [log] using he))
    (fun m n u e he => ?_) (fun n around h => ?_) fun l' hl' => by cases hl'
  · rcases hi.pending m n u e (by simpa [log] using he) with h | ⟨l', hl', -, hu⟩ | h
    · exact .inl h
    · rw [hl] at hl'
      cases hl'
      exact .inr (.inr hu)
    · cases h
  · simp only [log, History.opened_cons, History.ended_cons, reduceCtorEq, false_or] at h ⊢
    rcases hi.ended n around h with h | ⟨l', hl', hn⟩
    · exact .inl (.inr h)
    · rw [hl] at hl'
      cases hl'
      exact .inl (.inl ⟨finished, by rw [hn]⟩)

/-- One outcome is sent to all that are owed one. -/
theorem settleAll {o : Outcome} {ts : List Ticket} (hi : s.InvBut ts) (hl : s.line = none)
    (nodup : ts.Nodup) (unsettled : ∀ t ∈ ts, ¬ s.history.Settled t)
    (cause : ∀ t ∈ ts, s.history.Cause s.clock t o) (crew : ∀ m ∈ s.crew, m.ticket ∉ ts) :
    (s.settleAll o ts).Inv := by
  induction ts generalizing s with
  | nil => exact hi
  | cons t ts ih =>
      obtain ⟨hnot, nodup⟩ := List.nodup_cons.1 nodup
      have settled : (s.settle t o).InvBut ts :=
        hi.settle (unsettled t List.mem_cons_self) (cause t List.mem_cons_self)
          (fun m hm h => absurd (h ▸ List.mem_cons_self) (crew m hm))
          fun l h => by rw [hl] at h; cases h
      refine ih settled hl nodup (fun u hu => ?_) (fun u hu => ?_) fun m hm => ?_
      · rw [settled_settle, not_or]
        exact ⟨fun h => hnot (h ▸ hu), unsettled u (List.mem_cons_of_mem _ hu)⟩
      · rw [settle_history]
        exact (cause u (List.mem_cons_of_mem _ hu)).cons_settled
      · rw [settle_crew] at hm
        exact fun h => crew m hm (List.mem_cons_of_mem _ h)

/-- What waits in the inbox has not been taken. -/
theorem inbox_untaken (hi : s.Inv) {l : Line σ} (hl : s.line = some l) {e : Effect}
    (ht : (t, e) ∈ l.inbox) (n : Nat) (e' : Effect) : (t, e') ∉ s.history.takenOn n := by
  intro htaken
  have hol := hi.onLine l hl
  have hd := hi.orderly.sentOn_nodup l.number
  rw [hol.queue, List.map_append, List.nodup_append] at hd
  obtain ⟨m, he⟩ : ∃ m, (m, .emitted l.number t e) ∈ s.history :=
    (s.history.mem_sentOn).1 (hol.queue ▸ List.mem_append_right _ ht)
  obtain ⟨m', he'⟩ :=
    (s.history.mem_sentOn).1 ((hi.orderly.takenOn_le_sentOn n).subset htaken)
  obtain ⟨-, rfl, rfl⟩ := hi.orderly.emitted_unique he he'
  exact hd.2.2 t (List.mem_map.2 ⟨_, htaken, rfl⟩) t (List.mem_map.2 ⟨_, ht, rfl⟩) rfl

theorem inbox_nodup (hi : s.Inv) {l : Line σ} (hl : s.line = some l) :
    (l.inbox.map (·.1)).Nodup := by
  have hd := hi.orderly.sentOn_nodup l.number
  rw [(hi.onLine l hl).queue, List.map_append] at hd
  exact (List.nodup_append.1 hd).2.1

/-- Nobody works on what waits in the inbox. -/
theorem crew_not_inbox (hi : s.Inv) {l : Line σ} (hl : s.line = some l) {m : Member σ}
    (hm : m ∈ s.crew) : m.ticket ∉ l.inbox.map (·.1) := by
  intro h
  obtain ⟨⟨u, e⟩, he, hu⟩ := List.mem_map.1 h
  obtain ⟨m₀, n', e', taken, -⟩ := hi.crew_taken hm
  rw [← hu] at taken
  exact hi.inbox_untaken hl he n' e' ((s.history.mem_takenOn).2 ⟨m₀, taken⟩)

/-- Nobody works on what is pending where no group is being resolved. -/
theorem crew_not_pending (hi : s.Inv) {l : Line σ} (hl : s.line = some l)
    (ungrouped : ∀ t e slots, l.current ≠ some (t, .group e slots)) {m : Member σ}
    (hm : m ∈ s.crew) : m.ticket ∉ l.pending := by
  obtain ⟨n, inbox, current⟩ := l
  rw [Line.pending, List.mem_append, not_or]
  refine ⟨fun h => ?_, hi.crew_not_inbox hl hm⟩
  cases current with
  | none => cases h
  | some p =>
      obtain ⟨t, w⟩ := p
      obtain rfl : m.ticket = t := List.mem_singleton.1 h
      cases w with
      | single due job => exact hi.apart hm n due job ⟨inbox, hl⟩
      | group e slots => exact ungrouped _ e slots rfl

/-- What waits in the inbox when the line is closed has not been heard. -/
theorem cause_inbox (hi : s.Inv) {l : Line σ} (hl : s.line = some l) (finished : Bool)
    (ht : t ∈ l.inbox.map (·.1)) :
    (s.log (.ended l.number finished)).history.Cause s.clock t (.error .detached) := by
  obtain ⟨⟨u, e⟩, he, rfl⟩ := List.mem_map.1 ht
  refine .unheard l.number e ?_ (fun e' => ?_) (.inl (by simp [log]))
  · simpa [log, Event.emission?, (hi.onLine l hl).queue] using .inr he
  · simpa [log, Event.taking?] using hi.inbox_untaken hl he l.number e'

theorem finish (hi : s.Inv) (hf : s.Free n) : (s.closeLine true).Inv := by
  obtain ⟨inbox, hl⟩ := id hf
  have pending : Line.pending ({ number := n, inbox } : Line σ) = inbox.map (·.1) := rfl
  have hung : InvBut _ _ := hi.hangUp hl (fun _ : true = true => hi.idle hf)
  simp only [closeLine, hl]
  rw [pending] at hung ⊢
  refine hung.settleAll rfl (hi.inbox_nodup hl) (fun u hu => ?_) (fun u hu => ?_)
    fun m hm => hi.crew_not_inbox hl hm
  · simpa [log] using (hi.onLine _ hl).unsettled u (List.mem_append_right _ hu)
  · exact hi.cause_inbox hl true hu

theorem breakOff (hi : s.Inv) (hb : s.Busy n t (.single s.clock .crash)) :
    (s.closeLine false).Inv := by
  obtain ⟨inbox, hl⟩ := hb
  obtain ⟨m₀, d, c, around, job, taken, opened, known, after, hdue, -⟩ :=
    ((hi.onLine _ hl).underway t _ rfl).single_inv
  have hung : InvBut _ _ := hi.hangUp hl fun h : false = true => by cases h
  have pending : Line.pending
      ({ number := n, inbox, current := some (t, .single s.clock .crash) } : Line σ) =
        t :: inbox.map (·.1) := rfl
  simp only [closeLine, hl]
  rw [pending] at hung ⊢
  refine hung.settleAll rfl (List.nodup_cons.2 ⟨hi.current_not_waiting hl, hi.inbox_nodup hl⟩)
    (fun u hu => ?_) (fun u hu => ?_) fun m hm => hi.crew_not_pending hl (by simp) hm
  · simpa [log] using (hi.onLine _ hl).unsettled u hu
  · rcases List.mem_cons.1 hu with rfl | hu
    · exact .broken n m₀ d c around job (by simpa [log] using taken) (by simpa [log] using opened)
        known after hdue (by simp [log])
    · exact hi.cause_inbox hl false hu

/-! ## Time -/

/-- The clock moves on to the time at which the first timers are due. -/
theorem advance_due (hi : s.InvBut owed) (ha : s.advance? = some s') :
    ∃ due, s.clock < due ∧ (∀ p ∈ s.timers, due ≤ p.1) ∧ s' = wakeDue { s with clock := due } := by
  obtain ⟨due, who, rest, ht, rfl⟩ := advance_eq ha
  have sorted := hi.sorted
  have lt : s.clock < due := hi.ahead (due, who) (ht ▸ List.mem_cons_self)
  refine ⟨due, lt, ?_, by rw [Nat.max_eq_right (Nat.le_of_lt lt)]⟩
  rw [ht] at sorted ⊢
  exact List.forall_mem_cons.2 ⟨Nat.le_refl _, (List.pairwise_cons.1 sorted).1⟩

/-- Whatever is woken is due just then. -/
theorem due_of_woken {timers : List (Nat × Sleeper σ)} {due : Nat} (first : ∀ p ∈ timers, due ≤ p.1)
    {p : Nat × Sleeper σ} (hp : p ∈ timers.takeWhile (·.1 ≤ due)) : p.1 = due :=
  Nat.le_antisymm (by simpa using List.all_eq_true.1 List.all_takeWhile p hp)
    (first p ((List.takeWhile_sublist _).subset hp))

/-- Whoever is at work is still at work when the clock has moved. -/
theorem wakeDue_crew {due : Nat} (hr : s.ready = []) (first : ∀ p ∈ s.timers, due ≤ p.1) :
    (wakeDue { s with clock := due }).crew = s.crew := by
  have split := List.takeWhile_append_dropWhile (p := fun p : Nat × Sleeper σ => p.1 ≤ due)
    (l := s.timers)
  simp only [Scheduler.crew, wakeDue, hr, List.nil_append, List.filterMap_nil]
  conv => rhs; rw [← split, List.filterMap_append]
  congr 1
  have members := List.map_congr_left (f := fun p : Nat × Sleeper σ => p.2.member? due)
    (g := fun p => p.2.member? p.1) fun p hp => by rw [due_of_woken first hp]
  simpa [List.filterMap_filterMap, List.filterMap_map, Function.comp_def, Sleeper.member?]
    using congrArg (List.filterMap id) members

theorem advance_crew (hi : s.InvBut owed) (hr : s.ready = []) (ha : s.advance? = some s') :
    s'.crew = s.crew := by
  obtain ⟨due, -, first, rfl⟩ := hi.advance_due ha
  exact wakeDue_crew hr first

theorem advance (hi : s.Inv) (hr : s.ready = []) (hw : s.Waiting) (ha : s.advance? = some s') :
    s'.Inv := by
  have crew := hi.advance_crew hr ha
  obtain ⟨due, lt, first, rfl⟩ := hi.advance_due ha
  have sorted := hi.sorted
  have split := List.takeWhile_append_dropWhile (p := fun p : Nat × Sleeper σ => p.1 ≤ due)
    (l := s.timers)
  have kept {m : Nat} (hm : (m, .main) ∈ s.timers) (hlt : due < m) :
      (m, .main) ∈ (wakeDue { s with clock := due }).timers := by
    rw [← split] at hm
    exact (List.mem_append.1 hm).resolve_left fun h => Nat.ne_of_gt hlt (due_of_woken first h)
  refine { hi with
    past := fun p hp => Nat.le_trans (hi.past p hp) (Nat.le_of_lt lt)
    handles := fun n hn => hi.handles n ?_
    onLine := fun l hl => ?_
    engaged := fun m hm => hi.engaged m (crew ▸ hm)
    distinct := crew ▸ hi.distinct
    unanswered := fun m hm => hi.unanswered m (crew ▸ hm)
    late := fun m hm => hi.late m (crew ▸ hm)
    sorted := sorted.sublist (List.dropWhile_sublist _)
    ahead := fun p hp => lt_of_mem_dropWhile sorted hp }
  · simp only [Scheduler.handles, wakeDue, hr, List.nil_append, List.filterMap_nil,
      List.mem_append] at hn ⊢
    refine hn.imp_left fun hn => ?_
    rw [← split, List.filterMap_append, List.mem_append]
    rwa [List.filterMap_filterMap] at hn
  · have hol := hi.onLine l hl
    refine { hol with underway := fun t w hc => ?_ }
    have hu := hol.underway t w hc
    have pending := hw l.number t w ⟨l.inbox, by rw [← hc]; exact hl⟩
    cases hu with
    | single m₀ d c around job job' taken opened known after clock unanswered timer =>
        have hm := timer pending
        exact .single m₀ d c around job job' taken opened known after (first _ hm) unanswered
          (kept hm)
    | group m₀ e around taken opened composite known undecided atWork =>
        refine .group m₀ e around taken opened composite known (fun _ => ?_) (crew ▸ atWork)
        have all : s.history.before due = s.history :=
          List.filter_eq_self.2 fun p hp => by
            simpa using Nat.lt_of_le_of_lt (hi.past p hp) lt
        change FanIn.outcome? ((s.history.before due).slots t e.size) = none
        rw [all]
        exact pending

end InvBut

/-- What a step may do, it does within the invariant. -/
theorem Step.inv (h : Step s s') (hi : s.Inv) : s'.Inv := by
  cases h with
  | touch x w woken => exact hi.touch x w woken
  | emit n e hn =>
      by_cases hl : ∃ l, s.line = some l ∧ l.number = n
      · obtain ⟨l, hl, rfl⟩ := hl
        exact hi.emit_open hl e
      · exact hi.emit_closed hn (fun l h hn => hl ⟨l, h, hn⟩) e
  | drop t => exact hi.drop t
  | resume t o ho => exact hi.resume ho
  | spawn n e hn => exact hi.spawn hn
  | pop n e rest hr => exact hi.pop hr
  | park w hn ho => exact hi.park hn
  | rest due who hd hm hn => exact hi.rest hd hm hn
  | begin t i c j rest hr => exact hi.begin hr
  | work t i j rest hr => exact hi.work hr
  | interpret around hl => exact hi.interpret hl
  | poll n w hf => exact hi.poll hf
  | refuse n around t e inbox c hx hc => exact hi.refuse hx hc
  | takeSingle n around t c inbox job hx hj => exact hi.takeSingle hx hj
  | takeGroup n around t e inbox tasks hx he ht => exact hi.takeGroup hx he ht
  | single n t job hb => exact hi.single hb
  | decide n t e slots r hb hr hq => exact hi.decide hb hr hq
  | finish n hf => exact hi.finish hf
  | breakOff n t hb => exact hi.breakOff hb
  | advance _ hr hw ha => exact hi.advance hr hw ha

end Switchboard.Scheduler
