import Switchboard.Proofs.Invariant

/-!
# Switchboard.Proofs.Kept

Every step keeps the invariant, one lemma a kind of step.
-/

namespace Switchboard.Scheduler

variable {ξ σ : Type} {s s' : Scheduler ξ σ} {owed : List Ticket}

namespace InvBut

/-! ## Steps of errands and of the main routine -/

theorem touch (hi : s.InvBut owed) (x : ξ) (w : World σ) (woken : Bool) :
    InvBut { s with state := x, world := w, woken } owed :=
  hi.keep rfl rfl rfl rfl rfl (fun _ _ => id) hi.handles (.refl _) rfl

theorem drop (hi : s.Inv) (t : Ticket) : (s.drop t).Inv := by
  refine hi.keep rfl rfl rfl rfl rfl (fun u o h => ?_) hi.handles (.refl _) rfl
  rw [drop_outcome?] at h
  split at h
  · cases h
  · exact h

theorem spawn (hi : s.Inv) {n : Nat} {e : Errand σ} (hn : n < s.nextLine) :
    (s.enqueue (.errand n e)).Inv := by
  refine hi.keep rfl rfl rfl rfl rfl (fun _ _ => id) (fun n' h => ?_) (.of_eq ?_) rfl
  · have : n' = n ∨ n' ∈ s.handles := by
      simp only [Scheduler.handles, enqueue, List.filterMap_append, List.mem_append] at h ⊢
      grind [Task.handle?]
    rcases this with rfl | h
    · exact hn
    · exact hi.handles n' h
  · simp [crew, enqueue, List.filterMap_append, Task.member?]

theorem pop (hi : s.Inv) {n : Nat} {e : Errand σ} {rest : List (Task σ)}
    (hr : s.ready = .errand n e :: rest) : Inv { s with ready := rest } := by
  refine hi.keep rfl rfl rfl rfl rfl (fun _ _ => id) (fun n' h => hi.handles n' ?_) (.of_eq ?_) rfl
  · simp only [Scheduler.handles, hr, List.filterMap_cons, List.mem_append] at h ⊢
    grind [Task.handle?]
  · simp [crew, hr, Task.member?]

theorem park (hi : s.Inv) {w : Waiter σ} (hn : w.line < s.nextLine) :
    Inv { s with parked := s.parked ++ [w] } := by
  refine hi.keep rfl rfl rfl rfl rfl (fun _ _ => id) (fun n' h => ?_) (.refl _) rfl
  have : n' = w.line ∨ n' ∈ s.handles := by
    simp only [Scheduler.handles, List.map_append, List.mem_append] at h ⊢
    grind
  rcases this with rfl | h
  · exact hn
  · exact hi.handles n' h

theorem rest (hi : s.Inv) {due : Nat} {who : Sleeper σ} (hd : s.clock < due)
    (hm : who.member? due = none) (hn : ∀ n, who.handle? = some n → n < s.nextLine) :
    (s.addTimer due who).Inv := by
  refine hi.frame (.refl _) hi.orderly hi.past hi.lines rfl rfl rfl rfl (fun _ _ => id)
    (fun n h => ?_) ?_ (insertTimer_sorted hi.sorted) (forall_mem_insertTimer hd hi.ahead)
    fun due h => mem_insertTimer.2 (.inr h)
  · rcases (s.mem_addTimer_handles).1 h with h | h
    · exact hn n h
    · exact hi.handles n h
  · exact hi.onward (by simpa [hm] using s.addTimer_crew due who)

theorem begin (hi : s.Inv) {t i : Nat} {c : Command} {j : Job σ Answer} {rest : List (Task σ)}
    (hr : s.ready = .begin t i c j :: rest) :
    Inv ({ s with ready := .resume t i j :: rest }.log (.started t i c)) := by
  have keep : Inv { s with ready := .resume t i j :: rest } := by
    refine hi.keep rfl rfl rfl rfl rfl (fun _ _ => id) (fun n h => hi.handles n ?_) (.of_eq ?_) rfl
    · simpa [Scheduler.handles, hr, Task.handle?] using h
    · simp [crew, hr, Task.member?]
  exact keep.note trivial trivial fun n h => by cases h

theorem resume (hi : s.Inv) {t : Ticket} {o : Outcome} (ho : s.outcome? t = some o) :
    (s.log (.resumed t o)).Inv :=
  hi.note trivial (hi.outcomes t o ho) fun n h => by cases h

theorem idle (hi : s.Inv) {n : Nat} (hf : s.Free n) : s.history.Idle n := by
  obtain ⟨inbox, hl⟩ := hf
  have ho := hi.onLine _ hl
  exact ⟨fun p hp => (ho.served p hp).resolve_right (by simp), ho.unended⟩

theorem line_lt (hi : s.Inv) {l : Line σ} (hl : s.line = some l) : l.number < s.nextLine := by
  obtain ⟨around, m, ho⟩ := (hi.onLine l hl).opened
  exact hi.lines _ ho _ rfl

theorem poll (hi : s.Inv) {n : Nat} {w : Option Ticket} (hf : s.Free n) :
    (s.log (.polled n w)).Inv := by
  obtain ⟨inbox, hl⟩ := id hf
  refine hi.note trivial (hi.idle hf) fun n' h => ?_
  cases h
  exact hi.line_lt hl

/-! ## Emitting -/

theorem not_emitted_next (hi : s.Inv) : ¬ s.history.Emitted s.nextTicket := by
  rintro ⟨m, n, e, he⟩
  exact Nat.lt_irrefl _ (hi.tickets m n _ e he)

theorem not_settled_next (hi : s.Inv) : ¬ s.history.Settled s.nextTicket :=
  fun h => hi.not_emitted_next (hi.orderly.emitted_of_settled h)

/-- Nothing has become of a ticket that has not been given out. -/
theorem outcome?_next (hi : s.Inv) : s.outcome? s.nextTicket = none := by
  cases ho : s.outcome? s.nextTicket with
  | none => rfl
  | some o =>
    obtain ⟨m, settled⟩ := hi.outcomes _ _ ho
    exact absurd ⟨m, o, settled⟩ hi.not_settled_next

theorem emit_open (hi : s.Inv) {l : Line σ} (hl : s.line = some l) (e : Effect) :
    (s.emit l.number e).2.Inv := by
  rw [Scheduler.emit_open s e hl]
  have hol := hi.onLine l hl
  have sub : s.history ⊆ (s.clock, .emitted l.number s.nextTicket e) :: s.history :=
    List.subset_cons_self _ _
  refine hi.happen rfl (hi.line_lt hl) rfl hi.not_emitted_next rfl rfl rfl rfl rfl (Nat.le_refl _)
    (fun m n t e' he => ?_) (fun m n t e' he => ?_) (fun n around h => ?_) fun l' hl' => ?_
  · rcases List.mem_cons.1 he with h | he
    · cases h
      exact Nat.lt_succ_self _
    · exact Nat.lt_succ_of_lt (hi.tickets m n t e' he)
  · rcases List.mem_cons.1 he with h | he
    · cases h
      exact .inr (.inl ⟨_, rfl, rfl, by simp [Line.pending]⟩)
    · rcases hi.pending m n t e' he with h | ⟨l', hl', hn, ht⟩ | h
      · exact .inl h
      · rw [hl] at hl'
        cases hl'
        refine .inr (.inl ⟨_, rfl, hn, ?_⟩)
        simp only [Line.pending, List.map_append] at ht ⊢
        grind
      · cases h
  · rcases hi.ended n around (by simpa [log] using h) with h | ⟨l', hl', hn⟩
    · exact .inl (by simpa [log] using h)
    · rw [hl] at hl'
      cases hl'
      exact .inr ⟨_, rfl, hn⟩
  · cases hl'
    refine ⟨hol.opened.imp fun _ h => by simp [log, h],
      by simpa [log] using hol.unended, ?_, ?_, ?_, ?_⟩
    · simp [log, Event.emission?, Event.taking?, hol.queue]
    · simpa [log, Event.taking?] using hol.served
    · intro t ht
      have : t = s.nextTicket ∨ t ∈ l.pending := by
        simp only [Line.pending, List.map_append, List.mem_append] at ht ⊢
        grind
      rcases this with rfl | ht
      · simpa [log] using hi.not_settled_next
      · simpa [log] using hol.unsettled t ht
    · intro t w hw
      exact (hol.underway t w hw).mono sub rfl (fun i => by simp [log, Event.answer?])
        (fun i => by simp [log]) (fun k hk _ => hk) fun _ h => h

theorem closed (hi : s.Inv) {n : Nat} (hl : ∀ l, s.line = some l → l.number ≠ n) :
    s.history.Closed n := by
  by_cases ho : ∃ around, s.history.Opened n around
  · obtain ⟨around, ho⟩ := ho
    rcases hi.ended n around ho with h | ⟨l, h, hn⟩
    · exact .inl h
    · exact absurd hn (hl l h)
  · exact .inr fun around h => ho ⟨around, h⟩

theorem not_taken_next (hi : s.Inv) (n : Nat) (e : Effect) :
    (s.nextTicket, e) ∉ s.history.takenOn n := by
  intro h
  obtain ⟨m, h⟩ := (s.history.mem_sentOn).1 ((hi.orderly.takenOn_le_sentOn n).subset h)
  exact hi.not_emitted_next ⟨m, n, e, h⟩

theorem crew_taken (hi : s.InvBut owed) {m : Member σ} (hm : m ∈ s.crew) :
    ∃ m₀ n e, (m₀, .taken n m.ticket e) ∈ s.history ∧ e.IsGroup ∧ m.index < e.size := by
  obtain ⟨m₀, n, e, around, c, job, d, ht, -, he, hc, -⟩ := hi.engaged m hm
  exact ⟨m₀, n, e, ht, he, (List.getElem?_eq_some_iff.1 hc).1⟩

/-- What is pending on a line was emitted there. -/
theorem pending_emitted (hi : s.InvBut owed) {l : Line σ} (hl : s.line = some l) {t : Ticket}
    (ht : t ∈ l.pending) : ∃ m e, (m, .emitted l.number t e) ∈ s.history := by
  have hol := hi.onLine l hl
  have sent {e : Effect} (h : (t, e) ∈ s.history.sentOn l.number) :
      ∃ m e, (m, .emitted l.number t e) ∈ s.history :=
    ((s.history.mem_sentOn).1 h).imp fun _ h => ⟨e, h⟩
  rcases List.mem_append.1 ht with ht | ht
  · obtain ⟨⟨u, w⟩, hc, rfl⟩ : ∃ p, l.current = some p ∧ p.1 = t := by simpa using ht
    obtain ⟨m, e, htk⟩ := (hol.underway u w hc).taken
    exact sent ((hi.orderly.takenOn_le_sentOn _).subset ((s.history.mem_takenOn).2 ⟨m, htk⟩))
  · obtain ⟨⟨u, e⟩, hin, rfl⟩ := List.mem_map.1 ht
    exact sent (e := e) (by rw [hol.queue]; exact List.mem_append_right _ hin)

theorem emit_closed (hi : s.Inv) {n : Nat} (hn : n < s.nextLine)
    (hl : ∀ l, s.line = some l → l.number ≠ n) (e : Effect) : (s.emit n e).2.Inv := by
  rw [Scheduler.emit_closed s e hl]
  have sub : s.history ⊆ (s.clock, .emitted n s.nextTicket e) :: s.history :=
    List.subset_cons_self _ _
  have emitted : InvBut ({ s with nextTicket := s.nextTicket + 1 }.log (.emitted n s.nextTicket e))
      [s.nextTicket] := by
    refine hi.happen rfl hn rfl hi.not_emitted_next rfl rfl rfl rfl rfl (Nat.le_refl _)
      (fun m n' t e' he => ?_) (fun m n' t e' he => ?_)
      (fun n' around h => by simpa [log] using hi.ended n' around (by simpa [log] using h))
      fun l hl' => ?_
    · rcases List.mem_cons.1 he with h | he
      · cases h
        exact Nat.lt_succ_self _
      · exact Nat.lt_succ_of_lt (hi.tickets m n' t e' he)
    · rcases List.mem_cons.1 he with h | he
      · cases h
        exact .inr (.inr (by simp))
      · exact (hi.pending m n' t e' he).imp_right (.imp_right fun h => by cases h)
    · have hol := hi.onLine l hl'
      have hne : n ≠ l.number := fun h => hl l hl' h.symm
      refine ⟨by simpa [log] using hol.opened,
        by simpa [log] using hol.unended, ?_, fun p hp => ?_, fun t ht => ?_, fun t w hw => ?_⟩
      · simpa [log, Event.emission?, Event.taking?, hne] using hol.queue
      · have := hol.served p (by simpa [log, Event.taking?] using hp)
        simp only [log, History.settled_cons]
        grind
      · simpa [log] using hol.unsettled t ht
      · exact (hol.underway t w hw).mono sub rfl (fun i => by simp [log, Event.answer?])
          (fun i => by simp [log]) (fun k hk _ => hk) fun _ h => h
  refine emitted.settle (by simpa [log] using hi.not_settled_next) ?_ (fun m hm ht => ?_)
    fun l hl' ht => ?_
  · refine .unheard n e (by simp [log, Event.emission?]) (fun e' => ?_) ?_
    · simpa [log, Event.taking?] using hi.not_taken_next n e'
    · simpa [log, History.Closed] using hi.closed hl
  · obtain ⟨m₀, n', e', htk, -⟩ := hi.crew_taken hm
    exact absurd ((s.history.mem_takenOn).2 ⟨m₀, ht ▸ htk⟩) (hi.not_taken_next n' e')
  · obtain ⟨m, e', he⟩ := hi.pending_emitted hl' ht
    exact hi.not_emitted_next ⟨m, _, e', he⟩

/-! ## Opening the line -/

theorem interpret (hi : s.Inv) {around : Surroundings σ} (hl : s.line = none) :
    (s.openLine around).Inv := by
  have fresh : ∀ p ∈ s.history, p.2.line? ≠ some s.nextLine :=
    fun p hp h => Nat.lt_irrefl _ (hi.lines p hp _ h)
  refine hi.happen rfl (Nat.lt_succ_self _) rfl fresh rfl rfl rfl rfl rfl (Nat.le_succ _)
    (fun m n t e he => hi.tickets m n t e (by simpa [openLine, log] using he))
    (fun m n t e he => ?_) (fun n around' h => ?_) fun l hl' => ?_
  · have := hi.pending m n t e (by simpa [openLine, log] using he)
    exact .inl (by simpa [hl] using this)
  · simp only [openLine, log, History.opened_cons] at h ⊢
    rcases h with h | h
    · cases h
      exact .inr ⟨_, rfl, rfl⟩
    · have := hi.ended n around' h
      exact .inl (by simpa [hl] using this)
  · cases hl'
    refine ⟨⟨around, by simp [openLine, log]⟩, ?_, ?_, ?_, by simp [Line.pending], by simp⟩
    · rintro ⟨m, finished, h⟩
      exact fresh _ (by simpa [openLine, log] using h) rfl
    · simp [openLine, log, Event.emission?, Event.taking?, History.sentOn_eq_nil _ fresh,
        History.takenOn_eq_nil _ fresh]
    · simp [openLine, log, Event.taking?, History.takenOn_eq_nil _ fresh]

/-! ## Taking an effect -/

section Taking

variable {n : Nat} {around : Surroundings σ} {t : Ticket} {e : Effect}
  {inbox : List (Ticket × Effect)}

theorem next_unsettled (hi : s.Inv) (hx : s.Next n around t e inbox) : ¬ s.history.Settled t :=
  (hi.onLine _ hx.line).unsettled t (by simp [Line.pending])

theorem next_nodup (hi : s.Inv) (hx : s.Next n around t e inbox) :
    ((s.history.takenOn n).map Prod.fst ++ t :: inbox.map Prod.fst).Nodup := by
  have hd := hi.orderly.sentOn_nodup n
  rw [(hi.onLine _ hx.line).queue, List.map_append] at hd
  exact hd

theorem next_waiting (hi : s.Inv) (hx : s.Next n around t e inbox) : ∀ e', (t, e') ∉ inbox :=
  fun _ h => (List.nodup_cons.1 (List.nodup_append.1 (hi.next_nodup hx)).2.1).1
    (List.mem_map.2 ⟨_, h, rfl⟩)

theorem next_untaken (hi : s.Inv) (hx : s.Next n around t e inbox) (n' : Nat) (e' : Effect) :
    (t, e') ∉ s.history.takenOn n' := by
  intro ht
  have hq := (hi.onLine _ hx.line).queue
  obtain ⟨m, he⟩ := (s.history.mem_sentOn).1 (hq ▸ by simp : (t, e) ∈ s.history.sentOn n)
  obtain ⟨m', he'⟩ := (s.history.mem_sentOn).1 ((hi.orderly.takenOn_le_sentOn n').subset ht)
  obtain ⟨-, rfl, rfl⟩ := hi.orderly.emitted_unique he he'
  exact (List.nodup_append.1 (hi.next_nodup hx)).2.2 t (List.mem_map.2 ⟨_, ht, rfl⟩) t
    (by simp) rfl

theorem next_unanswered (hi : s.Inv) (hx : s.Next n around t e inbox) (i : Nat) :
    s.history.answer? t i = none := by
  cases h : s.history.answer? t i with
  | none => rfl
  | some a =>
      obtain ⟨m, n', e', ht⟩ := hi.orderly.taken_of_answered h
      exact absurd ((s.history.mem_takenOn).2 ⟨m, ht⟩) (hi.next_untaken hx n' e')

theorem next_crew (hi : s.Inv) (hx : s.Next n around t e inbox) {m : Member σ}
    (hm : m ∈ s.crew) : m.ticket ≠ t := by
  rintro rfl
  obtain ⟨m₀, n', e', ht, -⟩ := hi.crew_taken hm
  exact hi.next_untaken hx n' e' ((s.history.mem_takenOn).2 ⟨m₀, ht⟩)

/-- The oldest effect is off the line, and its outcome is owed. -/
theorem take (hi : s.Inv) (hx : s.Next n around t e inbox) :
    InvBut ({ s with line := some { number := n, inbox } }.log (.taken n t e)) [t] := by
  have hol := hi.onLine _ hx.line
  have idle : s.history.Idle n :=
    ⟨fun p hp => (hol.served p hp).resolve_right (by simp), hol.unended⟩
  obtain ⟨w, past, hp⟩ := hx.polled
  refine hi.happen rfl (hi.line_lt hx.line) rfl
    ⟨idle, hol.opened, hi.next_unsettled hx, ⟨w, past, hp⟩, inbox, hol.queue⟩
    rfl rfl rfl rfl rfl (Nat.le_refl _)
    (fun m n' u e' he => hi.tickets m n' u e' (by simpa [log] using he))
    (fun m n' u e' he => ?_) (fun n' around' h => ?_) fun l hl => ?_
  · have := hi.pending m n' u e' (by simpa [log] using he)
    simp only [hx.line, Option.some.injEq, exists_eq_left', Line.pending, log] at this ⊢
    grind
  · have := hi.ended n' around' (by simpa [log] using h)
    simpa [log, hx.line] using this
  · cases hl
    refine ⟨by simpa [log] using hol.opened,
      by simpa [log] using hol.unended, ?_, fun p hp => ?_, fun u hu => ?_, by simp⟩
    · simp [log, Event.emission?, Event.taking?, hol.queue]
    · have := hol.served p
      simp only [log, History.takenOn_cons, Event.taking?, if_true, Option.toList_some,
        List.mem_append, List.mem_singleton, History.settled_cons] at hp this ⊢
      grind
    · simp only [Line.pending, Option.map_none, Option.toList_none, List.nil_append] at hu
      simpa [log] using hol.unsettled u (by simp [Line.pending]; grind)

/-- The members of a group join the crew. -/
theorem muster (hi : s.InvBut owed) (taken : (s.clock, .taken n t e) ∈ s.history)
    (opened : s.history.Opened n around) (unsettled : ¬ s.history.Settled t)
    (unanswered : ∀ i, s.history.answer? t i = none) (absent : ∀ m ∈ s.crew, m.ticket ≠ t)
    (composite : e.IsGroup) {tasks : List (Task σ)}
    (begins : ∀ task ∈ tasks, ∃ i c j, task = .begin t i c j ∧ e.commands[i]? = some c ∧
      around.resolve? c = some j)
    (distinct : ((tasks.filterMap (·.member? s.clock)).map Member.key).Nodup) :
    InvBut { s with ready := s.ready ++ tasks } owed := by
  have joins {m : Member σ} (hm : m ∈ tasks.filterMap (·.member? s.clock)) :
      m.ticket = t ∧ Engaged s.history m := by
    obtain ⟨task, ht, hm⟩ := List.mem_filterMap.1 hm
    obtain ⟨i, c, j, rfl, hc, hj⟩ := begins task ht
    cases hm
    exact ⟨rfl, s.clock, n, e, around, c, j, 0, taken, opened, composite, hc, hj, .refl j, rfl⟩
  have perm : (Scheduler.crew { s with ready := s.ready ++ tasks }).Perm
      (s.crew ++ tasks.filterMap (·.member? s.clock)) := by
    simp only [Scheduler.crew, List.filterMap_append, List.append_assoc]
    exact List.perm_append_comm.append_left _
  have split {m : Member σ} (hm : m ∈ Scheduler.crew { s with ready := s.ready ++ tasks }) :
      m ∈ s.crew ∨ m ∈ tasks.filterMap (·.member? s.clock) :=
    List.mem_append.1 (perm.mem_iff.1 hm)
  refine { hi with
    handles := fun n' hn' => hi.handles n' ?_
    onLine := fun l hl => ?_
    engaged := fun m hm => ?_
    distinct := ?_
    unanswered := fun m hm => ?_
    late := fun m hm m' o ho => ?_ }
  · have none : tasks.filterMap (·.handle?) = [] := by
      refine List.filterMap_eq_nil_iff.2 fun task ht => ?_
      obtain ⟨i, c, j, rfl, -⟩ := begins task ht
      rfl
    simpa [Scheduler.handles, List.filterMap_append, none] using hn'
  · have hol := hi.onLine l hl
    refine { hol with underway := fun u w hw => ?_ }
    refine (hol.underway u w hw).mono (List.Subset.refl _) rfl (fun _ => rfl) (fun _ => rfl)
      (fun k hk _ => ?_) fun _ h => h
    rw [(perm.map _).mem_iff, List.map_append]
    exact List.mem_append_left _ hk
  · rcases split hm with hm | hm
    · exact hi.engaged m hm
    · exact (joins hm).2
  · rw [(perm.map _).nodup_iff, List.map_append, List.nodup_append]
    refine ⟨hi.distinct, distinct, ?_⟩
    rintro k hk k' hk' rfl
    obtain ⟨m, hm, rfl⟩ := List.mem_map.1 hk
    obtain ⟨m', hm', h⟩ := List.mem_map.1 hk'
    exact absent m hm ((congrArg Prod.fst h).symm.trans (joins hm').1)
  · rcases split hm with hm | hm
    · exact hi.unanswered m hm
    · rw [(joins hm).1]
      exact unanswered _
  · rcases split hm with hm | hm
    · exact hi.late m hm m' o ho
    · rw [(joins hm).1] at ho
      exact absurd ⟨m', o, ho⟩ unsettled

/-- The interpreter turns to an effect that is owed an outcome. -/
theorem attach (hi : s.InvBut [t]) (hl : s.line = some { number := n, inbox }) {w : Work σ}
    (unsettled : ¬ s.history.Settled t) (underway : s.Underway n t w) :
    Inv { s with line := some { number := n, inbox, current := some (t, w) } } := by
  have hol := hi.onLine _ hl
  refine { hi with
    pending := fun m n' u e' he => ?_
    ended := fun n' around' h => by simpa [hl] using hi.ended n' around' h
    onLine := fun l hl' => ?_
    engaged := hi.engaged }
  · rcases hi.pending m n' u e' he with h | ⟨l, hl', hn, hu⟩ | hu
    · exact .inl h
    · rw [hl] at hl'
      cases hl'
      exact .inr (.inl ⟨_, rfl, hn, List.mem_append_right _ (by simpa [Line.pending] using hu)⟩)
    · cases List.mem_singleton.1 hu
      obtain ⟨m', e, taken⟩ := underway.taken
      obtain ⟨m'', he'⟩ := hi.orderly.emitted_of_taken taken
      obtain ⟨-, hn, -⟩ := hi.orderly.emitted_unique he' he
      exact .inr (.inl ⟨_, rfl, hn, by simp [Line.pending]⟩)
  · cases hl'
    refine ⟨hol.opened, hol.unended, hol.queue, fun p hp => ?_, fun u hu => ?_,
      fun u w' hw => ?_⟩
    · have := hol.served p hp
      simp only [Option.map_some] at this ⊢
      grind
    · simp only [Line.pending, Option.map_some, Option.toList_some, List.singleton_append,
        List.mem_cons] at hu
      rcases hu with rfl | hu
      · exact unsettled
      · exact hol.unsettled u (by simpa [Line.pending] using hu)
    · cases hw
      exact underway.mono (List.Subset.refl _) rfl (fun _ => rfl) (fun _ => rfl)
        (fun _ h _ => h) fun _ h => h

theorem refuse (hi : s.Inv) (hx : s.Next n around t e inbox) {c : Command}
    (hc : e.commands.find? (fun c => (around.resolve? c).isNone) = some c) :
    Inv (({ s with line := some { number := n, inbox } }.log (.taken n t e)).settle t
      (.error (.unknownCommand c.name))) := by
  refine (hi.take hx).settle (by simpa [log] using hi.next_unsettled hx) ?_
    (fun m hm ht => absurd ht (hi.next_crew hx hm)) fun l hl ht => ?_
  · exact .resolved n s.clock e around _ (by simp [log]) (by simpa [log] using hx.opened)
      (by simpa [log] using (hi.onLine _ hx.line).unended) (.unknown e c hc rfl)
  · cases hl
    obtain ⟨e', h⟩ : ∃ e', (t, e') ∈ inbox := by simpa [Line.pending] using ht
    exact hi.next_waiting hx e' h

theorem takeSingle (hi : s.Inv) {c : Command} {job : Job σ Answer}
    (hx : s.Next n around t (.single c) inbox) (hj : around.resolve? c = some job) :
    Inv (({ s with
      line := some { number := n, inbox, current := some (t, .single s.clock job) } }.log
        (.taken n t (.single c))).log (.started t 0 c)) := by
  have unanswered (i : Nat) : (s.log (.taken n t (.single c))).history.answer? t i = none := by
    simpa [log, Event.answer?] using hi.next_unanswered hx i
  have opened : (s.log (.taken n t (.single c))).history.Opened n around := by
    simpa [log] using hx.opened
  have taken : (s.clock, .taken n t (.single c)) ∈ (s.log (.taken n t (.single c))).history :=
    List.mem_cons_self
  have := (hi.take hx).attach rfl (by simpa [log] using hi.next_unsettled hx)
    (.single s.clock 0 c around job job taken opened hj (.refl job) (Nat.le_refl _) (unanswered 0)
      fun h => absurd h (Nat.lt_irrefl _))
  exact this.note trivial trivial fun n' h => by cases h

theorem takeGroup (hi : s.Inv) (hx : s.Next n around t e inbox) (he : e.IsGroup)
    {tasks : List (Task σ)} (ht : members around t 0 e.commands = .ok tasks) :
    Inv ({ s with
      line := some
        { number := n, inbox, current := some (t, .group e (List.replicate e.size none)) }
      ready := s.ready ++ tasks }.log (.taken n t e)) := by
  have unanswered (i : Nat) : (s.log (.taken n t e)).history.answer? t i = none := by
    simpa [log, Event.answer?] using hi.next_unanswered hx i
  have opened : (s.log (.taken n t e)).history.Opened n around := by simpa [log] using hx.opened
  have taken : (s.clock, .taken n t e) ∈ (s.log (.taken n t e)).history := List.mem_cons_self
  have unsettled : ¬ (s.log (.taken n t e)).history.Settled t := by
    simpa [log] using hi.next_unsettled hx
  have keys := members_keys ht s.clock
  have mustered := (hi.take hx).muster taken opened unsettled unanswered
    (fun m hm => hi.next_crew hx hm) he
    (fun task htask => by
      obtain ⟨i, c, j, rfl, hc, hj⟩ := mem_members ht htask
      exact ⟨i, c, j, by rw [Nat.zero_add], hc, hj⟩)
    (by
      simp only [log, keys]
      exact List.pairwise_map.2 ((List.nodup_range' _).imp fun h heq => h (congrArg Prod.snd heq)))
  refine mustered.attach rfl unsettled ?_
  have slots : List.replicate e.size none = (s.log (.taken n t e)).history.slots t e.size := by
    simp [History.slots, funext unanswered, List.map_const']
  rw [slots]
  refine .group s.clock e around taken opened he (members_known ht)
    (fun h => absurd h (Nat.lt_irrefl _)) fun i hlt ha => ?_
  have hmem : (t, i) ∈ (tasks.filterMap (·.member? s.clock)).map Member.key := by
    simpa [keys, Effect.size] using hlt
  simp only [Scheduler.crew, log, List.filterMap_append, List.map_append, List.mem_append]
  exact .inl (.inr hmem)

end Taking

end InvBut

end Switchboard.Scheduler
