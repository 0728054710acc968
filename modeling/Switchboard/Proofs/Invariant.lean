import Switchboard.Proofs.Steps

/-!
# Switchboard.Proofs.Invariant

What is true of a scheduler at every moment of every run.  The history is in
order; every emission waits in the inbox, is being resolved or has been
settled; and the members of groups that are still at work are on their way as
far as their sleeps have taken them.

In the middle of a step the outcome of an emission may be known and not have
been sent.  Such emissions are *owed* an outcome, and the invariant is stated
with a list of them.
-/

namespace Switchboard.Scheduler

variable {ξ σ : Type}

/-- A member of a group is on the way from the beginning of its resolver to
its end, as far as its sleeps have taken it. -/
def Engaged (h : History σ) (m : Member σ) : Prop :=
  ∃ m₀ n e around c job d, (m₀, .taken n m.ticket e) ∈ h ∧ h.Opened n around ∧
    e.IsGroup ∧ e.commands[m.index]? = some c ∧ around.resolve? c = some job ∧
    job.After d m.job ∧ m.due = m₀ + d

/-- What is known of the effect that is being resolved. -/
inductive Underway (s : Scheduler ξ σ) (n : Nat) (t : Ticket) : Work σ → Prop where
  | single (m₀ d : Nat) (c : Command) (around : Surroundings σ) (job job' : Job σ Answer)
      (taken : (m₀, .taken n t (.single c)) ∈ s.history) (opened : s.history.Opened n around)
      (known : around.resolve? c = some job) (after : job.After d job')
      (clock : s.clock ≤ m₀ + d) (unanswered : s.history.answer? t 0 = none)
      (timer : s.clock < m₀ + d → (m₀ + d, .main) ∈ s.timers) :
      Underway s n t (.single (m₀ + d) job')
  | group (m₀ : Nat) (e : Effect) (around : Surroundings σ)
      (taken : (m₀, .taken n t e) ∈ s.history) (opened : s.history.Opened n around)
      (composite : e.IsGroup) (known : ∀ c ∈ e.commands, (around.resolve? c).isSome)
      (undecided : m₀ < s.clock →
        FanIn.outcome? ((s.history.before s.clock).slots t e.size) = none)
      (atWork : ∀ i < e.size, s.history.answer? t i = none → (t, i) ∈ s.crew.map Member.key) :
      Underway s n t (.group e (s.history.slots t e.size))

/-- What is known of the line that is open. -/
structure OnLine (s : Scheduler ξ σ) (owed : List Ticket) (l : Line σ) : Prop where
  opened : ∃ around, s.history.Opened l.number around
  unended : ¬ s.history.Ended l.number
  queue : s.history.sentOn l.number = s.history.takenOn l.number ++ l.inbox
  served : ∀ p ∈ s.history.takenOn l.number,
    s.history.Settled p.1 ∨ l.current.map (·.1) = some p.1 ∨ p.1 ∈ owed
  unsettled : ∀ t ∈ l.pending, ¬ s.history.Settled t
  underway : ∀ t w, l.current = some (t, w) → s.Underway l.number t w

/-- The invariant, but for the emissions that are owed an outcome. -/
structure InvBut (s : Scheduler ξ σ) (owed : List Ticket) : Prop where
  orderly : s.history.Orderly
  past : ∀ p ∈ s.history, p.1 ≤ s.clock
  lines : ∀ p ∈ s.history, ∀ n, p.2.line? = some n → n < s.nextLine
  tickets : ∀ m n t e, (m, .emitted n t e) ∈ s.history → t < s.nextTicket
  outcomes : ∀ t o, s.outcome? t = some o → ∃ m, (m, .settled t o) ∈ s.history
  handles : ∀ n ∈ s.handles, n < s.nextLine
  /-- Whatever has no outcome waits on the line that is open. -/
  pending : ∀ m n t e, (m, .emitted n t e) ∈ s.history →
    s.history.Settled t ∨ (∃ l, s.line = some l ∧ l.number = n ∧ t ∈ l.pending) ∨ t ∈ owed
  ended : ∀ n around, s.history.Opened n around →
    s.history.Ended n ∨ ∃ l, s.line = some l ∧ l.number = n
  onLine : ∀ l, s.line = some l → s.OnLine owed l
  engaged : ∀ m ∈ s.crew, Engaged s.history m
  distinct : (s.crew.map Member.key).Nodup
  unanswered : ∀ m ∈ s.crew, s.history.answer? m.ticket m.index = none
  /-- Who is still at work on a group that is settled answers later. -/
  late : ∀ m ∈ s.crew, ∀ m' o, (m', .settled m.ticket o) ∈ s.history → m' < m.due
  sorted : s.timers.Pairwise (·.1 ≤ ·.1)
  ahead : ∀ p ∈ s.timers, s.clock < p.1

abbrev Inv (s : Scheduler ξ σ) : Prop := s.InvBut []

/-! ## Steps that change nothing of this -/

/-- The members of a crew have gone on: they are the same, and none is due
earlier than it was. -/
structure Onward (h : History σ) (crew crew' : List (Member σ)) : Prop where
  keys : (crew'.map Member.key).Perm (crew.map Member.key)
  engaged : ∀ m ∈ crew', Engaged h m
  due : ∀ m ∈ crew', ∃ m' ∈ crew, m'.key = m.key ∧ m'.due ≤ m.due

section Frame

variable {s s' : Scheduler ξ σ} {owed : List Ticket}

theorem InvBut.onward (hi : s.InvBut owed) (crew : s'.crew.Perm s.crew) :
    Onward s.history s.crew s'.crew :=
  ⟨crew.map _, fun m hm => hi.engaged m (crew.mem_iff.1 hm),
    fun m hm => ⟨m, crew.mem_iff.1 hm, rfl, Nat.le_refl _⟩⟩

theorem Engaged.mono {h h' : History σ} {m : Member σ} (hm : Engaged h m) (hs : h ⊆ h') :
    Engaged h' m := by
  obtain ⟨m₀, n, e, around, c, job, d, ht, ⟨m', ho⟩, hrest⟩ := hm
  exact ⟨m₀, n, e, around, c, job, d, hs ht, ⟨m', hs ho⟩, hrest⟩

theorem Underway.taken {n : Nat} {t : Ticket} {w : Work σ} (hu : s.Underway n t w) :
    ∃ m e, (m, .taken n t e) ∈ s.history := by
  cases hu with
  | single m₀ d c around job job' taken => exact ⟨_, _, taken⟩
  | group m₀ e around taken => exact ⟨_, _, taken⟩

theorem Underway.mono {n : Nat} {t : Ticket} {w : Work σ} (hu : s.Underway n t w)
    (sub : s.history ⊆ s'.history) (clock : s'.clock = s.clock)
    (answer : ∀ i, s'.history.answer? t i = s.history.answer? t i)
    (before : ∀ i, (s'.history.before s.clock).answer? t i =
      (s.history.before s.clock).answer? t i)
    (crew : ∀ k ∈ s.crew.map Member.key, k.1 = t → k ∈ s'.crew.map Member.key)
    (mains : ∀ due, (due, .main) ∈ s.timers → (due, .main) ∈ s'.timers) :
    s'.Underway n t w := by
  have slots (size : Nat) : s'.history.slots t size = s.history.slots t size := by
    simp [History.slots, answer]
  cases hu with
  | single m₀ d c around job job' taken opened known after clock' unanswered timer =>
      obtain ⟨m', opened⟩ := opened
      exact .single m₀ d c around job job' (sub taken) ⟨m', sub opened⟩ known after
        (clock ▸ clock') (by rw [answer, unanswered]) fun h => mains _ (timer (clock ▸ h))
  | group m₀ e around taken opened composite known undecided atWork =>
      obtain ⟨m', opened⟩ := opened
      rw [← slots]
      refine .group m₀ e around (sub taken) ⟨m', sub opened⟩ composite known (fun h => ?_)
        fun i hi ha => crew _ (atWork i hi (by rw [← answer, ha])) rfl
      rw [← undecided (clock ▸ h), clock, History.slots, funext before, History.slots]

theorem InvBut.frame (hi : s.InvBut owed) (same : s.history.Same s'.history)
    (orderly : s'.history.Orderly) (past : ∀ p ∈ s'.history, p.1 ≤ s.clock)
    (lines : ∀ p ∈ s'.history, ∀ n, p.2.line? = some n → n < s.nextLine)
    (clock : s'.clock = s.clock) (line : s'.line = s.line)
    (nextTicket : s'.nextTicket = s.nextTicket) (nextLine : s'.nextLine = s.nextLine)
    (outcomes : ∀ t o, s'.outcome? t = some o → s.outcome? t = some o)
    (handles : ∀ n ∈ s'.handles, n < s.nextLine) (crew : Onward s.history s.crew s'.crew)
    (sorted : s'.timers.Pairwise (·.1 ≤ ·.1)) (ahead : ∀ p ∈ s'.timers, s.clock < p.1)
    (mains : ∀ due, (due, .main) ∈ s.timers → (due, .main) ∈ s'.timers) : s'.InvBut owed where
  orderly := orderly
  past := clock ▸ past
  lines := nextLine ▸ lines
  tickets m n t e he := nextTicket ▸ hi.tickets m n t e ((same.mem _ id).1 he)
  outcomes t o ho := (hi.outcomes t o (outcomes t o ho)).imp fun _ => (same.mem _ id).2
  handles := nextLine ▸ handles
  pending m n t e he := by
    rw [same.settled, line]
    exact hi.pending m n t e ((same.mem _ id).1 he)
  ended n around ho := by
    rw [same.ended, line]
    exact hi.ended n around (same.opened.1 ho)
  onLine l hl := by
    have hl := hi.onLine l (line ▸ hl)
    refine ⟨hl.opened.imp fun _ => same.opened.2, mt same.ended.1 hl.unended,
      by rw [same.sentOn, same.takenOn, hl.queue],
      fun p hp => ?_, fun t ht => mt same.settled.1 (hl.unsettled t ht), fun t w hw => ?_⟩
    · rw [same.settled]
      exact hl.served p (same.takenOn l.number ▸ hp)
    · exact (hl.underway t w hw).mono same.sub clock (same.answer? t) (same.before _ t)
        (fun k hk _ => crew.keys.mem_iff.2 hk) mains
  engaged m hm := (crew.engaged m hm).mono same.sub
  distinct := crew.keys.nodup_iff.2 hi.distinct
  unanswered m hm := by
    obtain ⟨m', hm', hkey, -⟩ := crew.due m hm
    obtain ⟨ht, hidx⟩ := Prod.mk.injEq .. ▸ hkey
    rw [same.answer?, ← ht, ← hidx]
    exact hi.unanswered m' hm'
  late m hm m₁ o ho := by
    obtain ⟨m', hm', hkey, hdue⟩ := crew.due m hm
    obtain ⟨ht, -⟩ := Prod.mk.injEq .. ▸ hkey
    exact Nat.lt_of_lt_of_le (hi.late m' hm' m₁ o (ht ▸ (same.mem _ id).1 ho)) hdue
  sorted := sorted
  ahead := clock ▸ ahead

/-- A step that leaves the line, the crew and the history alone. -/
theorem InvBut.keep (hi : s.InvBut owed) (history : s'.history = s.history)
    (clock : s'.clock = s.clock)
    (line : s'.line = s.line) (nextTicket : s'.nextTicket = s.nextTicket)
    (nextLine : s'.nextLine = s.nextLine)
    (outcomes : ∀ t o, s'.outcome? t = some o → s.outcome? t = some o)
    (handles : ∀ n ∈ s'.handles, n < s.nextLine) (crew : s'.crew.Perm s.crew)
    (timers : s'.timers = s.timers) : s'.InvBut owed :=
  hi.frame (history ▸ .refl _) (history ▸ hi.orderly) (history ▸ hi.past) (history ▸ hi.lines)
    clock line nextTicket nextLine outcomes handles (hi.onward crew) (timers ▸ hi.sorted)
    (timers ▸ hi.ahead)
    (timers ▸ fun _ => id)

/-- A neutral event is noted. -/
theorem InvBut.note (hi : s.InvBut owed) {ev : Event σ} (neutral : ev.Neutral)
    (fits : s.history.Fits s.clock ev) (line : ∀ n, ev.line? = some n → n < s.nextLine) :
    (s.log ev).InvBut owed :=
  hi.frame (.cons _ _ neutral) ⟨fits, hi.past, hi.orderly⟩
    (List.forall_mem_cons.2 ⟨Nat.le_refl _, hi.past⟩) (List.forall_mem_cons.2 ⟨line, hi.lines⟩)
    rfl rfl rfl rfl (fun _ _ => id) hi.handles (hi.onward (.refl _)) hi.sorted hi.ahead
    (fun _ => id)

/-- Something happens on a line.  What it means for the emissions and for the
line has to be said; everybody else goes on as before. -/
theorem InvBut.happen {owed' : List Ticket} {ev : Event σ} {n : Nat} (hi : s.InvBut owed)
    (named : ev.line? = some n) (hn : n < s'.nextLine)
    (history : s'.history = (s.clock, ev) :: s.history) (fits : s.history.Fits s.clock ev)
    (clock : s'.clock = s.clock) (ready : s'.ready = s.ready) (timers : s'.timers = s.timers)
    (parked : s'.parked = s.parked) (outcomes : s'.outcomes = s.outcomes)
    (nextLine : s.nextLine ≤ s'.nextLine)
    (tickets : ∀ m n t e, (m, .emitted n t e) ∈ s'.history → t < s'.nextTicket)
    (pending : ∀ m n t e, (m, .emitted n t e) ∈ s'.history →
      s.history.Settled t ∨ (∃ l, s'.line = some l ∧ l.number = n ∧ t ∈ l.pending) ∨ t ∈ owed')
    (ended : ∀ n around, s'.history.Opened n around →
      s'.history.Ended n ∨ ∃ l, s'.line = some l ∧ l.number = n)
    (onLine : ∀ l, s'.line = some l → s'.OnLine owed' l) : s'.InvBut owed' := by
  have sub : s.history ⊆ s'.history := history ▸ List.subset_cons_self _ _
  have unsettling {m : Nat} {t : Ticket} {o : Outcome} (h : (m, .settled t o) ∈ s'.history) :
      (m, .settled t o) ∈ s.history := by
    refine (List.mem_cons.1 (history ▸ h)).resolve_left fun heq => ?_
    obtain ⟨-, rfl⟩ := Prod.mk.inj heq
    cases named
  have crew : s'.crew = s.crew := by simp only [crew, ready, timers, clock]
  have handles : s'.handles = s.handles := by simp only [Scheduler.handles, ready, timers, parked]
  exact
    { orderly := history ▸ ⟨fits, hi.past, hi.orderly⟩
      past := by
        rw [history, clock]
        exact List.forall_mem_cons.2 ⟨Nat.le_refl _, hi.past⟩
      lines := by
        rw [history]
        refine List.forall_mem_cons.2 ⟨fun n' h => ?_, fun p hp n' h => ?_⟩
        · rw [named] at h
          cases h
          exact hn
        · exact Nat.lt_of_lt_of_le (hi.lines p hp n' h) nextLine
      tickets := tickets
      outcomes := fun t o ho => by
        rw [outcome?, outcomes] at ho
        exact (hi.outcomes t o ho).imp fun _ h => sub h
      handles := fun n' h => Nat.lt_of_lt_of_le (hi.handles n' (handles ▸ h)) nextLine
      pending := fun m n' t e he =>
        (pending m n' t e he).imp_left fun h => h.mono sub
      ended := ended
      onLine := onLine
      engaged := fun m hm => (hi.engaged m (crew ▸ hm)).mono sub
      distinct := crew ▸ hi.distinct
      unanswered := fun m hm => by
        have quiet : ev.answer? m.ticket m.index = none := by
          cases ev <;> first | rfl | cases named
        rw [history, History.answer?_cons, quiet]
        exact hi.unanswered m (crew ▸ hm)
      late := fun m hm m' o ho => hi.late m (crew ▸ hm) m' o (unsettling ho)
      sorted := timers ▸ hi.sorted
      ahead := timers ▸ clock ▸ hi.ahead }

end Frame

/-! ## Sending an outcome that is owed -/

theorem InvBut.settle {s : Scheduler ξ σ} {owed : List Ticket} {t : Ticket} {o : Outcome}
    (hi : s.InvBut (t :: owed)) (unsettled : ¬ s.history.Settled t)
    (cause : s.history.Cause s.clock t o) (crew : ∀ m ∈ s.crew, m.ticket = t → s.clock < m.due)
    (line : ∀ l, s.line = some l → t ∉ l.pending) : (s.settle t o).InvBut owed := by
  have sub : s.history ⊆ (s.settle t o).history := List.subset_cons_self _ _
  refine
    { orderly := ⟨⟨unsettled, cause⟩, hi.past, hi.orderly⟩
      past := List.forall_mem_cons.2 ⟨Nat.le_refl _, hi.past⟩
      lines := List.forall_mem_cons.2 ⟨fun n h => (by cases h), hi.lines⟩
      tickets := fun m n u e he => hi.tickets m n u e (by simpa using he)
      outcomes := fun u o' ho => ?_
      handles := fun n hn => hi.handles n (s.settle_handles t o hn)
      pending := fun m n u e he => ?_
      ended := fun n around h => by simpa using hi.ended n around (by simpa using h)
      onLine := fun l hl => ?_
      engaged := fun m hm => (hi.engaged m (s.settle_crew t o ▸ hm)).mono sub
      distinct := by simpa using hi.distinct
      unanswered := fun m hm => by
        simpa [Event.answer?] using hi.unanswered m (s.settle_crew t o ▸ hm)
      late := fun m hm m' o' ho => ?_
      sorted := hi.sorted
      ahead := hi.ahead }
  · rw [settle_outcome?] at ho
    split at ho
    · next h =>
      obtain ⟨rfl, -⟩ := h
      cases ho
      exact ⟨s.clock, by simp⟩
    · exact (hi.outcomes u o' ho).imp fun _ h => sub h
  · have := hi.pending m n u e (by simpa using he)
    simp only [settled_settle, settle_line, List.mem_cons] at this ⊢
    grind
  · have hol := hi.onLine l hl
    refine ⟨by simpa using hol.opened, by simpa using hol.unended,
      by simpa [Event.emission?, Event.taking?] using hol.queue, fun p hp => ?_, fun u hu => ?_,
      fun u w hw => ?_⟩
    · have := hol.served p (by simpa [Event.taking?] using hp)
      simp only [settled_settle, List.mem_cons] at this ⊢
      grind
    · have ht : t ≠ u := fun h => line l hl (h ▸ hu)
      simpa [ht] using hol.unsettled u hu
    · exact (hol.underway u w hw).mono sub rfl (fun i => by simp [Event.answer?])
        (fun i => by simp) (fun k hk _ => by simpa using hk) fun _ h => h
  · rw [settle_crew] at hm
    rcases List.mem_cons.1 ho with h | ho
    · cases h
      exact crew m hm rfl
    · exact hi.late m hm m' o' ho

end Switchboard.Scheduler
