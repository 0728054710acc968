import Switchboard.Proofs.Alike
import Switchboard.Proofs.Amid
import Switchboard.Proofs.Runs

/-!
# Switchboard.Proofs.Among

One scheduler among others.  A run that was alone is compared with the same
run beside strangers: tasks that were there before, which have tickets and lines
of their own.  What belongs to the run is there on both sides, in the same
order; its tickets have other numbers, and its lines and its times are further
on.

* `Among` — what the two schedulers have in common;
* `Among.settle`, `Among.emit`, `Among.runTask` — what the run itself does keeps
  it;
* `Among.settle_strange`, `Among.emit_strange`, `Among.runTask_strange` — and so
  does whatever the strangers do.
-/

namespace Switchboard

/-! ## Tasks of one's own and of others -/

variable {ξ σ ρ α : Type} {C : Effect → Prop} {d k n : Nat} {P P' R : Pairs} {A : List Nat}

/-- A ticket that has been given out, and not to the run itself. -/
def Foreign (P : Pairs) (next : Ticket) (t : Ticket) : Prop := t < next ∧ ∀ u, (u, t) ∉ P

/-- Two tasks do the same; lines have other numbers. -/
inductive Task.Alike (C : Effect → Prop) (k : Nat) (P : Pairs) : Task σ → Task σ → Prop
  | begin {t t' : Ticket} {i : Nat} {c : Command} {j j' : Job σ Answer} {ms : List Nat}
      {r : Option Answer} (ht : (t, t') ∈ P) (hj : j.Follows ms r) (hj' : j'.Follows ms r) :
      Alike C k P (.begin t i c j) (.begin t' i c j')
  | resume {t t' : Ticket} {i : Nat} {j j' : Job σ Answer} {ms : List Nat} {r : Option Answer}
      (ht : (t, t') ∈ P) (hj : j.Follows ms r) (hj' : j'.Follows ms r) :
      Alike C k P (.resume t i j) (.resume t' i j')
  | errand {n n' : Nat} {e e' : Errand σ} (hn : n' = n + k) (he : e.Alike C P e') :
      Alike C k P (.errand n e) (.errand n' e')

/-- A task of somebody else: it has none of the run's tickets, and its line was
opened before. -/
inductive Task.Strange (C : Effect → Prop) (k : Nat) (F : Ticket → Prop) : Task σ → Prop
  | begin {t : Ticket} {i : Nat} {c : Command} {j : Job σ Answer} {ms : List Nat}
      {r : Option Answer} (ht : F t) (hj : j.Follows ms r) : Strange C k F (.begin t i c j)
  | resume {t : Ticket} {i : Nat} {j : Job σ Answer} {ms : List Nat} {r : Option Answer}
      (ht : F t) (hj : j.Follows ms r) : Strange C k F (.resume t i j)
  | errand {n : Nat} {e₀ e : Errand σ} {R : Pairs} (hn : n ≤ k) (he : e₀.Alike C R e)
      (hR : ∀ p ∈ R, F p.2) : Strange C k F (.errand n e)

inductive Sleeper.Alike (C : Effect → Prop) (k : Nat) (P : Pairs) : Sleeper σ → Sleeper σ → Prop
  | main : Alike C k P .main .main
  | task {t t' : Task σ} (h : t.Alike C k P t') : Alike C k P (.task t) (.task t')

/-- Two effects are being resolved in the same way, and have come equally far. -/
inductive Work.Alike (d : Nat) (P : Pairs) : Ticket × Work σ → Ticket × Work σ → Prop
  | single {t t' : Ticket} {due due' : Nat} {j j' : Job σ Answer} {ms : List Nat} {a : Answer}
      (ht : (t, t') ∈ P) (hdue : due' = due + d) (hj : j.Follows ms (some a))
      (hj' : j'.Follows ms (some a)) : Alike d P (t, .single due j) (t', .single due' j')
  | group {t t' : Ticket} {e : Effect} {slots : List (Option Answer)} (ht : (t, t') ∈ P) :
      Alike d P (t, .group e slots) (t', .group e slots)

/-- Two lines with the same effects. -/
structure Line.Alike (C : Effect → Prop) (d k : Nat) (P : Pairs) (l l' : Line σ) : Prop where
  number : l'.number = l.number + k
  opened : 0 < l.number
  inbox : List.Forall₂ (fun p p' => (p.1, p'.1) ∈ P ∧ p.2 = p'.2 ∧ C p.2) l.inbox l'.inbox
  current : Option.Rel (Work.Alike d P) l.current l'.current

theorem Task.Alike.mono {t t' : Task σ} (h : t.Alike C k P t') (hP : P ⊆ P') :
    t.Alike C k P' t' := by
  cases h with
  | begin ht hj hj' => exact .begin (hP ht) hj hj'
  | resume ht hj hj' => exact .resume (hP ht) hj hj'
  | errand hn he => exact .errand hn (he.mono hP)

theorem Sleeper.Alike.mono {w w' : Sleeper σ} (h : w.Alike C k P w') (hP : P ⊆ P') :
    w.Alike C k P' w' := by
  cases h with
  | main => exact .main
  | task h => exact .task (h.mono hP)

theorem Work.Alike.mono {w w' : Ticket × Work σ} (h : Work.Alike d P w w') (hP : P ⊆ P') :
    Work.Alike d P' w w' := by
  cases h with
  | single ht hdue hj hj' => exact .single (hP ht) hdue hj hj'
  | group ht => exact .group (hP ht)

theorem Line.Alike.mono {l l' : Line σ} (h : l.Alike C d k P l') (hP : P ⊆ P') :
    l.Alike C d k P' l' where
  number := h.number
  opened := h.opened
  inbox := h.inbox.imp fun _ _ hp => ⟨hP hp.1, hp.2⟩
  current := rel_mono h.current fun _ _ h => h.mono hP

theorem Task.Strange.mono {F F' : Ticket → Prop} {t : Task σ} {k' : Nat} (h : t.Strange C k F)
    (hk : k ≤ k') (hF : ∀ t, F t → F' t) : t.Strange C k' F' := by
  cases h with
  | begin ht hj => exact .begin (hF _ ht) hj
  | resume ht hj => exact .resume (hF _ ht) hj
  | errand hn he hR => exact .errand (Nat.le_trans hn hk) he fun p hp => hF _ (hR p hp)

/-- Whatever is left of a run is strange to those that come later. -/
theorem Task.Alike.strange {t t' : Task σ} {k' : Nat} {F : Ticket → Prop} (h : t.Alike C k P t')
    (hP : ∀ p ∈ P, F p.2) (hn : ∀ n, t'.handle? = some n → n ≤ k') : t'.Strange C k' F := by
  cases h with
  | begin ht _ hj => exact .begin (hP _ ht) hj
  | resume ht _ hj => exact .resume (hP _ ht) hj
  | errand _ he => exact .errand (hn _ rfl) he hP

theorem Task.Alike.ticket {w w' : Waiter σ} (h : w.task.Alike C k P w'.task) :
    (w.ticket, w'.ticket) ∈ P := by
  cases h with
  | errand hn he =>
      cases he with
      | await ht => exact ht

theorem Task.Strange.ticket {F : Ticket → Prop} {w : Waiter σ} (h : w.task.Strange C k F) :
    F w.ticket := by
  cases h with
  | errand hn he hR =>
      cases he with
      | await ht => exact hR _ ht

namespace Scheduler

/-! ### Timers -/

section Timers

variable {rel : Sleeper σ → Sleeper σ → Prop} {strange : Nat × Sleeper σ → Prop}
  {ts ts' : List (Nat × Sleeper σ)} {due : Nat} {who who' : Sleeper σ}

theorem insertTimer_of_lt (h : ∀ p ∈ ts, due < p.1) :
    insertTimer due who ts = (due, who) :: ts := by
  cases ts with
  | nil => rfl
  | cons p ts => exact if_neg (Nat.not_le.2 (h p List.mem_cons_self))

theorem insertTimer_cons (p : Nat × Sleeper σ) : insertTimer due who (p :: ts) =
    if p.1 ≤ due then p :: insertTimer due who ts else (due, who) :: p :: ts := rfl

/-- Two sleepers that are due at the same time find the same place. -/
theorem amid_insertTimer
    (h : Amid (fun p p' => p'.1 = p.1 + d ∧ rel p.2 p'.2) strange ts ts')
    (sorted : ts'.Pairwise (·.1 ≤ ·.1)) (hw : rel who who') :
    Amid (fun p p' => p'.1 = p.1 + d ∧ rel p.2 p'.2) strange
      (insertTimer due who ts) (insertTimer (due + d) who' ts') := by
  induction h with
  | nil => exact .own ⟨rfl, hw⟩ .nil
  | @own p p' ts ts' hp h ih =>
      obtain ⟨-, sorted⟩ := List.pairwise_cons.1 sorted
      by_cases le : p.1 ≤ due
      · have le' : p'.1 ≤ due + d := by omega
        rw [insertTimer_cons, insertTimer_cons, if_pos le, if_pos le']
        exact .own hp (ih sorted)
      · have gt' : ¬ p'.1 ≤ due + d := by omega
        rw [insertTimer_cons, insertTimer_cons, if_neg le, if_neg gt']
        exact .own ⟨rfl, hw⟩ (.own hp h)
  | @strange p' ts ts' hp h ih =>
      obtain ⟨first, sorted⟩ := List.pairwise_cons.1 sorted
      by_cases le : p'.1 ≤ due + d
      · rw [insertTimer_cons p', if_pos le]
        exact .strange hp (ih sorted)
      · -- Everything behind is due later still, on both sides.
        have later : ∀ p ∈ ts, due < p.1 := by
          intro p hpm
          obtain ⟨q, hq, hpq, -⟩ := h.exists_right hpm
          have := first q hq
          omega
        rw [insertTimer_of_lt later, insertTimer_cons, if_neg le]
        exact .own ⟨rfl, hw⟩ (.strange hp h)

theorem amid_insertTimer_strange {β : Type} {rel : β → Nat × Sleeper σ → Prop} {bs : List β}
    (h : Amid rel strange bs ts)
    (hw : strange (due, who)) : Amid rel strange bs (insertTimer due who ts) := by
  induction h with
  | nil => exact .strange hw .nil
  | own hp h ih =>
      rw [insertTimer_cons]
      split
      · exact .own hp ih
      · exact .strange hw (.own hp h)
  | strange hp h ih =>
      rw [insertTimer_cons]
      split
      · exact .strange hp ih
      · exact .strange hw (.strange hp h)

end Timers

/-! ## One run among others -/

/-- Nothing has become yet of tickets that have not been given out. -/
def Unused (s : Scheduler ξ σ) : Prop :=
  ∀ t, s.nextTicket ≤ t → s.outcome? t = none ∧ s.dropped t = false

/-- The interpreter waits for the resolver of a single command until then. -/
def Ringing (s : Scheduler ξ σ) (due : Nat) : Prop :=
  ∃ l t job, s.line = some l ∧ l.current = some (t, .single due job)

/-- A run by itself, and the same run among others: it began `d` later there, and
behind `k` lines.  The main routine is woken for the times `A` only, and when the
resolver of a single command has slept. -/
structure Among (C : Effect → Prop) (d k : Nat) (P : Pairs) (A : List Nat)
    (a s : Scheduler ξ σ) : Prop where
  clock : s.clock = a.clock + d
  state : s.state = a.state
  woken : s.woken = a.woken
  firstLine : 0 < a.nextLine
  nextLine : s.nextLine = a.nextLine + k
  line : Option.Rel (Line.Alike C d k P) a.line s.line
  paired : ∀ p ∈ P, ∀ q ∈ P, p.1 = q.1 ↔ p.2 = q.2
  issued : ∀ p ∈ P, p.1 < a.nextTicket ∧ p.2 < s.nextTicket
  unused : a.Unused ∧ s.Unused
  outcome : ∀ p ∈ P, s.outcome? p.2 = a.outcome? p.1
  dropped : ∀ p ∈ P, s.dropped p.2 = a.dropped p.1
  ready : Amid (Task.Alike C k P) (Task.Strange C k (Foreign P s.nextTicket)) a.ready s.ready
  timers : Amid (fun p p' => p'.1 = p.1 + d ∧ p.2.Alike C k P p'.2)
    (fun p => ∃ t, p.2 = .task t ∧ t.Strange C k (Foreign P s.nextTicket)) a.timers s.timers
  parked : Amid (fun w w' => w.task.Alike C k P w'.task)
    (fun w => w.task.Strange C k (Foreign P s.nextTicket)) a.parked s.parked
  sorted : s.timers.Pairwise (·.1 ≤ ·.1)
  ahead : ∀ p ∈ s.timers, s.clock < p.1
  alarms : ∀ due, (due, .main) ∈ s.timers → due ∈ A ∨ s.Ringing due

variable {a s : Scheduler ξ σ} {t t' u : Ticket}

theorem unused_settle (h : s.Unused) (ht : t < s.nextTicket) (o : Outcome) :
    (s.settle t o).Unused := by
  intro u hu
  rw [settle_nextTicket] at hu
  have ne : ¬ (u = t ∧ s.dropped t = false) := fun eq => Nat.not_lt.2 hu (eq.1 ▸ ht)
  rw [settle_outcome?, if_neg ne, settle_dropped]
  exact h u hu

theorem unused_drop (h : s.Unused) (ht : t < s.nextTicket) : (s.drop t).Unused := by
  intro u hu
  have ne : u ≠ t := fun eq => Nat.not_lt.2 hu (eq ▸ ht)
  rw [drop_outcome?, if_neg ne]
  exact ⟨(h u hu).1, by simpa [drop, ne] using (h u hu).2⟩

@[simp] theorem emit_nextTicket (s : Scheduler ξ σ) (n : Nat) (e : Effect) :
    (s.emit n e).2.nextTicket = s.nextTicket + 1 := by
  by_cases hl : ∃ l, s.line = some l ∧ l.number = n
  · obtain ⟨l, hl, rfl⟩ := hl
    rw [emit_open s e hl]
    rfl
  · rw [emit_closed s e fun l h hn => hl ⟨l, h, hn⟩, settle_nextTicket]
    rfl

/-! ### The queue -/

/-- The same scheduler with others in front of the queue. -/
def behind (ts : List (Task σ)) (s : Scheduler ξ σ) : Scheduler ξ σ :=
  { s with ready := ts ++ s.ready }

section Behind

variable (ts : List (Task σ)) (s : Scheduler ξ σ)

theorem settle_behind (t : Ticket) (o : Outcome) :
    (s.behind ts).settle t o = (s.settle t o).behind ts := by
  simp only [settle, behind, waiters, log, List.append_assoc]
  rfl

theorem emit_behind (n : Nat) (e : Effect) :
    (s.behind ts).emit n e = ((s.emit n e).1, (s.emit n e).2.behind ts) := by
  refine Prod.ext (by rw [emit_ticket, emit_ticket]; rfl) ?_
  by_cases hl : ∃ l, s.line = some l ∧ l.number = n
  · obtain ⟨l, hl, rfl⟩ := hl
    rw [emit_open s e hl, emit_open (s.behind ts) e hl]
    rfl
  · rw [emit_closed s e fun l h hn => hl ⟨l, h, hn⟩,
      emit_closed (s.behind ts) e fun l h hn => hl ⟨l, h, hn⟩]
    exact settle_behind ts ({ s with nextTicket := s.nextTicket + 1 }.log _) _ _

theorem report_behind (t : Ticket) (i : Nat) (x : Answer) :
    (s.behind ts).report t i x = (s.report t i x).behind ts := by
  by_cases hb : ∃ n e slots, s.Busy n t (.group e slots)
  · obtain ⟨n, e, slots, inbox, hl⟩ := hb
    rw [report_group s x hl, report_group (s.behind ts) x hl]
    rfl
  · rw [report_other s x fun n e slots h => hb ⟨n, e, slots, h⟩,
      report_other (s.behind ts) x fun n e slots h => hb ⟨n, e, slots, h⟩]
    rfl

theorem runMember_behind (t : Ticket) (i : Nat) (j : Job σ Answer) :
    (s.behind ts).runMember t i j = (s.runMember t i j).behind ts := by
  have same : j.burst (s.behind ts).clock (s.behind ts).world = j.burst s.clock s.world := rfl
  unfold runMember
  rw [same]
  rcases j.burst s.clock s.world with ⟨x | _ | _, w⟩
  · exact report_behind ts { s with world := w } t i x
  · exact report_behind ts { s with world := w } t i _
  · rfl

theorem runErrand_behind (n : Nat) (e : Errand σ) (s : Scheduler ξ σ) :
    runErrand n e (s.behind ts) = (runErrand n e s).behind ts := by
  induction e generalizing s with
  | done => rfl
  | look next ih => exact ih _ _ s
  | write change next ih => exact ih { s with world := change s.world }
  | emit e next ih =>
      unfold runErrand
      rw [emit_behind]
      exact ih _ _
  | await t next ih =>
      have same : (s.behind ts).outcome? t = s.outcome? t := rfl
      unfold runErrand
      rw [same]
      cases s.outcome? t with
      | some o => exact ih o (s.log (.resumed t o))
      | none => rfl
  | drop t next ih => exact ih (s.drop t)
  | sleep ms next ih =>
      unfold runErrand
      split
      · exact ih s
      · rfl

/-- A task does not look at the queue. -/
theorem runTask_behind (t : Task σ) : (s.behind ts).runTask t = (s.runTask t).behind ts := by
  cases t with
  | begin t i c j => exact runMember_behind ts (s.log (.started t i c)) t i j
  | resume t i j => exact runMember_behind ts s t i j
  | errand n e => exact runErrand_behind ts n e s

theorem runReady_behind : (s.behind ts).runReady ts.length = ts.foldl runTask s := by
  induction ts generalizing s with
  | nil => rfl
  | cons t ts ih =>
      have first : (s.behind (t :: ts)).runReady (ts.length + 1) =
          ((s.behind ts).runTask t).runReady ts.length := rfl
      rw [List.length_cons, first, runTask_behind]
      exact ih (s.runTask t)

/-- Every task that stands in the queue has its turn, and the others begin a new
queue. -/
theorem drain_eq : s.drain = s.ready.foldl runTask { s with ready := [] } := by
  rw [← runReady_behind]
  have whole : ({ s with ready := [] } : Scheduler ξ σ).behind s.ready = s := by
    rw [behind, List.append_nil]
  rw [whole]
  rfl

end Behind

namespace Among

/-! ### Outcomes -/

theorem eq_iff (h : Among C d k P A a s) {p q : Ticket × Ticket} (hp : p ∈ P) (hq : q ∈ P) :
    p.2 = q.2 ↔ p.1 = q.1 :=
  (h.paired p hp q hq).symm

theorem waiters (h : Among C d k P A a s) (ht : (t, t') ∈ P) :
    Amid (fun w w' => w.task.Alike C k P w'.task)
      (fun w => w.task.Strange C k (Foreign P s.nextTicket)) (a.waiters t) (s.waiters t') := by
  unfold Scheduler.waiters
  rw [h.dropped _ ht]
  split
  · exact .nil
  · refine h.parked.filter fun w w' hw => ?_
    exact decide_eq_decide.2 (h.paired _ hw.ticket _ ht)

/-- An outcome is sent to one of the run's own emissions. -/
theorem settle (h : Among C d k P A a s) (ht : (t, t') ∈ P) (o : Outcome) :
    Among C d k P A (a.settle t o) (s.settle t' o) :=
  { h with
    issued := by
      simp only [settle_nextTicket]
      exact h.issued
    unused := ⟨unused_settle h.unused.1 (h.issued _ ht).1 o,
      unused_settle h.unused.2 (h.issued _ ht).2 o⟩
    outcome := fun p hp => by
      rw [settle_outcome?, settle_outcome?, h.outcome p hp, h.dropped _ ht]
      exact if_congr (and_congr_left' (h.eq_iff hp ht)) rfl rfl
    dropped := by
      simp only [settle_dropped]
      exact h.dropped
    ready := h.ready.append ((h.waiters ht).map (fun _ _ h => h) fun _ h => h)
    parked := by
      simp only [Scheduler.settle, Scheduler.log, h.dropped _ ht]
      split
      · exact h.parked
      · refine h.parked.filter fun w w' hw => ?_
        exact decide_eq_decide.2 (not_congr (h.paired _ hw.ticket _ ht)) }

/-- Somebody else's emission has come to an end. -/
theorem settle_strange (h : Among C d k P A a s) (ht : Foreign P s.nextTicket t) (o : Outcome) :
    Among C d k P A a (s.settle t o) := by
  have own {w w' : Waiter σ} (hw : w.task.Alike C k P w'.task) : w'.ticket ≠ t :=
    fun eq => ht.2 w.ticket (eq ▸ hw.ticket)
  have strangers : ∀ w ∈ s.waiters t, w.task.Strange C k (Foreign P s.nextTicket) := by
    intro w hw
    unfold Scheduler.waiters at hw
    split at hw
    · cases hw
    · obtain ⟨hw, eq⟩ := List.mem_filter.1 hw
      rcases h.parked.mem_right hw with hw | ⟨w₀, -, hw⟩
      · exact hw
      · exact absurd (of_decide_eq_true eq) (own hw)
  exact { h with
    issued := by
      simp only [settle_nextTicket]
      exact h.issued
    unused := ⟨h.unused.1, unused_settle h.unused.2 ht.1 o⟩
    outcome := fun p hp => by
      have ne : ¬ (p.2 = t ∧ s.dropped t = false) := fun eq => ht.2 p.1 (eq.1 ▸ hp)
      rw [settle_outcome?, if_neg ne, h.outcome p hp]
    dropped := by
      simp only [settle_dropped]
      exact h.dropped
    ready := by
      have woken : Amid (Task.Alike C k P) (Task.Strange C k (Foreign P s.nextTicket)) []
          ((s.waiters t).map Waiter.task) :=
        .of_strange fun t ht => by
          obtain ⟨w, hw, rfl⟩ := List.mem_map.1 ht
          exact strangers w hw
      exact List.append_nil a.ready ▸ h.ready.append woken
    parked := by
      simp only [Scheduler.settle, Scheduler.log]
      split
      · exact h.parked
      · exact h.parked.filter_strange fun _ _ hw => decide_eq_true (own hw) }

theorem settleAll (h : Among C d k P A a s) {ts ts' : List Ticket}
    (ht : List.Forall₂ (fun t t' => (t, t') ∈ P) ts ts') (o : Outcome) :
    Among C d k P A (a.settleAll o ts) (s.settleAll o ts') := by
  induction ht generalizing a s with
  | nil => exact h
  | cons ht _ ih => exact ih (h.settle ht o)

theorem drop (h : Among C d k P A a s) (ht : (t, t') ∈ P) :
    Among C d k P A (a.drop t) (s.drop t') :=
  { h with
    unused := ⟨unused_drop h.unused.1 (h.issued _ ht).1, unused_drop h.unused.2 (h.issued _ ht).2⟩
    outcome := fun p hp => by
      rw [drop_outcome?, drop_outcome?, h.outcome p hp]
      exact if_congr (h.eq_iff hp ht) rfl rfl
    dropped := fun p hp => by
      simp only [Scheduler.drop, h.dropped p hp]
      exact congrArg (· || _) (decide_eq_decide.2 (h.eq_iff hp ht)) }

theorem drop_strange (h : Among C d k P A a s) (ht : Foreign P s.nextTicket t) :
    Among C d k P A a (s.drop t) := by
  have ne {p : Ticket × Ticket} (hp : p ∈ P) : p.2 ≠ t := fun eq => ht.2 p.1 (eq ▸ hp)
  exact { h with
    unused := ⟨h.unused.1, unused_drop h.unused.2 ht.1⟩
    outcome := fun p hp => by rw [drop_outcome?, if_neg (ne hp), h.outcome p hp]
    dropped := fun p hp => by
      simp only [Scheduler.drop, ne hp, decide_false, Bool.false_or]
      exact h.dropped p hp }

theorem log (h : Among C d k P A a s) (ev ev' : Event σ) : Among C d k P A (a.log ev) (s.log ev') :=
  { h with }

theorem log_strange (h : Among C d k P A a s) (ev : Event σ) : Among C d k P A a (s.log ev) :=
  { h with }

theorem world (h : Among C d k P A a s) (w w' : World σ) :
    Among C d k P A { a with world := w } { s with world := w' } :=
  { h with }

theorem world_strange (h : Among C d k P A a s) (w : World σ) :
    Among C d k P A a { s with world := w } :=
  { h with }

/-! ### Emissions -/

/-- A ticket is given out on both sides. -/
theorem issue (h : Among C d k P A a s) (ev ev' : Event σ) :
    Among C d k ((a.nextTicket, s.nextTicket) :: P) A
      ({ a with nextTicket := a.nextTicket + 1 }.log ev)
      ({ s with nextTicket := s.nextTicket + 1 }.log ev') := by
  have more : P ⊆ (a.nextTicket, s.nextTicket) :: P := List.subset_cons_self _ _
  have foreign (t : Ticket) (ht : Foreign P s.nextTicket t) :
      Foreign ((a.nextTicket, s.nextTicket) :: P) (s.nextTicket + 1) t := by
    refine ⟨Nat.lt_succ_of_lt ht.1, fun u hu => ?_⟩
    rcases List.mem_cons.1 hu with eq | hu
    · exact Nat.ne_of_lt ht.1 (congrArg Prod.snd eq)
    · exact ht.2 u hu
  have fresh {p : Ticket × Ticket} (hp : p ∈ P) : p.1 ≠ a.nextTicket ∧ p.2 ≠ s.nextTicket :=
    ⟨Nat.ne_of_lt (h.issued p hp).1, Nat.ne_of_lt (h.issued p hp).2⟩
  have unused := And.intro (h.unused.1 _ (Nat.le_refl _)) (h.unused.2 _ (Nat.le_refl _))
  exact { h with
    line := rel_mono h.line fun _ _ hl => hl.mono more
    paired := by
      intro p hp q hq
      rcases List.mem_cons.1 hp with rfl | hp <;> rcases List.mem_cons.1 hq with rfl | hq
      · exact iff_of_true rfl rfl
      · exact iff_of_false (fresh hq).1.symm (fresh hq).2.symm
      · exact iff_of_false (fresh hp).1 (fresh hp).2
      · exact h.paired p hp q hq
    issued := by
      refine List.forall_mem_cons.2 ⟨⟨Nat.lt_succ_self _, Nat.lt_succ_self _⟩, fun p hp => ?_⟩
      exact ⟨Nat.lt_succ_of_lt (h.issued p hp).1, Nat.lt_succ_of_lt (h.issued p hp).2⟩
    unused := ⟨fun t ht => h.unused.1 t (Nat.le_of_succ_le ht),
      fun t ht => h.unused.2 t (Nat.le_of_succ_le ht)⟩
    outcome := List.forall_mem_cons.2 ⟨unused.2.1.trans unused.1.1.symm, h.outcome⟩
    dropped := List.forall_mem_cons.2 ⟨unused.2.2.trans unused.1.2.symm, h.dropped⟩
    ready := h.ready.mono (fun _ _ ht => ht.mono more) fun _ ht => ht.mono (Nat.le_refl _) foreign
    timers := h.timers.mono (fun _ _ ht => ⟨ht.1, ht.2.mono more⟩)
      fun _ ⟨t, eq, ht⟩ => ⟨t, eq, ht.mono (Nat.le_refl _) foreign⟩
    parked := h.parked.mono (fun _ _ ht => ht.mono more)
      fun _ ht => ht.mono (Nat.le_refl _) foreign }

/-- A ticket is given out to somebody else. -/
theorem issue_strange (h : Among C d k P A a s) (ev : Event σ) :
    Among C d k P A a ({ s with nextTicket := s.nextTicket + 1 }.log ev) := by
  have foreign (t : Ticket) (ht : Foreign P s.nextTicket t) : Foreign P (s.nextTicket + 1) t :=
    ⟨Nat.lt_succ_of_lt ht.1, ht.2⟩
  exact { h with
    issued := fun p hp => ⟨(h.issued p hp).1, Nat.lt_succ_of_lt (h.issued p hp).2⟩
    unused := ⟨h.unused.1, fun t ht => h.unused.2 t (Nat.le_of_succ_le ht)⟩
    ready := h.ready.mono (fun _ _ ht => ht) fun _ ht => ht.mono (Nat.le_refl _) foreign
    timers := h.timers.mono (fun _ _ ht => ht)
      fun _ ⟨t, eq, ht⟩ => ⟨t, eq, ht.mono (Nat.le_refl _) foreign⟩
    parked := h.parked.mono (fun _ _ ht => ht) fun _ ht => ht.mono (Nat.le_refl _) foreign }

theorem foreign_issued (h : Among C d k P A a s) : Foreign P (s.nextTicket + 1) s.nextTicket :=
  ⟨Nat.lt_succ_self _, fun _ hu => Nat.lt_irrefl _ (h.issued _ hu).2⟩

theorem line_right (h : Among C d k P A a s) {l : Line σ} (hl : a.line = some l) :
    ∃ l', s.line = some l' ∧ l.Alike C d k P l' := by
  have line := h.line
  rw [hl] at line
  generalize hs : s.line = line' at line
  cases line with
  | some h => exact ⟨_, rfl, h⟩

theorem line_left (h : Among C d k P A a s) {l' : Line σ} (hl : s.line = some l') :
    ∃ l, a.line = some l ∧ l.Alike C d k P l' := by
  have line := h.line
  rw [hl] at line
  generalize hs : a.line = line' at line
  cases line with
  | some h => exact ⟨_, rfl, h⟩

theorem emit (h : Among C d k P A a s) (n : Nat) {e : Effect} (he : C e) :
    Among C d k ((a.nextTicket, s.nextTicket) :: P) A (a.emit n e).2 (s.emit (n + k) e).2 := by
  by_cases hopen : ∃ l, a.line = some l ∧ l.number = n
  · obtain ⟨l, hl, rfl⟩ := hopen
    obtain ⟨l', hl', line⟩ := h.line_right hl
    have issued := h.issue (.emitted l.number a.nextTicket e) (.emitted l'.number s.nextTicket e)
    have line := line.mono (List.subset_cons_self (a.nextTicket, s.nextTicket) P)
    rw [emit_open a e hl, ← line.number, emit_open s e hl']
    exact { issued with
      woken := rfl
      line := .some
        { line with
          inbox := List.rel_append line.inbox (.cons ⟨List.mem_cons_self, rfl, he⟩ .nil) }
      alarms := fun due hdue => by
        refine (h.alarms due hdue).imp_right ?_
        rintro ⟨l₀, t, job, hl₀, hc⟩
        cases hl'.symm.trans hl₀
        exact ⟨_, t, job, rfl, hc⟩ }
  · have closed (l : Line σ) (hl : a.line = some l) : l.number ≠ n := fun hn => hopen ⟨l, hl, hn⟩
    have closed' (l' : Line σ) (hl' : s.line = some l') : l'.number ≠ n + k := by
      obtain ⟨l, hl, line⟩ := h.line_left hl'
      have := closed l hl
      rw [line.number]
      omega
    rw [emit_closed a e closed, emit_closed s e closed']
    exact (h.issue _ _).settle List.mem_cons_self _

theorem emit_strange (h : Among C d k P A a s) (hn : n ≤ k) (e : Effect) :
    Among C d k P A a (s.emit n e).2 := by
  have closed (l' : Line σ) (hl' : s.line = some l') : l'.number ≠ n := by
    obtain ⟨l, hl, line⟩ := h.line_left hl'
    have := line.opened
    rw [line.number]
    omega
  rw [emit_closed s e closed]
  exact (h.issue_strange _).settle_strange h.foreign_issued _

/-! ### Timers and answers -/

/-- Somebody of the run's own falls asleep. -/
theorem addTimer (h : Among C d k P A a s) {due : Nat} {who who' : Sleeper σ}
    (hw : who.Alike C k P who') (later : s.clock < due + d) {B : List Nat} (hA : A ⊆ B)
    (alarm : who' = .main → due + d ∈ B) :
    Among C d k P B (a.addTimer due who) (s.addTimer (due + d) who') :=
  { h with
    timers := amid_insertTimer h.timers h.sorted hw
    sorted := insertTimer_sorted h.sorted
    ahead := forall_mem_insertTimer later h.ahead
    alarms := fun due' hdue => by
      rcases mem_insertTimer.1 hdue with eq | hdue
      · obtain ⟨rfl, main⟩ := Prod.mk.inj eq
        exact .inl (alarm main.symm)
      · exact (h.alarms due' hdue).imp_left fun hm => hA hm }

theorem addTimer_task (h : Among C d k P A a s) {due : Nat} {task task' : Task σ}
    (ht : task.Alike C k P task') (later : s.clock < due + d) :
    Among C d k P A (a.addTimer due (.task task)) (s.addTimer (due + d) (.task task')) :=
  h.addTimer (.task ht) later (List.Subset.refl _) nofun

theorem addTimer_strange (h : Among C d k P A a s) {due : Nat} {task : Task σ}
    (ht : task.Strange C k (Foreign P s.nextTicket)) (later : s.clock < due) :
    Among C d k P A a (s.addTimer due (.task task)) :=
  { h with
    timers := amid_insertTimer_strange h.timers ⟨task, rfl, ht⟩
    sorted := insertTimer_sorted h.sorted
    ahead := forall_mem_insertTimer later h.ahead
    alarms := fun due' hdue => by
      rcases mem_insertTimer.1 hdue with eq | hdue
      · cases eq
      · exact h.alarms due' hdue }

theorem busy_left (h : Among C d k P A a s) {n' : Nat} {t' : Ticket} {w' : Work σ}
    (hb : s.Busy n' t' w') :
    ∃ n t w, a.Busy n t w ∧ n' = n + k ∧ Work.Alike d P (t, w) (t', w') := by
  obtain ⟨inbox', hl'⟩ := hb
  obtain ⟨⟨n, inbox, current⟩, hl, line⟩ := h.line_left hl'
  have current' := line.current
  have number := line.number
  cases current' with
  | @some p _ hw => exact ⟨n, p.1, p.2, ⟨inbox, hl⟩, number, hw⟩

theorem report (h : Among C d k P A a s) (ht : (t, t') ∈ P) (i : Nat) (x : Answer) :
    Among C d k P A (a.report t i x) (s.report t' i x) := by
  by_cases hb : ∃ n e slots, a.Busy n t (.group e slots)
  · obtain ⟨n, e, slots, inbox, hl⟩ := hb
    obtain ⟨⟨n', inbox', current⟩, hl', line⟩ := h.line_right hl
    have current' := line.current
    cases current' with
    | some hw =>
        cases hw with
        | @group _ u _ _ hu =>
            obtain rfl : t' = u := (h.eq_iff ht hu).2 rfl
            rw [report_group a x hl, report_group s x hl']
            exact { h with
              woken := rfl
              line := .some { line with current := .some (.group ht) }
              alarms := fun due hdue => by
                refine (h.alarms due hdue).imp_right ?_
                rintro ⟨l₀, t, job, hl₀, hc⟩
                cases hl'.symm.trans hl₀
                cases hc }
  · have other (n' : Nat) (e : Effect) (slots : List (Option Answer)) :
        ¬ s.Busy n' t' (.group e slots) := by
      intro hb'
      obtain ⟨n, u, w, busy, -, hw⟩ := h.busy_left hb'
      cases hw with
      | group hu =>
          obtain rfl : t = u := (h.eq_iff ht hu).1 rfl
          exact hb ⟨n, e, slots, busy⟩
    rw [report_other a x fun n e slots h => hb ⟨n, e, slots, h⟩, report_other s x other]
    exact h.log _ _

theorem report_strange (h : Among C d k P A a s) (ht : Foreign P s.nextTicket t) (i : Nat)
    (x : Answer) : Among C d k P A a (s.report t i x) := by
  have other (n' : Nat) (e : Effect) (slots : List (Option Answer)) :
      ¬ s.Busy n' t (.group e slots) := by
    intro hb
    obtain ⟨n, u, w, -, -, hw⟩ := h.busy_left hb
    cases hw with
    | group hu => exact ht.2 u hu
  rw [report_other s x other]
  exact h.log_strange _

/-! ### Tasks -/

theorem runMember (h : Among C d k P A a s) (ht : (t, t') ∈ P) (i : Nat) {j j' : Job σ Answer}
    {ms : List Nat} {r : Option Answer} (hj : j.Follows ms r) (hj' : j'.Follows ms r) :
    Among C d k P A (a.runMember t i j) (s.runMember t' i j') := by
  have stop := hj.burst a.clock a.world
  have stop' := hj'.burst s.clock s.world
  unfold Scheduler.runMember
  rcases hb : j.burst a.clock a.world with ⟨pause, w⟩
  rcases hb' : j'.burst s.clock s.world with ⟨pause', w'⟩
  rw [hb] at stop
  rw [hb'] at stop'
  have h := h.world w w'
  cases stop with
  | done x => cases stop'; exact h.report ht i x
  | crashed => cases stop'; exact h.report ht i _
  | @asleep m next ms r hm hn =>
      cases stop' with
      | asleep hm' hn' =>
          have due : s.clock + m = a.clock + m + d := by
            have : s.clock = a.clock + d := h.clock
            omega
          dsimp only
          rw [due]
          refine h.addTimer_task (.resume ht hn hn') ?_
          show s.clock < _
          omega

theorem runMember_strange (h : Among C d k P A a s) (ht : Foreign P s.nextTicket t) (i : Nat)
    {j : Job σ Answer} {ms : List Nat} {r : Option Answer} (hj : j.Follows ms r) :
    Among C d k P A a (s.runMember t i j) := by
  have stop := hj.burst s.clock s.world
  unfold Scheduler.runMember
  rcases hb : j.burst s.clock s.world with ⟨pause, w⟩
  rw [hb] at stop
  have h := h.world_strange w
  cases stop with
  | done x => exact h.report_strange ht i x
  | crashed => exact h.report_strange ht i _
  | asleep hm hn =>
      refine h.addTimer_strange (.resume ht hn) ?_
      show s.clock < _
      omega

/-- An errand of the run's own.  It may have tickets given out. -/
theorem runErrand (n : Nat) {e e' : Errand σ} (he : e.Alike C R e') (hR : R ⊆ P)
    (h : Among C d k P A a s) :
    ∃ P', P ⊆ P' ∧ (∀ p ∈ P', p ∈ P ∨ s.nextTicket ≤ p.2) ∧
      Among C d k P' A (Scheduler.runErrand n e a) (Scheduler.runErrand (n + k) e' s) := by
  induction he generalizing P a s with
  | done => exact ⟨P, List.Subset.refl _, fun _ => .inl, h⟩
  | look _ ih => exact ih _ _ _ _ hR h
  | @write _ change change' _ _ _ ih => exact ih hR (h.world (change a.world) (change' s.world))
  | emit asked _ ih =>
      obtain ⟨P', hP, fresh, h'⟩ := ih a.nextTicket s.nextTicket (List.cons_subset_cons _ hR)
        (h.emit n asked)
      refine ⟨P', List.Subset.trans (List.subset_cons_self _ _) hP, fun p hp => ?_, ?_⟩
      · rcases fresh p hp with hp | hp
        · exact (List.mem_cons.1 hp).elim (fun eq => .inr (eq ▸ Nat.le_refl _)) .inl
        · exact .inr (Nat.le_trans (Silent.emit s (n + k) _).nextTicket hp)
      · unfold Scheduler.runErrand
        rw [emit_ticket, emit_ticket]
        exact h'
  | @await R t t' next next' ht hn ih =>
      have same := h.outcome _ (hR ht)
      unfold Scheduler.runErrand
      rw [same]
      cases a.outcome? t with
      | some o => exact ih o hR (h.log _ _)
      | none =>
          refine ⟨P, List.Subset.refl _, fun _ => .inl, { h with parked := ?_ }⟩
          have waits : Errand.Alike C P (.await t next) (.await t' next') :=
            .await (hR ht) fun o => (hn o).mono hR
          exact h.parked.append (.own (.errand rfl waits) .nil)
  | drop ht _ ih => exact ih hR (h.drop (hR ht))
  | @sleep _ ms e e' he ih =>
      unfold Scheduler.runErrand
      split
      · exact ih hR h
      · next pos =>
        have due : s.clock + ms = a.clock + ms + d := by
          have := h.clock
          omega
        rw [due]
        refine ⟨P, List.Subset.refl _, fun _ => .inl, h.addTimer_task (.errand rfl (he.mono hR)) ?_⟩
        omega

theorem runErrand_strange {n : Nat} (hn : n ≤ k) {e₀ e : Errand σ} (he : e₀.Alike C R e)
    (h : Among C d k P A a s) (hR : ∀ p ∈ R, Foreign P s.nextTicket p.2) :
    Among C d k P A a (Scheduler.runErrand n e s) := by
  induction he generalizing s with
  | done => exact h
  | look _ ih => exact ih 0 _ s.world _ h hR
  | write _ ih => exact ih (h.world_strange _) hR
  | @emit R effect next next' asked _ ih =>
      unfold Scheduler.runErrand
      rw [emit_ticket]
      refine ih 0 s.nextTicket (h.emit_strange hn _) (List.forall_mem_cons.2 ⟨?_, fun p hp => ?_⟩)
      · rw [emit_nextTicket]
        exact h.foreign_issued
      · rw [emit_nextTicket]
        exact ⟨Nat.lt_succ_of_lt (hR p hp).1, (hR p hp).2⟩
  | @await R t t' next next' ht hn' ih =>
      unfold Scheduler.runErrand
      split
      · next o _ => exact ih o (h.log_strange _) hR
      · have waits : ∀ w ∈ [(⟨t', n, next'⟩ : Waiter σ)],
            w.task.Strange C k (Foreign P s.nextTicket) :=
          List.forall_mem_singleton.2 (.errand hn (.await ht hn') hR)
        exact { h with parked := List.append_nil a.parked ▸ h.parked.append (.of_strange waits) }
  | drop ht _ ih => exact ih (h.drop_strange (hR _ ht)) hR
  | sleep he ih =>
      unfold Scheduler.runErrand
      split
      · exact ih h hR
      · refine h.addTimer_strange (.errand hn he hR) ?_
        omega

theorem runTask (h : Among C d k P A a s) {t t' : Task σ} (ht : t.Alike C k P t') :
    ∃ P', P ⊆ P' ∧ (∀ p ∈ P', p ∈ P ∨ s.nextTicket ≤ p.2) ∧
      Among C d k P' A (a.runTask t) (s.runTask t') := by
  have same (h' : Among C d k P A (a.runTask t) (s.runTask t')) :
      ∃ P', P ⊆ P' ∧ (∀ p ∈ P', p ∈ P ∨ s.nextTicket ≤ p.2) ∧
        Among C d k P' A (a.runTask t) (s.runTask t') :=
    ⟨P, List.Subset.refl _, fun _ => .inl, h'⟩
  cases ht with
  | begin ht hj hj' => exact same ((h.log _ _).runMember ht _ hj hj')
  | resume ht hj hj' => exact same (h.runMember ht _ hj hj')
  | errand hn he =>
      subst hn
      exact h.runErrand _ he (List.Subset.refl _)

theorem runTask_strange (h : Among C d k P A a s) {t : Task σ}
    (ht : t.Strange C k (Foreign P s.nextTicket)) : Among C d k P A a (s.runTask t) := by
  cases ht with
  | begin ht hj => exact (h.log_strange _).runMember_strange ht _ hj
  | resume ht hj => exact h.runMember_strange ht _ hj
  | errand hn he hR => exact h.runErrand_strange hn he hR

/-- The tasks of the run have their turns, and between them those of the
others. -/
theorem foldl_runTask {ts ts' : List (Task σ)}
    (ht : Amid (Task.Alike C k P) (Task.Strange C k (Foreign P n)) ts ts') (hn : n ≤ s.nextTicket)
    (hP : P ⊆ P') (fresh : ∀ p ∈ P', p ∈ P ∨ n ≤ p.2) (h : Among C d k P' A a s) :
    ∃ P'', P ⊆ P'' ∧
      Among C d k P'' A (ts.foldl Scheduler.runTask a) (ts'.foldl Scheduler.runTask s) := by
  induction ht generalizing P' a s with
  | nil => exact ⟨P', hP, h⟩
  | @own _ t _ _ ht _ ih =>
      obtain ⟨P'', hP', fresh', h⟩ := h.runTask (ht.mono hP)
      have later := Nat.le_trans hn (runTask_beside s t).silent.nextTicket
      refine ih later (List.Subset.trans hP hP') (fun p hp => ?_) h
      rcases fresh' p hp with hp | hp
      · exact fresh p hp
      · exact .inr (Nat.le_trans hn hp)
  | @strange t _ _ ht _ ih =>
      have later := Nat.le_trans hn (runTask_beside s t).silent.nextTicket
      have foreign (u : Ticket) (hu : Foreign P n u) : Foreign P' s.nextTicket u := by
        refine ⟨Nat.lt_of_lt_of_le hu.1 hn, fun v hv => ?_⟩
        rcases fresh _ hv with hv | hv
        · exact hu.2 v hv
        · exact Nat.not_lt.2 hv hu.1
      exact ih later hP fresh (h.runTask_strange (ht.mono (Nat.le_refl _) foreign))

theorem drain (h : Among C d k P A a s) : ∃ P', P ⊆ P' ∧ Among C d k P' A a.drain s.drain := by
  rw [drain_eq, drain_eq]
  have emptied : Among C d k P A { a with ready := [] } { s with ready := [] } :=
    { h with ready := .nil }
  exact foldl_runTask h.ready (Nat.le_refl _) (List.Subset.refl _) (fun _ => .inl) emptied

end Among

end Scheduler

end Switchboard
