import Switchboard.Proofs.Dropping
import Switchboard.Proofs.Groups
import Switchboard.Proofs.Queue
import Switchboard.Registry

/-!
# Switchboard.Proofs.Settlement

What becomes of an emission.  Its outcome is sent at most once.  An effect that
is taken is settled with what comes of resolving it, unless it is a single
command whose resolver crashes: then the interpretation breaks off, and the
effect is detached.  An effect that is not taken is detached just when nobody
listens any more.  Whoever waits for the outcome, or comes to look for it later, in
a script or outside it, goes on with it when it has its turn.
-/

namespace Switchboard

variable {ξ σ ρ α : Type}

/-! ## Resolving an effect -/

/-- What may come of resolving an effect, and how long it takes. -/
inductive Surroundings.Resolves (around : Surroundings σ) : Effect → Nat → Outcome → Prop where
  | unknown (e : Effect) (c : Command)
      (first : e.commands.find? (fun c => (around.resolve? c).isNone) = some c) :
      Resolves around e 0 (.error (.unknownCommand c.name))
  | single (c : Command) (job : Job σ Answer) (d : Nat) (a : Answer)
      (known : around.resolve? c = some job) (answer : job.After d (.done a)) :
      Resolves around (.single c) d (a.map .single)
  /-- Some members have answered, and the others are asleep. -/
  | group (e : Effect) (slots : List (Option Answer)) (d : Nat) (r : Except Failure (List Json))
      (composite : e.IsGroup) (known : ∀ c ∈ e.commands, (around.resolve? c).isSome)
      (length : slots.length = e.size)
      (answers : ∀ (i : Nat) a, slots[i]? = some (some a) → ∃ c job d', e.commands[i]? = some c ∧
        around.resolve? c = some job ∧ d' ≤ d ∧ job.Answers d' a)
      (asleep : ∀ i : Nat, slots[i]? = some none → around.Asleep e i d)
      (decided : FanIn.outcome? slots = some r) : Resolves around e d (r.map e.resumed)

namespace History

variable {h : History σ} {n m m₀ : Nat} {t : Ticket} {e : Effect} {o : Outcome}
  {around : Surroundings σ}

/-- What is sent for an effect is what came of resolving it. -/
theorem Resolution.resolves (hr : h.Resolution around m₀ m t e o) (ho : h.Orderly)
    (opened : h.Opened n around) (taken : (m₀, .taken n t e) ∈ h) (past : ∀ p ∈ h, p.1 ≤ m) :
    around.Resolves e (m - m₀) o := by
  -- Whatever has been answered has been answered by the effect's own resolvers.
  have authentic {m' i : Nat} {a : Answer} (ha : (m', .answered t i a) ∈ h) :
      ∃ c job d, e.commands[i]? = some c ∧ around.resolve? c = some job ∧ job.Answers d a ∧
        (e.IsGroup ∨ job.After d (.done a)) ∧ m' = m₀ + d := by
    obtain ⟨before, hp⟩ := exists_past ha
    have sub {q : Nat × Event σ} (hq : q ∈ before) : q ∈ h := hp.subset (List.mem_cons_of_mem _ hq)
    obtain ⟨-, -, m₁, n', e', around', c, job, d, taken', ⟨m₂, opened'⟩, rest⟩ := ho.fits hp
    obtain ⟨rfl, rfl, rfl⟩ := ho.taken_unique taken (sub taken')
    obtain rfl := ho.opened_unique opened ⟨m₂, sub opened'⟩
    exact ⟨c, job, d, rest⟩
  cases hr with
  | unknown _ c first hm =>
      subst hm
      rw [Nat.sub_self]
      exact .unknown e c first
  | single c a known answered =>
      obtain ⟨c', job, d, hc, hj, -, done, rfl⟩ := authentic answered
      cases hc
      rw [Nat.add_sub_cancel_left]
      exact .single c job d a hj (done.resolve_left id)
  | group _ r composite known decided undecided asleep =>
      refine .group e (h.slots t e.size) (m - m₀) r composite known (by simp) (fun i a ha => ?_)
        (fun i hn => ?_) decided
      · have hi : i < e.size := by simpa using (List.getElem?_eq_some_iff.1 ha).1
        rw [getElem?_slots _ _ hi, Option.some.injEq] at ha
        obtain ⟨m', ha⟩ := mem_of_answer? h ha
        obtain ⟨c, job, d, hc, hj, answers, -, rfl⟩ := authentic ha
        have : m₀ + d ≤ m := past _ ha
        exact ⟨c, job, d, hc, hj, by omega, answers⟩
      · have hi : i < e.size := by simpa using (List.getElem?_eq_some_iff.1 hn).1
        rw [getElem?_slots _ _ hi, Option.some.injEq] at hn
        exact asleep i hi hn

/-- What is settled and has never been taken is detached, because nobody
listens on its line. -/
theorem Orderly.cause_of_untaken (ho : h.Orderly) (emitted : (m₀, .emitted n t e) ∈ h)
    (untaken : ∀ m, (m, .taken n t e) ∉ h) {past : History σ}
    (hs : (m, .settled t o) :: past <:+ h) : o = .error .detached ∧ past.Closed n := by
  have sub {q : Nat × Event σ} (hq : q ∈ past) : q ∈ h := hs.subset (List.mem_cons_of_mem _ hq)
  have hp := ho.suffix ((List.suffix_cons _ _).trans hs)
  have same {m' n' : Nat} {e' : Effect} (he : (m', .emitted n' t e') ∈ past) : n' = n ∧ e' = e := by
    obtain ⟨-, rfl, rfl⟩ := ho.emitted_unique emitted (sub he)
    exact ⟨rfl, rfl⟩
  have never {m' n' : Nat} {e' : Effect} (ht : (m', .taken n' t e') ∈ past) : False := by
    obtain ⟨m'', he⟩ := hp.emitted_of_taken ht
    obtain ⟨rfl, rfl⟩ := same he
    exact untaken m' (sub ht)
  cases (ho.fits hs).2 with
  | unheard n' e' sent _ closed =>
      obtain ⟨m', he⟩ := (mem_sentOn past).1 sent
      obtain ⟨rfl, rfl⟩ := same he
      exact ⟨rfl, closed⟩
  | broken _ _ _ _ _ _ taken => exact (never taken).elim
  | resolved _ _ _ _ _ taken => exact (never taken).elim

/-- A line on which something has been emitted is not opened afterwards. -/
theorem Orderly.opened_past (ho : h.Orderly) (emitted : (m₀, .emitted n t e) ∈ h)
    {past : History σ} (hs : (m, .settled t o) :: past <:+ h) (opened : h.Opened n around) :
    past.Opened n around := by
  obtain ⟨m', opened⟩ := opened
  rcases past_or_after opened hs (by simp) with opened | ⟨between, hb, settled⟩
  · exact ⟨m', opened⟩
  have hbetween := ho.suffix ((List.suffix_cons _ _).trans hb)
  obtain ⟨m₁, n', e', he⟩ := hbetween.emitted_of_settled ⟨m, o, settled⟩
  obtain ⟨-, rfl, rfl⟩ := ho.emitted_unique emitted (hb.subset (List.mem_cons_of_mem _ he))
  exact absurd rfl (ho.fits hb _ he)

end History

namespace Scheduler

variable {s : Scheduler ξ σ} {p : Routine ξ σ ρ α} {n m m₀ k : Nat} {t : Ticket} {e : Effect}
  {o : Outcome} {around : Surroundings σ}

/-! ## Effects that are taken -/

/-- An effect has been resolved in the surroundings of its line, and a script
that waits for it goes on at once. -/
def Resolved (p : Routine ξ σ ρ α) (s : Scheduler ξ σ) (n m₀ : Nat) (t : Ticket) (e : Effect)
    (m : Nat) (o : Outcome) : Prop :=
  ∃ around, (∃ m', Happens p s m' (.opened n around)) ∧ around.Resolves e (m - m₀) o ∧
    (Heard p s n t → Happens p s m (.resumed t o))

/-- The resolver of a single command has crashed, and the interpretation has
broken off with it. -/
def BrokenOff (p : Routine ξ σ ρ α) (s : Scheduler ξ σ) (n m₀ : Nat) (e : Effect) (m : Nat)
    (o : Outcome) : Prop :=
  ∃ c around job, e = .single c ∧ (∃ m', Happens p s m' (.opened n around)) ∧
    around.resolve? c = some job ∧ job.After (m - m₀) .crash ∧ Happens p s m (.ended n false) ∧
    o = .error .detached

theorem Happens.taken_settles (hs : Reachable s) (taken : Happens p s m₀ (.taken n t e)) :
    ∃ m o, m₀ ≤ m ∧ Happens p s m (.settled t o) ∧
      (Resolved p s n m₀ t e m o ∨ BrokenOff p s n m₀ e m o) := by
  obtain ⟨m, o, settled⟩ := taken.settles hs
  obtain ⟨k, taken, settled⟩ := taken.both settled hs
  have ho := hs.historyFor_orderly p k
  obtain ⟨past, hp⟩ := History.exists_past settled
  have hpast := ho.suffix ((List.suffix_cons _ _).trans hp)
  have sub {q : Nat × Event σ} (hq : q ∈ past) : q ∈ historyFor p s k :=
    hp.subset (List.mem_cons_of_mem _ hq)
  have before := ho.taken_past taken hp
  refine ⟨m, o, ho.time_le hp before, ⟨k, settled⟩, ?_⟩
  rcases ho.cause_of_taken taken hp with ⟨unended, around, opened, resolution⟩ |
    ⟨c, around, job, d, he, ⟨m', opened⟩, hj, crash, rfl, ended, rfl⟩
  · have resolves := resolution.resolves hpast opened before fun _ => ho.time_le hp
    obtain ⟨m', opened⟩ := opened
    exact .inl ⟨around, ⟨m', k, sub opened⟩, resolves, fun heard => heard.resumed hs hp unended⟩
  · refine .inr ⟨c, around, job, he, ⟨m', k, sub opened⟩, hj, ?_, ⟨k, sub ended⟩, rfl⟩
    rwa [Nat.add_sub_cancel_left]

/-! ## Effects that are not taken -/

/-- Nobody listens on a line in the end: its interpretation is over, or there
never is one. -/
def Unheard (p : Routine ξ σ ρ α) (s : Scheduler ξ σ) (n : Nat) : Prop :=
  (∃ m finished, Happens p s m (.ended n finished)) ∨ ∀ m around, ¬ Happens p s m (.opened n around)

theorem Happens.untaken_settled (hs : Reachable s) (emitted : Happens p s m₀ (.emitted n t e))
    (untaken : ∀ m, ¬ Happens p s m (.taken n t e)) (settled : Happens p s m (.settled t o)) :
    o = .error .detached ∧ Unheard p s n := by
  obtain ⟨k, emitted, settled⟩ := emitted.both settled hs
  obtain ⟨past, hp⟩ := History.exists_past settled
  obtain ⟨rfl, ended | unopened⟩ := (hs.historyFor_orderly p k).cause_of_untaken emitted
    (fun m ht => untaken m ⟨k, ht⟩) hp
  · obtain ⟨m', finished, ended⟩ := ended
    exact ⟨rfl, .inl ⟨m', finished, k, hp.subset (List.mem_cons_of_mem _ ended)⟩⟩
  · refine ⟨rfl, .inr ?_⟩
    rintro m' around ⟨j, opened⟩
    have suffix := hs.historyFor_suffix p (Nat.le_max_right j k)
    exact unopened around ((hs.historyFor_orderly p (max j k)).opened_past (suffix.subset emitted)
      (hp.trans suffix) ⟨m', (hs.historyFor_suffix p (Nat.le_max_left j k)).subset opened⟩)

/-- What nobody listens to any more is settled. -/
theorem Happens.settles_of_unheard (hs : Reachable s) (emitted : Happens p s m₀ (.emitted n t e))
    (unheard : Unheard p s n) : ∃ m o, Happens p s m (.settled t o) := by
  -- A line that is open has been opened, and has not ended.
  have closed {k : Nat} (he : (m₀, .emitted n t e) ∈ historyFor p s k)
      (hn : ∀ l, (runFor p s k).scheduler.line = some l → l.number ≠ n) :
      ∃ m o, Happens p s m (.settled t o) := by
    rcases (hs.inv p k).pending m₀ n t e he with ⟨m, o, h⟩ | ⟨l, hl, hnum, -⟩ | h
    · exact ⟨m, o, k, h⟩
    · exact absurd hnum (hn l hl)
    · cases h
  rcases unheard with ⟨m, finished, ended⟩ | unopened
  · obtain ⟨k, emitted, ended⟩ := emitted.both ended hs
    exact closed emitted fun l hl hn =>
      ((hs.inv p k).onLine l hl).unended (hn ▸ ⟨m, finished, ended⟩)
  · obtain ⟨k, emitted⟩ := emitted
    refine closed emitted fun l hl hn => ?_
    obtain ⟨around, m, opened⟩ := ((hs.inv p k).onLine l hl).opened
    exact unopened m around ⟨k, hn ▸ opened⟩

/-! ## Every emission -/

/-- What becomes of an emission. -/
structure Settlement (p : Routine ξ σ ρ α) (s : Scheduler ξ σ) (n : Nat) (t : Ticket) (e : Effect) :
    Prop where
  once : ∀ m m' o o', Happens p s m (.settled t o) → Happens p s m' (.settled t o') →
    m = m' ∧ o = o'
  /-- Whoever goes on does so with the outcome that has been sent. -/
  resumed : ∀ m o, Happens p s m (.resumed t o) → ∃ m' ≤ m, Happens p s m' (.settled t o)
  /-- Whoever waits, now or later, receives it, unless it has been dropped. -/
  received : ∀ k m o, (m, .settled t o) ∈ historyFor p s k →
    (runFor p s k).scheduler.dropped t = false →
      (runFor p s k).scheduler.outcome? t = some o ∧
        ∀ w ∈ (runFor p s k).scheduler.parked, w.ticket ≠ t
  /-- Whoever looks for it then goes on with it at once, -/
  handed : ∀ j m o go, (m, .settled t o) ∈ (moment p s j).scheduler.history →
    (moment p s j).scheduler.dropped t = false →
    (moment p s j).focus.awaits? = some (t, go) →
      moment p s (j + 1) = ⟨go o, (moment p s j).scheduler.log (.resumed t o)⟩
  /-- and whoever has been waiting for it has its turn and does so, if the run lasts. -/
  waiters : (∀ i, (moment p s i).scheduler.dropped t = false) →
    ∀ j k m o w, (m, .settled t o) ∈ (moment p s k).scheduler.history → w.ticket = t →
      w ∈ (moment p s j).scheduler.parked ∨ w.task ∈ (moment p s j).scheduler.ready →
        GoesOn p s w o j
  /-- Nobody is said to go on who does not. -/
  goes : ∀ m o, Happens p s m (.resumed t o) → Resumes p s m t o
  /-- It is this very effect that is taken, -/
  effect : ∀ m n' e', Happens p s m (.taken n' t e') → n' = n ∧ e' = e
  /-- and it is settled then, with what comes of it. -/
  taken : ∀ m₀, Happens p s m₀ (.taken n t e) → ∃ m o, m₀ ≤ m ∧ Happens p s m (.settled t o) ∧
    (Resolved p s n m₀ t e m o ∨ BrokenOff p s n m₀ e m o)
  untaken : (∀ m, ¬ Happens p s m (.taken n t e)) → ∀ m o, Happens p s m (.settled t o) →
    o = .error .detached
  detached : (∀ m, ¬ Happens p s m (.taken n t e)) →
    ((∃ m, Happens p s m (.settled t (.error .detached))) ↔ Unheard p s n)

theorem Happens.settlement (hs : Reachable s) (emitted : Happens p s m (.emitted n t e)) :
    Settlement p s n t e where
  once _ _ _ _ h h' := Happens.settled_unique hs h h'
  resumed m o := by
    rintro ⟨k, resumed⟩
    obtain ⟨past, hp⟩ := History.exists_past resumed
    obtain ⟨m', settled⟩ := (hs.historyFor_orderly p k).fits hp
    exact ⟨m', (hs.historyFor_orderly p k).time_le hp settled, k,
      hp.subset (List.mem_cons_of_mem _ settled)⟩
  received k m o settled kept := by
    have delivered := hs.runFor_delivered p k
    have readable := delivered.readable m t o settled kept
    refine ⟨readable, fun w hw hwt => ?_⟩
    have := delivered.parked w hw
    rw [hwt, readable] at this
    cases this
  handed _ _ _ _ settled kept awaits := hs.handed settled kept awaits
  waiters kept _ _ _ _ w settled same waits := by
    subst same
    exact hs.goesOn kept settled waits
  goes _ _ resumed := resumed.resumes hs
  effect m₀ n' e' taken := by
    obtain ⟨k, emitted, taken⟩ := emitted.both taken hs
    obtain ⟨m', emitted'⟩ := (hs.historyFor_orderly p k).emitted_of_taken taken
    obtain ⟨-, rfl, rfl⟩ := (hs.historyFor_orderly p k).emitted_unique emitted emitted'
    exact ⟨rfl, rfl⟩
  taken _ taken := Happens.taken_settles hs taken
  untaken untaken _ _ settled := (Happens.untaken_settled hs emitted untaken settled).1
  detached untaken := by
    constructor
    · rintro ⟨m', settled⟩
      exact (Happens.untaken_settled hs emitted untaken settled).2
    · intro unheard
      obtain ⟨m', o, settled⟩ := Happens.settles_of_unheard hs emitted unheard
      obtain ⟨rfl, -⟩ := Happens.untaken_settled hs emitted untaken settled
      exact ⟨m', settled⟩

/-- In every run, whatever is emitted is settled at most once: with what comes
of resolving it when it is taken, unless its own resolver crashes and the
interpretation with it, and as detached when it is not taken, just when nobody
listens any more.  Whoever waits goes on with the outcome, and dropping one emission
makes no difference to the others. -/
theorem emissions_settle (hs : Reachable s) (p : Routine ξ σ ρ α) :
    Traced p s ∧
    (∀ {n m : Nat} {t : Ticket} {e : Effect}, Happens p s m (.emitted n t e) →
      Settlement p s n t e) ∧
    ∀ {X : ξ → Prop} {W : World σ → Prop} {τ : Ticket} {s' : Scheduler ξ σ},
      s'.Forgone X W τ → Indifferent X W τ s' :=
  ⟨hs.traced p, fun emitted => Happens.settlement hs emitted, fun forgone => forgone.indifferent⟩

/-- A script drops the first of two emissions, and waits for the second.  In another
run an errand waits for a command whose resolver crashes. -/
theorem emissions_settle_abandoned :
    let ping : Effect := .single ⟨"ping", .null⟩
    let around : Surroundings Unit := ⟨.empty, fun _ => some (.sleep 2 (.done (.ok .null)))⟩
    let rest : Script Unit Unit Unit := .emit ping fun t => .await t fun _ => .done (.ok ())
    let p : Routine Unit Unit Unit Unit :=
      .interpret around (.emit ping fun t => .drop t rest) fun _ => .done ()
    let boom : Effect := .single ⟨"boom", .null⟩
    let q : Routine Unit Unit Unit Unit :=
      .interpret ((Registry.empty.register "boom" fun _ _ => .crash).surroundings .empty)
        (.spawn (.emit boom fun t => .await t fun _ => .done) (.sleep 10 (.done (.ok ()))))
        fun _ => .done ()
    let s : Scheduler Unit Unit := { state := (), world := { own := () } }
    let s' : Scheduler Unit Unit := { s.openLine around with
      nextTicket := 1, line := some { number := 1, inbox := [(0, ping)] } }
    (Happens p s 0 (.emitted 1 0 ping) ∧ Settlement p s 1 0 ping) ∧
      (Happens q s 0 (.taken 1 0 boom) ∧ Happens q s 0 (.settled 0 (.error .detached)) ∧
        Settlement q s 1 0 boom) ∧
      s'.Forgone (fun _ => True) (fun _ => True) 0 ∧
      runScript around 1 (.drop 0 rest) s' = (runScript around 1 rest s').drop 0 := by
  intro ping around rest p boom q s s'
  have emitted : Happens p s 0 (.emitted 1 0 ping) := .of_moment (.fresh () _) 4 0 rfl
  obtain ⟨sent, taken, settled⟩ : Happens q s 0 (.emitted 1 0 boom) ∧
      Happens q s 0 (.taken 1 0 boom) ∧ Happens q s 0 (.settled 0 (.error .detached)) := by
    -- With every definition put in, no moment is computed twice.
    dsimp +zetaDelta only
    exact ⟨.of_moment (.fresh () _) 13 5 rfl, .of_moment (.fresh () _) 13 3 rfl,
      .of_moment (.fresh () _) 13 0 rfl⟩
  have forgone : s'.Forgone (fun _ => True) (fun _ => True) 0 :=
    { issued := Nat.one_pos
      state := trivial
      world := trivial
      ready := fun t ht => by cases ht
      timers := fun due t ht => by cases ht
      parked := fun w hw => by cases hw
      work := by
        rintro n t w ⟨inbox, hb⟩
        cases hb }
  have keeps : around.Keeps fun _ => True := fun c job hj => by
    cases hj
    trivial
  obtain ⟨-, settle, indifferent⟩ := emissions_settle (.fresh () _) p
  exact ⟨⟨emitted, settle emitted⟩,
    ⟨taken, settled, (emissions_settle (.fresh () _) q).2.1 sent⟩, forgone,
    (indifferent forgone).script around 1 rest keeps fun t ht => ⟨ht, fun _ => trivial⟩⟩

end Scheduler

end Switchboard
