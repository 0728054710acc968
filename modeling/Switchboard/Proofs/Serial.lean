import Switchboard.Proofs.Sparing
import Switchboard.Registry

/-!
# Switchboard.Proofs.Serial

Effects are resolved one at a time, in the order in which they were sent.  The
interpreter of a line has its turn when the script has had its own and cannot go
on; it takes one effect then, the oldest on the line.  Neither of them has a turn
before the outcome of whatever has been taken has been sent, and whoever emitted it
can go on.

* `History.Serial` — the order in which things are noted;
* `Sent` — the outcome of an emission is there for whoever waits for it;
* `Stands.polled` — when an interpreter has its turn;
* `interpretation_serial` — every line, at every moment of every run.
-/

namespace Switchboard

variable {ξ σ ρ α : Type}

/-- The interpreter of a line works on one effect at a time. -/
structure History.Serial (h : History σ) (n : Nat) : Prop where
  /-- At every moment, what has been taken is the front of what has been
  sent. -/
  inOrder : ∀ past : History σ, past <:+ h → past.takenOn n <+: past.sentOn n
  /-- No effect is taken twice. -/
  once : ((h.takenOn n).map Prod.fst).Nodup
  /-- An effect is taken when all effects that were taken before are settled,
  right after the script has been polled, and never when the script has
  finished or broken off. -/
  taken : ∀ (m : Nat) t e (past : History σ), (m, .taken n t e) :: past <:+ h →
    (∀ p ∈ past.takenOn n, past.Settled p.1) ∧ (∃ w rest, past = (m, .polled n w) :: rest) ∧
      ¬ past.Ended n
  /-- The script is not polled while an effect is being resolved. -/
  polled : ∀ (m : Nat) w (past : History σ), (m, .polled n w) :: past <:+ h →
    ∀ p ∈ past.takenOn n, past.Settled p.1
  /-- Nor does it finish then. -/
  finished : ∀ (m : Nat) (past : History σ), (m, .ended n true) :: past <:+ h →
    ∀ p ∈ past.takenOn n, past.Settled p.1

theorem History.Orderly.serial {h : History σ} (ho : h.Orderly) (n : Nat) : h.Serial n where
  inOrder _ hp := (ho.suffix hp).takenOn_le_sentOn n
  once := ho.takenOn_nodup n
  taken _ _ _ _ hp := by
    obtain ⟨idle, -, -, polled, -⟩ := ho.fits hp
    exact ⟨idle.served, polled, idle.unended⟩
  polled _ _ _ hp := (ho.fits hp).served
  finished _ _ hp := ((ho.fits hp).2 rfl).served

namespace Scheduler

variable {s : Scheduler ξ σ} {main : Main ξ σ ρ α} {turns n i j k : Nat} {around : Surroundings σ}
  {standing : Standing ξ σ ρ} {after : Except Failure ρ → Routine ξ σ ρ α}
  {p : Routine ξ σ ρ α} {m : Moment ξ σ ρ α} {t : Ticket} {e : Effect}

/-! ## Outcomes that have been sent -/

/-- The outcome of an emission has been sent.  Whoever looks for it finds it, unless it
has been dropped, and nobody is left waiting for it. -/
def Sent (s : Scheduler ξ σ) (t : Ticket) : Prop :=
  ∃ m o, (m, .settled t o) ∈ s.history ∧
    (s.dropped t = false → s.outcome? t = some o ∧ ∀ w ∈ s.parked, w.ticket ≠ t)

theorem Delivered.sent (h : s.Delivered) (settled : s.history.Settled t) : s.Sent t := by
  obtain ⟨m, o, settled⟩ := settled
  refine ⟨m, o, settled, fun kept => ?_⟩
  have readable := h.readable m t o settled kept
  refine ⟨readable, fun w hw same => ?_⟩
  have := h.parked w hw
  rw [same, readable] at this
  cases this

/-- While an interpreter is free, the outcome of whatever it has taken has been
sent. -/
theorem Free.sent (free : s.Free n) (hi : s.Inv) (hd : s.Delivered) :
    ∀ q ∈ s.history.takenOn n, s.Sent q.1 := by
  obtain ⟨inbox, hl⟩ := free
  intro q hq
  rcases (hi.onLine _ hl).served q hq with settled | busy | owed
  · exact hd.sent settled
  · cases busy
  · cases owed

/-! ## Turns of an interpreter -/

namespace Moment

/-- It is not an interpreter that has its turn. -/
def Apart (m : Moment ξ σ ρ α) : Prop :=
  match m.focus with
  | .interpreter .. => False
  | _ => True

theorem Passed.apart (h : m.Passed) : m.Apart := by
  cases h with
  | routine | script | blocked => trivial
  | ended h =>
      obtain ⟨focus, s⟩ := m
      cases focus with
      | finished | crashed | stuck => trivial
      | round | routine | script | interpreter | tasks | errand => exact h.elim

theorem afterTasks_apart (main : Main ξ σ ρ α) (turns : Nat) (s : Scheduler ξ σ) :
    (afterTasks main turns s).Apart := by
  cases turns with
  | zero =>
      rcases endRound_cases s with ⟨s', hs⟩ | hs <;> simp only [afterTasks, hs] <;> trivial
  | succ turns => simp only [afterTasks]; split <;> trivial

theorem afterErrand_apart (main : Main ξ σ ρ α) (turns n : Nat) (e : Errand σ)
    (s : Scheduler ξ σ) : (afterErrand main turns n e s).Apart := by
  cases e with
  | done | look | write | emit | drop => trivial
  | await t next => cases ho : s.outcome? t <;> simp only [afterErrand, ho] <;> trivial
  | sleep ms next => rw [afterErrand]; split <;> trivial

/-- An interpreter has its turn when its script has had its own and cannot go on. -/
theorem Stands.polled (h : m.Stands) (gives : m.next.focus = .interpreter around n standing after) :
    m.focus = .script around n standing after ∧ standing.Halts m.scheduler ∧
      m.next.scheduler = m.scheduler.log (.polled n standing.wanted) := by
  have apart (ha : m.next.Apart) : False := by rwa [Apart, gives] at ha
  have passed (hp : m.next.Passed) : False := apart hp.apart
  obtain ⟨focus, s⟩ := m
  cases focus with
  | round main => exact (passed (afterRound_passed main s)).elim
  | routine p => exact (passed (afterRoutine_passed p s)).elim
  | interpreter around' n' standing' => exact (passed (afterInterpreter_passed standing' s)).elim
  | tasks main turns => exact (apart (afterTasks_apart main turns s)).elim
  | errand main turns n' e => exact (apart (afterErrand_apart main turns n' e s)).elim
  | finished | crashed | stuck => cases gives
  | script around' n' standing' after' =>
      by_cases halts : standing'.Halts s
      · simp only [Moment.next, afterScript_halts halts, h.focus.1.notePoll] at gives ⊢
        cases gives
        exact ⟨rfl, halts, rfl⟩
      · exact (passed (afterScript_passed halts)).elim

end Moment

/-! ## Every moment of a run -/

/-- The interpreter of a line works on one effect at a time. -/
structure Serves (p : Routine ξ σ ρ α) (s : Scheduler ξ σ) (n : Nat) : Prop where
  traced : Traced p s
  history : ∀ k, (historyFor p s k).Serial n
  /-- What has been taken is the front of what has been sent, -/
  inOrder : ∀ j, (moment p s j).scheduler.history.takenOn n <+:
    (moment p s j).scheduler.history.sentOn n
  /-- and the rest of it stands on the line. -/
  rest : ∀ j inbox current, (moment p s j).scheduler.line = some { number := n, inbox, current } →
    (moment p s j).scheduler.history.sentOn n =
      (moment p s j).scheduler.history.takenOn n ++ inbox
  once : ∀ j, (((moment p s j).scheduler.history.takenOn n).map Prod.fst).Nodup
  /-- The interpreter takes the oldest effect on the line when it has its turn, and
  never otherwise. -/
  takes : ∀ j, (moment p s (j + 1)).scheduler.history.takenOn n =
      (moment p s j).scheduler.history.takenOn n ∨
    ∃ around standing after t e inbox, (moment p s j).focus = .interpreter around n standing after ∧
      (moment p s j).scheduler.line = some { number := n, inbox := (t, e) :: inbox } ∧
      (moment p s (j + 1)).scheduler.history.takenOn n =
        (moment p s j).scheduler.history.takenOn n ++ [(t, e)]
  /-- It has its turn right after the script, when the script cannot go on. -/
  polled : ∀ j around standing after,
    (moment p s (j + 1)).focus = .interpreter around n standing after →
      (moment p s j).focus = .script around n standing after ∧
        standing.Halts (moment p s j).scheduler ∧
        (moment p s (j + 1)).scheduler =
          (moment p s j).scheduler.log (.polled n standing.wanted)
  /-- Script and interpreter have their turns only when nothing is being resolved, and
  whatever has been taken has an outcome that has been sent. -/
  idle : ∀ j around standing after, (moment p s j).focus = .script around n standing after ∨
      (moment p s j).focus = .interpreter around n standing after →
    (moment p s j).scheduler.Free n ∧
      ∀ q ∈ (moment p s j).scheduler.history.takenOn n, (moment p s j).scheduler.Sent q.1
  /-- When the script has returned nothing is taken any more. -/
  returned : ∀ j around r after, (moment p s j).focus = .script around n (.before (.done r)) after →
    ∀ i ≥ j, (moment p s i).scheduler.history.takenOn n =
      (moment p s j).scheduler.history.takenOn n

/-- On a line that has ended nothing is taken. -/
theorem Reachable.takenOn_ended (hs : Reachable s)
    (ended : (moment p s j).scheduler.history.Ended n) (h : j ≤ i) :
    (moment p s i).scheduler.history.takenOn n = (moment p s j).scheduler.history.takenOn n := by
  induction h with
  | refl => rfl
  | @step i hi ih =>
      rcases (hs.stands p i).taking n with same | ⟨_, _, _, t, e, _, -, -, -, taken⟩
      · exact same.trans ih
      · obtain ⟨m, finished, ended⟩ := ended
        have later := (hs.moment_steps p hi).suffix.subset ended
        have idle := ((hs.moment_orderly p (i + 1)).fits taken).1
        exact absurd ⟨m, finished, later⟩ idle.unended

/-- Whatever routine is run, beside whatever earlier runs have left, and
however far it has come: each interpreter resolves the effects that are sent
to it one after the other, in order, each at most once. -/
theorem interpretation_serial {s : Scheduler ξ σ} (hs : Reachable s) (p : Routine ξ σ ρ α)
    (n : Nat) : Serves p s n where
  traced := hs.traced p
  history k := (hs.inv p k).orderly.serial n
  inOrder j := (hs.moment_orderly p j).takenOn_le_sentOn n
  rest j inbox current hl := ((hs.stands p j).inv.onLine _ hl).queue
  once j := (hs.moment_orderly p j).takenOn_nodup n
  takes j := by
    refine ((hs.stands p j).taking n).imp_right ?_
    rintro ⟨around, standing, after, t, e, inbox, focus, line, taken, -⟩
    exact ⟨around, standing, after, t, e, inbox, focus, line, taken⟩
  polled j around standing after gives := (hs.stands p j).polled gives
  idle j around standing after focus := by
    have stands := hs.stands p j
    have sound := stands.focus
    have free : (moment p s j).scheduler.Free n := by
      rcases focus with focus | focus <;> (rw [focus] at sound; exact sound.1)
    exact ⟨free, free.sent stands.inv (invariant_delivered.moment hs p j)⟩
  returned j around r after focus i hi := by
    rcases Nat.eq_or_lt_of_le hi with rfl | hi
    · rfl
    -- The line ends when the script returns.
    have stands := hs.stands p j
    obtain ⟨inbox, hl⟩ : (moment p s j).scheduler.Free n := by
      have sound := stands.focus
      rw [focus] at sound
      exact sound.1
    have closes : (moment p s (j + 1)).scheduler = (moment p s j).scheduler.closeLine true := by
      rw [moment, Moment.next, focus]
      rfl
    have ended : (moment p s (j + 1)).scheduler.history.Ended n := by
      rw [closes]
      exact closeLine_ended hl true
    rw [hs.takenOn_ended ended hi]
    refine (stands.taking n).resolve_right ?_
    rintro ⟨_, _, _, _, _, _, focus', -⟩
    rw [focus] at focus'
    cases focus'

/-- A script emits two effects and looks at neither outcome, beside an errand
that emits a third. -/
theorem interpretation_serial_abandoned :
    let s : Scheduler Unit Unit := { state := (), world := { own := () } }
    let ping : Command := ⟨"ping", .null⟩
    let around := (Registry.empty.register "ping" fun _ _ =>
      .sleep 2 (.done (.ok .null))).surroundings .empty
    let script : Script Unit Unit Unit :=
      .spawn (.emit (.single ping) fun t => .await t fun _ => .done) <|
        .emit (.single ping) fun _ => .emit (.sequence [ping]) fun _ => .sleep 9 (.done (.ok ()))
    let p : Routine Unit Unit Unit Unit := .interpret around script fun _ => .done ()
    Reachable s ∧ ((historyFor p s 9).takenOn 1).map Prod.fst = [0, 1, 2] ∧ Serves p s 1 :=
  ⟨.fresh () _, by decide, interpretation_serial (.fresh () _) _ 1⟩

end Scheduler

end Switchboard
