import Switchboard.Proofs.Progress
import Switchboard.Proofs.Resumption

/-!
# Switchboard.Proofs.Eventually

What happens in a run that is given all the rounds it needs.  A run that is
given more rounds has a longer history, and forgets nothing; so whatever
happens can be looked at in one history, and an effect that is taken is
settled sooner or later.
-/

namespace Switchboard.Scheduler

variable {ξ σ ρ α : Type} {s : Scheduler ξ σ} {p : Routine ξ σ ρ α} {j k m m' n n' : Nat}
  {t : Ticket} {e : Effect} {o o' : Outcome} {around around' : Surroundings σ}

/-- The history of a run, after a number of rounds. -/
def historyFor (p : Routine ξ σ ρ α) (s : Scheduler ξ σ) (k : Nat) : History σ :=
  (runFor p s k).scheduler.history

/-- Something happens in a run, or has happened before it. -/
def Happens (p : Routine ξ σ ρ α) (s : Scheduler ξ σ) (m : Nat) (ev : Event σ) : Prop :=
  ∃ k, (m, ev) ∈ historyFor p s k

theorem Reachable.historyFor_orderly (hs : Reachable s) (p : Routine ξ σ ρ α) (k : Nat) :
    (historyFor p s k).Orderly :=
  (hs.inv p k).orderly

theorem Reachable.historyFor_suffix (hs : Reachable s) (p : Routine ξ σ ρ α) (hjk : j ≤ k) :
    historyFor p s j <:+ historyFor p s k := by
  obtain ⟨i, rfl⟩ := Nat.exists_eq_add_of_le hjk
  unfold historyFor runFor
  rcases rounds_add j (hs.poised p) with ⟨main', poised, add⟩ | ⟨-, add⟩
  · rw [add i]
    exact (rounds_sound i poised).1.suffix
  · rw [add i]

/-- What happens is in the history from some round on. -/
theorem Happens.always {ev : Event σ} (h : Happens p s m ev) (hs : Reachable s) :
    ∃ j, ∀ k ≥ j, (m, ev) ∈ historyFor p s k :=
  h.imp fun _ hj _ hk => (hs.historyFor_suffix p hk).subset hj

/-- Whatever is looked at, it can be looked at when something has happened. -/
theorem Happens.later {ev : Event σ} (h : Happens p s m ev) (hs : Reachable s) (k : Nat) :
    ∃ j ≥ k, (m, ev) ∈ historyFor p s j := by
  obtain ⟨j, h⟩ := h.always hs
  exact ⟨max k j, Nat.le_max_left k j, h _ (Nat.le_max_right k j)⟩

/-- What happens can be looked at together. -/
theorem Happens.both {ev ev' : Event σ} (h : Happens p s m ev) (h' : Happens p s m' ev')
    (hs : Reachable s) : ∃ k, (m, ev) ∈ historyFor p s k ∧ (m', ev') ∈ historyFor p s k := by
  obtain ⟨j, hj⟩ := h.always hs
  obtain ⟨j', hj'⟩ := h'.always hs
  exact ⟨max j j', hj _ (Nat.le_max_left _ _), hj' _ (Nat.le_max_right _ _)⟩

/-! ## What happens once -/

theorem Happens.settled_unique (hs : Reachable s) (h : Happens p s m (.settled t o))
    (h' : Happens p s m' (.settled t o')) : m = m' ∧ o = o' := by
  obtain ⟨k, h, h'⟩ := h.both h' hs
  exact (hs.historyFor_orderly p k).settled_unique h h'

/-- Nobody goes on with another outcome than the one that is sent. -/
theorem Happens.outcome_unique (hs : Reachable s) (settled : Happens p s m (.settled t o))
    (h : Happens p s m' (.settled t o') ∨ Happens p s m' (.resumed t o')) : o' = o := by
  rcases h with h | ⟨k, h⟩
  · exact (Happens.settled_unique hs h settled).2
  · obtain ⟨past, hp⟩ := History.exists_past h
    obtain ⟨m'', h⟩ := (hs.historyFor_orderly p k).fits hp
    exact (Happens.settled_unique hs
      ⟨k, hp.subset (List.mem_cons_of_mem _ h)⟩ settled).2

theorem Happens.answered_unique (hs : Reachable s) {i : Nat} {a a' : Answer}
    (h : Happens p s m (.answered t i a)) (h' : Happens p s m' (.answered t i a')) :
    m = m' ∧ a = a' := by
  obtain ⟨k, h, h'⟩ := h.both h' hs
  exact (hs.historyFor_orderly p k).answered_unique h h'

theorem Happens.opened_unique (hs : Reachable s) (h : Happens p s m (.opened n around))
    (h' : Happens p s m' (.opened n around')) : around = around' := by
  obtain ⟨k, h, h'⟩ := h.both h' hs
  exact (hs.historyFor_orderly p k).opened_unique ⟨m, h⟩ ⟨m', h'⟩

/-! ## What happens in the end -/

/-- An effect that is taken is settled in the end. -/
theorem Happens.settles (hs : Reachable s) (ht : Happens p s m (.taken n t e)) :
    ∃ m' o, Happens p s m' (.settled t o) := by
  obtain ⟨j, ht⟩ := ht
  have settled : ∃ k, (historyFor p s k).Settled t := by
    rcases rounds_add j (hs.poised p) with ⟨main', poised, add⟩ | ⟨halted, -⟩
    · obtain ⟨i, h⟩ := eventually_settled poised ht
      exact ⟨j + i, by rwa [historyFor, runFor, add i]⟩
    · rcases settled_or_busy (hs.inv p j) ht with settled | ⟨w, hb⟩
      · exact ⟨j, settled⟩
      · exact absurd hb halted.not_busy
  obtain ⟨k, m', o, h⟩ := settled
  exact ⟨m', o, k, h⟩

/-- An effect was taken while its script waited for it, and what the script
waits for has not been dropped when the outcome is sent. -/
structure Heard (p : Routine ξ σ ρ α) (s : Scheduler ξ σ) (n : Nat) (t : Ticket) : Prop where
  awaited : ∃ k, (historyFor p s k).Awaited n t
  kept : ∃ k, (historyFor p s k).Settled t ∧ (runFor p s k).scheduler.dropped t = false

/-- Who waits for what is taken waits for it before the outcome is sent. -/
theorem awaited_of_settled {h h' : History σ} (ho : h'.Orderly) (hsuffix : h <:+ h')
    (awaited : h'.Awaited n t) (settled : h.Settled t) : h.Awaited n t := by
  obtain ⟨m, e, past, ha⟩ := awaited
  obtain ⟨news, rfl⟩ := hsuffix
  rcases suffix_append_cases ha with ⟨-, hle⟩ | ha
  · exact absurd (settled.mono hle.subset) (ho.fits ha).2.2.1
  · exact ⟨m, e, past, ha⟩

/-- What lies behind an outcome is the same in every history that has it. -/
theorem settled_past_unique {h : History σ} (ho : h.Orderly) {past past' : History σ}
    (hp : (m, .settled t o) :: past <:+ h) (hp' : (m, .settled t o) :: past' <:+ h) :
    past = past' := by
  have behind {past past' : History σ} (hp' : (m, .settled t o) :: past' <:+ h)
      (hle : (m, .settled t o) :: past <:+ (m, .settled t o) :: past') : past = past' := by
    rcases List.suffix_cons_iff.1 hle with heq | hle
    · exact (List.cons.inj heq).2
    · exact absurd ⟨m, o, hle.subset List.mem_cons_self⟩ (ho.fits hp').1
  rcases List.suffix_or_suffix_of_suffix hp hp' with hle | hle
  · exact behind hp' hle
  · exact (behind hp hle).symm

/-- A script goes on with the outcome that it waits for when it is sent, unless
the interpretation is over. -/
theorem Heard.resumed (hs : Reachable s) (heard : Heard p s n t) {past : History σ}
    (hp : (m, .settled t o) :: past <:+ historyFor p s j) (unended : ¬ past.Ended n) :
    Happens p s m (.resumed t o) := by
  obtain ⟨i, awaited⟩ := heard.awaited
  obtain ⟨k, ⟨m', o', settled⟩, kept⟩ := heard.kept
  obtain ⟨rfl, rfl⟩ := Happens.settled_unique hs ⟨j, hp.subset List.mem_cons_self⟩ ⟨k, settled⟩
  have awaited : (historyFor p s k).Awaited n t := by
    rcases Nat.le_total k i with hki | hik
    · exact awaited_of_settled (hs.historyFor_orderly p i) (hs.historyFor_suffix p hki) awaited
        ⟨m, o, settled⟩
    · obtain ⟨m₀, e, past, ha⟩ := awaited
      exact ⟨m₀, e, past, ha.trans (hs.historyFor_suffix p hik)⟩
  obtain ⟨past', hp'⟩ := History.exists_past settled
  obtain rfl := settled_past_unique (hs.historyFor_orderly p (max j k))
    (hp.trans (hs.historyFor_suffix p (Nat.le_max_left j k)))
    (hp'.trans (hs.historyFor_suffix p (Nat.le_max_right j k)))
  rcases hs.runFor_heard p k n t m o past awaited hp' unended with dropped | resumed | late
  · rw [kept] at dropped
    cases dropped
  · exact ⟨k, resumed⟩
  · cases late.1

end Switchboard.Scheduler
