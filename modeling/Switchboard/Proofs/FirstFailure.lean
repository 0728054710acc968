import Mathlib.Order.Nat
import Switchboard.Proofs.Groups
import Switchboard.Proofs.Sparing
import Switchboard.Registry

/-!
# Switchboard.Proofs.FirstFailure

Which failure a group fails with, and when.  A group fails with the first
failure among its members, at the time of that failure, exactly when it is
small or when all members in front of the one that fails have answered by then.
A large group waits for them otherwise, and fails late or with another failure.
-/

namespace Switchboard.Scheduler

variable {ξ σ ρ α : Type} {s : Scheduler ξ σ} {p : Routine ξ σ ρ α} {n m m' m₀ k i : Nat}
  {t : Ticket} {e : Effect} {f g : Failure} {around : Surroundings σ}
  {r : Except Failure (List Json)}

/-- A member of a group fails, and no member fails earlier, nor at the same
time in front of it. -/
structure FirstFailure (p : Routine ξ σ ρ α) (s : Scheduler ξ σ) (t : Ticket) (i m : Nat)
    (f : Failure) : Prop where
  fails : Happens p s m (.answered t i (.error f))
  first : ∀ m' j g, Happens p s m' (.answered t j (.error g)) → m < m' ∨ m = m' ∧ i ≤ j

theorem exists_firstFailure (fails : Happens p s m' (.answered t k (.error g))) :
    ∃ i m f, FirstFailure p s t i m f := by
  classical
  have ever : ∃ m i f, Happens p s m (.answered t i (.error f)) := ⟨m', k, g, fails⟩
  have now := Nat.find_spec ever
  obtain ⟨f, fails⟩ := Nat.find_spec now
  refine ⟨Nat.find now, Nat.find ever, f, fails, fun m' j g h => ?_⟩
  rcases Nat.eq_or_lt_of_le (Nat.find_min' ever ⟨j, g, h⟩) with heq | hlt
  · refine .inr ⟨heq, Nat.find_min' now ⟨g, ?_⟩⟩
    rwa [heq]
  · exact .inl hlt

/-- All members in front of one have succeeded by a time. -/
def FrontSucceeds (p : Routine ξ σ ρ α) (s : Scheduler ξ σ) (t : Ticket) (i m : Nat) : Prop :=
  ∀ j < i, ∃ m' ≤ m, ∃ v, Happens p s m' (.answered t j (.ok v))

/-- A group fails at a time, and a script that waits for it goes on then. -/
def FailsWith (p : Routine ξ σ ρ α) (s : Scheduler ξ σ) (n : Nat) (t : Ticket) (m : Nat)
    (f : Failure) : Prop :=
  Happens p s m (.settled t (.error f)) ∧
    (Heard p s n t → Resumes p s m t (.error f))

/-- A group fails with the failure of a member as soon as that member and all
in front of it have answered. -/
structure FailsInOrder (p : Routine ξ σ ρ α) (s : Scheduler ξ σ) (n : Nat) (t : Ticket)
    (i m : Nat) (f : Failure) : Prop where
  failsWith : FailsWith p s n t m f
  fails : ∃ m' ≤ m, Happens p s m' (.answered t i (.error f))
  front : FrontSucceeds p s t i m
  last : ∃ j ≤ i, ∃ a, Happens p s m (.answered t j a)

/-! ## When a group is decided by a failure -/

section Decided

variable (hs : Reachable s) (hd : (historyFor p s k).Decided around m₀ m t e r)

include hs hd in
/-- A group in which a member fails is not settled before the first failure. -/
theorem FirstFailure.le (first : FirstFailure p s t i m' f) (hi : i < e.size) : m' ≤ m := by
  have ho := hs.historyFor_orderly p k
  cases r with
  | error g =>
      obtain ⟨j, -, ⟨m₁, hle, ha⟩, -⟩ := hd.failure ho
      have := first.first m₁ j g ⟨k, ha⟩
      omega
  | ok vs =>
      obtain ⟨length, values⟩ := hd.values ho
      obtain ⟨m₁, -, ha⟩ := values i vs[i] (List.getElem?_eq_getElem (length ▸ hi))
      cases (Happens.answered_unique hs first.fails ⟨k, ha⟩).2

include hs in
/-- What lets the first failure through lets it through at its time. -/
theorem FirstFailure.outcome {k : Nat} (first : FirstFailure p s t i m' f) (hi : i < e.size)
    (ha : (m', .answered t i (.error f)) ∈ historyFor p s k)
    (through : e.size ≤ FanIn.togetherLimit ∨
      ∀ j < i, ∃ m₁ ≤ m', ∃ a, (m₁, .answered t j a) ∈ historyFor p s k) :
    FanIn.outcome? (((historyFor p s k).before (m' + 1)).slots t e.size) = some (.error f) := by
  have ho := hs.historyFor_orderly p k
  have slot {j : Nat} (a : Answer) (hj : j < e.size) :
      (((historyFor p s k).before (m' + 1)).slots t e.size)[j]? = some (some a) ↔
        ∃ m₁ < m' + 1, (m₁, .answered t j a) ∈ historyFor p s k :=
    History.Decided.slot ho hj
  have answered := (slot _ hi).2 ⟨m', Nat.lt_succ_self _, ha⟩
  refine FanIn.outcome?_eq_error.2 ⟨i, answered, fun j hj b hb => ?_⟩
  have hlt := Nat.lt_trans hj hi
  -- A member in front that has failed by now would be the first.
  have succeeds (g : Failure) : b ≠ some (.error g) := by
    rintro rfl
    obtain ⟨m₁, hm₁, hg⟩ := (slot _ hlt).1 hb
    have := first.first m₁ j g ⟨k, hg⟩
    omega
  rw [History.length_slots, FanIn.LetsBy]
  split
  · exact succeeds
  · next hlarge =>
    obtain ⟨m₁, hle, a, ha'⟩ := through.resolve_left hlarge j hj
    obtain rfl : b = some a := Option.some.inj
      (hb.symm.trans ((slot a hlt).2 ⟨m₁, Nat.lt_succ_of_le hle, ha'⟩))
    cases a with
    | error g => exact absurd rfl (succeeds g)
    | ok v => exact ⟨v, rfl⟩

include hs hd in
/-- A group in which nothing keeps the first failure from being seen fails with
it at once. -/
theorem FirstFailure.decides (first : FirstFailure p s t i m' f) (hi : i < e.size)
    (time : m₀ ≤ m')
    (settled : (m, .settled t (r.map e.resumed)) ∈ historyFor p s k)
    (through : e.size ≤ FanIn.togetherLimit ∨ FrontSucceeds p s t i m') :
    m = m' ∧ r = .error f := by
  have hle := first.le hs hd hi
  have mem {m₁ j : Nat} {a : Answer} (ha : Happens p s m₁ (.answered t j a)) (h : m₁ ≤ m) :=
    ha.answered_mem hs settled h
  have decided := first.outcome hs hi (mem first.fails hle) (through.imp_right fun front j hj => by
    obtain ⟨m₁, hm₁, v, ha⟩ := front j hj
    exact ⟨m₁, hm₁, .ok v, mem ha (Nat.le_trans hm₁ hle)⟩)
  have ho := hs.historyFor_orderly p k
  rcases Nat.eq_or_lt_of_le hle with rfl | hlt
  · exact ⟨rfl, Option.some.inj (hd.outcome.symm.trans decided)⟩
  · -- The group would have been decided earlier.
    have hle' (j : Nat) (b : Answer)
        (hb : (((historyFor p s k).before (m' + 1)).slots t e.size)[j]? = some (some b)) :
        (((historyFor p s k).before m).slots t e.size)[j]? = some (some b) := by
      have hj : j < e.size := by simpa using (List.getElem?_eq_some_iff.1 hb).1
      obtain ⟨m₁, hm₁, ha⟩ := (History.Decided.slot ho hj).1 hb
      exact (History.Decided.slot ho hj).2 ⟨m₁, by omega, ha⟩
    exact absurd (hd.undecided (by omega))
      (FanIn.outcome?_ne_none_of_le (by simp) hle' (by rw [decided]; simp))

include hs in
/-- A member of a large group is seen to fail when all in front of it have
succeeded. -/
theorem frontSucceeds_of_letsBy {k : Nat} (hlarge : ¬ e.size ≤ FanIn.togetherLimit)
    (front : ∀ j < i, FanIn.LetsBy e.size (((historyFor p s k).before (m + 1)).answer? t j)) :
    FrontSucceeds p s t i m := by
  intro j hj
  have through := front j hj
  rw [FanIn.LetsBy, if_neg hlarge] at through
  obtain ⟨v, hv⟩ := through
  obtain ⟨m₁, hlt, ha⟩ := (hs.historyFor_orderly p k).answer?_before.1 hv
  exact ⟨m₁, Nat.le_of_lt_succ hlt, v, k, ha⟩

include hs hd in
/-- A group fails late in which the first failure is not seen, and in order. -/
theorem FirstFailure.waits (first : FirstFailure p s t i m' f) (hi : i < e.size)
    (time : m₀ ≤ m')
    (settled : (m, .settled t (r.map e.resumed)) ∈ historyFor p s k)
    (resumed : Heard p s n t → Resumes p s m t (r.map e.resumed))
    (hidden : ¬ (e.size ≤ FanIn.togetherLimit ∨ FrontSucceeds p s t i m')) :
    m' < m ∧ ∃ j g, FailsInOrder p s n t j m g := by
  obtain ⟨hlarge, hfront⟩ := not_or.1 hidden
  have ho := hs.historyFor_orderly p k
  have hle := first.le hs hd hi
  obtain ⟨g, rfl⟩ := hd.fails ho hi (first.fails.answered_mem hs settled hle)
  obtain ⟨j, hj, ⟨m₁, hm₁, ha⟩, letsBy⟩ := hd.failure ho
  have front := frontSucceeds_of_letsBy hs hlarge letsBy
  have hlt : m' < m := by
    refine Nat.lt_of_le_of_ne hle fun heq => hfront ?_
    subst heq
    have hij : i ≤ j := by have := first.first m₁ j g ⟨k, ha⟩; omega
    exact fun l hl => front l (Nat.lt_of_lt_of_le hl hij)
  refine ⟨hlt, j, g, ⟨⟨k, settled⟩, resumed⟩, ⟨m₁, hm₁, k, ha⟩, front,
    Classical.by_contradiction fun none => ?_⟩
  -- All of them have answered before, so the group would have been decided.
  have earlier {m₂ l : Nat} {a : Answer} (hl : l ≤ j) (h : Happens p s m₂ (.answered t l a))
      (hm₂ : m₂ ≤ m) : ((historyFor p s k).before m).answer? t l = some a := by
    have hne : m₂ ≠ m := fun heq => none ⟨l, hl, a, heq ▸ h⟩
    exact ho.answer?_before.2 ⟨m₂, by omega, h.answered_mem hs settled hm₂⟩
  have decided :
      FanIn.outcome? (((historyFor p s k).before m).slots t e.size) = some (.error g) := by
    refine FanIn.outcome?_eq_error.2 ⟨j, ?_, fun l hl b hb => ?_⟩
    · rw [History.getElem?_slots _ _ hj, earlier (Nat.le_refl j) ⟨k, ha⟩ hm₁]
    · obtain ⟨m₂, hm₂, v, hv⟩ := front l hl
      rw [History.getElem?_slots _ _ (Nat.lt_trans hl hj), earlier (Nat.le_of_lt hl) hv hm₂] at hb
      rw [FanIn.LetsBy, History.length_slots, if_neg hlarge]
      exact ⟨v, (Option.some.inj hb).symm⟩
  rw [hd.undecided (by omega)] at decided
  cases decided

end Decided

/-! ## The first failure -/

/-- A group of registered commands in which a member fails comes to the first
failure at its time just when the group is small or all members in front have
succeeded by then; otherwise it fails later, in the order of its members. -/
theorem first_failure_wins_iff (hs : Reachable s) {registry : Registry σ} {ambient : Context}
    (opened : Happens p s m (.opened n (registry.surroundings ambient)))
    (taken : Happens p s m₀ (.taken n t e)) (composite : e.IsGroup)
    (known : ∀ c ∈ e.commands, registry.contains c.name = true)
    (fails : Happens p s m' (.answered t k (.error g))) :
    ∃ i m f, FirstFailure p s t i m f ∧
      (∃ c job, e.commands[i]? = some c ∧ registry.job? ambient c = some job ∧
        m₀ ≤ m ∧ job.Answers (m - m₀) (.error f)) ∧
      (FailsWith p s n t m f ↔ e.size ≤ FanIn.togetherLimit ∨ FrontSucceeds p s t i m) ∧
      (e.size ≤ FanIn.togetherLimit ∨ FrontSucceeds p s t i m ∨
        ∃ m' j g, m < m' ∧ FailsInOrder p s n t j m' g) ∧
      ∀ m' o, Happens p s m' (.settled t o) → ∀ j < e.size,
        (∃ m'' ≤ m', ∃ a, Happens p s m'' (.answered t j a)) ∨
          (registry.surroundings ambient).Asleep e j (m' - m₀) := by
  obtain ⟨i, m₁, f, first⟩ := exists_firstFailure fails
  obtain ⟨time, c, job, hc, hj, answers, -⟩ := Happens.authentic hs opened taken first.fails
  have hi : i < e.size := (List.getElem?_eq_some_iff.1 hc).1
  obtain ⟨k, m₂, r, settled, hd, resumed⟩ := Happens.group_settles hs opened taken composite
    fun c hc => (registry.isSome_job? ambient c).trans (known c hc)
  have resumed (heard : Heard p s n t) := (resumed heard).resumes hs
  refine ⟨i, m₁, f, first, ⟨c, job, hc, hj, time, answers⟩, ⟨fun wins => ?_, fun through => ?_⟩, ?_,
    fun m' o h j hj => ?_⟩
  · -- If it did not get through the group would fail later.
    refine Classical.by_contradiction fun hidden => ?_
    have late := (first.waits hs hd hi time settled resumed hidden).1
    exact absurd (Happens.settled_unique hs wins.1 ⟨k, settled⟩).1 (Nat.ne_of_lt late)
  · obtain ⟨rfl, rfl⟩ := first.decides hs hd hi time settled through
    exact ⟨⟨k, settled⟩, resumed⟩
  · rw [← or_assoc]
    refine Classical.or_iff_not_imp_left.2 fun hidden => ?_
    obtain ⟨late, j, g, inOrder⟩ := first.waits hs hd hi time settled resumed hidden
    exact ⟨m₂, j, g, late, inOrder⟩
  · obtain ⟨rfl, rfl⟩ := Happens.settled_unique hs h ⟨k, settled⟩
    cases ha : ((historyFor p s k).before (m' + 1)).answer? t j with
    | none => exact .inr (hd.asleep j hj ha)
    | some a =>
        obtain ⟨m'', hlt, ha⟩ := (hs.historyFor_orderly p k).answer?_before.1 ha
        exact .inl ⟨m'', Nat.le_of_lt_succ hlt, a, k, ha⟩

set_option maxRecDepth 4000 in
/-- In a group of thirty-one the second member fails at time 10, and the group
waits for the first one until time 50. -/
theorem first_failure_wins_iff_thirty_one :
    let s : Scheduler Unit Unit := { state := (), world := { own := () } }
    let registry : Registry Unit := ((Registry.empty.register "slow" fun _ _ =>
      .sleep 50 (.done (.ok .null))).register "bad" fun _ _ =>
      .sleep 10 (.done (.error .missingBody))).register "quick" fun _ _ => .done (.ok .null)
    let commands := ⟨"slow", .null⟩ :: ⟨"bad", .null⟩ :: List.replicate 29 ⟨"quick", .null⟩
    let p : Routine Unit Unit Unit Unit := .interpret (registry.surroundings .empty)
      (.all commands fun _ => .done (.ok ())) fun _ => .done ()
    Happens p s 10 (.answered 0 1 (.error .missingBody)) ∧
      Happens p s 50 (.settled 0 (.error .missingBody)) ∧
      ∃ i m f, FirstFailure p s 0 i m f ∧
        (FailsWith p s 1 0 m f ↔
          (Effect.sequence commands).size ≤ FanIn.togetherLimit ∨ FrontSucceeds p s 0 i m) := by
  intro s registry commands p
  obtain ⟨opened, taken, fails, settled⟩ :
      Happens p s 0 (.opened 1 (registry.surroundings .empty)) ∧
        Happens p s 0 (.taken 1 0 (.sequence commands)) ∧
        Happens p s 10 (.answered 0 1 (.error .missingBody)) ∧
        Happens p s 50 (.settled 0 (.error .missingBody)) := by
    -- With every definition put in, no moment is computed twice.
    dsimp +zetaDelta only
    exact ⟨.of_moment (.fresh () _) 51 68 rfl, .of_moment (.fresh () _) 51 65 rfl,
      .of_moment (.fresh () _) 51 4 rfl, .of_moment (.fresh () _) 51 2 rfl⟩
  obtain ⟨i, m, f, first, -, iff, -⟩ := first_failure_wins_iff (.fresh () _) opened taken trivial
    (by decide) fails
  exact ⟨fails, settled, i, m, f, first, iff⟩

end Switchboard.Scheduler
