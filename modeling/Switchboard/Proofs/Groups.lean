import Switchboard.Proofs.Eventually

/-!
# Switchboard.Proofs.Groups

When a group is settled, and with what.  The answers that count are those that
have been given by then, whether or not somebody looks at them later: a group
is settled at the first moment at which the answers of its members decide it.

* `Orderly.cause_of_taken` — why an effect that has been taken is settled;
* `Decided` — the answers by a time decide a group, and earlier ones do not;
* `Happens.group_settles` — a group is settled once it is decided.
-/

namespace Switchboard

variable {ξ σ ρ α : Type}

namespace History

variable {h past : History σ} {n m m₀ i : Nat} {t : Ticket} {e : Effect} {o : Outcome} {a : Answer}
  {around : Surroundings σ}

/-! ## What has been taken -/

/-- What happened lies before an outcome or after it. -/
theorem past_or_after {q : Nat × Event σ} (hq : q ∈ h) (hs : (m, .settled t o) :: past <:+ h)
    (hne : q ≠ (m, .settled t o)) :
    q ∈ past ∨ ∃ between, q :: between <:+ h ∧ (m, .settled t o) ∈ between := by
  obtain ⟨front, rfl⟩ := hs
  rcases List.mem_append.1 hq with hfront | hpast
  · obtain ⟨l, r, rfl⟩ := List.append_of_mem hfront
    exact .inr ⟨r ++ (m, .settled t o) :: past, ⟨l, by simp⟩, by simp⟩
  · exact .inl ((List.mem_cons.1 hpast).resolve_left hne)

/-- What is settled is not taken afterwards. -/
theorem Orderly.taken_past (ho : h.Orderly) (ht : (m₀, .taken n t e) ∈ h)
    (hs : (m, .settled t o) :: past <:+ h) : (m₀, .taken n t e) ∈ past := by
  rcases past_or_after ht hs (by simp) with ht | ⟨between, hb, settled⟩
  · exact ht
  · exact absurd ⟨m, o, settled⟩ (ho.fits hb).2.2.1

/-- An effect that has been taken is settled with what comes of it, unless the
interpretation breaks off with a crash of its resolver. -/
theorem Orderly.cause_of_taken (ho : h.Orderly) (ht : (m₀, .taken n t e) ∈ h)
    (hs : (m, .settled t o) :: past <:+ h) :
    ¬ past.Ended n ∧ (∃ around, past.Opened n around ∧ past.Resolution around m₀ m t e o) ∨
    ∃ c around job d, e = .single c ∧ past.Opened n around ∧ around.resolve? c = some job ∧
      job.After d .crash ∧ m = m₀ + d ∧ (m, .ended n false) ∈ past ∧ o = .error .detached := by
  have ht := ho.taken_past ht hs
  have hp := ho.suffix ((List.suffix_cons _ _).trans hs)
  cases (ho.fits hs).2 with
  | unheard n' e' sent untaken =>
      obtain ⟨m₁, sent⟩ := (mem_sentOn past).1 sent
      obtain ⟨m₂, emitted⟩ := hp.emitted_of_taken ht
      obtain ⟨-, rfl, -⟩ := hp.emitted_unique sent emitted
      exact absurd ((mem_takenOn past).2 ⟨m₀, ht⟩) (untaken e)
  | broken n' m₁ d c around job taken opened known crash hm ended =>
      obtain ⟨rfl, rfl, rfl⟩ := hp.taken_unique ht taken
      exact .inr ⟨c, around, job, d, rfl, opened, known, crash, hm, ended, rfl⟩
  | resolved n' m₁ e' around _ taken opened unended resolution =>
      obtain ⟨rfl, rfl, rfl⟩ := hp.taken_unique ht taken
      exact .inl ⟨unended, around, opened, resolution⟩

/-! ## Answers by a time -/

theorem Orderly.answer?_before (ho : h.Orderly) :
    (h.before m).answer? t i = some a ↔ ∃ m' < m, (m', .answered t i a) ∈ h := by
  have mem {m' : Nat} {b : Answer} :
      (m', .answered t i b) ∈ h.before m ↔ m' < m ∧ (m', .answered t i b) ∈ h := by
    simp [before, and_comm]
  constructor
  · intro ha
    obtain ⟨m', hm'⟩ := mem_of_answer? _ ha
    exact ⟨m', mem.1 hm'⟩
  · rintro ⟨m', hlt, hm'⟩
    obtain ⟨b, hb⟩ := Option.ne_none_iff_exists'.1 (answer?_ne_none _ (mem.2 ⟨hlt, hm'⟩))
    obtain ⟨m₁, hm₁⟩ := mem_of_answer? _ hb
    rw [hb, (ho.answered_unique (mem.1 hm₁).2 hm').2]

/-- What is answered by the time of an outcome has been answered before it is
sent. -/
theorem Orderly.answered_past (ho : h.Orderly) (hs : (m, .settled t o) :: past <:+ h) {m' : Nat}
    (ha : (m', .answered t i a) ∈ h) (hle : m' ≤ m) : (m', .answered t i a) ∈ past := by
  rcases past_or_after ha hs (by simp) with ha | ⟨between, hb, settled⟩
  · exact ha
  · have late : m < m' := (ho.fits hb).2.1 m o settled
    omega

theorem Orderly.answer?_past (ho : h.Orderly) (hs : (m, .settled t o) :: past <:+ h) :
    past.answer? t i = (h.before (m + 1)).answer? t i := by
  have hp := ho.suffix ((List.suffix_cons _ _).trans hs)
  refine Option.ext fun a => ?_
  rw [hp.answer?_eq_some_iff, ho.answer?_before]
  constructor
  · rintro ⟨m', ha⟩
    exact ⟨m', Nat.lt_succ_of_le (ho.time_le hs ha), hs.subset (List.mem_cons_of_mem _ ha)⟩
  · rintro ⟨m', hlt, ha⟩
    exact ⟨m', ho.answered_past hs ha (Nat.le_of_lt_succ hlt)⟩

theorem Orderly.answer?_past_before (ho : h.Orderly) (hs : (m, .settled t o) :: past <:+ h) :
    (past.before m).answer? t i = (h.before m).answer? t i := by
  have hp := ho.suffix ((List.suffix_cons _ _).trans hs)
  refine Option.ext fun a => ?_
  rw [hp.answer?_before, ho.answer?_before]
  constructor
  · rintro ⟨m', hlt, ha⟩
    exact ⟨m', hlt, hs.subset (List.mem_cons_of_mem _ ha)⟩
  · rintro ⟨m', hlt, ha⟩
    exact ⟨m', hlt, ho.answered_past hs ha (Nat.le_of_lt hlt)⟩

/-! ## What decides a group -/

/-- The answers by a time decide a group, those before that time did not, and
whoever has not answered sleeps beyond it. -/
structure Decided (h : History σ) (around : Surroundings σ) (m₀ m : Nat) (t : Ticket) (e : Effect)
    (r : Except Failure (List Json)) : Prop where
  time : m₀ ≤ m
  outcome : FanIn.outcome? ((h.before (m + 1)).slots t e.size) = some r
  undecided : m₀ < m → FanIn.outcome? ((h.before m).slots t e.size) = none
  asleep : ∀ i < e.size, (h.before (m + 1)).answer? t i = none → around.Asleep e i (m - m₀)

/-- A group of known commands that has been taken is settled when it is
decided. -/
theorem Orderly.decided (ho : h.Orderly) (opened : h.Opened n around)
    (ht : (m₀, .taken n t e) ∈ h) (composite : e.IsGroup)
    (known : ∀ c ∈ e.commands, (around.resolve? c).isSome)
    (hs : (m, .settled t o) :: past <:+ h) :
    ¬ past.Ended n ∧ ∃ r, o = r.map e.resumed ∧ h.Decided around m₀ m t e r := by
  have sub : past ⊆ h := fun _ hp => hs.subset (List.mem_cons_of_mem _ hp)
  have time : m₀ ≤ m := ho.time_le hs (ho.taken_past ht hs)
  have slots : past.slots t e.size = (h.before (m + 1)).slots t e.size := by
    simp only [History.slots, funext fun i => ho.answer?_past (i := i) hs]
  rcases ho.cause_of_taken ht hs with ⟨unended, around', opened', resolution⟩ | ⟨c, _, _, _, rfl, -⟩
  · obtain rfl := ho.opened_unique opened (opened'.imp fun _ => (sub ·))
    refine ⟨unended, ?_⟩
    cases resolution with
    | unknown _ c first =>
        have hn := List.find?_some first
        rw [Option.isNone_iff_eq_none] at hn
        simpa [hn] using known c (List.mem_of_find?_eq_some first)
    | single => cases composite
    | group _ r _ _ decided undecided asleep =>
        refine ⟨r, rfl, time, slots ▸ decided, fun hlt => ?_, fun i hi hn => ?_⟩
        · rw [← undecided hlt]
          simp only [History.slots, funext fun i => ho.answer?_past_before (i := i) hs]
        · exact asleep i hi (by rw [ho.answer?_past hs, hn])
  · cases composite

namespace Decided

variable {r : Except Failure (List Json)} {vs : List Json} {f : Failure}

theorem slot (ho : h.Orderly) {m' : Nat} (hi : i < e.size) :
    ((h.before m').slots t e.size)[i]? = some (some a) ↔
      ∃ m'' < m', (m'', .answered t i a) ∈ h := by
  rw [getElem?_slots _ _ hi, Option.some.injEq, ho.answer?_before]

/-- A group succeeds with one value from each member. -/
theorem values (hd : h.Decided around m₀ m t e (.ok vs)) (ho : h.Orderly) :
    vs.length = e.size ∧
      ∀ i v, vs[i]? = some v → ∃ m' ≤ m, (m', .answered t i (.ok v)) ∈ h := by
  have slots := FanIn.outcome?_eq_ok.1 hd.outcome
  have length : vs.length = e.size := by simpa using (congrArg List.length slots).symm
  refine ⟨length, fun i v hv => ?_⟩
  have hi : i < e.size := length ▸ (List.getElem?_eq_some_iff.1 hv).1
  obtain ⟨m', hlt, ha⟩ := (slot ho (a := .ok v) hi).1 (by rw [slots]; simp [hv])
  exact ⟨m', Nat.le_of_lt_succ hlt, ha⟩

/-- A group succeeds as soon as its last member has answered. -/
theorem slowest (hd : h.Decided around m₀ m t e (.ok vs)) (ho : h.Orderly) :
    m = m₀ ∨ ∃ i v, (m, .answered t i (.ok v)) ∈ h := by
  rcases Nat.eq_or_lt_of_le hd.time with heq | hlt
  · exact .inl heq.symm
  · obtain ⟨i, hi, hn⟩ := Scheduler.exists_unanswered (hd.undecided hlt)
    obtain ⟨length, values⟩ := hd.values ho
    obtain ⟨m', hle, ha⟩ := values i vs[i] (List.getElem?_eq_getElem (length ▸ hi))
    refine .inr ⟨i, vs[i], ?_⟩
    rcases Nat.eq_or_lt_of_le hle with rfl | hlt
    · exact ha
    · rw [ho.answer?_before.2 ⟨m', hlt, ha⟩] at hn
      cases hn

/-- A group fails with the failure of one of its members, which nothing keeps
from being seen. -/
theorem failure (hd : h.Decided around m₀ m t e (.error f)) (ho : h.Orderly) :
    ∃ i < e.size, (∃ m' ≤ m, (m', .answered t i (.error f)) ∈ h) ∧
      ∀ j < i, FanIn.LetsBy e.size ((h.before (m + 1)).answer? t j) := by
  obtain ⟨i, hi, before⟩ := FanIn.outcome?_eq_error.1 hd.outcome
  have hlt : i < e.size := by simpa using (List.getElem?_eq_some_iff.1 hi).1
  obtain ⟨m', hlt', ha⟩ := (slot ho hlt).1 hi
  refine ⟨i, hlt, ⟨m', Nat.le_of_lt_succ hlt', ha⟩, fun j hj => ?_⟩
  simpa using before j hj _ (getElem?_slots _ _ (Nat.lt_trans hj hlt))

/-- No value reaches anybody when a member has failed. -/
theorem fails (hd : h.Decided around m₀ m t e r) (ho : h.Orderly) {m' : Nat} (hi : i < e.size)
    (ha : (m', .answered t i (.error f)) ∈ h) : ∃ g, r = .error g := by
  cases r with
  | error g => exact ⟨g, rfl⟩
  | ok vs =>
      obtain ⟨length, values⟩ := hd.values ho
      obtain ⟨m'', -, hv⟩ := values i vs[i] (List.getElem?_eq_getElem (length ▸ hi))
      cases (ho.answered_unique ha hv).2

end Decided

end History

namespace Scheduler

variable {s : Scheduler ξ σ} {p : Routine ξ σ ρ α} {n m m' m₀ k i : Nat} {t : Ticket} {e : Effect}
  {o : Outcome} {a : Answer} {around : Surroundings σ}

/-- What is answered by the time of an outcome is in every history that has the
outcome. -/
theorem Happens.answered_mem (hs : Reachable s) (ha : Happens p s m' (.answered t i a))
    (settled : (m, .settled t o) ∈ historyFor p s k) (hle : m' ≤ m) :
    (m', .answered t i a) ∈ historyFor p s k := by
  obtain ⟨j, ha⟩ := ha.always hs
  obtain ⟨past, hp⟩ := History.exists_past settled
  have suffix := hs.historyFor_suffix p (Nat.le_max_right j k)
  have ho := hs.historyFor_orderly p (max j k)
  exact hp.subset (List.mem_cons_of_mem _
    (ho.answered_past (hp.trans suffix) (ha _ (Nat.le_max_left j k)) hle))

/-- An answer comes from the resolver of its command, as long after the effect
was taken as the resolver has slept. -/
theorem Happens.authentic (hs : Reachable s) (opened : Happens p s m (.opened n around))
    (taken : Happens p s m₀ (.taken n t e)) (ha : Happens p s m' (.answered t i a)) :
    m₀ ≤ m' ∧ ∃ c job, e.commands[i]? = some c ∧ around.resolve? c = some job ∧
      job.Answers (m' - m₀) a ∧ (e.IsGroup ∨ job.After (m' - m₀) (.done a)) := by
  obtain ⟨j, opened⟩ := opened.always hs
  obtain ⟨k, taken, ha⟩ := taken.both ha hs
  have suffix := (hs.historyFor_suffix p (Nat.le_max_right j k)).subset
  have ho := hs.historyFor_orderly p (max j k)
  obtain ⟨past, hp⟩ := History.exists_past (suffix ha)
  have sub {q : Nat × Event σ} (hq : q ∈ past) := hp.subset (List.mem_cons_of_mem _ hq)
  obtain ⟨-, -, m₁, n', e', around', c, job, d, taken', ⟨m₂, opened'⟩, hc, hj, answers, done,
    rfl⟩ := ho.fits hp
  obtain ⟨rfl, rfl, rfl⟩ := ho.taken_unique (suffix taken) (sub taken')
  obtain rfl := ho.opened_unique ⟨m, opened _ (Nat.le_max_left j k)⟩ ⟨m₂, sub opened'⟩
  rw [Nat.add_sub_cancel_left]
  exact ⟨Nat.le_add_right m₀ d, c, job, hc, hj, answers, done⟩

/-- A group of known commands that is taken is settled when it is decided, and
whoever waits for it goes on at that time. -/
theorem Happens.group_settles (hs : Reachable s) (opened : Happens p s m (.opened n around))
    (taken : Happens p s m₀ (.taken n t e)) (composite : e.IsGroup)
    (known : ∀ c ∈ e.commands, (around.resolve? c).isSome) :
    ∃ k m r, (m, .settled t (r.map e.resumed)) ∈ historyFor p s k ∧
      (historyFor p s k).Decided around m₀ m t e r ∧
      (Heard p s n t → Happens p s m (.resumed t (r.map e.resumed))) := by
  obtain ⟨m', o, settled⟩ := taken.settles hs
  obtain ⟨j, opened⟩ := opened.always hs
  obtain ⟨k, taken, settled⟩ := taken.both settled hs
  have suffix := (hs.historyFor_suffix p (Nat.le_max_right j k)).subset
  obtain ⟨past, hp⟩ := History.exists_past (suffix settled)
  obtain ⟨unended, r, rfl, hd⟩ := (hs.historyFor_orderly p (max j k)).decided
    ⟨m, opened _ (Nat.le_max_left j k)⟩ (suffix taken) composite known hp
  exact ⟨max j k, m', r, suffix settled, hd, fun heard => heard.resumed hs hp unended⟩

end Scheduler

end Switchboard
