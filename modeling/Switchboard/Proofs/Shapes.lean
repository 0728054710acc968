import Switchboard.Proofs.Groups
import Switchboard.Proofs.Sparing
import Switchboard.Registry

/-!
# Switchboard.Proofs.Shapes

A group succeeds as a whole or not at all, and what a script gets back has the
shape of what it sent.  The values of a group stand where the commands stand
that they answer, in whatever order they came in.
-/

namespace Switchboard

variable {ξ σ ρ α : Type}

/-! ## The shape of what comes back -/

theorem Effect.kind_resumed (e : Effect) (vs : List Json) : (e.resumed vs).kind = e.kind := by
  cases e <;> rfl

/-- An outcome is a failure, or else has the shape of an effect; so whoever asks
for that shape sees no other failure than the outcome's own. -/
structure Effect.Shapes (e : Effect) (o : Outcome) : Prop where
  kind : ∀ r, o = .ok r → r.kind = e.kind
  single : ∀ c f, e = .single c → Script.asSingle o = .error f → o = .error f
  sequence : ∀ cs f, e = .sequence cs → Script.asSequence o = .error f → o = .error f
  mapping : ∀ cs f, e = .mapping cs → Script.asMapping o = .error f → o = .error f

theorem Effect.shapes_of_kind {e : Effect} {o : Outcome} (kind : ∀ r, o = .ok r → r.kind = e.kind) :
    e.Shapes o := by
  cases o with
  | error g =>
      refine ⟨kind, ?_, ?_, ?_⟩
      all_goals
        intro cs f _ h
        simpa [Script.asSingle, Script.asSequence, Script.asMapping] using h
  | ok r =>
      have hk := kind r rfl
      refine ⟨kind, ?_, ?_, ?_⟩
      all_goals
        rintro cs f rfl h
        cases r <;> simp_all [Script.asSingle, Script.asSequence, Script.asMapping, Resumed.kind,
          Effect.kind]

/-- What comes back holds values in the places of an effect's commands. -/
structure Effect.Holds (e : Effect) (r : Resumed) (vs : List Json) : Prop where
  length : vs.length = e.size
  sequence : ∀ cs, e = .sequence cs → r = .sequence vs
  /-- The labels are the same, in the same order. -/
  mapping : ∀ cs, e = .mapping cs →
    ∃ d : Labelled Json, r = .mapping d ∧ d.labels = cs.labels ∧ d.values = vs

theorem Effect.holds_resumed {e : Effect} {vs : List Json} (length : vs.length = e.size) :
    e.Holds (e.resumed vs) vs := by
  refine ⟨length, ?_, ?_⟩
  · rintro cs rfl
    rfl
  · rintro cs rfl
    have size : vs.length = cs.size := by
      simpa [Effect.size, commands, Labelled.values, Labelled.size] using length
    exact ⟨cs.relabel vs, rfl, cs.relabel_labels size, cs.relabel_values size⟩

/-- A successful outcome has the kind of the effect. -/
theorem History.Orderly.kind_of_settled {h : History σ} {m m' n : Nat} {t : Ticket} {e : Effect}
    {r : Resumed} (ho : h.Orderly) (he : (m, .emitted n t e) ∈ h)
    (hs : (m', .settled t (.ok r)) ∈ h) : r.kind = e.kind := by
  obtain ⟨past, hp⟩ := exists_past hs
  have hpast := ho.suffix ((List.suffix_cons _ _).trans hp)
  generalize ho' : Except.ok r = o at hp
  cases (ho.fits hp).2 with
  | unheard => cases ho'
  | broken => cases ho'
  | resolved n' m₀ e' around _ taken _ _ resolution =>
      obtain ⟨m₁, emitted⟩ := hpast.emitted_of_taken taken
      obtain ⟨-, -, rfl⟩ :=
        ho.emitted_unique he (hp.subset (List.mem_cons_of_mem _ emitted))
      cases resolution with
      | unknown => cases ho'
      | single c a =>
          cases a <;> cases ho'
          rfl
      | group _ r' =>
          cases r' <;> cases ho'
          exact e.kind_resumed _

namespace Scheduler

variable {s : Scheduler ξ σ} {p : Routine ξ σ ρ α} {n m m₀ : Nat} {t : Ticket} {e : Effect}
  {registry : Registry σ} {ambient : Context}

theorem Happens.shapes (hs : Reachable s) {m' : Nat} {o : Outcome}
    (emitted : Happens p s m (.emitted n t e)) (settled : Happens p s m' (.settled t o)) :
    e.Shapes o := by
  obtain ⟨k, emitted, settled⟩ := emitted.both settled hs
  refine Effect.shapes_of_kind fun r hr => ?_
  subst hr
  exact (hs.historyFor_orderly p k).kind_of_settled emitted settled

/-! ## All or nothing -/

/-- A member of a group has answered: its resolver, given its payload and the
ambient context, has returned the answer or has crashed. -/
def Answered (p : Routine ξ σ ρ α) (s : Scheduler ξ σ) (registry : Registry σ) (ambient : Context)
    (m₀ : Nat) (t : Ticket) (e : Effect) (i m : Nat) (a : Answer) : Prop :=
  Happens p s m (.answered t i a) ∧ m₀ ≤ m ∧
    ∃ c resolver, e.commands[i]? = some c ∧ registry.get? c.name = some resolver ∧
      ((resolver c.payload ambient).After (m - m₀) (.done a) ∨
        (resolver c.payload ambient).After (m - m₀) .crash ∧
          a = .error (.handler { message := "resolver task failed", status := none }))

theorem Happens.answered (hs : Reachable s) {m' i : Nat} {a : Answer}
    (opened : Happens p s m (.opened n (registry.surroundings ambient)))
    (taken : Happens p s m₀ (.taken n t e)) (ha : Happens p s m' (.answered t i a)) :
    Answered p s registry ambient m₀ t e i m' a := by
  obtain ⟨time, c, job, hc, hj, answers, -⟩ := Happens.authentic hs opened taken ha
  obtain ⟨resolver, hr, rfl⟩ := Option.map_eq_some_iff.1 hj
  exact ⟨ha, time, c, resolver, hc, hr, answers⟩

/-- What a group that was taken at one time comes to at another. -/
structure AllOrNothing (p : Routine ξ σ ρ α) (s : Scheduler ξ σ) (registry : Registry σ)
    (ambient : Context) (n m₀ : Nat) (t : Ticket) (e : Effect) (m : Nat) (o : Outcome) :
    Prop where
  settled : Happens p s m (.settled t o)
  /-- A script that waits for it goes on with it at once. -/
  resumed : Heard p s n t → Resumes p s m t o
  answered : ∀ i m' a, Happens p s m' (.answered t i a) →
    Answered p s registry ambient m₀ t e i m' a
  /-- It succeeds when all its members do, -/
  succeeds : (∃ r, o = .ok r) ↔ ∀ i < e.size, ∃ m' v, Happens p s m' (.answered t i (.ok v))
  /-- as soon as the last of them has answered, -/
  slowest : (∃ r, o = .ok r) →
    e.size = 0 ∧ m = m₀ ∨ ∃ i v, Happens p s m (.answered t i (.ok v))
  /-- with the value of each in its place. -/
  values : ∀ r, o = .ok r → ∃ vs, e.Holds r vs ∧
    ∀ i v, vs[i]? = some v → ∃ m' ≤ m, Happens p s m' (.answered t i (.ok v))
  /-- It fails with the failure of a member, -/
  failure : ∀ f, o = .error f → ∃ i, ∃ m' ≤ m, Happens p s m' (.answered t i (.error f))
  /-- and whenever a member fails. -/
  fails : ∀ i m' f, Happens p s m' (.answered t i (.error f)) → ∃ g, o = .error g

theorem Answered.lt {i m' : Nat} {a : Answer}
    (ha : Answered p s registry ambient m₀ t e i m' a) : i < e.size := by
  obtain ⟨-, -, c, -, hc, -⟩ := ha
  exact (List.getElem?_eq_some_iff.1 hc).1

section Decided

variable {around : Surroundings σ} {k : Nat}
  (hs : Reachable s)
  (answered : ∀ i m' a, Happens p s m' (.answered t i a) →
    Answered p s registry ambient m₀ t e i m' a)

include hs answered in
/-- A group that is decided by a failure comes to nothing. -/
theorem AllOrNothing.of_error {f : Failure}
    (hd : (historyFor p s k).Decided around m₀ m t e (.error f))
    (settled : Happens p s m (.settled t (.error f)))
    (resumed : Heard p s n t → Resumes p s m t (.error f)) :
    AllOrNothing p s registry ambient n m₀ t e m (.error f) := by
  obtain ⟨i, -, ⟨m₁, hm₁, ha⟩, -⟩ := hd.failure (hs.historyFor_orderly p k)
  have failed : ¬ ∃ r, (.error f : Outcome) = .ok r := by
    rintro ⟨r, h⟩
    cases h
  refine
    { settled := settled
      resumed := resumed
      answered := answered
      succeeds := ⟨fun ok => absurd ok failed, fun all => ?_⟩
      slowest := fun ok => absurd ok failed
      values := fun _ h => by cases h
      failure := fun g hg => ?_
      fails := fun _ _ _ _ => ⟨f, rfl⟩ }
  · obtain ⟨m₂, v, hv⟩ := all i (answered i m₁ _ ⟨k, ha⟩).lt
    cases (Happens.answered_unique hs hv ⟨k, ha⟩).2
  · cases hg
    exact ⟨i, m₁, hm₁, k, ha⟩

include hs answered in
/-- A group that is decided by its last value has one value from each member. -/
theorem AllOrNothing.of_ok {vs : List Json}
    (hd : (historyFor p s k).Decided around m₀ m t e (.ok vs))
    (settled : Happens p s m (.settled t (.ok (e.resumed vs))))
    (resumed : Heard p s n t → Resumes p s m t (.ok (e.resumed vs))) :
    AllOrNothing p s registry ambient n m₀ t e m (.ok (e.resumed vs)) := by
  have ho := hs.historyFor_orderly p k
  obtain ⟨length, values⟩ := hd.values ho
  have value (i : Nat) (hi : i < e.size) :
      ∃ m₁ ≤ m, ∃ v, Happens p s m₁ (.answered t i (.ok v)) := by
    obtain ⟨m₁, hle, ha⟩ := values i vs[i] (List.getElem?_eq_getElem (length ▸ hi))
    exact ⟨m₁, hle, vs[i], k, ha⟩
  have succeeds (i : Nat) (hi : i < e.size) :
      ∃ m₁ v, Happens p s m₁ (.answered t i (.ok v)) := by
    obtain ⟨m₁, -, v, ha⟩ := value i hi
    exact ⟨m₁, v, ha⟩
  refine
    { settled := settled
      resumed := resumed
      answered := answered
      succeeds := ⟨fun _ => succeeds, fun _ => ⟨_, rfl⟩⟩
      slowest := fun _ => ?_
      values := fun r hr => ?_
      failure := fun _ h => by cases h
      fails := fun i m₁ f hf => ?_ }
  · rcases hd.slowest ho with rfl | ⟨i, v, ha⟩
    · rcases Nat.eq_zero_or_pos e.size with hz | hpos
      · exact .inl ⟨hz, rfl⟩
      · obtain ⟨m₁, hle, v, ha⟩ := value 0 hpos
        have hge := (answered 0 m₁ _ ha).2.1
        exact .inr ⟨0, v, Nat.le_antisymm hle hge ▸ ha⟩
    · exact .inr ⟨i, v, k, ha⟩
  · cases hr
    exact ⟨vs, Effect.holds_resumed length,
      fun i v hv => (values i v hv).imp fun m₁ h => ⟨h.1, k, h.2⟩⟩
  · obtain ⟨m₂, v, hv⟩ := succeeds i (answered i m₁ _ hf).lt
    cases (Happens.answered_unique hs hv hf).2

end Decided

theorem Happens.allOrNothing (hs : Reachable s)
    (opened : Happens p s m (.opened n (registry.surroundings ambient)))
    (taken : Happens p s m₀ (.taken n t e)) (composite : e.IsGroup)
    (known : ∀ c ∈ e.commands, registry.contains c.name = true) :
    ∃ m o, AllOrNothing p s registry ambient n m₀ t e m o := by
  obtain ⟨k, m', r, settled, hd, resumed⟩ := Happens.group_settles hs opened taken composite
    fun c hc => (registry.isSome_job? ambient c).trans (known c hc)
  have answered (i m' : Nat) (a : Answer) (ha : Happens p s m' (.answered t i a)) :=
    Happens.answered hs opened taken ha
  cases r with
  | error f =>
      exact ⟨m', _, .of_error hs answered hd ⟨k, settled⟩ fun heard => (resumed heard).resumes hs⟩
  | ok vs =>
      exact ⟨m', _, .of_ok hs answered hd ⟨k, settled⟩ fun heard => (resumed heard).resumes hs⟩

/-! ## Groups in every run -/

/-- In every run a group of registered commands succeeds as a whole or not at
all, a sequence comes back in its order and a mapping under its labels; and
whatever succeeds has the shape of the effect. -/
theorem groups_all_or_nothing (hs : Reachable s) (p : Routine ξ σ ρ α) :
    (∀ {registry : Registry σ} {ambient : Context} {n m m₀ : Nat} {t : Ticket} {e : Effect},
      Happens p s m (.opened n (registry.surroundings ambient)) →
      Happens p s m₀ (.taken n t e) → e.IsGroup →
      (∀ c ∈ e.commands, registry.contains c.name = true) →
      ∃ m o, AllOrNothing p s registry ambient n m₀ t e m o) ∧
    ∀ {n m m' : Nat} {t : Ticket} {e : Effect} {o : Outcome},
      Happens p s m (.emitted n t e) → Happens p s m' (.settled t o) → e.Shapes o :=
  ⟨fun opened taken composite known => Happens.allOrNothing hs opened taken composite known,
    fun emitted settled => Happens.shapes hs emitted settled⟩

/-- The first member of a mapping answers after the second. -/
theorem groups_all_or_nothing_mapping :
    let s : Scheduler Unit Unit := { state := (), world := { own := () } }
    let registry : Registry Unit := Registry.empty.register "echo" fun payload _ =>
      .sleep (if payload matches .null then 8 else 3) (.done (.ok payload))
    let commands : Labelled Command :=
      Labelled.ofList [("slow", ⟨"echo", .null⟩), ("fast", ⟨"echo", .bool true⟩)]
    let p : Routine Unit Unit Unit Unit := .interpret (registry.surroundings .empty)
      (.allNamed commands fun _ => .done (.ok ())) fun _ => .done ()
    let r : Resumed := .mapping (commands.relabel [.null, .bool true])
    Happens p s 8 (.settled 0 (.ok r)) ∧ (Effect.mapping commands).Shapes (.ok r) ∧
      ∃ m o, AllOrNothing p s registry .empty 1 0 0 (.mapping commands) m o := by
  intro s registry commands p r
  obtain ⟨opened, emitted, taken, settled⟩ :
      Happens p s 0 (.opened 1 (registry.surroundings .empty)) ∧
        Happens p s 0 (.emitted 1 0 (.mapping commands)) ∧
        Happens p s 0 (.taken 1 0 (.mapping commands)) ∧ Happens p s 8 (.settled 0 (.ok r)) := by
    -- With every definition put in, no moment is computed twice.
    dsimp +zetaDelta only
    exact ⟨.of_moment (.fresh () _) 22 10 rfl, .of_moment (.fresh () _) 22 9 rfl,
      .of_moment (.fresh () _) 22 7 rfl, .of_moment (.fresh () _) 22 2 rfl⟩
  obtain ⟨groups, shapes⟩ := groups_all_or_nothing (.fresh () _) p
  exact ⟨settled, shapes emitted settled, groups opened taken trivial (by decide)⟩

end Scheduler

end Switchboard
