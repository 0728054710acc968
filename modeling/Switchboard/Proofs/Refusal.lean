import Switchboard.Proofs.Course
import Switchboard.Proofs.Dropping
import Switchboard.Proofs.Members
import Switchboard.Proofs.Settlement

/-!
# Switchboard.Proofs.Refusal

A group with an unknown member is refused.  The failure names the first member
that is unknown, and it is sent at the moment at which the group is taken; of
the resolvers none is started, the known ones neither.  Nothing else becomes of
the group, so whoever goes on after the failure goes on as if the group had
never been on the line.

* `continueScript_unknown` — a script stands where it stood when the group has
  been taken and refused;
* `Inert` — the rest of a run, with and without the group;
* `unknown_member_starts_nothing` — every run.
-/

namespace Switchboard.Scheduler

variable {ξ σ ρ α : Type} {s : Scheduler ξ σ} {n k : Nat} {t : Ticket} {e : Effect} {c : Command}
  {around : Surroundings σ} {inbox : List (Ticket × Effect)} {past : History σ}

/-! ## The moment at which the group is taken -/

/-- The same scheduler when the oldest effect of its line has been taken and a
failure has been sent for it. -/
def refuse (s : Scheduler ξ σ) (n : Nat) (wanted : Option Ticket) (t : Ticket) (e : Effect)
    (f : Failure) : Scheduler ξ σ :=
  ((s.without []).settle t (.error f)).since (s.taking n wanted t e)

theorem refuse_outcome? (wanted : Option Ticket) (f : Failure) (u : Ticket) :
    (s.refuse n wanted t e f).outcome? u =
      if u = t ∧ s.dropped t = false then some (.error f) else s.outcome? u :=
  settle_outcome? (s.without []) t u _

/-- Where the oldest effect has an unknown member its failure is sent, and the
script stands where it stood. -/
theorem continueScript_unknown
    (unknown : e.commands.find? (fun c => (around.resolve? c).isNone) = some c)
    (hl : s.line = some { number := n, inbox := (t, e) :: inbox }) {standing : Standing ξ σ ρ}
    (waits : standing.Waits s) :
    continueScript around n standing s = continueScript around n standing
      (s.refuse n standing.wanted t e (.unknownCommand c.name)) := by
  have sent : (s.pull n standing.wanted t e inbox).settle t (.error (.unknownCommand c.name)) =
      s.refuse n standing.wanted t e (.unknownCommand c.name) :=
    congrArg (settle · t _) (pull_eq hl _)
  simp only [continueScript_pull hl waits, start_unknown unknown, sent]

/-! ## The rest of a run -/

/-- Two runs come to the same, but for what had happened before. -/
def Result.Same (past past' : History σ) (r r' : Result ξ σ α) : Prop :=
  ∃ r₀ : Result ξ σ α, r = r₀.map (since past) ∧ r' = r₀.map (since past')

/-- A run goes on after a group with an unknown member as if the failure had come
by itself. -/
theorem goOn_unknown (unknown : e.commands.find? (fun c => (around.resolve? c).isNone) = some c)
    (hl : s.line = some { number := n, inbox := (t, e) :: inbox }) {standing : Standing ξ σ ρ}
    (waits : standing.Waits s) (after : Except Failure ρ → Routine ξ σ ρ α) (k : Nat)
    (past : History σ) :
    Result.Same (s.taking n standing.wanted t e) past (goOn around n standing after k s)
      (goOn around n standing after k
        ((s.without past).settle t (.error (.unknownCommand c.name)))) := by
  refine ⟨goOn around n standing after k
    ((s.without []).settle t (.error (.unknownCommand c.name))), ?_, ?_⟩
  · rw [← goOn_since, goOn, continueScript_unknown unknown hl waits]
    rfl
  · rw [← goOn_since]
    rfl

namespace Forgone

variable {X : ξ → Prop} {W : World σ → Prop} {τ : Ticket}

theorem complete {r : Turn ξ σ ρ α} (h : r.Forgone X W τ) (k : Nat) :
    (r.drop τ).complete k = (r.complete k).drop τ := by
  cases r with
  | finished a s | crashed s => rfl
  | blocked main s =>
      obtain ⟨settle, forgone⟩ := settleRound h.1 h.2
      simp only [Turn.drop, Turn.complete, settle]
      cases hr : Scheduler.settleRound main s with
      | done r => rfl
      | next main' s' =>
          rw [hr] at forgone
          exact rounds_drop k forgone.1 forgone.2

/-- Dropping what nobody will wait for changes nothing else of the rest of a
run. -/
theorem goOn (h : s.Forgone X W τ) (ha : around.Keeps W) {standing : Standing ξ σ ρ}
    (hst : standing.Forgoes X W τ) {after : Except Failure ρ → Routine ξ σ ρ α}
    (hafter : ∀ r, (after r).Forgoes X W τ) (n k : Nat) :
    Scheduler.goOn around n standing after k (s.drop τ) =
      (Scheduler.goOn around n standing after k s).drop τ := by
  obtain ⟨run, forgone⟩ := h.continueScript ha n hst
  obtain ⟨turn, forgone⟩ := turnOf run forgone ha n hafter
    fun o s h => h.runRoutine (hafter o)
  rw [Scheduler.goOn, turn, complete forgone, Scheduler.goOn]

theorem without (h : s.Forgone X W τ) (past : History σ) : (s.without past).Forgone X W τ :=
  { h with
    work := by
      rintro m t w ⟨inbox, hb⟩
      obtain ⟨l, hl, heq⟩ := Option.map_eq_some_iff.1 hb
      have current : l.current = some (t, w) := congrArg Line.current heq
      exact h.work l.number t w ⟨l.inbox, by rw [hl, ← current]⟩ }

end Forgone

theorem settle_of_dropped (hd : s.dropped t = true) (o : Outcome) :
    s.settle t o = s.log (.settled t o) := by
  simp [settle, waiters, hd]

theorem Result.drop_map_since (r : Result ξ σ α) (past : History σ) (t : Ticket) :
    (r.map (since past)).drop t = (r.drop t).map (since past) := by
  cases r <;> rfl

theorem Result.map_since_since (r : Result ξ σ α) (past past' : History σ) :
    (r.map (since past)).map (since past') = r.map (since (past ++ past')) := by
  cases r <;> simp [Result.map, since]

/-- A script that waits for a group with an unknown member, and that makes no
further use of it, goes on with the failure as if the group had never been
emitted. -/
theorem goOn_unknown_caught {X : ξ → Prop} {W : World σ → Prop}
    (unknown : e.commands.find? (fun c => (around.resolve? c).isNone) = some c)
    (hl : s.line = some { number := n, inbox := (t, e) :: inbox })
    (next : Outcome → Script ξ σ ρ) (after : Except Failure ρ → Routine ξ σ ρ α) (k : Nat)
    (past : History σ) (waits : (Standing.before (.await t next)).Waits s)
    (forgone : s.Forgone X W t) (ha : around.Keeps W)
    (hnext : (next (.error (.unknownCommand c.name))).Forgoes X W t)
    (hafter : ∀ r, (after r).Forgoes X W t) :
    Result.Same
      ((s.clock, .resumed t (.error (.unknownCommand c.name))) ::
        (s.clock, .settled t (.error (.unknownCommand c.name))) :: s.taking n (some t) t e) past
      ((goOn around n (.before (.await t next)) after k s).drop t)
      ((goOn around n (.before (next (.error (.unknownCommand c.name)))) after k
        (s.without past)).drop t) := by
  generalize hf : Failure.unknownCommand c.name = f at *
  have hnext : (Standing.before (next (.error f)) : Standing ξ σ ρ).Forgoes X W t := hnext
  -- What is left of the group is its outcome, and nobody will look at that.
  have free := forgone.without []
  have sent := (free.settle t (.error f)).log (.resumed t (.error f))
  have resumed : goOn around n (.before (.await t next)) after k s =
      (goOn around n (.before (next (.error f))) after k
        (((s.without []).settle t (.error f)).log (.resumed t (.error f)))).map
          (since (s.taking n (some t) t e)) := by
    have outcome := refuse_outcome? (s := s) (n := n) (t := t) (e := e) (some t) f t
    rw [if_pos ⟨rfl, waits.2⟩] at outcome
    rw [← goOn_since, goOn, continueScript_unknown unknown hl waits, hf, continueScript, runScript]
    simp only [Standing.wanted, outcome]
    rfl
  have silent : (((s.without []).settle t (.error f)).log (.resumed t (.error f))).drop t =
      ((s.without []).drop t).since
        [(s.clock, .resumed t (.error f)), (s.clock, .settled t (.error f))] := by
    have settled := free.settle_drop t (.error f)
    rw [settle_of_dropped (by simp [drop])] at settled
    exact congrArg (log · (.resumed t (.error f))) settled.symm
  refine ⟨(goOn around n (.before (next (.error f))) after k (s.without [])).drop t, ?_, ?_⟩
  · rw [resumed, Result.drop_map_since, ← sent.goOn ha hnext hafter, silent, goOn_since,
      Result.map_since_since, free.goOn ha hnext hafter]
    rfl
  · rw [← Result.drop_map_since, ← goOn_since]
    rfl

/-! ## Every run -/

/-- Nothing becomes of an effect but that a failure is sent, wherever it is the
oldest one on a line that is free. -/
structure Inert (ξ : Type) (around : Surroundings σ) (e : Effect) (f : Failure) : Prop where
  /-- It is over where it begins: no time passes, no resolver is started, and the
  world stays as it is. -/
  start : ∀ (s : Scheduler ξ σ) (t : Ticket), start around s t e = .settled (s.settle t (.error f))
  /-- The rest of the run is as if the failure had come by itself, -/
  alone : ∀ {ρ α : Type} {s : Scheduler ξ σ} {n : Nat} {t : Ticket} {inbox : List (Ticket × Effect)}
    (standing : Standing ξ σ ρ) (after : Except Failure ρ → Routine ξ σ ρ α) (k : Nat)
    (past : History σ), s.line = some { number := n, inbox := (t, e) :: inbox } →
    standing.Waits s →
    Result.Same (s.taking n standing.wanted t e) past (goOn around n standing after k s)
      (goOn around n standing after k ((s.without past).settle t (.error f)))
  /-- and when the script catches the failure, as if there had been nothing. -/
  caught : ∀ {ρ α : Type} {s : Scheduler ξ σ} {n : Nat} {t : Ticket}
    {inbox : List (Ticket × Effect)} {X : ξ → Prop} {W : World σ → Prop}
    (next : Outcome → Script ξ σ ρ) (after : Except Failure ρ → Routine ξ σ ρ α) (k : Nat)
    (past : History σ), s.line = some { number := n, inbox := (t, e) :: inbox } →
    (Standing.before (.await t next)).Waits s → s.Forgone X W t → around.Keeps W →
    (next (.error f)).Forgoes X W t → (∀ r, (after r).Forgoes X W t) →
    Result.Same
      ((s.clock, .resumed t (.error f)) :: (s.clock, .settled t (.error f)) ::
        s.taking n (some t) t e) past
      ((goOn around n (.before (.await t next)) after k s).drop t)
      ((goOn around n (.before (next (.error f))) after k (s.without past)).drop t)

/-- What becomes of an effect that is taken at some time and refused with a
failure. -/
structure Refused (p : Routine ξ σ ρ α) (s : Scheduler ξ σ) (around : Surroundings σ) (n m₀ : Nat)
    (t : Ticket) (e : Effect) (f : Failure) : Prop where
  /-- The failure is sent at once, -/
  settled : Happens p s m₀ (.settled t (.error f))
  /-- and the script that waits for it goes on with it at the same time. -/
  resumed : Heard p s n t → Happens p s m₀ (.resumed t (.error f))
  /-- Nothing else is ever sent or received. -/
  only : ∀ m o, Happens p s m (.settled t o) ∨ Happens p s m (.resumed t o) → o = .error f
  /-- No resolver is started, neither then nor at any other time. -/
  unstarted : ∀ m i c, ¬ Happens p s m (.started t i c)
  inert : Inert ξ around e f

variable {p : Routine ξ σ ρ α} {m m₀ : Nat} {registry : Registry σ} {ambient : Context}

/-- The name that stops a group is the first one that is not registered. -/
theorem find?_unknown (registry : Registry σ) (ambient : Context) (cs : List Command) :
    cs.find? (fun c => ((registry.surroundings ambient).resolve? c).isNone) =
      cs.find? (fun c => !registry.contains c.name) := by
  congr 1
  funext c
  rw [← Option.not_isSome, Registry.surroundings, registry.isSome_job? ambient c]

/-- An effect with an unknown member can be resolved in one way only. -/
theorem resolves_unknown
    (unknown : e.commands.find? (fun c => (around.resolve? c).isNone) = some c) {d : Nat}
    {o : Outcome} (resolves : around.Resolves e d o) :
    d = 0 ∧ o = .error (.unknownCommand c.name) := by
  have none := List.find?_some unknown
  have hc := List.mem_of_find?_eq_some unknown
  cases resolves with
  | unknown _ c' first =>
      obtain rfl := Option.some.inj (unknown.symm.trans first)
      exact ⟨rfl, rfl⟩
  | single c' job d a known answer =>
      obtain rfl := List.mem_singleton.1 hc
      simp [known] at none
  | group _ slots d r composite known length answers asleep decided =>
      have known := known c hc
      simp [Option.isNone_iff_eq_none.1 none] at known

/-- An effect with an unknown member comes to nothing, in every run.  The failure
names the first member that is unknown, wherever it stands. -/
theorem unknown_member_starts_nothing (hs : Reachable s)
    (opened : Happens p s m (.opened n (registry.surroundings ambient)))
    (taken : Happens p s m₀ (.taken n t e))
    (unknown : ∃ c ∈ e.commands, registry.contains c.name = false) :
    ∃ c, e.commands.find? (fun c => !registry.contains c.name) = some c ∧
      Refused p s (registry.surroundings ambient) n m₀ t e (.unknownCommand c.name) := by
  obtain ⟨c, first⟩ : ∃ c, e.commands.find? (fun c => !registry.contains c.name) = some c := by
    rw [← Option.isSome_iff_exists, List.find?_isSome]
    simpa using unknown
  have unknown := (find?_unknown registry ambient e.commands).trans first
  obtain ⟨m₁, o, hle, settled, resolved | broken⟩ := taken.taken_settles hs
  case inr =>
    -- Only the resolver of a known command can crash.
    obtain ⟨c', around', job, rfl, ⟨m', opened'⟩, known, -⟩ := broken
    obtain rfl := Happens.opened_unique hs opened opened'
    obtain rfl := List.mem_singleton.1 (List.mem_of_find?_eq_some unknown)
    have none := List.find?_some unknown
    simp [known] at none
  obtain ⟨around', ⟨m', opened'⟩, resolves, resumed⟩ := resolved
  obtain rfl := Happens.opened_unique hs opened opened'
  obtain ⟨hd, rfl⟩ := resolves_unknown unknown resolves
  obtain rfl : m₁ = m₀ := by omega
  refine ⟨c, first, settled, resumed, fun m'' o' h => Happens.outcome_unique hs settled h,
    fun m'' i c' started => ?_, ?_⟩
  · obtain ⟨k, started, taken⟩ := started.both taken hs
    have starts := (hs.runFor_launches p k).starts_le taken (opened.opened_mem hs taken)
    have mem := starts.subset (History.mem_starts.2 ⟨m'', started⟩)
    rw [Surroundings.starts_unknown unknown] at mem
    cases mem
  · exact ⟨start_unknown unknown,
      fun _ after k past hl waits => goOn_unknown unknown hl waits after k past,
      fun next after k past hl waits forgone ha hnext hafter =>
        goOn_unknown_caught unknown hl next after k past waits forgone ha hnext hafter⟩

/-- The second and the third member are unknown, and the script goes on with
another command as if nothing had been emitted before it. -/
theorem unknown_member_starts_nothing_between :
    let s : Scheduler Unit Unit := { state := (), world := { own := () } }
    let registry : Registry Unit := Registry.empty.register "slow" fun payload _ =>
      .sleep 8 (.done (.ok payload))
    let around := registry.surroundings .empty
    let e : Effect := .sequence [⟨"slow", .null⟩, ⟨"none", .null⟩, ⟨"nil", .null⟩]
    let next : Outcome → Script Unit Unit Unit := fun _ =>
      .perform ⟨"slow", .bool true⟩ fun _ => .done (.ok ())
    let p : Routine Unit Unit Unit Unit := .interpret around (.suspend e next) fun _ => .done ()
    let s₁ := ((openLine { s with woken := false } around).emit 1 e).2
    Happens p s 0 (.resumed 0 (.error (.unknownCommand "none"))) ∧
      Happens p s 8 (.resumed 1 (.ok (.single (.bool true)))) ∧
      (∃ c, e.commands.find? (fun c => !registry.contains c.name) = some c ∧
        Refused p s around 1 0 0 e (.unknownCommand c.name)) ∧
      ∀ k, ∃ past, Result.Same past []
        ((goOn around 1 (.before (.await 0 next)) (fun _ => (.done () : Routine _ _ _ Unit)) k
          s₁).drop 0)
        ((goOn around 1 (.before (next (.error (.unknownCommand "none")))) (fun _ => .done ()) k
          (s₁.without [])).drop 0) := by
  intro s registry around e next p s₁
  obtain ⟨opened, taken, resumed, after⟩ : Happens p s 0 (.opened 1 around) ∧
      Happens p s 0 (.taken 1 0 e) ∧
      Happens p s 0 (.resumed 0 (.error (.unknownCommand "none"))) ∧
      Happens p s 8 (.resumed 1 (.ok (.single (.bool true)))) := by
    -- With every definition put in, no moment is computed twice.
    dsimp +zetaDelta only
    exact ⟨.of_moment (.fresh () _) 16 13 rfl, .of_moment (.fresh () _) 16 10 rfl,
      .of_moment (.fresh () _) 16 8 rfl, .of_moment (.fresh () _) 16 1 rfl⟩
  obtain ⟨c, first, refused⟩ := unknown_member_starts_nothing (.fresh () _) opened taken
    ⟨⟨"nil", .null⟩, .tail _ (.tail _ (.head _)), by decide⟩
  have name : c.name = "none" := congrArg Command.name (Option.some.inj first).symm
  have forgone : s₁.Forgone (fun _ => True) (fun _ => True) 0 := by
    refine ⟨Nat.one_pos, trivial, trivial, fun _ h => absurd h List.not_mem_nil,
      fun _ _ h => absurd h List.not_mem_nil, fun _ h => absurd h List.not_mem_nil, ?_⟩
    rintro n t w ⟨inbox, hb⟩
    cases hb
  have known : around.Keeps fun _ => True := by
    intro c job hj
    obtain ⟨resolver, hr, rfl⟩ := Option.map_eq_some_iff.1 hj
    obtain ⟨-, rfl⟩ : c.name = "slow" ∧
        (fun payload _ => .sleep 8 (.done (.ok payload)) : Resolver Unit) = resolver := by
      simpa [registry, Registry.get?, Registry.register, Registry.empty, Dict.get?_insert] using hr
    trivial
  have caught (k : Nat) := refused.inert.caught (s := s₁) next
    (fun _ => (.done () : Routine _ _ _ Unit)) k [] rfl ⟨rfl, rfl⟩ forgone known
    (fun t ht => ⟨ht, fun _ => trivial⟩) fun _ => trivial
  rw [name] at caught
  exact ⟨resumed, after, ⟨c, first, refused⟩, fun k => ⟨_, caught k⟩⟩

end Switchboard.Scheduler
