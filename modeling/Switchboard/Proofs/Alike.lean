import Switchboard.Recovery

/-!
# Switchboard.Proofs.Alike

Programs that do the same whatever they see of the time, of the world and of
the numbers of their tickets.  A job *follows* a plan when it sleeps for the
given times and comes to the given end.  Two programs with effects are *alike*
when they emit the same effects and wait for them in the same way; their
tickets may have other numbers, and which numbers belong together is what the
relation is indexed by.  A program that is alike to itself makes no use of
anything but what it is given.

* `Job.Follows.burst` — where a job that follows a plan stops running;
* `Routine.Alike.bind` — programs that are put together from parts that are
  alike;
* `Routine.Alike.ofJob` — jobs that follow one plan, inside of a routine.
-/

namespace Switchboard

variable {ξ σ ρ α β : Type}

/-! ## Jobs -/

namespace Job

/-- Whatever a job sees, it sleeps for the given times, one after another, and
then it ends with a result, or without one.  Sleeps of no time do not count. -/
inductive Follows : Job σ α → List Nat → Option α → Prop
  | done (a : α) : Follows (.done a) [] (some a)
  | crash : Follows .crash [] none
  | look {next : Nat → World σ → Job σ α} {ms : List Nat} {r : Option α}
      (h : ∀ now w, Follows (next now w) ms r) : Follows (.look next) ms r
  | write {change : World σ → World σ} {next : Job σ α} {ms : List Nat} {r : Option α}
      (h : Follows next ms r) : Follows (.write change next) ms r
  | skip {next : Job σ α} {ms : List Nat} {r : Option α} (h : Follows next ms r) :
      Follows (.sleep 0 next) ms r
  | sleep {m : Nat} {next : Job σ α} {ms : List Nat} {r : Option α} (hm : m ≠ 0)
      (h : Follows next ms r) : Follows (.sleep m next) (m :: ms) r

/-- Where a job that follows a plan stops running. -/
inductive Pause.Follows (now : Nat) : Pause σ α → List Nat → Option α → Prop
  | done (a : α) : Follows now (.done a) [] (some a)
  | crashed : Follows now .crashed [] none
  | asleep {m : Nat} {next : Job σ α} {ms : List Nat} {r : Option α} (hm : m ≠ 0)
      (h : next.Follows ms r) : Follows now (.asleep (now + m) next) (m :: ms) r

theorem Follows.burst {j : Job σ α} {ms : List Nat} {r : Option α} (h : j.Follows ms r)
    (now : Nat) (w : World σ) : (j.burst now w).1.Follows now ms r := by
  induction h generalizing w with
  | done a => exact .done a
  | crash => exact .crashed
  | look _ ih => exact ih now w w
  | @write change _ _ _ _ ih => exact ih (change w)
  | skip _ ih => exact ih w
  | sleep hm h =>
      rw [Job.burst, if_neg hm]
      exact .asleep hm h

end Job

/-! ## Programs with effects -/

/-- The tickets of two programs that belong together. -/
abbrev Pairs := List (Ticket × Ticket)

/-- Two errands do the same.  They emit only effects of a given kind. -/
inductive Errand.Alike (C : Effect → Prop) : Pairs → Errand σ → Errand σ → Prop
  | done {R : Pairs} : Alike C R .done .done
  | look {R : Pairs} {next next' : Nat → World σ → Errand σ}
      (h : ∀ now now' w w', Alike C R (next now w) (next' now' w')) :
      Alike C R (.look next) (.look next')
  | write {R : Pairs} {change change' : World σ → World σ} {e e' : Errand σ}
      (h : Alike C R e e') : Alike C R (.write change e) (.write change' e')
  | emit {R : Pairs} {effect : Effect} {next next' : Ticket → Errand σ} (asked : C effect)
      (h : ∀ t t', Alike C ((t, t') :: R) (next t) (next' t')) :
      Alike C R (.emit effect next) (.emit effect next')
  | await {R : Pairs} {t t' : Ticket} {next next' : Outcome → Errand σ} (ht : (t, t') ∈ R)
      (h : ∀ o, Alike C R (next o) (next' o)) : Alike C R (.await t next) (.await t' next')
  | drop {R : Pairs} {t t' : Ticket} {e e' : Errand σ} (ht : (t, t') ∈ R) (h : Alike C R e e') :
      Alike C R (.drop t e) (.drop t' e')
  | sleep {R : Pairs} {ms : Nat} {e e' : Errand σ} (h : Alike C R e e') :
      Alike C R (.sleep ms e) (.sleep ms e')

/-- Two scripts do the same, on states that are the same. -/
inductive Script.Alike (C : Effect → Prop) : Pairs → Script ξ σ ρ → Script ξ σ ρ → Prop
  | done {R : Pairs} (result : Except Failure ρ) : Alike C R (.done result) (.done result)
  | look {R : Pairs} {next next' : Nat → ξ → World σ → Script ξ σ ρ}
      (h : ∀ now now' x w w', Alike C R (next now x w) (next' now' x w')) :
      Alike C R (.look next) (.look next')
  | write {R : Pairs} {change : ξ → ξ} {p q : Script ξ σ ρ} (h : Alike C R p q) :
      Alike C R (.write change p) (.write change q)
  | note {R : Pairs} {change change' : World σ → World σ} {p q : Script ξ σ ρ}
      (h : Alike C R p q) : Alike C R (.note change p) (.note change' q)
  | emit {R : Pairs} {effect : Effect} {next next' : Ticket → Script ξ σ ρ} (asked : C effect)
      (h : ∀ t t', Alike C ((t, t') :: R) (next t) (next' t')) :
      Alike C R (.emit effect next) (.emit effect next')
  | await {R : Pairs} {t t' : Ticket} {next next' : Outcome → Script ξ σ ρ} (ht : (t, t') ∈ R)
      (h : ∀ o, Alike C R (next o) (next' o)) : Alike C R (.await t next) (.await t' next')
  | drop {R : Pairs} {t t' : Ticket} {p q : Script ξ σ ρ} (ht : (t, t') ∈ R)
      (h : Alike C R p q) : Alike C R (.drop t p) (.drop t' q)
  | sleep {R : Pairs} {ms : Nat} {p q : Script ξ σ ρ} (h : Alike C R p q) :
      Alike C R (.sleep ms p) (.sleep ms q)
  | spawn {R : Pairs} {e e' : Errand σ} {p q : Script ξ σ ρ} (he : e.Alike C R e')
      (h : Alike C R p q) : Alike C R (.spawn e p) (.spawn e' q)

/-- The resolvers of an effect do the same whatever they see, and where there is
only one of them it does not crash. -/
def Surroundings.Steady (around : Surroundings σ) (e : Effect) : Prop :=
  ∀ c ∈ e.commands, ∀ job, around.resolve? c = some job →
    ∃ ms r, job.Follows ms r ∧ (e = .single c → r ≠ none)

/-- Two routines do the same, on states that are the same.  Either may look at
the time and the world, and change the world, where the other does not. -/
inductive Routine.Alike (C : Effect → Prop) : Pairs → Routine ξ σ ρ α → Routine ξ σ ρ α → Prop
  | done {R : Pairs} (result : α) : Alike C R (.done result) (.done result)
  | crash {R : Pairs} : Alike C R .crash .crash
  | look {R : Pairs} {next next' : Nat → ξ → World σ → Routine ξ σ ρ α}
      (h : ∀ now now' x w w', Alike C R (next now x w) (next' now' x w')) :
      Alike C R (.look next) (.look next')
  | lookLeft {R : Pairs} {next : Nat → ξ → World σ → Routine ξ σ ρ α} {q : Routine ξ σ ρ α}
      (h : ∀ now x w, Alike C R (next now x w) q) : Alike C R (.look next) q
  | lookRight {R : Pairs} {next : Nat → ξ → World σ → Routine ξ σ ρ α} {p : Routine ξ σ ρ α}
      (h : ∀ now x w, Alike C R p (next now x w)) : Alike C R p (.look next)
  | write {R : Pairs} {change : ξ → ξ} {p q : Routine ξ σ ρ α} (h : Alike C R p q) :
      Alike C R (.write change p) (.write change q)
  | noteLeft {R : Pairs} {change : World σ → World σ} {p q : Routine ξ σ ρ α}
      (h : Alike C R p q) : Alike C R (.note change p) q
  | noteRight {R : Pairs} {change : World σ → World σ} {p q : Routine ξ σ ρ α}
      (h : Alike C R p q) : Alike C R p (.note change q)
  | skipLeft {R : Pairs} {p q : Routine ξ σ ρ α} (h : Alike C R p q) : Alike C R (.sleep 0 p) q
  | skipRight {R : Pairs} {p q : Routine ξ σ ρ α} (h : Alike C R p q) : Alike C R p (.sleep 0 q)
  | sleep {R : Pairs} {ms : Nat} {p q : Routine ξ σ ρ α} (h : Alike C R p q) :
      Alike C R (.sleep ms p) (.sleep ms q)
  | interpret {R : Pairs} {around : Surroundings σ} {script script' : Script ξ σ ρ}
      {next next' : Except Failure ρ → Routine ξ σ ρ α} (steady : ∀ e, C e → around.Steady e)
      (hs : script.Alike C R script') (h : ∀ r, Alike C R (next r) (next' r)) :
      Alike C R (.interpret around script next) (.interpret around script' next')
  | emit {R : Pairs} {effect : Effect} {next next' : Ticket → Routine ξ σ ρ α} (asked : C effect)
      (h : ∀ t t', Alike C ((t, t') :: R) (next t) (next' t')) :
      Alike C R (.emit effect next) (.emit effect next')
  | peek {R : Pairs} {t t' : Ticket} {next next' : Option Outcome → Routine ξ σ ρ α}
      (ht : (t, t') ∈ R) (h : ∀ o, Alike C R (next o) (next' o)) :
      Alike C R (.peek t next) (.peek t' next')

variable {C : Effect → Prop} {R R' : Pairs}

/-! ## More tickets -/

theorem Errand.Alike.mono {e e' : Errand σ} (h : e.Alike C R e') (hR : R ⊆ R') :
    e.Alike C R' e' := by
  induction h generalizing R' with
  | done => exact .done
  | look _ ih => exact .look fun now now' w w' => ih now now' w w' hR
  | write _ ih => exact .write (ih hR)
  | emit asked _ ih => exact .emit asked fun t t' => ih t t' (List.cons_subset_cons _ hR)
  | await ht _ ih => exact .await (hR ht) fun o => ih o hR
  | drop ht _ ih => exact .drop (hR ht) (ih hR)
  | sleep _ ih => exact .sleep (ih hR)

theorem Script.Alike.mono {p q : Script ξ σ ρ} (h : p.Alike C R q) (hR : R ⊆ R') :
    p.Alike C R' q := by
  induction h generalizing R' with
  | done result => exact .done result
  | look _ ih => exact .look fun now now' x w w' => ih now now' x w w' hR
  | write _ ih => exact .write (ih hR)
  | note _ ih => exact .note (ih hR)
  | emit asked _ ih => exact .emit asked fun t t' => ih t t' (List.cons_subset_cons _ hR)
  | await ht _ ih => exact .await (hR ht) fun o => ih o hR
  | drop ht _ ih => exact .drop (hR ht) (ih hR)
  | sleep _ ih => exact .sleep (ih hR)
  | spawn he _ ih => exact .spawn (he.mono hR) (ih hR)

theorem Routine.Alike.mono {p q : Routine ξ σ ρ α} (h : p.Alike C R q) (hR : R ⊆ R') :
    p.Alike C R' q := by
  induction h generalizing R' with
  | done result => exact .done result
  | crash => exact .crash
  | look _ ih => exact .look fun now now' x w w' => ih now now' x w w' hR
  | lookLeft _ ih => exact .lookLeft fun now x w => ih now x w hR
  | lookRight _ ih => exact .lookRight fun now x w => ih now x w hR
  | write _ ih => exact .write (ih hR)
  | noteLeft _ ih => exact .noteLeft (ih hR)
  | noteRight _ ih => exact .noteRight (ih hR)
  | skipLeft _ ih => exact .skipLeft (ih hR)
  | skipRight _ ih => exact .skipRight (ih hR)
  | sleep _ ih => exact .sleep (ih hR)
  | interpret steady hs _ ih => exact .interpret steady (hs.mono hR) fun r => ih r hR
  | emit asked _ ih => exact .emit asked fun t t' => ih t t' (List.cons_subset_cons _ hR)
  | peek ht _ ih => exact .peek (hR ht) fun o => ih o hR

/-! ## Putting routines together -/

namespace Routine

theorem Alike.bind {p q : Routine ξ σ ρ α} {f g : α → Routine ξ σ ρ β} (h : p.Alike C R q)
    (hf : ∀ a, (f a).Alike C R (g a)) : (p.bind f).Alike C R (q.bind g) := by
  induction h with
  | done result => exact hf result
  | crash => exact .crash
  | look _ ih => exact .look fun now now' x w w' => ih now now' x w w' hf
  | lookLeft _ ih => exact .lookLeft fun now x w => ih now x w hf
  | lookRight _ ih => exact .lookRight fun now x w => ih now x w hf
  | write _ ih => exact .write (ih hf)
  | noteLeft _ ih => exact .noteLeft (ih hf)
  | noteRight _ ih => exact .noteRight (ih hf)
  | skipLeft _ ih => exact .skipLeft (ih hf)
  | skipRight _ ih => exact .skipRight (ih hf)
  | sleep _ ih => exact .sleep (ih hf)
  | interpret steady hs _ ih => exact .interpret steady hs fun r => ih r hf
  | emit asked _ ih =>
      exact .emit asked fun t t' => ih t t' fun a => (hf a).mono (List.subset_cons_self _ _)
  | peek ht _ ih => exact .peek ht fun o => ih o hf

/-- A change of the world on both sides. -/
theorem Alike.note {change change' : World σ → World σ} {p q : Routine ξ σ ρ α}
    (h : p.Alike C R q) : (Routine.note change p).Alike C R (.note change' q) :=
  .noteLeft (.noteRight h)

/-- A routine is like a job if it is like the job from where the job stops. -/
theorem Alike.of_stop {p : Routine ξ σ ρ α} {j : Job σ α} {ms : List Nat} {r : Option α}
    (h : j.Follows ms r) (done : ∀ a, ms = [] → r = some a → p.Alike C R (.done a))
    (crash : ms = [] → r = none → p.Alike C R .crash)
    (sleep : ∀ m ms' next, ms = m :: ms' → Job.Follows next ms' r →
      p.Alike C R (.sleep m (.ofJob next))) : p.Alike C R (.ofJob j) := by
  induction h with
  | done a => exact done a rfl rfl
  | crash => exact crash rfl rfl
  | look _ ih => exact .lookRight fun now _ w => ih now w done crash sleep
  | write _ ih => exact .noteRight (ih done crash sleep)
  | skip _ ih => exact .skipRight (ih done crash sleep)
  | sleep _ h => exact sleep _ _ _ rfl h

/-- Two jobs that follow one plan are alike as routines. -/
theorem Alike.ofJob {j j' : Job σ α} {ms : List Nat} {r : Option α} (h : j.Follows ms r)
    (h' : j'.Follows ms r) : (Routine.ofJob j : Routine ξ σ ρ α).Alike C R (.ofJob j') := by
  -- The first job is brought to where it stops, and then the second one to the same place.
  induction h generalizing j' with
  | look _ ih => exact .lookLeft fun now _ w => ih now w h'
  | write _ ih => exact .noteLeft (ih h')
  | skip _ ih => exact .skipLeft (ih h')
  | done a => exact .of_stop h' (fun b _ hb => by cases hb; exact .done a) nofun nofun
  | crash => exact .of_stop h' nofun (fun _ _ => .crash) nofun
  | sleep _ _ ih =>
      refine .of_stop h' nofun nofun fun m ms' next hms hn => ?_
      cases hms
      exact .sleep (ih hn)

end Routine

/-- A rendering does the same for the same failure: it sees the exchange, and
neither the time nor the world. -/
theorem Rendering.alike (r : Rendering σ) (e : Envelope) (mayCall : Bool) :
    (r.routine e mayCall : Routine Exchange σ ρ Unit).Alike C R (r.routine e mayCall) := by
  induction r generalizing mayCall with
  | done => exact .done ()
  | look next ih => exact .look fun _ _ x _ _ => ih x mayCall
  | write w next ih => exact .write (ih mayCall)
  | note change next ih => exact .note (ih mayCall)
  | take next ih => exact .look fun _ _ x _ _ => .write (ih x mayCall)
  | byDefault next ih =>
      cases mayCall with
      | true => exact .write (ih false)
      | false => exact ih false

end Switchboard
