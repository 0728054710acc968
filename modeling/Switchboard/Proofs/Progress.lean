import Mathlib.Logic.Hydra
import Mathlib.Tactic.Abel
import Switchboard.Proofs.Rounds

/-!
# Switchboard.Proofs.Progress

Whatever is taken is settled after finitely many rounds.  While an effect is
being resolved the script adds nothing to what there is to do, and every task
that has its turn leaves less of itself behind, or is parked.  So a round that
does not settle the effect brings down the multiset of all that is left to do
or, where that stays the same, the number of tasks that wait for their turn.
-/

namespace Switchboard

open Relation

variable {ξ σ ρ α : Type}

/-! ## What is left to do -/

/-- What may be left of a job when it has done one thing. -/
inductive Job.Next : Job σ α → Job σ α → Prop where
  | look (next : Nat → World σ → Job σ α) (now : Nat) (w : World σ) : Next (next now w) (.look next)
  | write (change : World σ → World σ) (next : Job σ α) : Next next (.write change next)
  | sleep (ms : Nat) (next : Job σ α) : Next next (.sleep ms next)

theorem Job.next_wf : WellFounded (@Job.Next σ α) := by
  refine ⟨fun j => ?_⟩
  induction j with
  | done a => exact ⟨_, fun _ h => by cases h⟩
  | crash => exact ⟨_, fun _ h => by cases h⟩
  | look next ih => exact ⟨_, fun _ h => by cases h; exact ih _ _⟩
  | write change next ih => exact ⟨_, fun _ h => by cases h; exact ih⟩
  | sleep ms next ih => exact ⟨_, fun _ h => by cases h; exact ih⟩

/-- What may be left of an errand when it has done one thing. -/
inductive Errand.Next : Errand σ → Errand σ → Prop where
  | look (next : Nat → World σ → Errand σ) (now : Nat) (w : World σ) :
      Next (next now w) (.look next)
  | write (change : World σ → World σ) (next : Errand σ) : Next next (.write change next)
  | emit (e : Effect) (next : Ticket → Errand σ) (t : Ticket) : Next (next t) (.emit e next)
  | await (t : Ticket) (next : Outcome → Errand σ) (o : Outcome) : Next (next o) (.await t next)
  | drop (t : Ticket) (next : Errand σ) : Next next (.drop t next)
  | sleep (ms : Nat) (next : Errand σ) : Next next (.sleep ms next)

theorem Errand.next_wf : WellFounded (@Errand.Next σ) := by
  refine ⟨fun e => ?_⟩
  induction e with
  | done => exact ⟨_, fun _ h => by cases h⟩
  | look next ih => exact ⟨_, fun _ h => by cases h; exact ih _ _⟩
  | write change next ih => exact ⟨_, fun _ h => by cases h; exact ih⟩
  | emit e next ih => exact ⟨_, fun _ h => by cases h; exact ih _⟩
  | await t next ih => exact ⟨_, fun _ h => by cases h; exact ih _⟩
  | drop t next ih => exact ⟨_, fun _ h => by cases h; exact ih⟩
  | sleep ms next ih => exact ⟨_, fun _ h => by cases h; exact ih⟩

/-- A job that sleeps has less to do than before. -/
theorem Job.next_of_asleep {now due : Nat} {j next : Job σ α} {w : World σ}
    (h : (j.burst now w).1 = .asleep due next) : TransGen Job.Next next j := by
  induction j generalizing w with
  | done a => cases h
  | crash => cases h
  | look more ih => exact (ih now w h).tail (.look more now w)
  | write change more ih => exact (ih h).tail (.write change more)
  | sleep ms more ih =>
      unfold burst at h
      split at h
      · exact (ih h).tail (.sleep ms more)
      · cases h
        exact .single (.sleep ms next)

/-- What a task has to do. -/
abbrev Undertaking (σ : Type) := Job σ Answer ⊕ Errand σ

/-- What may be left of an undertaking. -/
def Undertaking.Left : Undertaking σ → Undertaking σ → Prop :=
  Sum.Lex (TransGen Job.Next) (TransGen Errand.Next)

theorem Undertaking.left_wf : WellFounded (@Undertaking.Left σ) :=
  Sum.lex_wf Job.next_wf.transGen Errand.next_wf.transGen

theorem Undertaking.left_trans {u v w : Undertaking σ} (h : u.Left v) (h' : v.Left w) :
    u.Left w := by
  cases h <;> cases h' <;> constructor <;> apply TransGen.trans <;> assumption

def Task.undertaking : Task σ → Undertaking σ
  | .begin _ _ _ j | .resume _ _ j => .inl j
  | .errand _ e => .inr e

/-- The resolver that the interpreter itself is at work on. -/
def Work.undertaking? : Work σ → Option (Undertaking σ)
  | .single _ j => some (.inl j)
  | .group _ _ => none

namespace Scheduler

variable {s s' : Scheduler ξ σ} {n : Nat} {t : Ticket}

/-- All that is left to do. -/
def load (s : Scheduler ξ σ) : Multiset (Undertaking σ) :=
  ↑(s.ready.map Task.undertaking) +
    ↑(s.timers.filterMap fun p => p.2.task?.map Task.undertaking) +
    ↑(s.parked.map fun w => w.task.undertaking) +
    ↑(s.line.bind fun l => l.current.bind (·.2.undertaking?)).toList

/-- How many turns and timers there are to wait for. -/
def queued (s : Scheduler ξ σ) : Nat := 2 * s.timers.length + s.ready.length

def effort (s : Scheduler ξ σ) : Multiset (Undertaking σ) × Nat := (s.load, s.queued)

/-- One thing less to do, or else one turn less to wait for. -/
def Eased : Multiset (Undertaking σ) × Nat → Multiset (Undertaking σ) × Nat → Prop :=
  Prod.Lex (CutExpand Undertaking.Left) (· < ·)

theorem eased_wf : WellFounded (TransGen (@Eased σ)) :=
  (WellFounded.prod_lex Undertaking.left_wf.cutExpand Nat.lt_wfRel.wf).transGen

/-! ## Tasks -/

theorem settle_load (s : Scheduler ξ σ) (t : Ticket) (o : Outcome) :
    (s.settle t o).load = s.load := by
  have hp := (List.filter_append_perm (fun w : Waiter σ => w.ticket = t) s.parked).map
    fun w => w.task.undertaking
  have hp : (↑(s.parked.map fun w => w.task.undertaking) : Multiset (Undertaking σ)) =
      ↑((s.parked.filter (·.ticket = t)).map fun w => w.task.undertaking) +
        ↑((s.parked.filter (·.ticket ≠ t)).map fun w => w.task.undertaking) := by
    rw [Multiset.coe_add, ← List.map_append]
    simpa using (Multiset.coe_eq_coe.2 hp).symm
  simp only [load, settle, log, waiters]
  split
  · simp
  · rw [hp, List.map_append, List.map_map, ← Multiset.coe_add]
    simp only [Function.comp_def]
    abel

theorem emit_load (s : Scheduler ξ σ) (n : Nat) (e : Effect) : (s.emit n e).2.load = s.load := by
  by_cases hl : ∃ l, s.line = some l ∧ l.number = n
  · obtain ⟨l, hl, rfl⟩ := hl
    rw [emit_open s e hl]
    simp [load, log, hl]
  · rw [emit_closed s e fun l h hn => hl ⟨l, h, hn⟩, settle_load]
    rfl

theorem report_load (s : Scheduler ξ σ) (t : Ticket) (i : Nat) (a : Answer) :
    (s.report t i a).load = s.load := by
  by_cases hb : ∃ n e slots, s.Busy n t (.group e slots)
  · obtain ⟨n, e, slots, inbox, hl⟩ := hb
    rw [report_group s a hl]
    simp [load, log, hl, Work.undertaking?]
  · rw [report_other s a fun n e slots h => hb ⟨n, e, slots, h⟩]
    rfl

theorem addTimer_load (s : Scheduler ξ σ) (due : Nat) (who : Sleeper σ) :
    (s.addTimer due who).load = s.load + ↑(who.task?.map Task.undertaking).toList := by
  have hp := (insertTimer_perm due who s.timers).filterMap fun p => p.2.task?.map Task.undertaking
  have hp := Multiset.coe_eq_coe.2 hp
  have hc : ((due, who) :: s.timers).filterMap (fun p => p.2.task?.map Task.undertaking) =
      (who.task?.map Task.undertaking).toList ++
        s.timers.filterMap fun p => p.2.task?.map Task.undertaking := by
    cases h : who.task?.map Task.undertaking <;> simp [h]
  simp only [load, addTimer]
  rw [hp, hc, ← Multiset.coe_add]
  abel

/-- An undertaking has its turn: less is left of it. -/
def Remains (u : Undertaking σ) (s s' : Scheduler ξ σ) : Prop :=
  ∃ rest : Multiset (Undertaking σ), (∀ v ∈ rest, v.Left u) ∧ s'.load = s.load + rest

/-- An errand has its turn: less is left of it, or it is parked as it was. -/
theorem runErrand_load (n : Nat) (e : Errand σ) (s : Scheduler ξ σ) :
    Remains (.inr e) s (runErrand n e s) ∨
      (runErrand n e s).load = s.load + {.inr e} ∧ (runErrand n e s).queued = s.queued := by
  have later {e e' : Errand σ} {s s' : Scheduler ξ σ} (next : Errand.Next e' e)
      (h : Remains (.inr e') s s' ∨ s'.load = s.load + {.inr e'} ∧ s'.queued = s.queued) :
      Remains (.inr e) s s' := by
    rcases h with ⟨rest, hrest, hload⟩ | ⟨hload, -⟩
    · refine ⟨rest, fun v hv => ?_, hload⟩
      exact Undertaking.left_trans (hrest v hv) (.inr (.single next))
    · refine ⟨{.inr e'}, fun v hv => ?_, hload⟩
      cases Multiset.mem_singleton.1 hv
      exact .inr (.single next)
  induction e generalizing s with
  | done => exact .inl ⟨0, by simp, by simp [runErrand]⟩
  | look next ih => exact .inl (later (.look next _ _) (ih _ _ s))
  | write change next ih =>
      exact .inl (later (.write change next) (ih { s with world := change s.world }))
  | emit e next ih =>
      have hn := later (.emit e next _) (ih (s.emit n e).1 (s.emit n e).2)
      simpa only [Remains, runErrand, emit_load] using Or.inl hn
  | drop t next ih => exact .inl (later (.drop t next) (ih (s.drop t)))
  | await t next ih =>
      unfold runErrand
      split
      · next o _ => exact .inl (later (.await t next o) (ih o (s.log (.resumed t o))))
      · refine .inr ⟨?_, rfl⟩
        simp only [load, List.map_append, ← Multiset.coe_add]
        simp only [List.map_cons, List.map_nil, Waiter.task, Task.undertaking,
          Multiset.coe_singleton]
        abel
  | sleep ms next ih =>
      unfold runErrand
      split
      · exact .inl (later (.sleep ms next) (ih s))
      · refine .inl ⟨{.inr next}, fun v hv => ?_, addTimer_load s _ (.task (.errand n next))⟩
        cases Multiset.mem_singleton.1 hv
        exact .inr (.single (.sleep ms next))

theorem runMember_load (s : Scheduler ξ σ) (t : Ticket) (i : Nat) (j : Job σ Answer) :
    Remains (.inl j) s (s.runMember t i j) := by
  unfold runMember
  split
  · next a w _ => exact ⟨0, by simp, by rw [report_load, add_zero]; rfl⟩
  · next w _ => exact ⟨0, by simp, by rw [report_load, add_zero]; rfl⟩
  · next due next w hb =>
    refine ⟨{.inl next}, fun v hv => ?_, addTimer_load _ due (.task (.resume t i next))⟩
    cases Multiset.mem_singleton.1 hv
    exact .inl (Job.next_of_asleep (congrArg Prod.fst hb))

theorem Remains.eased {u : Undertaking σ} (h : Remains u s s')
    {before : Scheduler ξ σ} (hb : before.load = s.load + {u}) : Eased s'.effort before.effort := by
  obtain ⟨rest, hrest, hload⟩ := h
  refine Prod.Lex.left _ _ ?_
  rw [hload, hb, cutExpand_add_left]
  exact cutExpand_singleton hrest

/-- A task that has its turn brings the effort down. -/
theorem runTask_eased {task : Task σ} {rest : List (Task σ)} (hr : s.ready = task :: rest) :
    Eased (runTask { s with ready := rest } task).effort s.effort := by
  have load : s.load = load { s with ready := rest } + {task.undertaking} := by
    simp only [Scheduler.load, hr, List.map_cons]
    rw [← Multiset.cons_coe, ← Multiset.singleton_add]
    abel
  cases task with
  | begin t i c j =>
      exact (runMember_load (log { s with ready := rest } (.started t i c)) t i j).eased load
  | resume t i j => exact (runMember_load { s with ready := rest } t i j).eased load
  | errand n e =>
      rcases runErrand_load n e { s with ready := rest } with h | ⟨hload, hqueued⟩
      · exact h.eased load
      · have same : (runTask { s with ready := rest } (.errand n e)).load = s.load :=
          hload.trans load.symm
        simp only [effort, same]
        refine Prod.Lex.right _ ?_
        have fewer : queued { s with ready := rest } < s.queued := by
          simp only [queued, hr, List.length_cons]
          omega
        exact hqueued ▸ fewer

theorem runReady_eased (turns : Nat) (s : Scheduler ξ σ) :
    ReflTransGen Eased (s.runReady turns).effort s.effort := by
  induction turns generalizing s with
  | zero => exact .refl
  | succ turns ih =>
      unfold runReady
      split
      · exact .refl
      · next task rest hr => exact (ih _).tail (runTask_eased hr)

theorem drain_eased (hr : s.ready ≠ []) : TransGen Eased s.drain.effort s.effort := by
  obtain ⟨task, rest, hr⟩ := List.exists_cons_of_ne_nil hr
  have h := runReady_eased rest.length (runTask { s with ready := rest } task)
  simp only [drain, hr, List.length_cons, runReady]
  exact .trans_right h (.single (runTask_eased hr))

/-! ## Time -/

theorem advance_eased (hr : s.ready = []) (ha : s.advance? = some s') :
    Eased s'.effort s.effort := by
  obtain ⟨due, who, rest, ht, rfl⟩ := advance_eq ha
  have split := List.takeWhile_append_dropWhile
    (p := fun p : Nat × Sleeper σ => p.1 ≤ max s.clock due) (l := s.timers)
  have load : (wakeDue { s with clock := max s.clock due }).load = s.load := by
    simp only [load, wakeDue, hr, List.nil_append]
    conv => rhs; rw [← split, List.filterMap_append, ← Multiset.coe_add]
    rw [List.map_filterMap, List.map_nil]
    simp only [Multiset.coe_nil, zero_add]
  have first : (due, who) ∈ s.timers.takeWhile (·.1 ≤ max s.clock due) := by
    rw [ht, List.takeWhile_cons_of_pos (by simp)]
    exact List.mem_cons_self
  have pos := List.length_pos_of_mem first
  have awake := (s.timers.takeWhile (·.1 ≤ max s.clock due)).length_filterMap_le fun p => p.2.task?
  have total := congrArg List.length split
  rw [List.length_append] at total
  simp only [effort, load]
  refine Prod.Lex.right _ ?_
  simp only [queued, wakeDue, hr, List.nil_append, List.length_nil]
  omega

/-- The second half of a round adds nothing to the effort, and takes something
from it unless the main routine has been woken. -/
theorem settleRound_eased {main main' : Main ξ σ ρ α}
    (hround : settleRound main s = .next main' s') :
    ReflTransGen Eased s'.effort s.effort ∧
      (s.woken = false → TransGen Eased s'.effort s.effort) := by
  unfold settleRound endRound at hround
  by_cases hr : s.ready = []
  · have same : s.drain = s := by simp [drain, hr, runReady]
    rw [same] at hround
    split at hround
    · next hw =>
      cases hround
      have hw : s.woken = true := by simpa [hr] using hw
      exact ⟨.refl, fun h => by rw [hw] at h; cases h⟩
    · split at hround
      · next ha =>
        cases hround
        have eased := advance_eased hr ha
        exact ⟨.single eased, fun _ => .single eased⟩
      · cases hround
  · have eased : TransGen Eased s'.effort s.effort := by
      split at hround
      · cases hround
        exact drain_eased hr
      · next hw =>
        split at hround
        · next ha =>
          cases hround
          have hr' : s.drain.ready = [] := by simp at hw; exact hw.2
          exact .head (advance_eased hr' ha) (drain_eased hr)
        · cases hround
    exact ⟨eased.to_reflTransGen, fun _ => eased⟩

/-! ## The main routine -/

/-- The interpreter has settled the effect that it was at work on. -/
theorem proceed_settled {w : Work σ} (hb : s.Busy n t w) (hp : s.proceed = .settled s') :
    s'.history.Settled t := by
  cases w with
  | single due job =>
      rw [proceed_single hb] at hp
      split at hp
      · unfold runSingle at hp
        split at hp <;> cases hp
        simp
      · cases hp
  | group e slots =>
      rw [proceed_group hb] at hp
      split at hp <;> cases hp
      simp

theorem setCurrent_load (s : Scheduler ξ σ) {inbox : List (Ticket × Effect)} {due due' : Nat}
    {job next : Job σ Answer}
    (hl : s.line = some { number := n, inbox, current := some (t, .single due job) }) :
    (s.setCurrent (some (t, .single due' next))).load + {.inl job} = s.load + {.inl next} := by
  simp only [load, setCurrent, hl, Option.map_some, Option.bind_some, Work.undertaking?,
    Option.toList_some, Multiset.coe_singleton]
  abel

/-- As long as an effect has to be waited for, nothing changes but its
resolver. -/
theorem proceed_waiting {w : Work σ} (hb : s.Busy n t w) (hp : s.proceed = .waiting s') :
    s' = s ∨ Eased s'.effort s.effort := by
  cases w with
  | single due job =>
      rw [proceed_single hb] at hp
      split at hp
      · unfold runSingle at hp
        split at hp <;> cases hp
        next due next w hburst =>
        obtain ⟨inbox, hl⟩ := hb
        refine .inr (Prod.Lex.left _ _ ⟨{.inl next}, .inl job, fun u hu => ?_, ?_⟩)
        · cases Multiset.mem_singleton.1 hu
          exact .inl (Job.next_of_asleep (congrArg Prod.fst hburst))
        · have rested : (addTimer { s with world := w } due .main).load = s.load := by
            rw [addTimer_load]
            simp [Sleeper.task?, load]
          rw [← rested]
          exact setCurrent_load (addTimer { s with world := w } due .main) hl
      · cases hp
        exact .inl rfl
  | group e slots =>
      rw [proceed_group hb] at hp
      split at hp <;> cases hp
      exact .inl rfl

/-- The turn of the main routine, while an effect is being resolved. -/
theorem turn_eased {main main' : Main ξ σ ρ α} (hi : s.Inv) (hp : 0 < s.nextLine)
    (hm : main.Matches s) (fresh : ∀ n t e slots, s.Busy n t (.group e slots) →
      FanIn.outcome? slots = none ∨ s.Quiet) {w : Work σ} (hb : s.Busy n t w)
    (hturn : turn main s = .blocked main' s') :
    s'.history.Settled t ∨ s' = s ∨ Eased s'.effort s.effort := by
  obtain ⟨inbox, hl⟩ := id hb
  cases main with
  | before routine => exact absurd hl (by rw [show s.line = none from hm]; simp)
  | asleep due next => exact absurd hl (by rw [show s.line = none from hm]; simp)
  | within around n' standing next =>
      obtain ⟨⟨l, hl', rfl⟩, ho⟩ := hm
      have hs := proceed_sound hi hl' fresh
      unfold turn continueLine at hturn
      dsimp only at hturn
      split at hturn
      · next s₁ hproceed =>
        rw [hproceed] at hs
        have settled := proceed_settled hb hproceed
        have sound : ((continueScript around l.number standing s₁).turn around l.number next
            fun r => runRoutine (next r)).Sound s₁ :=
          (continueScript_sound standing (hs.1.inv hi) hs.2 (hs.1.opened ho)).turn (hs.1.inv hi)
            (Nat.lt_of_lt_of_le hp hs.1.nextLine_le) (hs.1.opened ho)
            fun o _ hi hp hl => runRoutine_sound (next o) hi hp hl
        rw [hturn] at sound
        exact .inl (settled.mono sound.1.suffix.subset)
      · next s₁ hproceed =>
        cases hturn
        exact .inr (proceed_waiting hb hproceed)
      · cases hturn

/-! ## Everything that is taken is settled -/

/-- An effect that has been taken is being resolved until it is settled. -/
theorem settled_or_busy (hi : s.Inv) {m : Nat} {e : Effect} (ht : (m, .taken n t e) ∈ s.history) :
    s.history.Settled t ∨ ∃ w, s.Busy n t w := by
  obtain ⟨m', he⟩ := hi.orderly.emitted_of_taken ht
  rcases hi.pending m' n t e he with h | ⟨l, hl, rfl, hmem⟩ | h
  · exact .inl h
  · rcases List.mem_append.1 hmem with hc | hin
    · obtain ⟨⟨u, w⟩, hcurrent, rfl⟩ : ∃ p, l.current = some p ∧ p.1 = t := by simpa using hc
      exact .inr ⟨w, l.inbox, by rw [hl, ← hcurrent]⟩
    · obtain ⟨⟨u, e'⟩, hinbox, rfl⟩ := List.mem_map.1 hin
      exact absurd ((s.history.mem_takenOn).2 ⟨m, ht⟩) (hi.inbox_untaken hl hinbox l.number e)
  · cases h

/-- A round settles what is being resolved, or brings the effort down. -/
theorem round_eased {main main' : Main ξ σ ρ α} (hs : Poised main s) {w : Work σ}
    (hb : s.Busy n t w) (hround : round main s = .next main' s') :
    s'.history.Settled t ∨ TransGen Eased s'.effort s.effort := by
  unfold round at hround
  split at hround
  · have step : Steps s { s with woken := false } := .single (.touch s s.state s.world false)
    have hi := step.inv hs.inv
    have hm := hs.main.mono step rfl
    have sound := turn_sound hi hs.positive hm hs.fresh
    split at hround
    · cases hround
    · cases hround
    · next main₁ s₁ hturn =>
      rw [hturn] at sound
      obtain ⟨all, asleep⟩ := settleRound_eased hround
      rcases turn_eased hi hs.positive hm hs.fresh hb hturn with h | rfl | h
      · have after := settleRound_sound (sound.1.inv hi)
          (Nat.lt_of_lt_of_le hs.positive sound.1.nextLine_le) sound.2.1 fun _ => sound.2.2
        rw [hround] at after
        exact .inl (h.mono after.1.suffix.subset)
      · exact .inr (asleep rfl)
      · exact .inr (.trans_right all (.single h))
  · next hw => exact .inr ((settleRound_eased hround).2 (by simpa using hw))

theorem eventually_settled {main : Main ξ σ ρ α} (hs : Poised main s) {m : Nat} {e : Effect}
    (ht : (m, .taken n t e) ∈ s.history) :
    ∃ k, (rounds k main s).scheduler.history.Settled t := by
  generalize heffort : s.effort = effort
  induction effort using eased_wf.induction generalizing main s with
  | _ effort ih =>
    rcases settled_or_busy hs.inv ht with settled | ⟨w, hb⟩
    · exact ⟨0, settled⟩
    · have sound := round_sound hs
      cases hround : round main s with
      | done r =>
          rw [hround] at sound
          obtain ⟨steps, halted⟩ := sound
          rcases settled_or_busy (steps.inv hs.inv) (steps.suffix.subset ht) with settled | ⟨w, hb⟩
          · exact ⟨1, by simpa [rounds, hround] using settled⟩
          · exact absurd hb halted.not_busy
      | next main' s' =>
          rw [hround] at sound
          obtain ⟨steps, poised⟩ := sound
          rcases round_eased hs hb hround with h | h
          · exact ⟨1, by simp only [rounds, hround]; exact h⟩
          · obtain ⟨k, hk⟩ := ih _ (heffort ▸ h) poised (steps.suffix.subset ht) rfl
            exact ⟨k + 1, by simpa [rounds, hround] using hk⟩

end Scheduler

end Switchboard
