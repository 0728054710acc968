import Switchboard.Proofs.Among
import Switchboard.Proofs.Rounds

/-!
# Switchboard.Proofs.Turns

The turn of the main routine of a run that goes on among others.  The
interpreter, the script and the routine around it are followed on both sides at
once, one lemma a function: where the run by itself stops the other one stops,
too, at the same place of the same program.

The interpreter never breaks off here, because what is asked for does not crash
where it is resolved in place.

* `Among.serve` — the interpreter;
* `Among.runScript` — scripts;
* `Among.runRoutine`, `Among.turn` — the main routine.
-/

namespace Switchboard.Scheduler

variable {ξ σ ρ α : Type} {C : Effect → Prop} {d k n : Nat} {P P' R : Pairs} {A B : List Nat}
  {a s : Scheduler ξ σ} {t t' : Ticket} {around : Surroundings σ}

/-! ## The line -/

theorem setCurrent_free {inbox : List (Ticket × Effect)} {c : Option (Ticket × Work σ)}
    (hl : s.line = some { number := n, inbox, current := c }) : (s.setCurrent none).Free n :=
  ⟨inbox, by rw [setCurrent_eq hl]⟩

theorem Free.not_ringing {due : Nat} (hf : s.Free n) : ¬ s.Ringing due := by
  rintro ⟨l, t, job, hl, hc⟩
  obtain ⟨inbox, hf⟩ := hf
  rw [hf] at hl
  cases hl
  cases hc

namespace Among

/-- Timers that are due have gone off. -/
theorem past (h : Among C d k P A a s) (hA : ∀ due ∈ A, due ≤ s.clock) : Among C d k P [] a s :=
  { h with
    alarms := fun due hdue => (h.alarms due hdue).imp_left fun hm =>
      absurd (h.ahead _ hdue) (Nat.not_lt.2 (hA due hm)) }

theorem free_right (h : Among C d k P A a s) {inbox : List (Ticket × Effect)}
    (hl : a.line = some { number := n, inbox }) :
    ∃ inbox', s.line = some { number := n + k, inbox := inbox' } ∧
      Line.Alike C d k P ({ number := n, inbox } : Line σ)
        { number := n + k, inbox := inbox' } := by
  obtain ⟨⟨n', inbox', current⟩, hl', line⟩ := h.line_right hl
  have current' := line.current
  cases current'
  cases line.number
  exact ⟨inbox', hl', line⟩

theorem not_ringing (h : Among C d k P A a s) (hf : a.Free n) (due : Nat) : ¬ s.Ringing due := by
  obtain ⟨inbox, hl⟩ := hf
  obtain ⟨inbox', hl', -⟩ := h.free_right hl
  exact Free.not_ringing ⟨inbox', hl'⟩

theorem setLine (h : Among C d k P A a s) {l l' : Line σ} (hl : l.Alike C d k P l')
    (alarms : ∀ due, s.clock < due → due ∈ A ∨ s.Ringing due →
      due ∈ B ∨ ∃ t job, l'.current = some (t, .single due job)) :
    Among C d k P B { a with line := some l } { s with line := some l' } :=
  { h with
    line := .some hl
    alarms := fun due hdue =>
      (alarms due (h.ahead _ hdue) (h.alarms due hdue)).imp_right
        fun ⟨t, job, hc⟩ => ⟨l', t, job, rfl, hc⟩ }

theorem setCurrent (h : Among C d k P A a s) {l : Line σ} (hl : a.line = some l)
    {c c' : Option (Ticket × Work σ)} (hc : Option.Rel (Work.Alike d P) c c')
    (alarms : ∀ due, s.clock < due → due ∈ A ∨ s.Ringing due →
      due ∈ B ∨ ∃ t job, c' = some (t, .single due job)) :
    Among C d k P B (a.setCurrent c) (s.setCurrent c') := by
  obtain ⟨l', hl', line⟩ := h.line_right hl
  unfold Scheduler.setCurrent
  rw [hl, hl']
  exact h.setLine { line with current := hc } alarms

theorem openLine (h : Among C d k P [] a s) (hl : s.line = none) (around : Surroundings σ) :
    Among C d k P [] (a.openLine around) (s.openLine around) :=
  { h with
    firstLine := Nat.succ_pos _
    nextLine := by
      show s.nextLine + 1 = a.nextLine + 1 + k
      rw [h.nextLine, Nat.add_right_comm]
    line := .some ⟨h.nextLine, h.firstLine, .nil, .none⟩
    alarms := fun due hdue => by
      rcases h.alarms due hdue with hm | ⟨l, _, _, hl', _⟩
      · cases hm
      · rw [hl] at hl'
        cases hl' }

theorem closeLine (h : Among C d k P [] a s) (hf : a.Free n) (finished : Bool) :
    Among C d k P [] (a.closeLine finished) (s.closeLine finished) := by
  have quiet := h.not_ringing hf
  obtain ⟨inbox, hl⟩ := hf
  obtain ⟨inbox', hl', line⟩ := h.free_right hl
  have closed : Among C d k P [] { a with line := none } { s with line := none } :=
    { h with
      line := .none
      alarms := fun due hdue => .inl ((h.alarms due hdue).resolve_right (quiet due)) }
  have pending : List.Forall₂ (fun t t' => (t, t') ∈ P) (inbox.map (·.1)) (inbox'.map (·.1)) := by
    rw [List.forall₂_map_left_iff, List.forall₂_map_right_iff]
    exact line.inbox.imp fun _ _ hp => hp.1
  unfold Scheduler.closeLine
  rw [hl, hl']
  exact (closed.log _ _).settleAll pending _

end Among

/-! ## The interpreter -/

/-- The interpreter has come equally far on both sides, and it has not broken
off. -/
inductive Progress.Alike (C : Effect → Prop) (d k n : Nat) (P : Pairs) (A : List Nat) :
    Progress ξ σ → Progress ξ σ → Prop
  | settled {a s : Scheduler ξ σ} (hf : a.Free n) (h : Among C d k P A a s) :
      Alike C d k n P A (.settled a) (.settled s)
  | waiting {a s : Scheduler ξ σ} (h : Among C d k P A a s) :
      Alike C d k n P A (.waiting a) (.waiting s)

namespace Among

variable {e : Effect}

theorem runSingle (h : Among C d k P A a s) (hf : a.Free n) (ht : (t, t') ∈ P)
    {j j' : Job σ Answer} {ms : List Nat} {x : Answer} (hj : j.Follows ms (some x))
    (hj' : j'.Follows ms (some x)) :
    (a.runSingle t j).Alike C d k n P A (s.runSingle t' j') := by
  have quiet := h.not_ringing hf
  obtain ⟨inbox, hl⟩ := hf
  have stop := hj.burst a.clock a.world
  have stop' := hj'.burst s.clock s.world
  unfold Scheduler.runSingle
  rcases hb : j.burst a.clock a.world with ⟨pause, w⟩
  rcases hb' : j'.burst s.clock s.world with ⟨pause', w'⟩
  rw [hb] at stop
  rw [hb'] at stop'
  have h := h.world w w'
  cases stop with
  | done x =>
      cases stop'
      have h := (h.log (.answered t 0 x) (.answered t' 0 x)).setCurrent (B := A) hl .none
        fun due _ hm => .inl (hm.resolve_right (quiet due))
      have free := setCurrent_free (s := { a with world := w }.log (.answered t 0 x)) hl
      exact .settled free (h.settle ht _)
  | @asleep m next ms _ hm hn =>
      cases stop' with
      | asleep hm' hn' =>
          have due : s.clock + m = a.clock + m + d := by
            have := h.clock
            dsimp only at this
            omega
          dsimp only
          rw [due]
          have later : s.clock < a.clock + m + d := by omega
          have h := h.addTimer (B := (a.clock + m + d) :: A) .main later
            (List.subset_cons_self _ _) fun _ => List.mem_cons_self
          refine .waiting (h.setCurrent hl (.some (.single ht rfl hn hn')) fun due' _ hm => ?_)
          rcases List.mem_cons.1 (hm.resolve_right (quiet due')) with rfl | hm
          · exact .inr ⟨_, _, rfl⟩
          · exact .inl hm

theorem runGroup (h : Among C d k P A a s) (hf : a.Free n) (ht : (t, t') ∈ P)
    (slots : List (Option Answer)) :
    (a.runGroup t e slots).Alike C d k n P A (s.runGroup t' e slots) := by
  have quiet := h.not_ringing hf
  obtain ⟨inbox, hl⟩ := hf
  have alarms (c : Option (Ticket × Work σ)) (due : Nat) (_ : s.clock < due)
      (hm : due ∈ A ∨ s.Ringing due) : due ∈ A ∨ ∃ t job, c = some (t, .single due job) :=
    .inl (hm.resolve_right (quiet due))
  unfold Scheduler.runGroup
  cases FanIn.outcome? slots with
  | some r =>
      have free := setCurrent_free hl
      exact .settled free ((h.setCurrent hl .none (alarms _)).settle ht _)
  | none => exact .waiting (h.setCurrent hl (.some (.group ht)) (alarms _))

end Among

/-- The members of a group whose resolvers do the same whatever they see. -/
theorem members_alike (ht : (t, t') ∈ P) {cs : List Command}
    (plain : ∀ c ∈ cs, ∀ job, around.resolve? c = some job → ∃ ms r, job.Follows ms r) (i : Nat) :
    (∃ name, members around t i cs = .error name ∧ members around t' i cs = .error name) ∨
      ∃ ts ts', members around t i cs = .ok ts ∧ members around t' i cs = .ok ts' ∧
        List.Forall₂ (Task.Alike C k P) ts ts' := by
  induction cs generalizing i with
  | nil => exact .inr ⟨[], [], rfl, rfl, .nil⟩
  | cons c cs ih =>
      obtain ⟨first, plain⟩ := List.forall_mem_cons.1 plain
      unfold members
      cases hc : around.resolve? c with
      | none => exact .inl ⟨c.name, rfl, rfl⟩
      | some job =>
          obtain ⟨ms, r, hj⟩ := first job hc
          rcases ih plain (i + 1) with ⟨name, hm, hm'⟩ | ⟨ts, ts', hm, hm', hts⟩
          · exact .inl ⟨name, by simp [hm, Except.map], by simp [hm', Except.map]⟩
          · exact .inr ⟨.begin t i c job :: ts, .begin t' i c job :: ts',
              by simp [hm, Except.map], by simp [hm', Except.map], .cons (.begin ht hj hj) hts⟩

namespace Among

variable {e : Effect}

theorem startGroup (h : Among C d k P A a s) (hf : a.Free n) (ht : (t, t') ∈ P)
    (steady : around.Steady e) :
    (startGroup around a t e).Alike C d k n P A (startGroup around s t' e) := by
  have plain (c : Command) (hc : c ∈ e.commands) (job : Job σ Answer)
      (hr : around.resolve? c = some job) : ∃ ms r, job.Follows ms r := by
    obtain ⟨ms, r, hj, -⟩ := steady c hc job hr
    exact ⟨ms, r, hj⟩
  unfold Scheduler.startGroup
  rcases members_alike (C := C) (k := k) ht plain 0 with
    ⟨name, hm, hm'⟩ | ⟨ts, ts', hm, hm', hts⟩
  · rw [hm, hm']
    exact .settled hf (h.settle ht _)
  · rw [hm, hm']
    dsimp only
    rw [← hts.length_eq]
    have h : Among C d k P A { a with ready := a.ready ++ ts } { s with ready := s.ready ++ ts' } :=
      { h with ready := h.ready.append (.of_forall₂ hts) }
    exact h.runGroup hf ht _

theorem start (h : Among C d k P A a s) (hf : a.Free n) (ht : (t, t') ∈ P)
    (steady : around.Steady e) :
    (start around a t e).Alike C d k n P A (start around s t' e) := by
  cases e with
  | sequence cs => exact h.startGroup hf ht steady
  | mapping cs => exact h.startGroup hf ht steady
  | single c =>
      unfold Scheduler.start
      dsimp only
      cases hr : around.resolve? c with
      | none => exact .settled hf (h.settle ht _)
      | some job =>
          obtain ⟨ms, r, hj, calm⟩ := steady c (List.mem_singleton.2 rfl) job hr
          obtain ⟨x, rfl⟩ := Option.ne_none_iff_exists'.1 (calm rfl)
          exact (h.log _ _).runSingle hf ht hj hj

section Serve

variable {wanted wanted' : Option Ticket} (hw : Option.Rel (fun t t' => (t, t') ∈ P) wanted wanted')

include hw

/-- What is wanted has arrived on both sides or on neither. -/
theorem arrived (h : Among C d k P A a s) : s.arrived wanted' = a.arrived wanted := by
  cases hw with
  | none => rfl
  | some ht => rw [Scheduler.arrived, Scheduler.arrived, Option.bind_some, Option.bind_some,
      h.outcome _ ht]

omit hw in
theorem notePoll (h : Among C d k P A a s) (hf : a.Free n) (wanted wanted' : Option Ticket) :
    Among C d k P A (a.notePoll wanted) (s.notePoll wanted') := by
  obtain ⟨inbox, hl⟩ := id hf
  obtain ⟨inbox', hl', -⟩ := h.free_right hl
  have hf' : s.Free (n + k) := ⟨inbox', hl'⟩
  rw [hf.notePoll, hf'.notePoll]
  exact h.log _ _

theorem serve (steady : ∀ e, C e → around.Steady e) (steps : Nat) (h : Among C d k P A a s)
    (hf : a.Free n) :
    (serve around wanted steps a).Alike C d k n P A (serve around wanted' steps s) := by
  induction steps generalizing a s with
  | zero => exact .settled hf h
  | succ steps ih =>
      obtain ⟨inbox, hl⟩ := id hf
      obtain ⟨inbox', hl', line⟩ := h.free_right hl
      have waiting := line.inbox
      cases waiting with
      | nil =>
          rw [serve_empty hl, serve_empty hl']
          exact .settled hf h
      | @cons p p' rest rest' first others =>
          obtain ⟨t, e⟩ := p
          obtain ⟨t', e'⟩ := p'
          obtain ⟨ht, rfl, asked⟩ := first
          have left : Line.Alike C d k P ({ number := n, inbox := rest } : Line σ)
              { number := n + k, inbox := rest' } := { line with inbox := others }
          have taken := (h.setLine (B := A) left fun due _ hm =>
            .inl (hm.resolve_right (h.not_ringing ⟨_, hl⟩ due))).log (.taken n t e)
              (.taken (n + k) t' e)
          have started := taken.start ⟨rest, rfl⟩ ht (steady e asked)
          rw [serve_next hl, serve_next hl']
          generalize Scheduler.start around _ t e = p at started ⊢
          generalize Scheduler.start around _ t' e = p' at started ⊢
          cases started with
          | waiting h => exact .waiting h
          | settled hf h =>
              dsimp only
              rw [h.arrived hw]
              split
              · exact .settled hf h
              · exact ih (h.notePoll hf wanted wanted') (hf.polled wanted)

/-- The script cannot go on: its effects are resolved. -/
theorem serveLine (steady : ∀ e, C e → around.Steady e) (h : Among C d k P A a s)
    (hf : a.Free n) :
    (serveLine around wanted (a.notePoll wanted)).Alike C d k n P A
      (serveLine around wanted' (s.notePoll wanted')) := by
  have polled := h.notePoll hf wanted wanted'
  have backlog : (s.notePoll wanted').backlog = (a.notePoll wanted).backlog := by
    obtain ⟨inbox, hl⟩ := hf.polled wanted
    obtain ⟨inbox', hl', line⟩ := polled.free_right hl
    rw [Scheduler.backlog, Scheduler.backlog, hl, hl']
    exact line.inbox.length_eq.symm
  unfold Scheduler.serveLine
  rw [backlog]
  exact polled.serve hw steady _ (hf.polled wanted)

end Serve

/-- The interpreter goes on with what is being resolved. -/
theorem proceed (h : Among C d k P A a s) {l : Line σ} (hl : a.line = some l) :
    a.proceed.Alike C d k l.number P A s.proceed := by
  obtain ⟨n, inbox, current⟩ := l
  obtain ⟨⟨n', inbox', current'⟩, hl', line⟩ := h.line_right hl
  have working := line.current
  unfold Scheduler.proceed
  rw [hl, hl']
  cases working with
  | none => exact .settled ⟨inbox, hl⟩ h
  | some hw =>
      cases hw with
      | @single t t' due _ j j' ms x ht hdue hj hj' =>
          have clock := h.clock
          cases hdue
          dsimp only
          by_cases le : due ≤ a.clock
          · rw [if_pos le, if_pos (by omega), ← runSingle_setCurrent a t j none,
              ← runSingle_setCurrent s t' j' none]
            refine (h.setCurrent hl .none fun due' later hm => .inl (hm.resolve_right ?_)).runSingle
              (setCurrent_free hl) ht hj hj'
            rintro ⟨l, _, _, hl'', hc⟩
            cases hl'.symm.trans hl''
            cases hc
            omega
          · rw [if_neg le, if_neg (by omega)]
            exact .waiting h
      | @group t t' e slots ht =>
          dsimp only
          rw [← runGroup_setCurrent a t e slots none, ← runGroup_setCurrent s t' e slots none]
          refine (h.setCurrent hl .none fun due' later hm => .inl (hm.resolve_right ?_)).runGroup
            (setCurrent_free hl) ht slots
          rintro ⟨l, _, _, hl'', hc⟩
          cases hl'.symm.trans hl''
          cases hc

end Among

/-! ## Scripts -/

/-- Where two scripts stand that do the same. -/
inductive Standing.Alike (C : Effect → Prop) (d : Nat) (P : Pairs) :
    Standing ξ σ ρ → Standing ξ σ ρ → Prop
  | before {p q : Script ξ σ ρ} (h : p.Alike C P q) : Alike C d P (.before p) (.before q)
  | asleep {due : Nat} {p q : Script ξ σ ρ} (h : p.Alike C P q) :
      Alike C d P (.asleep due p) (.asleep (due + d) q)

theorem Standing.Alike.mono {p q : Standing ξ σ ρ} (h : p.Alike C d P q) (hP : P ⊆ P') :
    p.Alike C d P' q := by
  cases h with
  | before h => exact .before (h.mono hP)
  | asleep h => exact .asleep (h.mono hP)

/-- When a script that sleeps is to be woken. -/
def Standing.alarms : Standing ξ σ ρ → List Nat
  | .before _ => []
  | .asleep due _ => [due]

/-- What came of running a script on both sides.  The tickets that belonged
together still do. -/
inductive Interpreted.Alike (C : Effect → Prop) (d k n : Nat) (P₀ : Pairs) :
    Interpreted ξ σ ρ → Interpreted ξ σ ρ → Prop
  | finished {P : Pairs} {a s : Scheduler ξ σ} (r : Except Failure ρ) (hP : P₀ ⊆ P)
      (hf : a.Free n) (h : Among C d k P [] a s) : Alike C d k n P₀ (.finished r a) (.finished r s)
  | blocked {P : Pairs} {p q : Standing ξ σ ρ} {a s : Scheduler ξ σ} (hP : P₀ ⊆ P)
      (hp : p.Alike C d P q) (h : Among C d k P q.alarms a s) :
      Alike C d k n P₀ (.blocked p a) (.blocked q s)

theorem Interpreted.Alike.mono {i i' : Interpreted ξ σ ρ} (h : i.Alike C d k n P' i')
    (hP : P ⊆ P') : i.Alike C d k n P i' := by
  cases h with
  | finished r hP' hf h => exact .finished r (List.Subset.trans hP hP') hf h
  | blocked hP' hp h => exact .blocked (List.Subset.trans hP hP') hp h

theorem Progress.Alike.stand {p p' : Progress ξ σ} {q q' : Standing ξ σ ρ}
    (h : p.Alike C d k n P q'.alarms p') (hq : q.Alike C d P q') :
    (p.stand q).Alike C d k n P (p'.stand q') := by
  cases h with
  | settled _ h => exact .blocked (List.Subset.refl _) hq h
  | waiting h => exact .blocked (List.Subset.refl _) hq h

namespace Among

theorem runScript (steady : ∀ e, C e → around.Steady e) {p q : Script ξ σ ρ} (hp : p.Alike C R q)
    (hR : R ⊆ P) (h : Among C d k P [] a s) (hf : a.Free n) :
    (runScript around n p a).Alike C d k n P (runScript around (n + k) q s) := by
  induction hp generalizing P a s with
  | done r => exact .finished r (List.Subset.refl _) hf h
  | look _ ih =>
      unfold Scheduler.runScript
      rw [h.state]
      exact ih _ _ _ _ _ hR h hf
  | @write _ change _ _ _ ih => exact ih hR { h with state := congrArg change h.state } hf
  | @note _ change change' _ _ _ ih => exact ih hR (h.world (change a.world) (change' s.world)) hf
  | @emit R e next next' asked _ ih =>
      unfold Scheduler.runScript
      rw [emit_ticket, emit_ticket]
      have emitted := h.emit n asked
      exact (ih _ _ (List.cons_subset_cons _ hR) emitted (emit_free hf e)).mono
        (List.subset_cons_self _ _)
  | @await R t t' next next' ht hn ih =>
      have waits : (Standing.before (.await t next)).Alike C d P (.before (.await t' next')) :=
        .before (.await (hR ht) fun o => (hn o).mono hR)
      unfold Scheduler.runScript
      rw [h.outcome _ (hR ht)]
      cases a.outcome? t with
      | some o => exact ih o hR (h.log _ _) hf
      | none =>
          have served := h.serveLine (.some (hR ht)) steady hf
          dsimp only
          generalize Scheduler.serveLine around (some t) (a.notePoll (some t)) = p at served ⊢
          generalize Scheduler.serveLine around (some t') (s.notePoll (some t')) = p' at served ⊢
          cases served with
          | waiting h => exact .blocked (List.Subset.refl _) waits h
          | @settled a s hf h =>
              dsimp only
              rw [h.outcome _ (hR ht)]
              cases a.outcome? t with
              | some o => exact ih o hR (h.log _ _) hf
              | none => exact .blocked (List.Subset.refl _) waits h
  | drop ht _ ih => exact ih hR (h.drop (hR ht)) hf
  | @sleep _ ms p q hp ih =>
      by_cases hms : ms = 0
      · rw [Scheduler.runScript, Scheduler.runScript, if_pos hms, if_pos hms]
        exact ih hR h hf
      · have due : s.clock + ms = a.clock + ms + d := by
          have := h.clock
          omega
        have rested := h.addTimer (B := [a.clock + ms + d]) .main (by omega)
          (List.nil_subset _) fun _ => List.mem_singleton.2 rfl
        rw [runScript_sleep hms, runScript_sleep hms, due]
        exact (rested.serveLine .none steady hf).stand (.asleep (hp.mono hR))
  | @spawn _ e e' _ _ he _ ih =>
      have spawned : Among C d k P [] (a.enqueue (.errand n e)) (s.enqueue (.errand (n + k) e')) :=
        { h with ready := h.ready.append (.own (.errand rfl (he.mono hR)) .nil) }
      exact ih hR spawned hf

theorem continueScript (steady : ∀ e, C e → around.Steady e) {p q : Standing ξ σ ρ}
    (hp : p.Alike C d P q) (h : Among C d k P q.alarms a s) (hf : a.Free n) :
    (continueScript around n p a).Alike C d k n P (continueScript around (n + k) q s) := by
  cases hp with
  | before hp => exact h.runScript steady hp (List.Subset.refl _) hf
  | @asleep due p q hp =>
      have clock := h.clock
      by_cases hdue : due ≤ a.clock
      · have hdue' : due + d ≤ s.clock := by omega
        rw [Scheduler.continueScript, Scheduler.continueScript, if_pos hdue, if_pos hdue']
        exact (h.past (List.forall_mem_singleton.2 hdue')).runScript steady hp
          (List.Subset.refl _) hf
      · rw [continueScript_asleep hdue, continueScript_asleep (by omega)]
        exact (h.serveLine .none steady hf).stand (.asleep hp)

theorem continueLine (steady : ∀ e, C e → around.Steady e) {p q : Standing ξ σ ρ}
    (hp : p.Alike C d P q) (h : Among C d k P q.alarms a s) {l : Line σ} (hl : a.line = some l) :
    (continueLine around l.number p a).Alike C d k l.number P
      (continueLine around (l.number + k) q s) := by
  have proceeded := h.proceed hl
  unfold Scheduler.continueLine
  generalize a.proceed = p at proceeded ⊢
  generalize s.proceed = p' at proceeded ⊢
  cases proceeded with
  | settled hf h => exact h.continueScript steady hp hf
  | waiting h => exact .blocked (List.Subset.refl _) hp h

end Among

/-! ## Routines -/

/-- The main routine stands at the same place on both sides. -/
inductive Main.Alike (C : Effect → Prop) (d k : Nat) (P : Pairs) :
    Main ξ σ ρ α → Main ξ σ ρ α → Prop
  | before {p q : Routine ξ σ ρ α} (h : p.Alike C P q) : Alike C d k P (.before p) (.before q)
  | asleep {due : Nat} {p q : Routine ξ σ ρ α} (h : p.Alike C P q) :
      Alike C d k P (.asleep due p) (.asleep (due + d) q)
  | within {around : Surroundings σ} {n : Nat} {p q : Standing ξ σ ρ}
      {next next' : Except Failure ρ → Routine ξ σ ρ α} (steady : ∀ e, C e → around.Steady e)
      (hp : p.Alike C d P q) (h : ∀ r, (next r).Alike C P (next' r)) :
      Alike C d k P (.within around n p next) (.within around (n + k) q next')

/-- When a routine that sleeps is to be woken, or its script. -/
def Main.alarms : Main ξ σ ρ α → List Nat
  | .before _ => []
  | .asleep due _ => [due]
  | .within _ _ standing _ => standing.alarms

/-- What came of the turn of the main routine on both sides. -/
inductive Turn.Alike (C : Effect → Prop) (d k : Nat) : Turn ξ σ ρ α → Turn ξ σ ρ α → Prop
  | finished {P : Pairs} {a s : Scheduler ξ σ} (x : α) (h : Among C d k P [] a s) :
      Alike C d k (.finished x a) (.finished x s)
  | crashed {P : Pairs} {a s : Scheduler ξ σ} (h : Among C d k P [] a s) :
      Alike C d k (.crashed a) (.crashed s)
  | blocked {P : Pairs} {main main' : Main ξ σ ρ α} {a s : Scheduler ξ σ}
      (hm : main.Alike C d k P main') (h : Among C d k P main'.alarms a s) :
      Alike C d k (.blocked main a) (.blocked main' s)

theorem Interpreted.Alike.turn {i i' : Interpreted ξ σ ρ}
    {next next' : Except Failure ρ → Routine ξ σ ρ α} (hi : i.Alike C d k n P i')
    (steady : ∀ e, C e → around.Steady e) (hn : ∀ r, (next r).Alike C P (next' r))
    (go : ∀ r {P' : Pairs} {a s : Scheduler ξ σ}, P ⊆ P' → Among C d k P' [] a s → s.line = none →
      (runRoutine (next r) a).Alike C d k (runRoutine (next' r) s)) :
    (i.turn around n next fun r => runRoutine (next r)).Alike C d k
      (i'.turn around (n + k) next' fun r => runRoutine (next' r)) := by
  cases hi with
  | finished r hP hf h => exact go r hP (h.closeLine hf true) (closeLine_line _ _)
  | blocked hP hp h => exact .blocked (.within steady hp fun r => (hn r).mono hP) h

namespace Among

theorem runRoutine {p q : Routine ξ σ ρ α} (hp : p.Alike C R q) (hR : R ⊆ P)
    (h : Among C d k P [] a s) (hl : s.line = none) :
    (runRoutine p a).Alike C d k (runRoutine q s) := by
  induction hp generalizing P a s with
  | done x => exact .finished x h
  | crash => exact .crashed h
  | look _ ih =>
      unfold Scheduler.runRoutine
      rw [h.state]
      exact ih _ _ _ _ _ hR h hl
  | lookLeft _ ih => exact ih _ _ _ hR h hl
  | lookRight _ ih => exact ih _ _ _ hR h hl
  | @write _ change _ _ _ ih => exact ih hR { h with state := congrArg change h.state } hl
  | @noteLeft _ change _ _ _ ih => exact ih hR (h.world (change a.world) s.world) hl
  | @noteRight _ change _ _ _ ih => exact ih hR (h.world a.world (change s.world)) hl
  | skipLeft _ ih => exact ih hR h hl
  | skipRight _ ih => exact ih hR h hl
  | @sleep _ ms p q hp ih =>
      unfold Scheduler.runRoutine
      split
      · exact ih hR h hl
      · have due : s.clock + ms = a.clock + ms + d := by
          have := h.clock
          omega
        rw [due]
        exact .blocked (.asleep (hp.mono hR)) <| h.addTimer .main (by omega) (List.nil_subset _)
          fun _ => List.mem_singleton.2 rfl
  | @interpret _ around _ _ _ _ steady hs hn ih =>
      have ran := (h.openLine hl around).runScript steady hs hR ⟨[], rfl⟩
      unfold Scheduler.runRoutine
      rw [h.nextLine]
      exact ran.turn steady (fun r => (hn r).mono hR) fun r _ _ _ hP h hl =>
        ih r (List.Subset.trans hR hP) h hl
  | @emit _ e _ _ asked _ ih =>
      have emitted := h.emit (a.nextLine - 1) asked
      have closed := s.emit_line_of_none e hl (a.nextLine - 1 + k)
      have number : s.nextLine - 1 = a.nextLine - 1 + k := by
        have := h.firstLine
        have := h.nextLine
        omega
      unfold Scheduler.runRoutine
      rw [number, emit_ticket, emit_ticket]
      exact ih _ _ (List.cons_subset_cons _ hR) emitted closed
  | @peek _ t t' _ _ ht _ ih =>
      unfold Scheduler.runRoutine
      rw [h.outcome _ (hR ht)]
      cases a.outcome? t with
      | some o => exact ih _ hR (h.log _ _) hl
      | none => exact ih _ hR h hl

/-- The main routine has its turn. -/
theorem turn {main main' : Main ξ σ ρ α} (hm : main.Alike C d k P main')
    (h : Among C d k P main'.alarms a s) (matched : main'.Matches s) :
    (turn main a).Alike C d k (turn main' s) := by
  cases hm with
  | before hp => exact h.runRoutine hp (List.Subset.refl _) matched
  | @asleep due p q hp =>
      have clock := h.clock
      unfold Scheduler.turn
      by_cases hdue : due ≤ a.clock
      · have hdue' : due + d ≤ s.clock := by omega
        dsimp only
        rw [if_pos hdue, if_pos hdue']
        have h := h.past (List.forall_mem_singleton.2 hdue')
        exact h.runRoutine hp (List.Subset.refl _) matched
      · dsimp only
        rw [if_neg hdue, if_neg (by omega)]
        exact .blocked (.asleep hp) h
  | @within around n p q next next' steady hp hn =>
      obtain ⟨⟨l', hl', number⟩, -⟩ := matched
      obtain ⟨l, hl, line⟩ := h.line_left hl'
      obtain rfl : l.number = n := by
        have := line.number
        omega
      unfold Scheduler.turn
      exact (h.continueLine steady hp hl).turn steady hn fun r _ _ _ hP h hl =>
        h.runRoutine ((hn r).mono hP) (List.Subset.refl _) hl

end Among

end Switchboard.Scheduler
