import Switchboard.Proofs.Delivery

/-!
# Switchboard.Proofs.Resumption

A script that waits for the outcome of an effect while the effect is taken
goes on with the outcome at the very moment at which it is sent, unless it has
been dropped, or the interpretation is over by then.
-/

namespace Switchboard

variable {ξ σ ρ α : Type}

/-- An effect was taken while the script of the line was waiting for its
outcome. -/
def History.Awaited (h : History σ) (n : Nat) (t : Ticket) : Prop :=
  ∃ m e past, (m, .taken n t e) :: (m, .polled n (some t)) :: past <:+ h

/-- The outcome that a script waits for. -/
def Script.wanted? : Script ξ σ ρ → Option Ticket
  | .await t _ => some t
  | _ => none

namespace Scheduler

variable {s s' : Scheduler ξ σ} {n : Nat} {t : Ticket} {o : Outcome} {around : Surroundings σ}
  {late wanted : Option Ticket}

/-- The scripts have gone on with whatever they were waiting for, but for one
outcome that has been sent just now. -/
def HeardBut (s : Scheduler ξ σ) (late : Option Ticket) : Prop :=
  ∀ n t m o past, s.history.Awaited n t → (m, .settled t o) :: past <:+ s.history →
    ¬ History.Ended past n →
      s.dropped t = true ∨ (m, .resumed t o) ∈ s.history ∨ late = some t ∧ m = s.clock

/-- A script that waited for what is being resolved still waits for it. -/
def Expecting (s : Scheduler ξ σ) (wanted : Option Ticket) : Prop :=
  ∀ n t w, s.Busy n t w → s.history.Awaited n t → wanted = some t

/-! ## What others do -/

theorem suffix_of_cons {α : Type} {p q : α} {past h : List α} (hs : p :: past <:+ q :: h)
    (hne : p ≠ q) : p :: past <:+ h :=
  (List.suffix_cons_iff.1 hs).resolve_left fun heq => hne (List.cons.inj heq).1

/-- What is news has all that is old behind it. -/
theorem suffix_append_cases {α : Type} {p : α} {past news h : List α}
    (hs : p :: past <:+ news ++ h) : p ∈ news ∧ h <:+ past ∨ p :: past <:+ h := by
  induction news with
  | nil => exact .inr hs
  | cons q news ih =>
      rcases List.suffix_cons_iff.1 hs with heq | hs
      · obtain ⟨rfl, rfl⟩ := List.cons.inj heq
        exact .inl ⟨List.mem_cons_self, List.suffix_append _ _⟩
      · exact (ih hs).imp_left fun h => ⟨List.mem_cons_of_mem _ h.1, h.2⟩

theorem suffix_of_append {α : Type} {p : α} {past news h : List α} (hs : p :: past <:+ news ++ h)
    (hn : p ∉ news) : p :: past <:+ h :=
  (suffix_append_cases hs).resolve_left fun h => hn h.1

theorem awaited_taken {h : History σ} (ha : h.Awaited n t) : ∃ m e, (m, .taken n t e) ∈ h := by
  obtain ⟨m, e, past, hs⟩ := ha
  exact ⟨m, e, hs.subset List.mem_cons_self⟩

theorem awaited_lt (hi : s.Inv) (ha : s.history.Awaited n t) : t < s.nextTicket := by
  obtain ⟨m, e, ht⟩ := awaited_taken ha
  obtain ⟨m', he⟩ := hi.orderly.emitted_of_taken ht
  exact hi.tickets m' n t e he

theorem Silent.awaited (hs : s.Silent s') (ha : s'.history.Awaited n t) :
    s.history.Awaited n t := by
  obtain ⟨m, e, past, ha⟩ := ha
  obtain ⟨news, hnews, hfresh⟩ := hs.history
  exact ⟨m, e, past, suffix_of_append (hnews ▸ ha) fun h => hfresh _ h⟩

theorem awaited_log {ev : Event σ} (hev : ∀ n t e, ev ≠ .taken n t e)
    (ha : (s.log ev).history.Awaited n t) : s.history.Awaited n t := by
  obtain ⟨m, e, past, ha⟩ := ha
  refine ⟨m, e, past, suffix_of_cons ha fun heq => ?_⟩
  cases heq
  exact hev n t e rfl

namespace HeardBut

theorem mono (h : s.HeardBut none) (late : Option Ticket) : s.HeardBut late :=
  fun n t m o past ha hs hn => (h n t m o past ha hs hn).imp_right fun h =>
    .inl (h.resolve_right fun h => by cases h.1)

/-- The scripts are told nothing by others. -/
theorem silent (h : s.HeardBut late) (hi : s.Inv) (hs : s.Silent s') (hc : s'.clock = s.clock) :
    s'.HeardBut late := by
  intro n t m o past ha hsettled hn
  have ha := hs.awaited ha
  have hlt := awaited_lt hi ha
  obtain ⟨news, hnews, hfresh⟩ := hs.history
  have hsettled : (m, .settled t o) :: past <:+ s.history :=
    suffix_of_append (hnews ▸ hsettled) fun h => Nat.not_le.2 hlt (hfresh _ h)
  rcases h n t m o past ha hsettled hn with h | h | h
  · exact .inl (hs.dropped t h)
  · exact .inr (.inl (hnews ▸ List.mem_append_right _ h))
  · exact .inr (.inr (hc ▸ h))

theorem log (h : s.HeardBut late) {ev : Event σ} (hev : ∀ bound, Fresh bound ev) :
    (s.log ev).HeardBut late := by
  intro n t m o past ha hs hn
  have hs : (m, .settled t o) :: past <:+ s.history := by
    refine suffix_of_cons hs fun heq => ?_
    cases heq
    exact Nat.not_succ_le_self t (hev (t + 1))
  exact (h n t m o past ((Silent.log s (hev _)).awaited ha) hs hn).imp_right
    (.imp_left (List.mem_cons_of_mem _))

theorem of_eq (h : s.HeardBut none) (history : s'.history = s.history)
    (dropped : s'.dropped = s.dropped) : s'.HeardBut none := by
  intro n t m o past ha hs hn
  rw [history] at ha hs ⊢
  rw [dropped]
  exact (h n t m o past ha hs hn).imp_right (.imp_right fun h => by cases h.1)

/-- An outcome is sent that a script waits for. -/
theorem settle (h : s.HeardBut none) (t : Ticket) (o : Outcome) :
    (s.settle t o).HeardBut (some t) := by
  intro n u m o' past ha hs hn
  have ha : s.history.Awaited n u := by
    obtain ⟨m', e, past', ha⟩ := ha
    rw [settle_history] at ha
    exact ⟨m', e, past', suffix_of_cons ha (by simp)⟩
  rw [settle_history] at hs
  rcases List.suffix_cons_iff.1 hs with heq | hs
  · cases heq
    exact .inr (.inr ⟨rfl, rfl⟩)
  · rw [settle_dropped]
    rcases h n u m o' past ha hs hn with h | h | h
    · exact .inl h
    · exact .inr (.inl (List.mem_cons_of_mem _ h))
    · cases h.1

/-- An outcome is sent that no script waits for. -/
theorem settle_unawaited (h : s.HeardBut none) {t : Ticket} (ha : ∀ n, ¬ s.history.Awaited n t)
    (o : Outcome) : (s.settle t o).HeardBut none := by
  intro n u m o' past hu hs hn
  rcases h.settle t o n u m o' past hu hs hn with h | h | ⟨h, -⟩
  · exact .inl h
  · exact .inr (.inl h)
  · cases h
    obtain ⟨m', e, past', hu⟩ := hu
    rw [settle_history] at hu
    exact absurd ⟨m', e, past', suffix_of_cons hu (by simp)⟩ (ha n)

/-- The script goes on with the outcome that it was waiting for. -/
theorem resume (h : s.HeardBut (some t)) (hi : s.Inv) (ho : s.outcome? t = some o) :
    (s.log (.resumed t o)).HeardBut none := by
  have hlog : s.Silent (s.log (.resumed t o)) := Silent.log s trivial
  intro n u m o' past ha hs hn
  have hs : (m, .settled u o') :: past <:+ s.history := suffix_of_cons hs (by simp)
  rcases h n u m o' past (hlog.awaited ha) hs hn with h | h | ⟨h, hm⟩
  · exact .inl h
  · exact .inr (.inl (List.mem_cons_of_mem _ h))
  · cases h
    obtain ⟨m', hsent⟩ := hi.outcomes t o ho
    obtain ⟨-, rfl⟩ := hi.orderly.settled_unique hsent (hs.subset List.mem_cons_self)
    exact .inr (.inl (hm ▸ List.mem_cons_self))

/-- There is nothing to go on with where the outcome has been dropped. -/
theorem absent (h : s.HeardBut (some t)) (hd : s.Delivered) (ho : s.outcome? t = none) :
    s.HeardBut none := by
  intro n u m o' past ha hs hn
  rcases h n u m o' past ha hs hn with h | h | ⟨h, -⟩
  · exact .inl h
  · exact .inr (.inl h)
  · cases h
    cases hdropped : s.dropped t with
    | true => exact .inl rfl
    | false =>
        have := hd.readable m t o' (hs.subset List.mem_cons_self) hdropped
        rw [ho] at this
        cases this

end HeardBut

theorem Expecting.silent (h : s.Expecting wanted) (hs : s.Silent s')
    (hholder : s'.line.map holder = s.line.map holder) : s'.Expecting wanted := by
  rintro n t w ⟨inbox, hl⟩ ha
  rw [hl] at hholder
  obtain ⟨⟨n', inbox', current⟩, hl', heq⟩ := Option.map_eq_some_iff.1 hholder.symm
  obtain ⟨rfl, hcurrent⟩ := Prod.mk.injEq .. ▸ heq
  obtain ⟨⟨u, w'⟩, rfl, rfl⟩ : ∃ p, current = some p ∧ p.1 = t := by simpa using hcurrent
  exact h n' u w' ⟨inbox', hl'⟩ (hs.awaited ha)

theorem Free.expecting (hf : s.Free n) : s.Expecting wanted := fun _ _ _ hb => absurd hb hf.not_busy

/-- It is on its own line that an effect is waited for. -/
theorem Expecting.awaited (he : s.Expecting wanted) (hi : s.Inv) {w : Work σ} (hb : s.Busy n t w)
    {n' : Nat} (ha : s.history.Awaited n' t) : wanted = some t := by
  obtain ⟨inbox, hl⟩ := id hb
  obtain ⟨m, e, ht⟩ := ((hi.onLine _ hl).underway t w rfl).taken
  obtain ⟨m', e', ht'⟩ := awaited_taken ha
  obtain ⟨-, rfl, -⟩ := hi.orderly.taken_unique ht ht'
  exact he n t w hb ha

/-! ## The interpreter -/

/-- How the interpreter leaves the script of its line when it has been at work
on an effect. -/
def Progress.Attends (t : Ticket) (wanted : Option Ticket) : Progress ξ σ → Prop
  | .settled s => s.HeardBut none ∨ wanted = some t ∧ s.HeardBut (some t)
  | .waiting s => s.HeardBut none ∧ s.Expecting wanted
  | .crashed s => s.HeardBut none

theorem HeardBut.attends_settle (h : s.HeardBut none) (o : Outcome)
    (ha : ∀ n, s.history.Awaited n t → wanted = some t) :
    (Progress.settled (s.settle t o)).Attends t wanted := by
  by_cases hex : ∃ n, s.history.Awaited n t
  · obtain ⟨n, hn⟩ := hex
    exact .inr ⟨ha n hn, h.settle t o⟩
  · exact .inl (h.settle_unawaited (fun n hn => hex ⟨n, hn⟩) o)

theorem runSingle_attends {job : Job σ Answer} (h : s.HeardBut none)
    (hb : s.Busy n t (.single s.clock job)) (ha : ∀ n, s.history.Awaited n t → wanted = some t) :
    (s.runSingle t job).Attends t wanted := by
  obtain ⟨inbox, hl⟩ := hb
  unfold runSingle
  split
  · next a w _ =>
    have told : (s.log (.answered t 0 a)).HeardBut none := h.log fun _ => trivial
    have quiet : (({ s with world := w }.log (.answered t 0 a)).setCurrent none).HeardBut none :=
      told.of_eq rfl rfl
    exact quiet.attends_settle _ fun n hn => ha n (awaited_log (by simp) hn)
  · exact h.of_eq rfl rfl
  · next due next w _ =>
    refine ⟨h.of_eq rfl rfl, ?_⟩
    rintro n' t' w' ⟨inbox', hl'⟩ hn
    simp [setCurrent, addTimer, hl] at hl'
    obtain ⟨-, -, rfl, -⟩ := hl'
    exact ha n' hn

theorem runGroup_attends {e : Effect} {slots : List (Option Answer)} (h : s.HeardBut none)
    (hb : s.Busy n t (.group e slots)) (ha : ∀ n, s.history.Awaited n t → wanted = some t) :
    (s.runGroup t e slots).Attends t wanted := by
  obtain ⟨inbox, hl⟩ := hb
  unfold runGroup
  split
  · next r _ =>
    have quiet : (s.setCurrent none).HeardBut none := h.of_eq rfl rfl
    exact quiet.attends_settle _ ha
  · refine ⟨h.of_eq rfl rfl, ?_⟩
    rintro n' t' w' ⟨inbox', hl'⟩ hn
    simp [setCurrent, hl] at hl'
    obtain ⟨-, -, rfl, -⟩ := hl'
    exact ha n' hn

/-- An effect is taken right after a poll; the script waits for it if it did
then. -/
theorem take_attends {e : Effect} {inbox : List (Ticket × Effect)} (hi : s.Inv)
    (h : s.HeardBut none) (hx : s.Next n around t e inbox) {past : History σ}
    (hp : s.history = (s.clock, .polled n wanted) :: past) :
    (s.log (.taken n t e)).HeardBut none ∧
      ∀ n', (s.log (.taken n t e)).history.Awaited n' t → wanted = some t := by
  have older {n' u} (ha : (s.log (.taken n t e)).history.Awaited n' u) (hne : u ≠ t) :
      s.history.Awaited n' u := by
    obtain ⟨m, e', past', ha⟩ := ha
    exact ⟨m, e', past', suffix_of_cons ha (by simp [hne])⟩
  refine ⟨fun n' u m o past' ha hs hn => ?_, fun n' ha => ?_⟩
  · have hs : (m, .settled u o) :: past' <:+ s.history := suffix_of_cons hs (by simp)
    have hne : u ≠ t := fun hut =>
      hi.next_unsettled hx ⟨m, o, hut ▸ hs.subset List.mem_cons_self⟩
    exact (h n' u m o past' (older ha hne) hs hn).imp_right
      (.imp (List.mem_cons_of_mem _) fun h => by cases h.1)
  · obtain ⟨m, e', past', ha⟩ := ha
    rcases List.suffix_cons_iff.1 ha with heq | ha
    · obtain ⟨-, heq⟩ := List.cons.inj heq
      rw [hp] at heq
      cases heq
      rfl
    · exact absurd ((s.history.mem_takenOn).2 ⟨m, ha.subset List.mem_cons_self⟩)
        (hi.next_untaken hx n' e')

theorem startGroup_attends {e : Effect} {inbox : List (Ticket × Effect)} (hi : s.Inv)
    (h : s.HeardBut none) (hx : s.Next n around t e inbox) {past : History σ}
    (hp : s.history = (s.clock, .polled n wanted) :: past) :
    (startGroup around ({ s with line := some { number := n, inbox } }.log (.taken n t e)) t
      e).Attends t wanted := by
  obtain ⟨heard, awaited⟩ := take_attends hi h hx hp
  unfold startGroup
  split
  · exact HeardBut.attends_settle (heard.of_eq rfl rfl) _ awaited
  · next tasks _ =>
    rw [← runGroup_setCurrent _ _ _ _ (some (t, .group e (List.replicate tasks.length none)))]
    exact runGroup_attends (heard.of_eq rfl rfl) ⟨inbox, rfl⟩ awaited

theorem start_attends {e : Effect} {inbox : List (Ticket × Effect)} (hi : s.Inv)
    (h : s.HeardBut none) (hx : s.Next n around t e inbox) {past : History σ}
    (hp : s.history = (s.clock, .polled n wanted) :: past) :
    (start around ({ s with line := some { number := n, inbox } }.log (.taken n t e)) t
      e).Attends t wanted := by
  cases e with
  | sequence cs => exact startGroup_attends hi h hx hp
  | mapping cs => exact startGroup_attends hi h hx hp
  | single c =>
      obtain ⟨heard, awaited⟩ := take_attends hi h hx hp
      cases hr : around.resolve? c with
      | none =>
          simp only [start, hr]
          exact HeardBut.attends_settle (heard.of_eq rfl rfl) _ awaited
      | some job =>
          simp only [start, hr]
          rw [← runSingle_setCurrent _ _ _ (some (t, .single s.clock job))]
          have started : ((s.log (.taken n t (.single c))).log (.started t 0 c)).HeardBut none :=
            heard.log fun _ => trivial
          exact runSingle_attends (started.of_eq rfl rfl) ⟨inbox, rfl⟩ fun n' ha =>
            awaited n' (awaited_log (by simp) ha)

theorem proceed_attends (hi : s.Inv) (h : s.HeardBut none) (he : s.Expecting wanted) :
    s.proceed = .settled s ∨ ∃ t, s.proceed.Attends t wanted := by
  unfold proceed
  split
  · next n inbox t due job hl =>
    refine .inr ⟨t, ?_⟩
    split
    · next hdue =>
      obtain ⟨-, -, -, -, -, -, -, -, -, -, hle, -⟩ :=
        ((hi.onLine _ hl).underway t _ rfl).single_inv
      obtain rfl := Nat.le_antisymm hdue hle
      exact runSingle_attends h ⟨inbox, hl⟩ fun n' ha => he.awaited hi ⟨inbox, hl⟩ ha
    · exact ⟨h, he⟩
  · next n inbox t e slots hl =>
    exact .inr ⟨t, runGroup_attends h ⟨inbox, hl⟩ fun n' ha => he.awaited hi ⟨inbox, hl⟩ ha⟩
  · exact .inl rfl

/-- A script that is run at a moment at which its line is free. -/
structure Ready (s : Scheduler ξ σ) (n : Nat) (around : Surroundings σ) : Prop where
  inv : s.Inv
  delivered : s.Delivered
  free : s.Free n
  opened : s.history.Opened n around

theorem Ready.step (hr : s.Ready n around) (h : Step s s') (hf : s'.Free n) : s'.Ready n around :=
  ⟨h.inv hr.inv, h.delivered (h.inv hr.inv) hr.delivered, hf,
    Steps.opened (.single h) hr.opened⟩

theorem Ready.steps (hr : s.Ready n around) (h : Steps s s') (hf : s'.Free n) :
    s'.Ready n around :=
  ⟨h.inv hr.inv, h.delivered hr.inv hr.delivered, hf, h.opened hr.opened⟩

/-- How serving a line leaves its script. -/
def Progress.Serves (wanted : Option Ticket) : Progress ξ σ → Prop
  | .settled s => s.HeardBut wanted
  | .waiting s => s.HeardBut none ∧ s.Expecting wanted
  | .crashed s => s.HeardBut none

theorem serve_serves {steps : Nat} {past : History σ} (hr : s.Ready n around)
    (h : s.HeardBut none) (hp : s.history = (s.clock, .polled n wanted) :: past) :
    (serve around wanted steps s).Serves wanted := by
  induction steps generalizing s past with
  | zero => exact h.mono wanted
  | succ steps ih =>
      obtain ⟨inbox, hl⟩ := hr.free
      cases inbox with
      | nil =>
          rw [serve_empty hl]
          exact h.mono wanted
      | cons first inbox =>
          obtain ⟨t, e⟩ := first
          have hx : s.Next n around t e inbox := ⟨hl, ⟨wanted, past, hp⟩, hr.opened⟩
          have sound := start_sound hx
          have attends := start_attends hr.inv h hx hp
          rw [serve_next hl]
          split
          · next s' hstart =>
            rw [hstart] at sound attends
            have hr' := hr.steps sound.1 sound.2
            split
            · exact attends.elim (·.mono wanted) fun h => h.1 ▸ h.2
            · next absent =>
              -- An outcome that is wanted and has not arrived has been dropped.
              have heard : s'.HeardBut none := attends.elim id fun ⟨hw, h⟩ =>
                h.absent hr'.delivered (by simpa [arrived, hw] using absent)
              rw [hr'.free.notePoll]
              exact ih (hr'.step (.poll s' n wanted hr'.free) hr'.free) (heard.log fun _ => trivial)
                rfl
          · next hstart =>
            rw [hstart] at attends
            exact attends
          · next hstart =>
            rw [hstart] at attends
            exact attends

theorem serveLine_serves (hr : s.Ready n around) (h : s.HeardBut none) (wanted : Option Ticket) :
    (serveLine around wanted (s.notePoll wanted)).Serves wanted := by
  rw [hr.free.notePoll]
  exact serve_serves (hr.step (.poll s n wanted hr.free) hr.free) (h.log fun _ => trivial) rfl

/-! ## Scripts -/

def Standing.wanted? : Standing ξ σ ρ → Option Ticket
  | .before script => script.wanted?
  | .asleep _ _ => none

/-- How running a script leaves it. -/
def Interpreted.Attends : Interpreted ξ σ ρ → Prop
  | .finished _ s => s.HeardBut none
  | .blocked standing s => s.HeardBut none ∧ s.Expecting standing.wanted?
  | .crashed s => s.HeardBut none

/-- A script that sleeps while it is served waits for nothing. -/
theorem Progress.Serves.stand {r : Progress ξ σ} (hr : r.Serves none) (sound : r.Sound s n)
    (due : Nat) (next : Script ξ σ ρ) : (r.stand (.asleep due next)).Attends := by
  cases r with
  | settled => exact ⟨hr, sound.2.expecting⟩
  | waiting | crashed => exact hr

theorem runScript_attends (script : Script ξ σ ρ) (hr : s.Ready n around)
    (h : s.HeardBut script.wanted?) : (runScript around n script s).Attends := by
  have lt {s : Scheduler ξ σ} (hr : s.Ready n around) : n < s.nextLine := by
    obtain ⟨inbox, hl⟩ := hr.free
    exact hr.inv.line_lt hl
  induction script generalizing s with
  | done r => exact h
  | look next ih => exact ih _ _ _ hr (h.mono _)
  | write change next ih =>
      exact ih (hr.step (.touch s (change s.state) s.world s.woken) hr.free)
        ((h.of_eq rfl rfl).mono _)
  | note change next ih =>
      exact ih (hr.step (.touch s s.state (change s.world) s.woken) hr.free)
        ((h.of_eq rfl rfl).mono _)
  | spawn e next ih => exact ih (hr.step (.spawn s n e (lt hr)) hr.free) ((h.of_eq rfl rfl).mono _)
  | emit e next ih =>
      have heard : (s.emit n e).2.HeardBut none :=
        h.silent hr.inv (.emit s n e) (Beside.emit s n e).clock
      exact ih _ (hr.step (.emit s n e (lt hr)) (emit_free hr.free e)) (heard.mono _)
  | drop t next ih =>
      have heard : (s.drop t).HeardBut none := h.silent hr.inv (.drop s t) rfl
      exact ih (hr.step (.drop s t) hr.free) (heard.mono _)
  | sleep ms next ih =>
      by_cases hms : ms = 0
      · rw [runScript, if_pos hms]
        exact ih hr (h.mono _)
      · have step := Step.rest s (s.clock + ms) .main (by omega) rfl fun n h => by cases h
        have resting := hr.step step hr.free
        have sound := serveLine_sound resting.inv resting.free resting.opened none
        rw [runScript_sleep hms]
        exact (serveLine_serves resting (h.of_eq rfl rfl) none).stand sound _ _
  | await t next ih =>
      unfold runScript
      split
      · next o hout =>
        exact ih o (hr.step (.resume s t o hout) hr.free) ((h.resume hr.inv hout).mono _)
      · next hout =>
        have heard := HeardBut.absent h hr.delivered hout
        have sound := serveLine_sound hr.inv hr.free hr.opened (some t)
        have serves := serveLine_serves hr heard (some t)
        split
        · next hp =>
          rw [hp] at serves
          exact serves
        · next hp =>
          rw [hp] at serves
          exact serves
        · next s' hp =>
          rw [hp] at sound serves
          have hr' := hr.steps sound.1 sound.2
          split
          · next o hout' =>
            exact ih o (hr'.step (.resume s' t o hout') hr'.free)
              ((serves.resume hr'.inv hout').mono _)
          · next hout' => exact ⟨serves.absent hr'.delivered hout', sound.2.expecting⟩

theorem continueScript_attends (standing : Standing ξ σ ρ) (hr : s.Ready n around)
    (h : s.HeardBut standing.wanted?) : (continueScript around n standing s).Attends := by
  cases standing with
  | before script => exact runScript_attends script hr h
  | asleep due next =>
      by_cases hdue : due ≤ s.clock
      · rw [continueScript, if_pos hdue]
        exact runScript_attends next hr (h.mono _)
      · have sound := serveLine_sound hr.inv hr.free hr.opened none
        rw [continueScript_asleep hdue]
        exact (serveLine_serves hr h none).stand sound _ _

theorem continueLine_attends (standing : Standing ξ σ ρ) (hi : s.Inv) (hd : s.Delivered)
    {l : Line σ} (hl : s.line = some l) (ho : s.history.Opened l.number around)
    (fresh : ∀ n t e slots, s.Busy n t (.group e slots) →
      FanIn.outcome? slots = none ∨ s.Quiet)
    (h : s.HeardBut none) (he : s.Expecting standing.wanted?) :
    (continueLine around l.number standing s).Attends := by
  have sound := proceed_sound hi hl fresh
  have attends := proceed_attends hi h he
  unfold continueLine
  split
  · next s' hp =>
    rw [hp] at sound attends
    have hr : s'.Ready l.number around :=
      ⟨sound.1.inv hi, sound.1.delivered hi hd, sound.2, sound.1.opened ho⟩
    refine continueScript_attends standing hr ?_
    rcases attends with heq | ⟨t, heard | ⟨hw, heard⟩⟩
    · cases heq
      exact h.mono _
    · exact heard.mono _
    · exact hw ▸ heard
  · next hp =>
    rw [hp] at attends
    obtain ⟨t, attends⟩ := attends.resolve_left (by simp)
    exact attends
  · next hp =>
    rw [hp] at attends
    obtain ⟨t, attends⟩ := attends.resolve_left (by simp)
    exact attends

/-! ## Routines and rounds -/

/-- The outcome that the script waits for which the main routine has
interpreted. -/
def Main.wanted? : Main ξ σ ρ α → Option Ticket
  | .within _ _ standing _ => standing.wanted?
  | _ => none

theorem expecting_of_line_none (hl : s.line = none) : s.Expecting wanted := by
  rintro n t w ⟨inbox, h⟩
  rw [hl] at h
  cases h

/-- When the line is closed there is nobody to go on. -/
theorem HeardBut.closeLine (h : s.HeardBut none) (hi : s.Inv) (finished : Bool) :
    (s.closeLine finished).HeardBut none := by
  cases hl : s.line with
  | none => simpa [Scheduler.closeLine, hl] using h
  | some l =>
      have hhistory : (s.closeLine finished).history =
          (l.pending.map fun t => (s.clock, .settled t (.error .detached))).reverse ++
            (s.clock, .ended l.number finished) :: s.history := by
        simp only [Scheduler.closeLine, hl, settleAll_history]
        rfl
      have hdropped : (s.closeLine finished).dropped = s.dropped := by
        simp only [Scheduler.closeLine, hl, settleAll_dropped]
        rfl
      intro n t m o past ha hs hn
      rw [hhistory] at ha hs ⊢
      rw [hdropped]
      have ha : s.history.Awaited n t := by
        obtain ⟨m', e, past', ha⟩ := ha
        exact ⟨m', e, past', suffix_of_cons (suffix_of_append ha (by simp)) (by simp)⟩
      rcases suffix_append_cases hs with ⟨hmem, hpast⟩ | hs
      · -- It is detached after the end of the line.
        obtain ⟨-, ht⟩ : m = s.clock ∧ t ∈ l.pending := by
          simp only [List.mem_reverse, List.mem_map, Prod.mk.injEq, Event.settled.injEq] at hmem
          grind
        obtain ⟨m', e, taken⟩ := awaited_taken ha
        obtain ⟨m₁, he₁⟩ := hi.orderly.emitted_of_taken taken
        obtain ⟨m₂, e', he₂⟩ := hi.pending_emitted hl ht
        obtain ⟨-, hnumber, -⟩ := hi.orderly.emitted_unique he₁ he₂
        exact absurd ⟨s.clock, finished, hpast.subset (hnumber ▸ List.mem_cons_self)⟩ hn
      · have hs := suffix_of_cons hs (by simp)
        exact (h n t m o past ha hs hn).imp_right
          (.imp (fun h => List.mem_append_right _ (List.mem_cons_of_mem _ h)) fun h => by cases h.1)

/-- How the turn of the main routine leaves the script. -/
def Turn.Attends : Turn ξ σ ρ α → Prop
  | .finished _ s | .crashed s => s.HeardBut none
  | .blocked main s => s.HeardBut none ∧ s.Expecting main.wanted?

theorem Interpreted.Attends.turn {r : Interpreted ξ σ ρ}
    {next : Except Failure ρ → Routine ξ σ ρ α} (ha : r.Attends) (hr : r.Sound s n) (hi : s.Inv)
    (hp : 0 < s.nextLine)
    (ih : ∀ o {s : Scheduler ξ σ}, s.Inv → s.Delivered → 0 < s.nextLine → s.line = none →
      s.HeardBut none → (runRoutine (next o) s).Attends) (hd : s.Delivered) :
    (r.turn around n next fun o => runRoutine (next o)).Attends := by
  cases r with
  | finished o s' =>
      have steps : Steps s (s'.closeLine true) := hr.1.tail (.finish s' n hr.2)
      exact ih o (steps.inv hi) (steps.delivered hi hd) (Nat.lt_of_lt_of_le hp steps.nextLine_le)
        (closeLine_line s' true) (HeardBut.closeLine ha (hr.1.inv hi) true)
  | blocked standing s' => exact ha
  | crashed s' => exact HeardBut.closeLine ha (hr.1.inv hi) false

theorem runRoutine_attends (p : Routine ξ σ ρ α) (hi : s.Inv) (hd : s.Delivered)
    (hp : 0 < s.nextLine) (hl : s.line = none) (h : s.HeardBut none) :
    (runRoutine p s).Attends := by
  induction p generalizing s with
  | done a => exact h
  | crash => exact h
  | look next ih => exact ih _ _ _ hi hd hp hl h
  | write change next ih =>
      have step := Step.touch s (change s.state) s.world s.woken
      exact ih (step.inv hi) (step.delivered (step.inv hi) hd) hp hl (h.of_eq rfl rfl)
  | note change next ih =>
      have step := Step.touch s s.state (change s.world) s.woken
      exact ih (step.inv hi) (step.delivered (step.inv hi) hd) hp hl (h.of_eq rfl rfl)
  | sleep ms next ih =>
      unfold runRoutine
      split
      · exact ih hi hd hp hl h
      · exact ⟨h.of_eq rfl rfl, expecting_of_line_none hl⟩
  | interpret around script next ih =>
      have step := Step.interpret s around hl
      have opened : (s.openLine around).Ready s.nextLine around :=
        ⟨step.inv hi, step.delivered (step.inv hi) hd, ⟨[], rfl⟩, s.clock, List.mem_cons_self⟩
      have logged : (s.log (.opened s.nextLine around)).HeardBut none := h.log fun _ => trivial
      have heard : (s.openLine around).HeardBut none := logged.of_eq rfl rfl
      unfold runRoutine
      exact (runScript_attends script opened (heard.mono _)).turn
        (runScript_sound script opened.inv opened.free opened.opened) opened.inv (Nat.succ_pos _) ih
        opened.delivered
  | emit e next ih =>
      have step := Step.emit s (s.nextLine - 1) e (by omega)
      have closed := s.emit_line_of_none e hl (s.nextLine - 1)
      exact ih _ (step.inv hi) (step.delivered (step.inv hi) hd) (by simpa using hp) closed
        (h.silent hi (.emit s _ e) (Beside.emit s _ e).clock)
  | peek t next ih =>
      unfold runRoutine
      split
      · next o ho =>
        have step := Step.resume s t o ho
        exact ih _ (step.inv hi) (step.delivered (step.inv hi) hd) hp hl (h.log fun _ => trivial)
      · exact ih _ hi hd hp hl h

theorem turn_attends {main : Main ξ σ ρ α} (hi : s.Inv) (hd : s.Delivered) (hp : 0 < s.nextLine)
    (hm : main.Matches s) (fresh : ∀ n t e slots, s.Busy n t (.group e slots) →
      FanIn.outcome? slots = none ∨ s.Quiet) (h : s.HeardBut none) (he : s.Expecting main.wanted?) :
    (turn main s).Attends := by
  unfold turn
  split
  · exact runRoutine_attends _ hi hd hp hm h
  · split
    · exact runRoutine_attends _ hi hd hp hm h
    · exact ⟨h, expecting_of_line_none hm⟩
  · next around n standing next =>
    obtain ⟨⟨l, hl, rfl⟩, ho⟩ := hm
    exact (continueLine_attends standing hi hd hl ho fresh h he).turn
      (continueLine_sound standing hi hl ho fresh) hi hp
      (fun o _ hi hd hp hl h => runRoutine_attends (next o) hi hd hp hl h) hd

/-- Between two rounds the scripts have gone on with all that they were waiting
for. -/
structure Attentive (main : Main ξ σ ρ α) (s : Scheduler ξ σ) : Prop where
  poised : Poised main s
  delivered : s.Delivered
  heard : s.HeardBut none
  expecting : s.Expecting main.wanted?

/-- How a round leaves the script. -/
def Round.Attends : Round ξ σ ρ α → Prop
  | .done r => r.scheduler.HeardBut none
  | .next main s => s.HeardBut none ∧ s.Expecting main.wanted?

theorem settleRound_attends {main : Main ξ σ ρ α} (hi : s.Inv) (h : s.HeardBut none)
    (he : s.Expecting main.wanted?) : (settleRound main s).Attends := by
  obtain ⟨-, beside⟩ := drain_steps hi
  have silent : s.Silent s.drain :=
    ⟨beside.silent.dropped, beside.silent.nextTicket, beside.silent.history⟩
  have heard : s.drain.HeardBut none := h.silent hi silent beside.clock
  have expecting : s.drain.Expecting main.wanted? := he.silent silent beside.holder
  unfold settleRound endRound
  split
  · exact ⟨heard, expecting⟩
  · split
    · next s' ha =>
      obtain ⟨due, who, rest, -, rfl⟩ := advance_eq ha
      exact ⟨heard.of_eq rfl rfl, expecting⟩
    · exact heard

theorem round_attends {main : Main ξ σ ρ α} (hs : Attentive main s) : (round main s).Attends := by
  unfold round
  split
  · have step : Steps s { s with woken := false } := .single (.touch s s.state s.world false)
    have hi := step.inv hs.poised.inv
    have hm := hs.poised.main.mono step rfl
    have sound := turn_sound hi hs.poised.positive hm hs.poised.fresh
    have turns := turn_attends hi (step.delivered hs.poised.inv hs.delivered) hs.poised.positive hm
      hs.poised.fresh (hs.heard.of_eq rfl rfl) hs.expecting
    split
    · next hr =>
      rw [hr] at turns
      exact turns
    · next hr =>
      rw [hr] at turns
      exact turns
    · next hr =>
      rw [hr] at sound turns
      exact settleRound_attends (sound.1.inv hi) turns.1 turns.2
  · exact settleRound_attends hs.poised.inv hs.heard hs.expecting

theorem rounds_heard (k : Nat) {main : Main ξ σ ρ α} (hs : Attentive main s) :
    (rounds k main s).scheduler.HeardBut none := by
  induction k generalizing main s with
  | zero => exact hs.heard
  | succ k ih =>
      have attends := round_attends hs
      have sound := round_sound hs.poised
      unfold rounds
      split
      · next hround =>
        rw [hround] at attends
        exact attends
      · next hround =>
        rw [hround] at sound attends
        exact ih ⟨sound.2, sound.1.delivered hs.poised.inv hs.delivered, attends.1, attends.2⟩

theorem Reachable.heard (h : Reachable s) : s.HeardBut none := by
  induction h with
  | fresh x w =>
      rintro n t m o past ⟨m', e, past', ha⟩
      exact absurd (ha.subset List.mem_cons_self) (by simp)
  | touch s x w _ ih => exact ih.of_eq rfl rfl
  | finished s s' p k _ h hr ih | crashed s s' p k h hr ih =>
      have := rounds_heard k ⟨h.poised p, h.runFor_delivered p 0, ih.of_eq rfl rfl,
        expecting_of_line_none h.rests.2.2⟩
      rwa [show rounds k _ _ = _ from hr] at this

/-- However far a run has come, the scripts have gone on with all that they
were waiting for. -/
theorem Reachable.runFor_heard (h : Reachable s) (p : Routine ξ σ ρ α) (k : Nat) :
    (runFor p s k).scheduler.HeardBut none :=
  rounds_heard k ⟨h.poised p, h.runFor_delivered p 0, h.heard.of_eq rfl rfl,
    expecting_of_line_none h.rests.2.2⟩

end Scheduler

end Switchboard
