import Switchboard.Proofs.Asleep
import Switchboard.Proofs.Turns

/-!
# Switchboard.Proofs.Pace

The rounds of a run that goes on among others.  Strangers may need rounds of
their own, and the clock may stop for them; meanwhile the run by itself waits,
and nothing becomes different for it.  So both come to the same end, though not
in the same number of rounds, and what is left then are strangers to whoever
comes next.

* `Among.next` — what the tasks and the clock do between two turns;
* `Abreast.forward`, `Abreast.backward` — one of two runs comes to an end just
  when the other does;
* `Vacant` — what is left when a run is over.
-/

namespace Switchboard.Scheduler

variable {ξ σ ρ α : Type} {C : Effect → Prop} {d k : Nat} {P P' : Pairs} {A : List Nat}
  {a a' a₁ s s' s₁ s'' : Scheduler ξ σ}

/-! ## Between two turns -/

/-- What the tasks and the clock make of the scheduler, unless it is stuck. -/
def next? (s : Scheduler ξ σ) : Option (Scheduler ξ σ) :=
  if s.drain.woken || !s.drain.ready.isEmpty then some s.drain else s.drain.advance?

theorem settleRound_eq (main : Main ξ σ ρ α) (s : Scheduler ξ σ) : settleRound main s =
    match s.next? with
    | some s' => .next main s'
    | none => .done (.stuck s.drain) := by
  unfold settleRound endRound next?
  split
  · rfl
  · cases s.drain.advance? <;> rfl

theorem drain_of_idle (hr : s.ready = []) : s.drain = s := by
  simp [drain, hr, runReady]

theorem next?_of_idle (hr : s.ready = []) (hw : s.woken = false) : s.next? = s.advance? := by
  simp [next?, drain_of_idle hr, hr, hw]

theorem not_woken_of_next? (hs : s.next? = some s') (hw : s'.woken = false) : s.woken = false := by
  refine Bool.eq_false_iff.2 fun woken => ?_
  have woken := (Meanwhile.drain s).woken woken
  rw [next?, woken] at hs
  cases hs
  rw [woken] at hw
  cases hw

theorem advance?_cons {due : Nat} {who : Sleeper σ} {rest : List (Nat × Sleeper σ)}
    (ht : s.timers = (due, who) :: rest) (later : s.clock ≤ due) :
    s.advance? = some { s with clock := due }.wakeDue := by
  unfold advance?
  split
  · next hn => rw [hn] at ht; cases ht
  · next hd =>
    cases hd.symm.trans ht
    rw [Nat.max_eq_right later]

/-- Where the clock stands does not matter before the first timer goes off. -/
theorem advance?_early {c : Nat} (hc : s.clock ≤ c) (early : ∀ p ∈ s.timers.head?, c < p.1) :
    { s with clock := c }.advance? = s.advance? := by
  unfold advance?
  dsimp only
  cases ht : s.timers with
  | nil => rfl
  | cons p rest =>
      have hp : c < p.1 := early p (by rw [ht]; rfl)
      dsimp only
      rw [Nat.max_eq_right (Nat.le_of_lt hp), Nat.max_eq_right (by omega)]

/-- Nobody is woken before the first timer goes off. -/
theorem wakeDue_early {c : Nat} (early : ∀ p ∈ s.timers.head?, c < p.1) :
    { s with clock := c }.wakeDue = { s with clock := c } := by
  have awaits : (s.timers.takeWhile fun t => t.1 ≤ c) = [] ∧
      (s.timers.dropWhile fun t => t.1 ≤ c) = s.timers := by
    cases ht : s.timers with
    | nil => exact ⟨rfl, rfl⟩
    | cons p rest =>
        have hp : ¬ p.1 ≤ c := Nat.not_le.2 (early p (by rw [ht]; rfl))
        exact ⟨List.takeWhile_cons_of_neg (by simpa using hp),
          List.dropWhile_cons_of_neg (by simpa using hp)⟩
  simp [wakeDue, awaits.1, awaits.2]

namespace Among

/-- The clock is moved on, and whatever is due is woken. -/
theorem wakeDue (h : Among C d k P A a s) (c : Nat) :
    Among C d k P A { a with clock := c }.wakeDue { s with clock := c + d }.wakeDue := by
  have agree (p p' : Nat × Sleeper σ) (hp : p'.1 = p.1 + d ∧ p.2.Alike C k P p'.2) :
      decide (p.1 ≤ c) = decide (p'.1 ≤ c + d) := by
    rw [hp.1]
    exact decide_eq_decide.2 (Nat.add_le_add_iff_right).symm
  obtain ⟨due, later⟩ := h.timers.cut agree <| h.sorted.imp fun le =>
    decide_eq_true ∘ Nat.le_trans le ∘ of_decide_eq_true
  have remain : (s.timers.dropWhile fun t => t.1 ≤ c + d).Sublist s.timers :=
    List.dropWhile_sublist _
  exact { h with
    clock := rfl
    timers := later
    ready := h.ready.append <| due.filterMap
      (fun p p' hp => by
        obtain ⟨m, w⟩ := p
        obtain ⟨m', w'⟩ := p'
        cases hp.2 with
        | main => exact .none
        | task ht => exact .some ht)
      fun p ⟨t, eq, ht⟩ t' ht' => by
        rw [eq] at ht'
        cases ht'
        exact ht
    woken := by
      refine congrArg₂ (· || ·) h.woken (due.any (fun p p' hp => ?_) fun p ⟨t, eq, _⟩ => ?_).symm
      · obtain ⟨m, w⟩ := p
        obtain ⟨m', w'⟩ := p'
        cases hp.2 <;> rfl
      · rw [eq]
        rfl
    sorted := h.sorted.sublist remain
    ahead := fun p hp => lt_of_mem_dropWhile h.sorted hp
    alarms := fun due hdue => h.alarms due (remain.subset hdue) }

/-- The clock moves.  If it stops for a stranger, then the run by itself waits
until there. -/
theorem advance (h : Among C d k P A a s) (hr : a.ready = []) (hw : a.woken = false) :
    (a.advance? = none ∧ s.advance? = none) ∨
    (∃ a' s', a.advance? = some a' ∧ s.advance? = some s' ∧ Among C d k P A a' s') ∨
    ∃ a' s', a'.next? = a.advance? ∧ s.advance? = some s' ∧ s'.woken = false ∧
      Among C d k P A a' s' := by
  cases hs : s.timers with
  | nil =>
      have ha : a.timers = [] := (hs ▸ h.timers).eq_nil
      exact .inl ⟨by rw [advance?, ha], by rw [advance?, hs]⟩
  | cons first rest =>
      obtain ⟨due', who'⟩ := first
      have clock := h.clock
      have ahead : s.clock < due' := h.ahead _ (hs ▸ List.mem_cons_self)
      obtain ⟨c, rfl⟩ : ∃ c, due' = c + d := ⟨due' - d, by omega⟩
      have hs' := advance?_cons hs (Nat.le_of_lt ahead)
      have moved := h.wakeDue c
      have notBefore (p : Nat × Sleeper σ) (hp : p ∈ a.timers) : c ≤ p.1 := by
        obtain ⟨p', hp', eq, -⟩ := h.timers.exists_right hp
        have sorted := h.sorted
        rw [hs] at sorted hp'
        rcases List.mem_cons.1 hp' with rfl | hp'
        · dsimp only at eq
          omega
        · have := List.rel_of_pairwise_cons sorted hp'
          dsimp only at this
          omega
      by_cases early : ∀ p ∈ a.timers.head?, c < p.1
      · rw [wakeDue_early early] at moved
        refine .inr (.inr ⟨_, _, ?_, hs', moved.woken.trans hw, moved⟩)
        rw [next?_of_idle (s := { a with clock := c }) hr hw]
        exact advance?_early (by omega) early
      · obtain ⟨p, hp, le⟩ : ∃ p ∈ a.timers.head?, p.1 ≤ c := by simpa using early
        obtain ⟨rest', ha⟩ : ∃ rest', a.timers = p :: rest' := by
          cases ha : a.timers with
          | nil => rw [ha] at hp; cases hp
          | cons p' rest' => rw [ha] at hp; cases hp; exact ⟨rest', rfl⟩
        obtain rfl := Nat.le_antisymm le (notBefore p (ha ▸ List.mem_cons_self))
        exact .inr (.inl ⟨_, _, advance?_cons ha (by omega), hs', moved⟩)

/-- Between two turns both go on, or the run by itself waits; and if it is stuck
the other one has nothing to wait for but strangers. -/
theorem next (h : Among C d k P A a s) :
    (a.next? = none ∧ s.next? = none) ∨
    (∃ P' a' s', P ⊆ P' ∧ a.next? = some a' ∧ s.next? = some s' ∧ Among C d k P' A a' s') ∨
    ∃ P' a' s', P ⊆ P' ∧ a'.next? = a.next? ∧ s.next? = some s' ∧ s'.woken = false ∧
      Among C d k P' A a' s' := by
  obtain ⟨P', hP, h⟩ := h.drain
  by_cases awake : a.drain.woken || !a.drain.ready.isEmpty
  · have awake' : s.drain.woken || !s.drain.ready.isEmpty := by
      rw [h.woken]
      cases hr : s.drain.ready with
      | nil =>
          have hr' : a.drain.ready = [] := (hr ▸ h.ready).eq_nil
          simpa [hr'] using awake
      | cons t ts => simp
    exact .inr (.inl ⟨P', _, _, hP, if_pos awake, if_pos awake', h⟩)
  · obtain ⟨hw, hr⟩ : a.drain.woken = false ∧ a.drain.ready = [] := by simpa using awake
    have own : a.next? = a.drain.advance? := if_neg awake
    have hw' : s.drain.woken = false := h.woken.trans hw
    by_cases hr' : s.drain.ready = []
    · have other : s.next? = s.drain.advance? := if_neg (by simp [hw', hr'])
      rw [own, other]
      rcases h.advance hr hw with h | ⟨a', s', ha, hs, h⟩ | ⟨a', s', ha, hs, hw', h⟩
      · exact .inl h
      · exact .inr (.inl ⟨P', a', s', hP, ha, hs, h⟩)
      · exact .inr (.inr ⟨P', a', s', hP, ha, hs, hw', h⟩)
    · have other : s.next? = some s.drain := if_pos (by simp [hr'])
      exact .inr (.inr ⟨P', _, _, hP, (next?_of_idle hr hw).trans own.symm, other, hw', h⟩)

end Among

/-! ## What a run leaves behind -/

/-- A scheduler without a run.  Whatever is in it is strange to the next one. -/
structure Vacant (C : Effect → Prop) (s : Scheduler ξ σ) : Prop where
  inv : s.Inv
  positive : 0 < s.nextLine
  line : s.line = none
  unused : s.Unused
  ready : ∀ t ∈ s.ready, t.Strange C (s.nextLine - 1) (· < s.nextTicket)
  timers : ∀ p ∈ s.timers, ∃ t, p.2 = .task t ∧ t.Strange C (s.nextLine - 1) (· < s.nextTicket)
  parked : ∀ w ∈ s.parked, w.task.Strange C (s.nextLine - 1) (· < s.nextTicket)

theorem vacant_fresh (x : ξ) (w : World σ) : Vacant C { state := x, world := w } where
  inv := fresh_inv x w
  positive := Nat.one_pos
  line := rfl
  unused := fun _ _ => ⟨rfl, rfl⟩
  ready := nofun
  timers := nofun
  parked := nofun

/-- A run that begins now stands beside whatever is there as if it were alone. -/
theorem Vacant.among (h : Vacant C s) (w : World σ) :
    Among C s.clock (s.nextLine - 1) [] []
      { state := s.state, world := w, woken := s.woken } s := by
  have foreign (t : Ticket) (ht : t < s.nextTicket) : Foreign [] s.nextTicket t := ⟨ht, nofun⟩
  exact {
    clock := (Nat.zero_add _).symm
    state := rfl
    woken := rfl
    firstLine := Nat.one_pos
    nextLine := by
      have := h.positive
      show s.nextLine = 1 + (s.nextLine - 1)
      omega
    line := by rw [h.line]; exact .none
    paired := nofun
    issued := nofun
    unused := ⟨fun _ _ => ⟨rfl, rfl⟩, h.unused⟩
    outcome := nofun
    dropped := nofun
    ready := .of_strange fun t ht => (h.ready t ht).mono (Nat.le_refl _) foreign
    timers := .of_strange fun p hp => by
      obtain ⟨t, eq, ht⟩ := h.timers p hp
      exact ⟨t, eq, ht.mono (Nat.le_refl _) foreign⟩
    parked := .of_strange fun w hw => (h.parked w hw).mono (Nat.le_refl _) foreign
    sorted := h.inv.sorted
    ahead := h.inv.ahead
    alarms := fun due hdue => by
      obtain ⟨t, eq, -⟩ := h.timers _ hdue
      cases eq }

theorem Vacant.touch (h : Vacant C s) (x : ξ) (w : World σ) (woken : Bool) :
    Vacant C { s with state := x, world := w, woken } :=
  { h with inv := h.inv.touch x w woken }

/-- Once a run is over, what it has left is as strange as the rest. -/
theorem Among.vacant (h : Among C d k P [] a s) (inv : s.Inv) (line : s.line = none) :
    Vacant C s := by
  have bound : k ≤ s.nextLine - 1 := by
    have := h.firstLine
    have := h.nextLine
    omega
  have handle (n : Nat) (hn : n ∈ s.handles) : n ≤ s.nextLine - 1 :=
    Nat.le_pred_of_lt (inv.handles n hn)
  have own (p : Ticket × Ticket) (hp : p ∈ P) : p.2 < s.nextTicket := (h.issued p hp).2
  have foreign (t : Ticket) (ht : Foreign P s.nextTicket t) : t < s.nextTicket := ht.1
  exact {
    inv
    line
    positive := by
      have := h.firstLine
      have := h.nextLine
      omega
    unused := h.unused.2
    ready := fun t ht => by
      rcases h.ready.mem_right ht with strange | ⟨t₀, -, alike⟩
      · exact strange.mono bound foreign
      · exact alike.strange own fun n hn => handle n <| by
          simp only [handles, List.mem_append, List.mem_filterMap]
          exact .inl (.inl ⟨t, ht, hn⟩)
    timers := fun p hp => by
      rcases h.timers.mem_right hp with ⟨t, eq, strange⟩ | ⟨⟨_, _⟩, -, -, alike⟩
      · exact ⟨t, eq, strange.mono bound foreign⟩
      · obtain ⟨due, who⟩ := p
        cases alike with
        | main =>
            -- A timer of the main routine would have to be for somebody who sleeps.
            rcases h.alarms due hp with hm | ⟨l, _, _, hl, _⟩
            · cases hm
            · rw [line] at hl
              cases hl
        | @task _ t alike =>
            refine ⟨t, rfl, alike.strange own fun n hn => handle n ?_⟩
            simp only [handles, List.mem_append, List.mem_filterMap]
            exact .inl (.inr ⟨_, hp, hn⟩)
    parked := fun w hw => by
      rcases h.parked.mem_right hw with strange | ⟨w₀, -, alike⟩
      · exact strange.mono bound foreign
      · refine alike.strange own fun n hn => handle n ?_
        cases hn
        exact List.mem_append_right _ (List.mem_map.2 ⟨w, hw, rfl⟩) }

/-- Time passes while there is no run. -/
theorem Vacant.next (h : Vacant C s) (hs : s.next? = some s') : Vacant C s' := by
  let idle : Main ξ σ Unit Unit := .before .crash
  have sound : (settleRound idle s).Sound s :=
    settleRound_sound h.inv h.positive h.line fun _ => waiting_of_line_none h.line
  rw [settleRound_eq, hs] at sound
  rcases (h.among s.world).next with ⟨-, none⟩ | ⟨P, a, s₁, -, -, hs₁, among⟩ |
    ⟨P, a, s₁, -, -, hs₁, -, among⟩
  · rw [none] at hs
    cases hs
  all_goals
    cases hs₁.symm.trans hs
    exact among.vacant sound.2.inv sound.2.main

/-! ## Rounds on both sides -/

/-- A run that is over, with a result or without one. -/
def Result.over : Option α → Scheduler ξ σ → Result ξ σ α
  | some x, s => .finished x s
  | none, s => .crashed s

/-- A turn comes to an end, in the same round or in a later one. -/
def Turn.Yields (t : Turn ξ σ ρ α) (o : Option α) (s : Scheduler ξ σ) : Prop :=
  ∃ j, t.complete j = .over o s

namespace Turn

variable {main : Main ξ σ ρ α} {o : Option α}

theorem yields_next (hs : s.next? = some s') :
    (blocked main s).Yields o s'' ↔ (opening main s').Yields o s'' := by
  have first : settleRound main s = .next main s' := by rw [settleRound_eq, hs]
  constructor
  · rintro ⟨j, hj⟩
    simp only [complete, first] at hj
    cases j with
    | zero => cases o <;> cases hj
    | succ j => exact ⟨j, rounds_succ j main s' ▸ hj⟩
  · rintro ⟨j, hj⟩
    refine ⟨j + 1, ?_⟩
    simpa only [complete, first, rounds_succ] using hj

theorem not_yields_stuck (hs : s.next? = none) : ¬ (blocked main s).Yields o s'' := by
  have stuck : settleRound main s = .done (.stuck s.drain) := by rw [settleRound_eq, hs]
  rintro ⟨j, hj⟩
  simp only [complete, stuck] at hj
  cases o <;> cases hj

/-- Where a turn that is blocked leads depends on what happens next only. -/
theorem yields_congr (hs : s.next? = s'.next?) :
    (blocked main s).Yields o s'' ↔ (blocked main s').Yields o s'' := by
  cases hn : s'.next? with
  | none => exact iff_of_false (not_yields_stuck (hs.trans hn)) (not_yields_stuck hn)
  | some s₁ => rw [yields_next (hs.trans hn), yields_next hn]

/-- The induction along a turn that comes to an end. -/
theorem Yields.rec_on {motive : Turn ξ σ ρ α → Prop} {t : Turn ξ σ ρ α} (h : t.Yields o s'')
    (finished : ∀ x, o = some x → motive (.finished x s''))
    (crashed : o = none → motive (.crashed s''))
    (blocked : ∀ main s s', s.next? = some s' → motive (opening main s') →
      motive (.blocked main s)) : motive t := by
  obtain ⟨j, hj⟩ := h
  induction j using Nat.strongRecOn generalizing t with
  | _ j ih =>
    cases t with
    | finished x s =>
        cases o with
        | none => cases hj
        | some y => cases hj; exact finished x rfl
    | crashed s =>
        cases o with
        | none => cases hj; exact crashed rfl
        | some y => cases hj
    | blocked main s =>
        cases hs : s.next? with
        | none => exact absurd ⟨j, hj⟩ (not_yields_stuck hs)
        | some s' =>
            have first : settleRound main s = .next main s' := by rw [settleRound_eq, hs]
            simp only [complete, first] at hj
            cases j with
            | zero => cases o <;> cases hj
            | succ j =>
                rw [rounds_succ] at hj
                exact blocked main s s' hs (ih j (Nat.lt_succ_self j) hj)

theorem yields_finished {x : α} :
    (finished x s : Turn ξ σ ρ α).Yields o s' ↔ o = some x ∧ s' = s := by
  constructor
  · rintro ⟨j, hj⟩
    cases o with
    | none => cases hj
    | some y => cases hj; exact ⟨rfl, rfl⟩
  · rintro ⟨rfl, rfl⟩
    exact ⟨0, rfl⟩

theorem yields_crashed : (crashed s : Turn ξ σ ρ α).Yields o s' ↔ o = none ∧ s' = s := by
  constructor
  · rintro ⟨j, hj⟩
    cases o with
    | none => cases hj; exact ⟨rfl, rfl⟩
    | some y => cases hj
  · rintro ⟨rfl, rfl⟩
    exact ⟨0, rfl⟩

/-- A turn comes to one end only. -/
theorem Yields.unique {o' : Option α} {t : Turn ξ σ ρ α} (h : t.Yields o s')
    (h' : t.Yields o' s'') :
    o = o' ∧ s' = s'' := by
  refine h.rec_on (motive := fun t => t.Yields o' s'' → o = o' ∧ s' = s'') ?_ ?_ ?_ h'
  · rintro x rfl h'
    obtain ⟨rfl, rfl⟩ := yields_finished.1 h'
    exact ⟨rfl, rfl⟩
  · rintro rfl h'
    obtain ⟨rfl, rfl⟩ := yields_crashed.1 h'
    exact ⟨rfl, rfl⟩
  · intro main s s₁ hs ih h'
    exact ih ((yields_next hs).1 h')

end Turn

theorem opening_of_not_woken (main : Main ξ σ ρ α) (hw : s.woken = false) :
    opening main s = .blocked main s := by
  unfold opening
  rw [hw]
  rfl

theorem opening_sound {main : Main ξ σ ρ α} (hs : Poised main s) :
    (opening main s).Sound s := by
  unfold opening
  split
  · have step : Steps s { s with woken := false } := .single (.touch s s.state s.world false)
    exact (turn_sound (step.inv hs.inv) hs.positive (hs.main.mono step rfl) hs.fresh).after step
  · next hw => exact ⟨.refl, hs.main, hs.waiting (by simpa using hw)⟩

/-- Two turns of one run, by itself and among others. -/
structure Abreast (C : Effect → Prop) (d k : Nat) (t t' : Turn ξ σ ρ α) : Prop where
  alike : t.Alike C d k t'
  /-- The other run came to where it is in a sequence of steps. -/
  sound : ∃ s : Scheduler ξ σ, s.Inv ∧ 0 < s.nextLine ∧ t'.Sound s

/-- What may happen between two turns. -/
inductive Abreast.Next (C : Effect → Prop) (d k : Nat) (main main' : Main ξ σ ρ α)
    (a s : Scheduler ξ σ) : Prop
  | stuck (ha : a.next? = none) (hs : s.next? = none)
  | both {a' s' : Scheduler ξ σ} (ha : a.next? = some a') (hs : s.next? = some s')
      (h : Abreast C d k (opening main a') (opening main' s'))
  /-- The other run goes on, for strangers only. -/
  | other {a' s' : Scheduler ξ σ} (ha : a'.next? = a.next?) (hs : s.next? = some s')
      (hw : s'.woken = false) (h : Abreast C d k (.blocked main a') (.blocked main' s'))

theorem Main.Alike.mono {main main' : Main ξ σ ρ α} (h : main.Alike C d k P main') (hP : P ⊆ P') :
    main.Alike C d k P' main' := by
  cases h with
  | before h => exact .before (h.mono hP)
  | asleep h => exact .asleep (h.mono hP)
  | within steady hp h => exact .within steady (hp.mono hP) fun r => (h r).mono hP

namespace Abreast

variable {t t' : Turn ξ σ ρ α} {main main' : Main ξ σ ρ α} {o : Option α}

/-- The main routine opens the round on both sides. -/
theorem opening {P : Pairs} (hm : main.Alike C d k P main') (h : Among C d k P main'.alarms a s)
    (poised : Poised main' s) :
    Abreast C d k (opening main a) (opening main' s) := by
  refine ⟨?_, s, poised.inv, poised.positive, opening_sound poised⟩
  unfold Scheduler.opening
  rw [h.woken]
  split
  · have asleep : Among C d k P main'.alarms { a with woken := false } { s with woken := false } :=
      { h with woken := rfl }
    have step : Steps s { s with woken := false } := .single (.touch s s.state s.world false)
    exact asleep.turn hm (poised.main.mono step rfl)
  · exact .blocked hm h

theorem next (h : Abreast C d k (.blocked main a) (.blocked main' s)) :
    Abreast.Next C d k main main' a s := by
  obtain ⟨alike, s₀, inv, positive, steps, matched, waiting⟩ := h
  cases alike with
  | blocked hm h =>
      have sound := settleRound_sound (steps.inv inv)
        (Nat.lt_of_lt_of_le positive steps.nextLine_le) matched fun _ => waiting
      rw [settleRound_eq] at sound
      rcases h.next with ⟨ha, hs⟩ | ⟨P', a', s', hP, ha, hs, h⟩ | ⟨P', a', s', hP, ha, hs, hw, h⟩
      · exact .stuck ha hs
      · rw [hs] at sound
        exact .both ha hs (.opening (hm.mono hP) h sound.2)
      · rw [hs] at sound
        refine .other ha hs hw ⟨.blocked (hm.mono hP) h, s', sound.2.inv, sound.2.positive, ?_⟩
        exact ⟨.refl, sound.2.main, sound.2.waiting hw⟩

/-- Where the run by itself comes to an end, the other one does. -/
theorem forward (h : Abreast C d k t t') (ht : t.Yields o a') : ∃ s', t'.Yields o s' := by
  refine ht.rec_on (motive := fun t => ∀ t', Abreast C d k t t' → ∃ s', t'.Yields o s')
    ?_ ?_ ?_ t' h
  · rintro x rfl t' ⟨alike, -⟩
    cases alike
    exact ⟨_, 0, rfl⟩
  · rintro rfl t' ⟨alike, -⟩
    cases alike
    exact ⟨_, 0, rfl⟩
  · rintro main a a₁ ha ih t' h
    obtain ⟨main', s, rfl⟩ : ∃ main' s, t' = .blocked main' s := by
      cases h.alike
      exact ⟨_, _, rfl⟩
    -- While the run by itself waits, the strangers have less and less to do.
    generalize heffort : s.effort = effort
    induction effort using eased_wf.induction generalizing a s with
    | _ effort ih' =>
      cases h.next with
      | stuck ha' => rw [ha] at ha'; cases ha'
      | both ha' hs h =>
          cases ha.symm.trans ha'
          obtain ⟨s', hs'⟩ := ih _ h
          exact ⟨s', (Turn.yields_next hs).2 hs'⟩
      | @other a' s₁ ha' hs hw h =>
          have eased : Relation.TransGen Eased s₁.effort effort := by
            have round : settleRound main' s = .next main' s₁ := by rw [settleRound_eq, hs]
            exact heffort ▸ (settleRound_eased round).2 (not_woken_of_next? hs hw)
          obtain ⟨s', hs'⟩ := ih' s₁.effort eased a' (ha'.trans ha) s₁ h rfl
          rw [← opening_of_not_woken main' hw] at hs'
          exact ⟨s', (Turn.yields_next hs).2 hs'⟩

/-- Where the other run comes to an end, the run by itself does, and what is left
are strangers. -/
theorem backward (h : Abreast C d k t t') (ht : t'.Yields o s') :
    (∃ a', t.Yields o a') ∧ Vacant C s' := by
  refine ht.rec_on (motive := fun t' => ∀ t, Abreast C d k t t' →
    (∃ a', t.Yields o a') ∧ Vacant C s') ?_ ?_ ?_ t h
  · rintro x rfl t ⟨alike, s₀, inv, -, steps, line⟩
    cases alike with
    | finished x among => exact ⟨⟨_, 0, rfl⟩, among.vacant (steps.inv inv) line⟩
  · rintro rfl t ⟨alike, s₀, inv, -, steps, line⟩
    cases alike with
    | crashed among => exact ⟨⟨_, 0, rfl⟩, among.vacant (steps.inv inv) line⟩
  · rintro main' s s₁ hs ih t h
    obtain ⟨main, a, rfl⟩ : ∃ main a, t = .blocked main a := by
      cases h.alike
      exact ⟨_, _, rfl⟩
    cases h.next with
    | stuck _ hs' => rw [hs] at hs'; cases hs'
    | both ha hs' h =>
        cases hs.symm.trans hs'
        obtain ⟨⟨a', ha'⟩, vacant⟩ := ih _ h
        exact ⟨⟨a', (Turn.yields_next ha).2 ha'⟩, vacant⟩
    | other ha hs' hw h =>
        cases hs.symm.trans hs'
        rw [← opening_of_not_woken main' hw] at h
        obtain ⟨⟨a', ha'⟩, vacant⟩ := ih _ h
        exact ⟨⟨a', (Turn.yields_congr ha).1 ha'⟩, vacant⟩

end Abreast

theorem Vacant.abreast (h : Vacant C s) {p : Routine ξ σ ρ α} (hp : p.Alike C [] p) (x : ξ)
    (w : World σ) :
    Abreast C s.clock (s.nextLine - 1) (runRoutine p { state := x, world := w, woken := false })
      (runRoutine p { s with state := x, woken := false }) where
  alike := ((h.touch x s.world false).among w).runRoutine hp (List.Subset.refl _) h.line
  sound := ⟨_, (h.touch x s.world false).inv, h.positive,
    runRoutine_sound p (h.touch x s.world false).inv h.positive h.line⟩

/-- A run that is begun now comes to the end to which it comes by itself. -/
theorem Vacant.yields_iff (h : Vacant C s) {p : Routine ξ σ ρ α} (hp : p.Alike C [] p) (x : ξ)
    (w : World σ) {o : Option α} :
    (∃ s', (runRoutine p { s with state := x, woken := false }).Yields o s') ↔
      ∃ a', (runRoutine p { state := x, world := w, woken := false }).Yields o a' := by
  have abreast := h.abreast hp x w
  constructor
  · rintro ⟨s', hs'⟩
    exact (abreast.backward hs').1
  · rintro ⟨a', ha'⟩
    exact abreast.forward ha'

theorem Vacant.after (h : Vacant C s) {p : Routine ξ σ ρ α} (hp : p.Alike C [] p) (x : ξ)
    {o : Option α} (hs : (runRoutine p { s with state := x, woken := false }).Yields o s') :
    Vacant C s' :=
  ((h.abreast hp x s.world).backward hs).2

end Switchboard.Scheduler
