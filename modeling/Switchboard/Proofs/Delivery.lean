import Switchboard.Proofs.Rounds

/-!
# Switchboard.Proofs.Delivery

An outcome that has been sent can be read by whoever waits for it, as long as
it has not been dropped, and nobody is left waiting for it.
-/

namespace Switchboard.Scheduler

variable {ξ σ ρ α : Type} {s s' : Scheduler ξ σ} {t : Ticket} {o : Outcome}

/-- What has been sent is there for whoever waits for it. -/
structure Delivered (s : Scheduler ξ σ) : Prop where
  readable : ∀ m t o, (m, .settled t o) ∈ s.history → s.dropped t = false → s.outcome? t = some o
  /-- What is dropped cannot be read any more. -/
  gone : ∀ t, s.dropped t = true → s.outcome? t = none
  /-- Nobody waits for an outcome that is there. -/
  parked : ∀ w ∈ s.parked, s.outcome? w.ticket = none

namespace Delivered

/-- A step that neither sends nor drops an outcome. -/
theorem keep (hd : s.Delivered)
    (settled : ∀ m t o, (m, .settled t o) ∈ s'.history → (m, .settled t o) ∈ s.history)
    (outcomes : s'.outcomes = s.outcomes) (dropped : s'.dropped = s.dropped)
    (parked : s'.parked = s.parked) : s'.Delivered := by
  have outcome (t : Ticket) : s'.outcome? t = s.outcome? t := congrArg (·.lookup t) outcomes
  refine ⟨fun m t o h hn => ?_, fun t h => ?_, fun w hw => ?_⟩
  · rw [outcome]
    exact hd.readable m t o (settled m t o h) (dropped ▸ hn)
  · rw [outcome]
    exact hd.gone t (dropped ▸ h)
  · rw [outcome]
    exact hd.parked w (parked ▸ hw)

/-- A step that notes nothing. -/
theorem still (hd : s.Delivered) (history : s'.history = s.history)
    (outcomes : s'.outcomes = s.outcomes) (dropped : s'.dropped = s.dropped)
    (parked : s'.parked = s.parked) : s'.Delivered :=
  hd.keep (fun _ _ _ h => history ▸ h) outcomes dropped parked

/-- A step that notes an event, and not that an outcome is sent. -/
theorem note (hd : s.Delivered) {ev : Event σ} (history : s'.history = (s.clock, ev) :: s.history)
    (outcomes : s'.outcomes = s.outcomes) (dropped : s'.dropped = s.dropped)
    (parked : s'.parked = s.parked) (unsent : ∀ t o, ev ≠ .settled t o) : s'.Delivered := by
  refine hd.keep (fun m t o h => ?_) outcomes dropped parked
  rw [history] at h
  exact (List.mem_cons.1 h).resolve_left fun heq => unsent t o (Prod.ext_iff.1 heq).2.symm

theorem drop (hd : s.Delivered) (t : Ticket) : (s.drop t).Delivered where
  readable m u o h hu := by
    simp only [Scheduler.drop, Bool.or_eq_false_iff, decide_eq_false_iff_not] at hu
    rw [drop_outcome?, if_neg hu.1]
    exact hd.readable m u o h hu.2
  gone u hu := by
    simp only [Scheduler.drop, Bool.or_eq_true, decide_eq_true_eq] at hu
    rw [drop_outcome?]
    split
    · rfl
    · next hne => exact hd.gone u (hu.resolve_left hne)
  parked w hw := by
    rw [drop_outcome?]
    split
    · rfl
    · exact hd.parked w hw

/-- Whoever starts to wait has found no outcome. -/
theorem park (hd : s.Delivered) {w : Waiter σ} (unsent : s.outcome? w.ticket = none) :
    Delivered { s with parked := s.parked ++ [w] } := by
  refine { hd with parked := fun v hv => ?_ }
  rcases List.mem_append.1 hv with hv | hv
  · exact hd.parked v hv
  · cases List.mem_singleton.1 hv
    exact unsent

theorem settle (hd : s.Delivered) (hn : ¬ s.history.Settled t) : (s.settle t o).Delivered where
  readable m u o' h hu := by
    rw [settle_dropped] at hu
    rw [settle_outcome?]
    rcases List.mem_cons.1 h with h | h
    · cases h
      simp [hu]
    · have hne : u ≠ t := fun hut => hn ⟨m, o', hut ▸ h⟩
      simpa [hne] using hd.readable m u o' h hu
  gone u hu := by
    rw [settle_dropped] at hu
    rw [settle_outcome?, if_neg fun h => by rw [h.1, h.2] at hu; cases hu]
    exact hd.gone u hu
  parked w hw := by
    have hold := hd.parked w (s.settle_parked t o hw)
    rw [settle_outcome?]
    split
    · next h =>
      obtain ⟨hwt, hdropped⟩ := h
      simp [Scheduler.settle, log, hdropped, hwt] at hw
    · exact hold

theorem settleAll {ts : List Ticket} (hd : s.Delivered) (ho : (s.settleAll o ts).history.Orderly) :
    (s.settleAll o ts).Delivered := by
  induction ts generalizing s with
  | nil => exact hd
  | cons t ts ih =>
      have suffix : (s.settle t o).history <:+ (s.settleAll o (t :: ts)).history := by
        have := settleAll_history (s.settle t o) o ts
        exact ⟨_, this.symm⟩
      exact ih (hd.settle (ho.fits suffix).1) ho

theorem closeLine (hd : s.Delivered) {finished : Bool}
    (ho : (s.closeLine finished).history.Orderly) : (s.closeLine finished).Delivered := by
  unfold Scheduler.closeLine at ho ⊢
  split
  · exact hd
  · next l hl =>
    simp only [hl] at ho
    exact settleAll (hd.note rfl rfl rfl rfl nofun) ho

theorem emit (hd : s.Delivered) {n : Nat} {e : Effect} (ho : (s.emit n e).2.history.Orderly) :
    (s.emit n e).2.Delivered := by
  by_cases hl : ∃ l, s.line = some l ∧ l.number = n
  · obtain ⟨l, hl, rfl⟩ := hl
    rw [emit_open s e hl]
    exact hd.note rfl rfl rfl rfl nofun
  · rw [emit_closed s e fun l h hn => hl ⟨l, h, hn⟩] at ho ⊢
    refine settle ?_ (ho.fits (List.suffix_refl _)).1
    exact hd.note rfl rfl rfl rfl nofun

theorem report (hd : s.Delivered) (t : Ticket) (i : Nat) (a : Answer) :
    (s.report t i a).Delivered := by
  by_cases hb : ∃ n e slots, s.Busy n t (.group e slots)
  · obtain ⟨n, e, slots, inbox, hl⟩ := hb
    rw [report_group s a hl]
    exact hd.note rfl rfl rfl rfl nofun
  · rw [report_other s a fun n e slots h => hb ⟨n, e, slots, h⟩]
    exact hd.note rfl rfl rfl rfl nofun

theorem runMember (hd : s.Delivered) (t : Ticket) (i : Nat) (j : Job σ Answer) :
    (s.runMember t i j).Delivered := by
  have touched (w : World σ) : Delivered { s with world := w } := hd.still rfl rfl rfl rfl
  unfold Scheduler.runMember
  split
  · next w _ => exact (touched w).report t i _
  · next w _ => exact (touched w).report t i _
  · exact hd.still rfl rfl rfl rfl

theorem runSingle (hd : s.Delivered) {t : Ticket} {job : Job σ Answer}
    (ho : (s.runSingle t job).state.history.Orderly) : (s.runSingle t job).state.Delivered := by
  unfold Scheduler.runSingle at ho ⊢
  split
  · next a w h =>
    rw [h] at ho
    refine settle ?_ (ho.fits (List.suffix_refl _)).1
    exact hd.note rfl rfl rfl rfl nofun
  · exact hd.still rfl rfl rfl rfl
  · exact hd.still rfl rfl rfl rfl

end Delivered

theorem Step.delivered (h : Step s s') (hi : s'.Inv) (hd : s.Delivered) : s'.Delivered := by
  have ho := hi.orderly
  cases h with
  | emit n e => exact hd.emit ho
  | drop t => exact hd.drop t
  | park w _ hout => exact hd.park hout
  | work t i j rest =>
      have popped : Delivered { s with ready := rest } := hd.still rfl rfl rfl rfl
      exact popped.runMember t i j
  | single n t job => exact hd.runSingle ho
  | refuse n around t e inbox c =>
      refine .settle ?_ (ho.fits (List.suffix_refl _)).1
      exact hd.note rfl rfl rfl rfl nofun
  | decide n t e slots r =>
      refine .settle ?_ (ho.fits (List.suffix_refl _)).1
      exact hd.still rfl rfl rfl rfl
  | finish | breakOff => exact hd.closeLine ho
  | advance _ _ _ ha =>
      obtain ⟨due, who, rest, -, rfl⟩ := advance_eq ha
      exact hd.still rfl rfl rfl rfl
  | touch | spawn | pop | rest => exact hd.still rfl rfl rfl rfl
  | resume | begin | interpret | poll | takeGroup => exact hd.note rfl rfl rfl rfl nofun
  | takeSingle n around t c =>
      have taken : (s.log (.taken n t (.single c))).Delivered := hd.note rfl rfl rfl rfl nofun
      exact taken.note rfl rfl rfl rfl nofun

theorem invariant_delivered : Invariant (Delivered (ξ := ξ) (σ := σ)) where
  fresh _ _ := ⟨by simp, by simp, by simp⟩
  step h hi := h.delivered (h.inv hi)

theorem Steps.delivered (h : Steps s s') (hi : s.Inv) (hd : s.Delivered) : s'.Delivered :=
  invariant_delivered.steps h hi hd

theorem Reachable.delivered (h : Reachable s) : s.Delivered := invariant_delivered.reachable h

/-- Whatever a run has sent can be read, and nobody waits for it in vain. -/
theorem Reachable.runFor_delivered (h : Reachable s) (p : Routine ξ σ ρ α) (k : Nat) :
    (runFor p s k).scheduler.Delivered :=
  invariant_delivered.runFor h p k

end Switchboard.Scheduler
