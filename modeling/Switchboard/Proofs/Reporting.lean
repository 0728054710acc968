import Switchboard.Proofs.Handling
import Switchboard.Server.Config

/-!
# Switchboard.Proofs.Reporting

A failure at the boundary of a request is reported once, and then it is
rendered once.  Between the failure and the end of the observing hook nothing
is written to the exchange; whatever else runs meanwhile has an exchange of
its own.  A custom rendering can have the default one inside it, but not
twice.
-/

namespace Switchboard

variable {σ : Type}

/-! ## The default rendering -/

/-- Whether a rendering asks for the default one, if the exchange is as it finds
it. -/
def Rendering.callsNext : Rendering σ → Exchange → Bool
  | .done, _ => false
  | .look next, x => (next x).callsNext x
  | .write w next, x => next.callsNext (x.write w)
  | .note _ next, x => next.callsNext x
  | .take next, x => (next x).callsNext x.take.2
  | .byDefault _, _ => true

/-- However often a rendering asks for the default one, it is given it once. -/
theorem Rendering.countP_acts (e : Envelope) (mayCall : Bool) (r : Rendering σ) (x : Exchange) :
    (r.acts e mayCall x).countP (· matches .byDefault) =
      if mayCall && r.callsNext x then 1 else 0 := by
  induction r generalizing mayCall x with
  | done => simp [acts, callsNext]
  | look next ih => exact ih x mayCall x
  | write w next ih | note change next ih =>
      rw [acts, List.countP_cons_of_neg (by simp), ih, callsNext]
  | take next ih => rw [acts, List.countP_cons_of_neg (by simp), ih, callsNext]
  | byDefault next ih => cases mayCall <;> simp [acts, callsNext, ih]

/-- A failure is rendered by default if nobody else is there to render it, or
whoever does asks for it; and then once. -/
theorem Recovery.countP_acts (r : Recovery σ) (e : Envelope) (x : Exchange) :
    (r.acts e x).countP (· matches .byDefault) =
      if r.renderer.all fun renderer => (renderer e r.ambient).callsNext x then 1 else 0 := by
  unfold acts
  cases r.renderer with
  | none => rfl
  | some renderer => exact Rendering.countP_acts e true _ x

/-! ## Every request -/

namespace Server.Config

open Scheduler Lifecycle

/-- What becomes of a failure under a configuration, between the moment at
which it reaches the boundary, the one at which it has been reported and the
one at which it has been rendered. -/
structure ReportsThenRenders (c : Config σ) (e : Envelope)
    (failed reported rendered : Scheduler Exchange σ) : Prop where
  /-- The observing hook, if there is one, is called with the failure and the
  configured context, and its job runs to its end. -/
  report : match c.reporter with
    | none => reported = Recovery.logged e failed
    | some report => Ends (.ofJob (report e c.context) : Step σ Unit)
        (Recovery.logged e failed) () reported
  /-- So far nothing has been written to the exchange. -/
  untouched : reported.state = failed.state
  /-- Now the custom renderer, if there is one, is called with the same failure
  and the same context, and what it does is done at once.  The failure is
  rendered by default if nobody else is there to render it, or whoever does asks
  for it; and then once. -/
  render : ∃ acts : List (Rendering.Act σ),
    (acts = match c.renderer with
      | none => [.byDefault]
      | some renderer => (renderer e c.context).acts e true reported.state) ∧
    rendered = acts.foldl (Rendering.Act.on e) reported ∧
    acts.countP (· matches .byDefault) =
      if c.renderer.all fun renderer => (renderer e c.context).callsNext reported.state
      then 1 else 0

variable {c : Config σ} {e : Envelope} {s s₁ s₂ : Scheduler Exchange σ} {h : Handler σ}

theorem ReportsThenRenders.of_ends
    (reported : Ends (c.recovery.report e : Step σ Unit) (Recovery.logged e s₁) () s₂) :
    c.ReportsThenRenders e s₁ s₂ ((c.recovery.acts e s₂.state).foldl (Rendering.Act.on e) s₂) where
  report := by
    unfold Recovery.report recovery at reported
    cases hr : c.reporter with
    | none =>
        rw [hr] at reported
        exact (ends_done.1 reported).2
    | some report =>
        rw [hr] at reported
        exact reported
  untouched := (Recovery.ends_report_state reported : _ = (Recovery.logged e s₁).state)
  render := ⟨c.recovery.acts e s₂.state, rfl, rfl, c.recovery.countP_acts e s₂.state⟩

/-- A request whose run has failed goes on to recovery. -/
theorem exists_reportsThenRenders (calm : c.recovery.Calm)
    (ran : Ends (c.lifecycle.run h) s (.error e) s₁) :
    ∃ s₂ s', c.ReportsThenRenders e s₁ s₂ s' ∧ Ends (c.lifecycle.handle h) s () s' := by
  obtain ⟨s₂, reported⟩ := calm.exists_ends (ρ := Option Reply) e (Recovery.logged e s₁)
  obtain ⟨rendered, ends⟩ := (Recovery.ends_render (ρ := Option Reply)).2 rfl
  exact ⟨s₂, _, .of_ends reported, ends_handle.2 ⟨_, s₁, ran, rendered,
    Recovery.ends_recover.2 ⟨s₂, reported, ends⟩⟩⟩

/-- The envelope of a failure says whether it was raised under an
interpreter. -/
theorem ambient_cases (ran : Ends (c.lifecycle.run h) s (.error e) s₁) :
    (e.ambient = some c.context ↔ ∃ f, Interprets c.lifecycle h s f s₁) ∧
      (e.ambient = none ↔ (∃ f, Fails h s f s₁) ∨ Wants c.lifecycle h s s₁) := by
  -- A run ends in one way only, so where one origin holds the envelope is its own.
  have comes {e' : Envelope} (ran' : Ends (c.lifecycle.run h) s (.error e') s₁) : e' = e := by
    cases (ran'.unique ran).1
    rfl
  constructor
  · constructor
    · intro carries
      rcases ends_run_error.1 ran with ⟨f, raised, -⟩ | ⟨f, -, rfl⟩ | ⟨-, rfl⟩
      · exact ⟨f, raised⟩
      · cases carries
      · cases carries
    · rintro ⟨f, raised⟩
      rw [← comes (ends_run_error.2 (.inl ⟨f, raised, rfl⟩))]
      rfl
  · constructor
    · intro carries
      rcases ends_run_error.1 ran with ⟨f, -, rfl⟩ | ⟨f, failed, -⟩ | ⟨wants, -⟩
      · cases carries
      · exact .inl ⟨f, failed⟩
      · exact .inr wants
    · rintro (⟨f, failed⟩ | wants)
      · rw [← comes (ends_run_error.2 (.inr (.inl ⟨f, failed, rfl⟩)))]
      · rw [← comes (ends_run_error.2 (.inr (.inr ⟨wants, rfl⟩)))]

/-- The hooks have no part in the run of a request, and while it lasts there is
nothing else to the request.  If it succeeds, that is all; if it fails, the
failure is reported and rendered, both once and in this order, and its envelope
says whether it was raised under an interpreter. -/
theorem failures_reported_then_rendered (c : Config σ) (calm : c.recovery.Calm) (h : Handler σ)
    (s : Scheduler Exchange σ) :
    (∀ reporter renderer,
      { c with reporter, renderer : Config σ }.lifecycle.run h = c.lifecycle.run h) ∧
    (∀ k, (∃ r s₁, (runRoutine (c.lifecycle.run h) s).complete k = .finished r s₁) ∨
      ∃ r : ∀ α, Result Exchange σ α, (runRoutine (c.lifecycle.run h) s).complete k = r _ ∧
        (runRoutine (c.lifecycle.handle h) s).complete k = r _) ∧
    (∀ outcome s₁, Ends (c.lifecycle.run h) s (.ok outcome) s₁ →
      Ends (c.lifecycle.handle h) s () s₁) ∧
    ∀ e s₁, Ends (c.lifecycle.run h) s (.error e) s₁ →
      (∃ s₂ s', c.ReportsThenRenders e s₁ s₂ s' ∧ Ends (c.lifecycle.handle h) s () s') ∧
      (e.ambient = some c.context ↔ ∃ f, Interprets c.lifecycle h s f s₁) ∧
      (e.ambient = none ↔ (∃ f, Fails h s f s₁) ∨ Wants c.lifecycle h s s₁) := by
  refine ⟨fun _ _ => rfl, fun k => ?_, fun outcome s₁ ran => ends_handle.2 ⟨_, s₁, ran, rfl⟩,
    fun e s₁ ran => ⟨exists_reportsThenRenders calm ran, ambient_cases ran⟩⟩
  unfold handle
  rw [runRoutine_bind]
  exact Turn.complete_bind_cases _ _ k

/-- The hook sleeps; then a renderer writes a header and asks for the default
rendering twice. -/
theorem failures_reported_then_rendered_twice :
    let c : Config Unit := {
      reporter := some fun _ _ => .sleep 5 (.done ())
      renderer := some fun _ _ =>
        .write (.header "x-handled" "yes") (.byDefault (.byDefault .done)) }
    let h : Handler Unit := .script fun _ => .done (.ok none)
    let s : Scheduler Exchange Unit := { state := {}, world := { own := () } }
    let e : Envelope := { failure := .missingBody }
    c.recovery.Calm ∧ ∃ s₁ s₂ s', Ends (c.lifecycle.run h) s (.error e) s₁ ∧
      c.ReportsThenRenders e s₁ s₂ s' ∧ Ends (c.lifecycle.handle h) s () s' ∧
      Wants c.lifecycle h s s₁ ∧ s'.clock = 5 ∧ s'.state.response.status = 500 := by
  intro c h s e
  have calm : c.recovery.Calm := by
    rintro _ ⟨⟩ e d (_ | _ | _ | ⟨⟨⟩⟩)
  have ran : Ends (c.lifecycle.run h) s (.error e) _ := ⟨0, rfl⟩
  have handled : Ends (c.lifecycle.handle h) s () _ := ⟨3, rfl⟩
  obtain ⟨-, -, -, fails⟩ := failures_reported_then_rendered c calm h s
  obtain ⟨⟨s₂, s', recovers, ends⟩, -, wants⟩ := fails e _ ran
  obtain ⟨f, _, hh, -⟩ | wants := wants.1 rfl
  · cases (congrArg Handler.isScript hh : true = false)
  · obtain rfl := (ends.unique handled).2
    exact ⟨calm, _, s₂, _, ran, recovers, ends, wants, rfl, rfl⟩

end Server.Config

end Switchboard
