import Switchboard.Lifecycle
import Switchboard.Proofs.Asleep

/-!
# Switchboard.Proofs.Handling

One request, phase by phase: the handler runs to its end, what it returns is
made into a response, and a failure goes to recovery.  The lemmas say when a
phase ends and what it leaves behind; whoever cites them need not open the
routines of a request again.

* `synthesize_owned`, `synthesize_bodiless`, `synthesize_written` — the three
  ways of synthesis;
* `Rendering.acts` — what a custom rendering does, in order;
* `ends_recover` — a failure is reported, and then it is rendered;
* `ends_run`, `ends_handle` — a request in two phases;
* `ends_run_error` — where a failure that reaches the boundary comes from.
-/

namespace Switchboard

variable {σ : Type}

/-! ## Writes -/

namespace Exchange

theorem writeAll_append (x : Exchange) (ws vs : List Write) :
    x.writeAll (ws ++ vs) = (x.writeAll ws).writeAll vs := List.foldl_append

theorem hasResponse_iff (x : Exchange) :
    x.hasResponse = true ↔ x.response.body.isSome ∨ x.response.status ≠ 404 := by
  rw [hasResponse, ResponseSide.hasResponse, Bool.or_eq_true, decide_eq_true_iff]
  rfl

theorem hasResponse_eq_false_iff (x : Exchange) :
    x.hasResponse = false ↔ x.response.body = none ∧ x.response.status = 404 := by
  rw [← Bool.not_eq_true, hasResponse_iff]
  simp

/-- What the default rendering leaves of an exchange: only the status and the
body are new. -/
theorem renderFailure_eq (x : Exchange) (e : Envelope) :
    x.renderFailure e =
      { x with response := { x.response with
          status := e.status.getD defaultErrorStatus
          statusWritten := true
          body := some (.object [("message", .string e.message)]) } } := rfl

theorem hasResponse_renderFailure (x : Exchange) (e : Envelope) :
    (x.renderFailure e).hasResponse = true :=
  (hasResponse_iff _).2 (.inl rfl)

/-! ## Synthesis -/

section Synthesis

variable {x x' : Exchange} {reply : Option Reply} {outcome : Synthesis}

/-- A handler that owns the response keeps it as it is. -/
theorem synthesize_owned (h : x.hasResponse = true) :
    x.synthesize reply = .ok (.skipped, x) := by
  simp [synthesize, h]

/-- A reply that is missing, or has no body, is refused before anything is
written. -/
theorem synthesize_bodiless (h : x.hasResponse = false) (hb : reply.bind (·.body) = none) :
    x.synthesize reply = .error .missingBody := by
  cases reply with
  | none => simp [synthesize, h]
  | some r =>
      have hb : r.body = none := hb
      simp [synthesize, h, hb]

/-- A reply with a body is written. -/
theorem synthesize_written {r : Reply} {body : Json} (h : x.hasResponse = false)
    (hb : r.body = some body) :
    x.synthesize (some r) = .ok (.written, x.writeAll (r.writes body)) := by
  simp [synthesize, h, hb]

theorem hasResponse_writes (x : Exchange) (r : Reply) (body : Json) :
    (x.writeAll (r.writes body)).hasResponse = true := by
  rw [Reply.writes, writeAll_append]
  exact (hasResponse_iff _).2 (.inl rfl)

/-- Whatever comes of synthesis, it is one of the three. -/
theorem synthesize_cases (x : Exchange) (reply : Option Reply) :
    x.hasResponse = true ∨ (x.hasResponse = false ∧ reply.bind (·.body) = none) ∨
      ∃ r body, x.hasResponse = false ∧ reply = some r ∧ r.body = some body := by
  cases h : x.hasResponse with
  | true => exact .inl rfl
  | false =>
      cases hb : reply.bind (·.body) with
      | none => exact .inr (.inl ⟨rfl, rfl⟩)
      | some body =>
          obtain ⟨r, rfl, hb⟩ := Option.bind_eq_some_iff.1 hb
          exact .inr (.inr ⟨r, body, rfl, rfl, hb⟩)

theorem synthesize_eq_error {f : Failure} :
    x.synthesize reply = .error f ↔
      x.hasResponse = false ∧ reply.bind (·.body) = none ∧ f = .missingBody := by
  rcases x.synthesize_cases reply with h | ⟨h, hb⟩ | ⟨r, body, h, rfl, hb⟩
  · simp [synthesize_owned h, h]
  · simp [synthesize_bodiless h hb, h, hb, eq_comm]
  · simp [synthesize_written h hb, hb]

end Synthesis

end Exchange

/-! ## Renderings -/

namespace Rendering

open Scheduler

/-- What a rendering may do. -/
inductive Act (σ : Type) where
  | write (w : Write)
  | note (change : World σ → World σ)
  | take
  /-- The failure is rendered by default. -/
  | byDefault

/-- Do what a rendering of a failure does. -/
def Act.on (e : Envelope) (s : Scheduler Exchange σ) : Act σ → Scheduler Exchange σ
  | .write w => { s with state := s.state.write w }
  | .note change => { s with world := change s.world }
  | .take => { s with state := s.state.take.2 }
  | .byDefault => { s with state := s.state.renderFailure e }

/-- What a rendering does to an exchange, in order. -/
def acts (e : Envelope) (mayCall : Bool) : Rendering σ → Exchange → List (Act σ)
  | .done, _ => []
  | .look next, x => (next x).acts e mayCall x
  | .write w next, x => .write w :: next.acts e mayCall (x.write w)
  | .note change next, x => .note change :: next.acts e mayCall x
  | .take next, x => .take :: (next x).acts e mayCall x.take.2
  | .byDefault next, x =>
    if mayCall then .byDefault :: next.acts e false (x.renderFailure e) else next.acts e false x

/-- A rendering does one thing after the other, and it is never kept
waiting. -/
theorem ends_routine {ρ : Type} {e : Envelope} {mayCall : Bool} {r : Rendering σ}
    {s s' : Scheduler Exchange σ} :
    Ends (r.routine e mayCall : Routine Exchange σ ρ Unit) s () s' ↔
      s' = (r.acts e mayCall s.state).foldl (Act.on e) s := by
  induction r generalizing mayCall s with
  | done => exact ends_done.trans (and_iff_right rfl)
  | look next ih => exact ih s.state
  | write w next ih => exact ih (s := { s with state := s.state.write w })
  | note change next ih => exact ih (s := { s with world := change s.world })
  | take next ih => exact ih s.state (s := { s with state := s.state.take.2 })
  | byDefault next ih =>
      cases mayCall with
      | true => exact ih (s := { s with state := s.state.renderFailure e })
      | false => exact ih

end Rendering

/-! ## Phases of recovery -/

namespace Recovery

open Scheduler

variable {ρ : Type} {r : Recovery σ} {e : Envelope} {s s' : Scheduler Exchange σ}
  {rendered : Rendered}

/-- The part of recovery that observes the failure. -/
def report (r : Recovery σ) (e : Envelope) : Routine Exchange σ ρ Unit :=
  match r.reporter with
  | none => .done ()
  | some report => .ofJob (report e r.ambient)

/-- The hook that observes failures never crashes. -/
def Calm (r : Recovery σ) : Prop :=
  ∀ report, r.reporter = some report → ∀ e, (report e r.ambient).Calm

theorem recover_eq (r : Recovery σ) (e : Envelope) :
    (r.recover e : Routine Exchange σ ρ Rendered) =
      .note (·.log [failedRecord e]) ((r.report e).bind fun () => r.render e) := by
  unfold recover report
  cases r.reporter <;> rfl

/-- A failure has been logged. -/
def logged (e : Envelope) (s : Scheduler Exchange σ) : Scheduler Exchange σ :=
  { s with world := s.world.log [failedRecord e] }

/-- Recovery in two phases: the failure is reported, and then it is
rendered. -/
theorem ends_recover :
    Ends (r.recover e : Routine Exchange σ ρ Rendered) s rendered s' ↔
      ∃ s₁, Ends (r.report e : Routine Exchange σ ρ Unit) (logged e s) () s₁ ∧
        Ends (r.render e : Routine Exchange σ ρ Rendered) s₁ rendered s' := by
  rw [recover_eq, ends_note, ends_bind]
  exact ⟨fun ⟨(), s₁, h⟩ => ⟨s₁, h⟩, fun ⟨s₁, h⟩ => ⟨(), s₁, h⟩⟩

/-- Reporting leaves the exchange alone. -/
theorem ends_report_state (h : Ends (r.report e : Routine Exchange σ ρ Unit) s () s') :
    s'.state = s.state := by
  unfold report at h
  split at h
  · rw [(ends_done.1 h).2]
  · exact ends_ofJob_state h

theorem Calm.exists_ends (h : r.Calm) (e : Envelope) (s : Scheduler Exchange σ) :
    ∃ s', Ends (r.report e : Routine Exchange σ ρ Unit) s () s' := by
  unfold report
  split
  · exact ⟨s, ends_done.2 ⟨rfl, rfl⟩⟩
  · next report hr =>
    obtain ⟨⟨⟩, s', ends⟩ := (h report hr e).exists_ends (ρ := ρ) s
    exact ⟨s', ends⟩

/-- What the rendering of a failure does to an exchange, in order. -/
def acts (r : Recovery σ) (e : Envelope) (x : Exchange) : List (Rendering.Act σ) :=
  match r.renderer with
  | none => [.byDefault]
  | some renderer => (renderer e r.ambient).acts e true x

theorem ends_render :
    (∃ rendered, Ends (r.render e : Routine Exchange σ ρ Rendered) s rendered s') ↔
      s' = (r.acts e s.state).foldl (Rendering.Act.on e) s := by
  unfold render acts
  cases r.renderer with
  | none => simp [Rendering.Act.on]
  | some renderer =>
      constructor
      · rintro ⟨rendered, ends⟩
        obtain ⟨⟨⟩, s₁, ran, rest⟩ := ends_bind.1 ends
        obtain ⟨-, rfl⟩ := ends_done.1 rest
        exact Rendering.ends_routine.1 ran
      · intro h
        exact ⟨.custom, ends_bind.2 ⟨(), s', Rendering.ends_routine.2 h, by simp⟩⟩

/-- Without a renderer of its own, recovery leaves the exchange with the
default rendering and does nothing else to it. -/
theorem ends_recover_byDefault (hr : r.renderer = none)
    (h : Ends (r.recover e : Routine Exchange σ ρ Rendered) s rendered s') :
    s'.state = s.state.renderFailure e := by
  obtain ⟨s₁, reported, h⟩ := ends_recover.1 h
  have same : s₁.state = (logged e s).state := ends_report_state reported
  obtain rfl := ends_render.1 ⟨rendered, h⟩
  have acts : r.acts e s₁.state = [.byDefault] := by rw [Recovery.acts, hr]
  rw [acts, List.foldl_cons, List.foldl_nil, Rendering.Act.on, same]
  rfl

/-- Recovery comes to its end if the hook that observes failures does. -/
theorem Calm.exists_ends_recover (h : r.Calm) (e : Envelope) (s : Scheduler Exchange σ) :
    ∃ rendered s', Ends (r.recover e : Routine Exchange σ ρ Rendered) s rendered s' := by
  obtain ⟨s₁, reported⟩ := h.exists_ends (ρ := ρ) e (logged e s)
  obtain ⟨rendered, ends⟩ := (ends_render (ρ := ρ)).2 rfl
  exact ⟨rendered, _, ends_recover.2 ⟨s₁, reported, ends⟩⟩

end Recovery

/-! ## Phases of a request -/

namespace Lifecycle

open Scheduler

variable {l : Lifecycle σ} {h : Handler σ} {s s' s₁ : Scheduler Exchange σ} {e : Envelope}

/-- What becomes of what a handler returned: synthesis writes, or it refuses
and nothing has been written. -/
theorem ends_respond {reply : Option Reply} {r : Except Envelope Synthesis} :
    Ends (respond reply) s r s' ↔
      (∃ outcome x, s.state.synthesize reply = .ok (outcome, x) ∧ r = .ok outcome ∧
        s' = { s with state := x }) ∨
      ∃ f, s.state.synthesize reply = .error f ∧ r = .error { failure := f } ∧ s' = s := by
  rw [respond, ends_look]
  cases hx : s.state.synthesize reply with
  | error f => simp
  | ok p =>
      obtain ⟨outcome, x⟩ := p
      simp

/-- A request up to its response, in two phases. -/
theorem ends_run {r : Except Envelope Synthesis} :
    Ends (l.run h) s r s' ↔ ∃ d s₁, Ends (l.dispatch h) s d s₁ ∧
      match d with
      | .error e => r = .error e ∧ s' = s₁
      | .ok reply => Ends (respond reply) s₁ r s' := by
  rw [run, ends_bind]
  refine exists_congr fun d => exists_congr fun s₁ => and_congr_right fun _ => ?_
  cases d with
  | error e => exact ends_done
  | ok reply => exact .rfl

/-- A request with its recovery, in two phases. -/
theorem ends_handle :
    Ends (l.handle h) s () s' ↔ ∃ r s₁, Ends (l.run h) s r s₁ ∧
      match r with
      | .ok _ => s' = s₁
      | .error e => ∃ rendered, Ends (l.recovery.recover e : Step σ Rendered) s₁ rendered s' := by
  rw [handle, ends_bind]
  refine exists_congr fun r => exists_congr fun s₁ => and_congr_right fun _ => ?_
  cases r with
  | error e => simp [ends_bind]
  | ok outcome => simp

theorem exists_ends_respond (reply : Option Reply) (s : Scheduler Exchange σ) :
    ∃ r s', Ends (respond reply) s r s' := by
  cases hx : s.state.synthesize reply with
  | error f => exact ⟨_, s, ends_respond.2 (.inr ⟨f, hx, rfl, rfl⟩)⟩
  | ok p => exact ⟨_, _, ends_respond.2 (.inl ⟨p.1, p.2, hx, rfl, rfl⟩)⟩

theorem exists_ends_run {d : Except Envelope (Option Reply)} (ran : Ends (l.dispatch h) s d s₁) :
    ∃ r s', Ends (l.run h) s r s' := by
  cases d with
  | error e => exact ⟨.error e, s₁, ends_run.2 ⟨_, s₁, ran, rfl, rfl⟩⟩
  | ok reply =>
      obtain ⟨r, s', ends⟩ := exists_ends_respond reply s₁
      exact ⟨r, s', ends_run.2 ⟨_, s₁, ran, ends⟩⟩

/-- A request ends when its run does: recovery only waits for a hook that comes
to its end. -/
theorem exists_ends_handle (calm : l.recovery.Calm) {r : Except Envelope Synthesis}
    (ran : Ends (l.run h) s r s₁) : ∃ s', Ends (l.handle h) s () s' := by
  cases r with
  | ok outcome => exact ⟨s₁, ends_handle.2 ⟨_, s₁, ran, rfl⟩⟩
  | error e =>
      obtain ⟨rendered, s', ends⟩ := calm.exists_ends_recover (ρ := Option Reply) e s₁
      exact ⟨s', ends_handle.2 ⟨_, s₁, ran, rendered, ends⟩⟩

/-! ## Where failures come from -/

/-- The interpretation of a script handler returns a failure. -/
def Interprets (l : Lifecycle σ) (h : Handler σ) (s : Scheduler Exchange σ) (f : Failure)
    (s₁ : Scheduler Exchange σ) : Prop :=
  ∃ run, h = .script run ∧
    Ends (.interpret (l.registry.surroundings l.ambient) (run s.state.request) .done :
      Step σ (Except Failure (Option Reply))) s (.error f) s₁

/-- A plain handler returns a failure. -/
def Fails (h : Handler σ) (s : Scheduler Exchange σ) (f : Failure)
    (s₁ : Scheduler Exchange σ) : Prop :=
  ∃ run, h = .plain run ∧ Ends (run s.state.request) s (.error f) s₁

/-- A handler of either kind returns, but leaves no response behind and no
body to make one from. -/
def Wants (l : Lifecycle σ) (h : Handler σ) (s s₁ : Scheduler Exchange σ) : Prop :=
  ∃ reply, Ends (l.dispatch h) s (.ok reply) s₁ ∧ s₁.state.hasResponse = false ∧
    reply.bind (·.body) = none

/-- A script handler runs under the interpreter, and what fails there carries
the ambient context. -/
theorem dispatch_script {run : ScriptHandler σ} {d : Except Envelope (Option Reply)} :
    Ends (l.dispatch (.script run)) s d s₁ ↔ ∃ r,
      Ends (.interpret (l.registry.surroundings l.ambient) (run s.state.request) .done :
        Step σ (Except Failure (Option Reply))) s r s₁ ∧
      d = r.mapError fun f => { failure := f, ambient := some l.ambient } := by
  have phases : dispatch l (.script run) = .look fun _ x _ =>
      (Routine.interpret (l.registry.surroundings l.ambient) (run x.request) .done).bind
        fun r => .done (r.mapError fun f => { failure := f, ambient := some l.ambient }) := rfl
  simp [phases, ends_bind]

/-- A plain handler runs by itself. -/
theorem dispatch_plain {run : PlainHandler σ} {d : Except Envelope (Option Reply)} :
    Ends (l.dispatch (.plain run)) s d s₁ ↔ ∃ r, Ends (run s.state.request) s r s₁ ∧
      d = r.mapError fun f => { failure := f } := by
  rw [dispatch, ends_look]
  simp [ends_bind]

theorem ends_dispatch_error :
    Ends (l.dispatch h) s (.error e) s₁ ↔
      (∃ f, Interprets l h s f s₁ ∧ e = { failure := f, ambient := some l.ambient }) ∨
      ∃ f, Fails h s f s₁ ∧ e = { failure := f } := by
  have failed {α : Type} {r : Except Failure α} {g : Failure → Envelope} :
      .error e = r.mapError g ↔ ∃ f, r = .error f ∧ e = g f := by
    cases r <;> simp [Except.mapError]
  cases h with
  | script run =>
      simp only [dispatch_script, failed, Interprets, Fails]
      simp
  | plain run =>
      simp only [dispatch_plain, failed, Interprets, Fails]
      simp

/-- A request fails in one of three ways, and only a failure of interpretation
carries the ambient context. -/
theorem ends_run_error :
    Ends (l.run h) s (.error e) s₁ ↔
      (∃ f, Interprets l h s f s₁ ∧ e = { failure := f, ambient := some l.ambient }) ∨
      (∃ f, Fails h s f s₁ ∧ e = { failure := f }) ∨
      Wants l h s s₁ ∧ e = { failure := .missingBody } := by
  rw [ends_run]
  constructor
  · rintro ⟨d, s₂, ran, rest⟩
    cases d with
    | error e' =>
        obtain ⟨he, rfl⟩ := rest
        cases he
        exact (ends_dispatch_error.1 ran).imp_right .inl
    | ok reply =>
        rcases ends_respond.1 rest with ⟨outcome, x, -, he, -⟩ | ⟨f, hf, he, rfl⟩
        · cases he
        · cases he
          obtain ⟨hx, hb, rfl⟩ := Exchange.synthesize_eq_error.1 hf
          exact .inr (.inr ⟨⟨reply, ran, hx, hb⟩, rfl⟩)
  · rintro (raised | failed | ⟨⟨reply, ran, hx, hb⟩, rfl⟩)
    · exact ⟨_, s₁, ends_dispatch_error.2 (.inl raised), rfl, rfl⟩
    · exact ⟨_, s₁, ends_dispatch_error.2 (.inr failed), rfl, rfl⟩
    · exact ⟨_, s₁, ran, ends_respond.2 (.inr ⟨_, Exchange.synthesize_bodiless hx hb, rfl, rfl⟩)⟩

end Lifecycle

end Switchboard
