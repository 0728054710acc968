import Switchboard.Proofs.Handling

/-!
# Switchboard.Proofs.Response

Every request that is handled ends with a response.  There are three ways for
it to come about, and just one of them is taken: the handler owns the response
and it stays as it is, or what the handler returned is written, or a failure
is rendered over whatever the handler has written before.
-/

namespace Switchboard

variable {σ : Type}

/-! ## Three ways to a response -/

/-- Just one of three things holds. -/
def JustOne (p q r : Prop) : Prop := (p ∧ ¬q ∧ ¬r) ∨ (¬p ∧ q ∧ ¬r) ∨ (¬p ∧ ¬q ∧ r)

/-- The handler has returned without a failure and owns the response: there is
a body, or a status other than 404.  The exchange is left as it is. -/
def Owns (d : Except Envelope (Option Reply)) (x x' : Exchange) : Prop :=
  (∃ reply, d = .ok reply) ∧ (x.response.body.isSome ∨ x.response.status ≠ 404) ∧ x' = x

/-- The handler has left no response and returned a reply with a body, which
is written. -/
def Declares (d : Except Envelope (Option Reply)) (x x' : Exchange) : Prop :=
  ∃ reply, d = .ok (some reply) ∧ reply.body.isSome ∧
    (x.response.body = none ∧ x.response.status = 404) ∧
    x.synthesize (some reply) = .ok (.written, x')

/-- The failure of a request: the handler's own, or that of a handler which
leaves no response and returns no body. -/
def FailsWith (d : Except Envelope (Option Reply)) (x : Exchange) (e : Envelope) : Prop :=
  d = .error e ∨ ∃ reply, d = .ok reply ∧
    (x.response.body = none ∧ x.response.status = 404) ∧ reply.bind (·.body) = none ∧
    e = { failure := .missingBody }

/-- A failure is rendered: it takes over the status and the body, and all else
is left as it is. -/
def Recovers (d : Except Envelope (Option Reply)) (x x' : Exchange) : Prop :=
  ∃ e, FailsWith d x e ∧
    x' = { x with response := { x.response with
      status := e.failure.status.getD 500
      statusWritten := true
      body := some (.object [("message", .string e.failure.message)]) } }

section Ways

variable {d : Except Envelope (Option Reply)} {x x' : Exchange} {reply : Option Reply}
  {e : Envelope}

theorem Recovers.of_error : Recovers (.error e) x (x.renderFailure e) :=
  ⟨e, .inl rfl, x.renderFailure_eq e⟩

theorem not_owns_error : ¬ Owns (.error e) x x' := by
  rintro ⟨⟨_, h⟩, -⟩
  cases h

theorem not_owns_of_free (h : x.hasResponse = false) : ¬ Owns d x x' := by
  rintro ⟨-, owned, -⟩
  rw [← x.hasResponse_iff, h] at owned
  cases owned

theorem not_declares_error : ¬ Declares (.error e) x x' := by
  rintro ⟨_, h, -⟩
  cases h

/-- A handler that owns the response takes neither of the other ways. -/
theorem justOne_owned (h : x.hasResponse = true) :
    JustOne (Owns (.ok reply) x x) (Declares (.ok reply) x x) (Recovers (.ok reply) x x) := by
  have owned := x.hasResponse_iff.1 h
  have not_free : ¬ (x.response.body = none ∧ x.response.status = 404) := by
    rw [← x.hasResponse_eq_false_iff, h]
    simp
  refine .inl ⟨⟨⟨reply, rfl⟩, owned, rfl⟩, ?_, ?_⟩
  · rintro ⟨_, _, _, free, -⟩
    exact not_free free
  · rintro ⟨e, hd | ⟨_, _, free, -⟩, -⟩
    · cases hd
    · exact not_free free

/-- A reply with a body is written, and nothing else is done. -/
theorem justOne_declared {r : Reply} {body : Json} (h : x.hasResponse = false)
    (hb : r.body = some body) :
    let x' := x.writeAll (r.writes body)
    JustOne (Owns (.ok (some r)) x x') (Declares (.ok (some r)) x x')
      (Recovers (.ok (some r)) x x') := by
  have free := x.hasResponse_eq_false_iff.1 h
  refine .inr (.inl ⟨not_owns_of_free h,
    ⟨r, rfl, by simp [hb], free, Exchange.synthesize_written h hb⟩, ?_⟩)
  rintro ⟨e, hd | ⟨reply, hd, _, hn, -⟩, -⟩
  · cases hd
  · cases hd
    rw [Option.bind_some, hb] at hn
    cases hn

/-- Where there is nothing to make a response from, the failure is rendered. -/
theorem justOne_bodiless (h : x.hasResponse = false) (hb : reply.bind (·.body) = none) :
    let x' := x.renderFailure { failure := .missingBody }
    JustOne (Owns (.ok reply) x x') (Declares (.ok reply) x x') (Recovers (.ok reply) x x') := by
  have free := x.hasResponse_eq_false_iff.1 h
  refine .inr (.inr ⟨not_owns_of_free h, ?_, _, .inr ⟨reply, rfl, free, hb, rfl⟩,
    x.renderFailure_eq _⟩)
  rintro ⟨r, hd, hs, -⟩
  cases hd
  rw [Option.bind_some] at hb
  rw [hb] at hs
  cases hs

/-- A failure of the handler is rendered whatever it has written. -/
theorem justOne_failed :
    JustOne (Owns (.error e) x x') (Declares (.error e) x x')
      (Recovers (.error e) x (x.renderFailure e)) :=
  .inr (.inr ⟨not_owns_error, not_declares_error, .of_error⟩)

end Ways

/-! ## Every request -/

namespace Lifecycle

open Scheduler

variable {l : Lifecycle σ} {h : Handler σ} {s s' s₁ : Scheduler Exchange σ}
  {d : Except Envelope (Option Reply)}

/-- What a request comes to, from what its handler has come to. -/
theorem justOne_of_ends (byDefault : l.recovery.renderer = none) (ran : Ends (l.dispatch h) s d s₁)
    (handled : Ends (l.handle h) s () s') :
    s'.state.hasResponse = true ∧
      JustOne (Owns d s₁.state s'.state) (Declares d s₁.state s'.state)
        (Recovers d s₁.state s'.state) := by
  obtain ⟨r, s₂, run, rest⟩ := ends_handle.1 handled
  obtain ⟨d', s₃, ran', made⟩ := ends_run.1 run
  obtain ⟨rfl, rfl⟩ := ran.unique ran'
  cases d with
  | error e =>
      obtain ⟨rfl, rfl⟩ := made
      obtain ⟨_, recovered⟩ := rest
      rw [Recovery.ends_recover_byDefault byDefault recovered]
      exact ⟨Exchange.hasResponse_renderFailure _ e, justOne_failed⟩
  | ok reply =>
      rcases ends_respond.1 made with ⟨outcome, x, hx, rfl, rfl⟩ | ⟨f, hf, rfl, rfl⟩
      · obtain rfl := rest
        rcases s₁.state.synthesize_cases reply with owned | ⟨free, hb⟩ | ⟨r, body, free, rfl, hb⟩
        · rw [Exchange.synthesize_owned owned] at hx
          cases hx
          exact ⟨owned, justOne_owned owned⟩
        · rw [Exchange.synthesize_bodiless free hb] at hx
          cases hx
        · rw [Exchange.synthesize_written free hb] at hx
          cases hx
          exact ⟨Exchange.hasResponse_writes _ r body, justOne_declared free hb⟩
      · obtain ⟨free, hb, rfl⟩ := Exchange.synthesize_eq_error.1 hf
        obtain ⟨_, recovered⟩ := rest
        rw [Recovery.ends_recover_byDefault byDefault recovered]
        exact ⟨Exchange.hasResponse_renderFailure _ _, justOne_bodiless free hb⟩

/-- Without a custom renderer, a request that has been handled has a response,
which has come about in just one of the three ways; and it will be handled if
its handler returns and the hook that observes failures does not crash. -/
theorem requests_end_with_response (l : Lifecycle σ) (byDefault : l.recovery.renderer = none)
    (h : Handler σ) (s : Scheduler Exchange σ) :
    (∀ s', Ends (l.handle h) s () s' → s'.state.hasResponse = true ∧
      ∃ d s₁, Ends (l.dispatch h) s d s₁ ∧
        JustOne (Owns d s₁.state s'.state) (Declares d s₁.state s'.state)
          (Recovers d s₁.state s'.state)) ∧
    (l.recovery.Calm → ∀ d s₁, Ends (l.dispatch h) s d s₁ →
      ∃ s', Ends (l.handle h) s () s') := by
  constructor
  · intro s' handled
    obtain ⟨r, s₂, run, -⟩ := ends_handle.1 handled
    obtain ⟨d, s₁, ran, -⟩ := ends_run.1 run
    obtain ⟨response, one⟩ := justOne_of_ends byDefault ran handled
    exact ⟨response, d, s₁, ran, one⟩
  · intro calm d s₁ ran
    obtain ⟨r, s₂, run⟩ := exists_ends_run ran
    exact exists_ends_handle calm run

/-- A handler takes the exchange out, writes a status and a body, and fails. -/
theorem requests_end_with_response_unfinished :
    let l : Lifecycle Unit := ⟨.empty, .empty, {}⟩
    let h : Handler Unit := .plain fun _ =>
      .write (·.take.2) <| .write (·.setStatus 201) <| .write (·.setBody (.string "half")) <|
        .done (.error (.handler { message := "late", status := some 418 }))
    let s : Scheduler Exchange Unit := { state := {}, world := { own := () } }
    ∃ s', Ends (l.handle h) s () s' ∧ s'.state.hasResponse = true ∧
      s'.state.response.status = 418 ∧
      ∃ d s₁, Ends (l.dispatch h) s d s₁ ∧
        JustOne (Owns d s₁.state s'.state) (Declares d s₁.state s'.state)
          (Recovers d s₁.state s'.state) := by
  intro l h s
  have handled : Ends (l.handle h) s () _ := ⟨0, rfl⟩
  obtain ⟨response, one⟩ := (requests_end_with_response l rfl h s).1 _ handled
  exact ⟨_, handled, response, rfl, one⟩

end Lifecycle

end Switchboard
