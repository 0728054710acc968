import Switchboard.Proofs.Handling
import Switchboard.Server.Router

/-!
# Switchboard.Proofs.ErrorResponse

What a client sees of a failure.  The default rendering settles the status and
the body; the headers that the handler has written stay, and where a content
type is among them it takes the place of the one that the body implies.

* `values_render` — the values of a header in a rendered response;
* `ends_endpoint` — an endpoint handles the request and renders what is left;
* `failures_answered_as_json_iff` — the answer to a request that fails.
-/

namespace Switchboard

/-! ## Values of a header -/

namespace Http.Fields

@[simp] theorem values_insert_self (fs : Fields) (name value : String) :
    (fs.insert name value).values name = [value] := by
  have none_left : (fs.filter (·.1 ≠ name)).filter (·.1 = name) = [] := by
    simp [List.filter_filter]
  rw [values, insert, List.filter_append, none_left]
  simp

theorem values_insert_of_ne (fs : Fields) {key name : String} (value : String) (h : key ≠ name) :
    (fs.insert key value).values name = fs.values name := by
  have same : (fs.filter (·.1 ≠ key)).filter (·.1 = name) = fs.filter (·.1 = name) := by
    rw [List.filter_filter]
    refine List.filter_congr fun f _ => ?_
    by_cases hf : f.1 = name <;> simp [hf, Ne.symm h]
  rw [values, insert, List.filter_append, same]
  simp [values, h]

theorem values_append_of_ne (fs : Fields) {key name : String} (value : String) (h : key ≠ name) :
    (fs.append key value).values name = fs.values name := by
  simp [values, append, h]

end Http.Fields

/-! ## Rendered headers -/

namespace Exchange

open Http

/-- A header that was written and can be sent is the only one of its name, and
the others leave what is there. -/
theorem values_foldl_renderHeader {entries : List (String × String)} (h : SortedEntries entries)
    (fs : Fields) (name : String) :
    (entries.foldl renderHeader fs).values name =
      ((lookupEntry name entries).filter fun v => isHeaderName name && isHeaderValue v).elim
        (fs.values name) ([·]) := by
  induction entries generalizing fs with
  | nil => rfl
  | cons head rest ih =>
      obtain ⟨key, value⟩ := head
      obtain ⟨first, h⟩ := List.pairwise_cons.1 h
      rw [List.foldl_cons, ih h, lookupEntry]
      by_cases eq : name = key
      · subst eq
        -- The keys increase, so nothing behind the head has this name.
        rw [lookupEntry_eq_none_of_lt first, if_pos rfl]
        by_cases hv : (isHeaderName name && isHeaderValue value) = true
        · simp [renderHeader, Option.filter_some, hv]
        · simp [renderHeader, Option.filter_some, hv]
      · rw [if_neg eq]
        congr 1
        unfold renderHeader
        split
        · exact Fields.values_insert_of_ne fs value (Ne.symm eq)
        · rfl

theorem values_foldl_renderCookie (cookies : List Cookie) (fs : Fields) {name : String}
    (h : name ≠ "set-cookie") : (cookies.foldl renderCookie fs).values name = fs.values name := by
  induction cookies generalizing fs with
  | nil => rfl
  | cons c rest ih =>
      rw [List.foldl_cons, ih]
      unfold renderCookie
      split
      · exact Fields.values_append_of_ne fs _ (Ne.symm h)
      · rfl

/-- The values of a header other than cookies: what was written, if it can be
sent, and else what the body implies. -/
theorem values_render (x : Exchange) {name : String} (h : name ≠ "set-cookie") :
    x.render.headers.values name =
      ((x.response.headers.get? name).filter fun v => isHeaderName name && isHeaderValue v).elim
        ((renderBody (renderedStatus x.response.status) x.response.body).headers.values name)
        ([·]) := by
  rw [render, values_foldl_renderCookie _ _ h, values_foldl_renderHeader x.response.headers.sorted]
  rfl

theorem renderedStatus_eq (n : UInt16) :
    renderedStatus n = if 100 ≤ n ∧ n ≤ 999 then n.toNat else 500 := by
  simp [renderedStatus, isRenderable]

/-- The content type of a failure that is rendered by default. -/
theorem contentType_renderFailure (x : Exchange) (e : Envelope) :
    (x.renderFailure e).render.headers.values "content-type" =
      [((x.response.headers.get? "content-type").filter isHeaderValue).getD
        "application/json"] := by
  have name_ok : isHeaderName "content-type" = true := by decide
  rw [values_render _ (by decide)]
  simp only [name_ok, Bool.true_and]
  change (Option.filter _ (x.response.headers.get? "content-type")).elim ["application/json"] _ = _
  cases (x.response.headers.get? "content-type").filter isHeaderValue <;> rfl

end Exchange

/-! ## Endpoints -/

namespace Server.Router

open Http Scheduler Lifecycle

variable {σ : Type} {r : Router σ} {h : Handler σ} {params : Dict String} {q : Request}
  {request : RequestSide} {s s' s₁ : Scheduler Exchange σ} {e : Envelope} {response : Response}

/-- An endpoint handles a request that can be read, and renders the exchange
that is left. -/
theorem ends_endpoint (accepted : r.parsing.requestSide params q = .ok request) :
    Ends (r.endpoint h params q) s response s' ↔
      ∃ s₁, Ends (r.lifecycle.handle h) { s with state := { request } } () s₁ ∧
        response = s₁.state.render ∧
        s' = { s₁ with state := {}, world := s₁.world.log s₁.state.warnings } := by
  rw [endpoint, accepted]
  constructor
  · intro ends
    obtain ⟨⟨⟩, s₁, handled, rest⟩ := ends_bind.1 ends
    exact ⟨s₁, handled, ends_done.1 rest⟩
  · rintro ⟨s₁, handled, rest⟩
    exact ends_bind.2 ⟨(), s₁, handled, ends_done.2 rest⟩

/-- What is rendered of a request that has failed. -/
theorem response_of_failed (byDefault : r.lifecycle.recovery.renderer = none)
    (accepted : r.parsing.requestSide params q = .ok request)
    (failed : Ends (r.lifecycle.run h) { s with state := { request } } (.error e) s₁)
    (ends : Ends (r.endpoint h params q) s response s') :
    response = (s₁.state.renderFailure e).render := by
  obtain ⟨s₂, handled, rfl, -⟩ := (ends_endpoint accepted).1 ends
  obtain ⟨d, s₃, ran, rest⟩ := ends_handle.1 handled
  obtain ⟨rfl, rfl⟩ := ran.unique failed
  obtain ⟨rendered, recovered⟩ := rest
  rw [Recovery.ends_recover_byDefault byDefault recovered]

/-- A request that fails is answered with the failure's status, if a response
can have it, and with its message as JSON, whatever the handler has written.
The response is declared as JSON just when the handler has left no other content
type that can be sent: one that it has left is kept. -/
theorem failures_answered_as_json_iff (byDefault : r.lifecycle.recovery.renderer = none)
    (accepted : r.parsing.requestSide params q = .ok request)
    (failed : Ends (r.lifecycle.run h) { s with state := { request } } (.error e) s₁) :
    (r.lifecycle.recovery.Calm → ∃ response s', Ends (r.endpoint h params q) s response s') ∧
    ∀ response s', Ends (r.endpoint h params q) s response s' →
      response.status = (e.status.filter fun n => 100 ≤ n ∧ n ≤ 999).elim 500 UInt16.toNat ∧
      response.body = (Json.object [("message", .string e.message)]).text ∧
      response.headers.values "content-type" =
        [((s₁.state.response.headers.get? "content-type").filter isHeaderValue).getD
          "application/json"] ∧
      (response.headers.values "content-type" = ["application/json"] ↔
        ∀ value, s₁.state.response.headers.get? "content-type" = some value →
          isHeaderValue value = true → value = "application/json") := by
  constructor
  · intro calm
    obtain ⟨s₂, handled⟩ := exists_ends_handle calm failed
    exact ⟨_, _, (ends_endpoint accepted).2 ⟨s₂, handled, rfl, rfl⟩⟩
  · intro response s' ends
    obtain rfl := response_of_failed byDefault accepted failed ends
    refine ⟨?_, rfl, Exchange.contentType_renderFailure _ e, ?_⟩
    · change Exchange.renderedStatus (e.status.getD 500) = _
      rw [Exchange.renderedStatus_eq]
      cases e.status with
      | none => rfl
      | some n => by_cases hn : 100 ≤ n ∧ n ≤ 999 <;> simp [Option.filter_some, hn]
    · rw [Exchange.contentType_renderFailure]
      cases s₁.state.response.headers.get? "content-type" with
      | none => simp
      | some value =>
          by_cases hv : isHeaderValue value = true <;> simp [Option.filter_some, hv]

/-- A handler writes part of a page and fails: the failure is sent as JSON and
declared as a page. -/
theorem failures_answered_as_json_iff_page :
    let r : Router Unit := ⟨{}, ⟨.empty, .empty, {}⟩, {}, []⟩
    let h : Handler Unit := .plain fun _ =>
      .write (·.write (.header "Content-Type" "text/html")) <|
        .write (·.write (.body (.string "<p>"))) <| .done (.error (.ofMessage "oops"))
    let s : Scheduler Exchange Unit := { state := {}, world := { own := () } }
    ∃ response s', Ends (r.endpoint h .empty {}) s response s' ∧ response.status = 500 ∧
      response.body = (Json.object [("message", .string "oops")]).text ∧
      response.headers.values "content-type" = ["text/html"] := by
  intro r h s
  have accepted : r.parsing.requestSide .empty {} = .ok {} := rfl
  have failed : Ends (r.lifecycle.run h) { s with state := {} }
    (.error { failure := .ofMessage "oops" }) _ := ⟨0, rfl⟩
  have ends : Ends (r.endpoint h .empty {}) s _ _ := ⟨0, rfl⟩
  obtain ⟨status, body, types, -⟩ :=
    (failures_answered_as_json_iff rfl accepted failed).2 _ _ ends
  exact ⟨_, _, ends, status, body, types⟩

end Server.Router

end Switchboard
