import Switchboard.Proofs.Echo

/-!
# Switchboard.Proofs.SecurityHeaders

The security headers of a response.  Every response passes the layers, on
whatever path it has come about, and a layer that adds its header where there
is none leaves one value of it: the handler's own, if that has survived
rendering.

* `Exchange.sendable?` — what a handler has written under a name, if it can be
  sent;
* `Layer.values_foldl_ifNotPresent` — the layers of the security headers;
* `Router.Leaves` — the exchange that the response to a request is made from;
* `security_headers_everywhere` — the security headers of any response.
-/

namespace Switchboard

variable {σ : Type}

/-! ## What a handler has written -/

namespace Exchange

open Http

/-- The value that was written under a name, if a header can carry it. -/
def sendable? (x : Exchange) (name : String) : Option String :=
  (x.response.headers.get? name).filter isHeaderValue

/-- A header is written under its name in small letters; a value that cannot
be sent takes away the one that was there. -/
theorem sendable?_setHeader (x : Exchange) (name value : String) :
    (x.setHeader name value).sendable? (foldName name) =
      if isHeaderValue value then some value else none := by
  have written : (x.setHeader name value).response.headers.get? (foldName name) = some value :=
    Dict.get?_insert_self _ _ _
  rw [sendable?, written, Option.filter_some]

/-- What is rendered under the name of a security header is what the handler
has written. -/
theorem values_render_security (x : Exchange) {h : String × String}
    (hh : h ∈ Layer.securityHeaders) :
    x.render.headers.values h.1 = (x.sendable? h.1).toList := by
  have other : ∀ h ∈ Layer.securityHeaders,
      isHeaderName h.1 = true ∧ h.1 ≠ "set-cookie" ∧ h.1 ≠ "content-type" := by decide
  obtain ⟨valid, cookie, type⟩ := other h hh
  have implied : (renderBody (renderedStatus x.response.status) x.response.body).headers.values
      h.1 = [] := by
    unfold renderBody
    repeat' split
    all_goals simp [Fields.values, Response.plain, Response.bare, Response.json, type.symm]
  rw [values_render x cookie, implied, sendable?]
  simp only [valid, Bool.true_and]
  cases (x.response.headers.get? h.1).filter isHeaderValue <;> rfl

end Exchange

/-! ## Layers -/

namespace Http

/-- A header that is added where there is none has the values that were there,
or else the one that is added. -/
theorem Fields.values_insertIfAbsent_self (fs : Fields) (name value : String) :
    (fs.insertIfAbsent name value).values name =
      if fs.values name = [] then [value] else fs.values name := by
  have absent : fs.contains name = false ↔ fs.values name = [] := by
    simp [contains, values, List.filter_eq_nil_iff]
  unfold insertIfAbsent
  by_cases h : fs.values name = []
  · have appended : (fs.append name value).values name = fs.values name ++ [value] := by
      simp [values, append]
    rw [if_neg (by simp [absent.2 h]), if_pos h, appended, h, List.nil_append]
  · rw [if_pos (by simpa using mt absent.1 h), if_neg h]

/-- Layers of which each adds a header of its own where there is none. -/
theorem Layer.values_foldl_ifNotPresent {hs : List (String × String)}
    (distinct : (hs.map (·.1)).Nodup) (fs : Fields) {h : String × String} (hh : h ∈ hs) :
    ((hs.map fun h => (⟨.ifNotPresent, h.1, h.2⟩ : Layer)).foldl apply fs).values h.1 =
      if fs.values h.1 = [] then [h.2] else fs.values h.1 := by
  induction hs generalizing fs with
  | nil => cases hh
  | cons first rest ih =>
      obtain ⟨fresh, distinct⟩ := List.nodup_cons.1 distinct
      rw [List.map_cons, List.foldl_cons]
      rcases List.mem_cons.1 hh with rfl | hh
      · have others : ∀ l ∈ rest.map fun h => (⟨.ifNotPresent, h.1, h.2⟩ : Layer),
            l.name ≠ h.1 := by
          intro l hl same
          obtain ⟨k, hk, rfl⟩ := List.mem_map.1 hl
          exact fresh (List.mem_map.2 ⟨k, hk, same⟩)
        rw [values_foldl_apply others]
        exact Fields.values_insertIfAbsent_self fs h.1 h.2
      · have ne : first.1 ≠ h.1 := fun same => fresh (List.mem_map.2 ⟨h, hh, same.symm⟩)
        rw [ih distinct _ hh]
        simp only [apply, Fields.values_insertIfAbsent_of_ne fs first.2 ne]

end Http

/-! ## Responses on every path -/

namespace Server.Router

open Http Scheduler

variable {c : Config σ} {r : Router σ} {q : Request} {s s' : Scheduler Exchange σ} {x : Exchange}
  {response : Response}

/-- A response has under the name of a security header just what the handler
has written there. -/
def Own (x : Exchange) (response : Response) : Prop :=
  ∀ h ∈ Layer.securityHeaders, response.headers.values h.1 = (x.sendable? h.1).toList

/-- The security headers of a response: each stands there once, with the value
that the handler has written if it can be sent, and else with the usual one.
Where they are switched off, only what the handler has written stands there. -/
def Secured (c : Config σ) (x : Exchange) (response : Response) : Prop :=
  ∀ h ∈ Layer.securityHeaders, response.headers.values h.1 =
    if c.disableHelmet then (x.sendable? h.1).toList else [(x.sendable? h.1).getD h.2]

/-- The exchange that the response to a request is made from: the one that the
handler leaves, and recovery if it fails, or else one that nobody has
touched. -/
inductive Leaves (r : Router σ) (q : Request) (s : Scheduler Exchange σ) : Exchange → Prop
  | handled {h : Handler σ} {params : Dict String} {request : RequestSide}
      {s₁ : Scheduler Exchange σ}
      (found : r.routes.look q.method q.target.path = .handler h params)
      (accepted : r.parsing.requestSide params q = .ok request)
      (ends : Ends (r.lifecycle.handle h) { s with state := { request } } () s₁) :
      Leaves r q s s₁.state
  | rejected {h : Handler σ} {params : Dict String} {rejection : Rejection}
      (found : r.routes.look q.method q.target.path = .handler h params)
      (refused : r.parsing.requestSide params q = .error rejection) : Leaves r q s {}
  | otherMethod {allow : String}
      (found : r.routes.look q.method q.target.path = .otherMethod allow) : Leaves r q s {}
  | nothing (found : r.routes.look q.method q.target.path = .nothing) : Leaves r q s {}

/-! ### Up to the layers -/

theorem own_render (x : Exchange) : Own x x.render :=
  fun _ hh => x.values_render_security hh

/-- Nobody has written a header to a response that is made of a status and a
body of JSON, or of a status alone. -/
theorem own_rejection (rejection : Rejection) : Own {} rejection.response := by
  intro h hh
  have other : ∀ h ∈ Layer.securityHeaders, "content-type" ≠ h.1 := by decide
  have none_there : rejection.response.headers.values h.1 = [] := by
    simp [Rejection.response, Response.rejection, Response.json, Fields.values, other h hh]
  rw [none_there]
  rfl

theorem own_bare (status : Nat) : Own {} (.bare status) := fun _ _ => rfl

/-! ### Through the layers -/

/-- The length of the body and the allowed methods stand under other names. -/
theorem Own.withLength (own : Own x response) : Own x (withLength response) := by
  intro h hh
  have other : ∀ h ∈ Layer.securityHeaders, "content-length" ≠ h.1 := by decide
  rw [← own h hh]
  exact Fields.values_insertIfAbsent_of_ne _ _ (other h hh)

theorem Own.through (own : Own x response) (plain : c.middleware = []) :
    Secured c x (response.through c.layers) := by
  intro h hh
  have distinct : (Layer.securityHeaders.map (·.1)).Nodup := by decide
  rw [Response.through, Config.layers, plain, List.append_nil]
  split
  · exact own h hh
  · rw [Layer.security, Layer.values_foldl_ifNotPresent distinct _ hh, own h hh]
    cases x.sendable? h.1 <;> rfl

theorem Secured.withAllow (secured : Secured c x response) (allow : Option String) :
    Secured c x (withAllow allow response) := by
  intro h hh
  have other : ∀ h ∈ Layer.securityHeaders, "allow" ≠ h.1 := by decide
  rw [← secured h hh]
  cases allow with
  | none => rfl
  | some methods => exact Fields.values_insertIfAbsent_of_ne _ _ (other h hh)

/-- The head of a response has the headers of the response. -/
theorem Own.answer (own : Own x response) (plain : c.middleware = []) (method : String)
    (allow : Option String) : Secured c x (answer c.layers method allow response) := by
  have passed := (own.withLength.through plain).withAllow allow
  unfold Router.answer
  split <;> exact passed

/-! ### From the request to the response -/

/-- Whatever a request leaves, its response is made from that. -/
theorem Leaves.exists_ends (left : r.Leaves q s x) (plain : c.middleware = [])
    (layers : r.layers = c.layers) :
    ∃ response s', Ends (r.handle q) s response s' ∧ Secured c x response := by
  cases left with
  | @handled h params request s₁ found accepted ends =>
      refine ⟨_, _, ends_handle found ((ends_endpoint accepted).2 ⟨s₁, ends, rfl, rfl⟩), ?_⟩
      rw [layers]
      exact (own_render _).answer plain _ _
  | @rejected h params rejection found refused =>
      have turned_down : Ends (r.endpoint h params q) s rejection.response s := by
        rw [endpoint, refused]
        exact ends_done.2 ⟨rfl, rfl⟩
      refine ⟨_, _, ends_handle found turned_down, ?_⟩
      rw [layers]
      exact (own_rejection _).answer plain _ _
  | otherMethod found =>
      rw [handle, found]
      refine ⟨_, _, ends_done.2 ⟨rfl, rfl⟩, ?_⟩
      rw [layers]
      exact (own_bare _).answer plain _ _
  | nothing found =>
      rw [handle, found]
      refine ⟨_, _, ends_note.2 (ends_done.2 ⟨rfl, rfl⟩), ?_⟩
      rw [layers]
      exact (own_render _).withLength.through plain

/-- A request that is answered leaves an exchange. -/
theorem exists_leaves (ends : Ends (r.handle q) s response s') : ∃ x, r.Leaves q s x := by
  unfold handle at ends
  split at ends
  · next h params found =>
    obtain ⟨_, s₁, ends, -⟩ := ends_bind.1 ends
    cases accepted : r.parsing.requestSide params q with
    | error rejection => exact ⟨_, .rejected found accepted⟩
    | ok request =>
        obtain ⟨s₂, handled, -⟩ := (ends_endpoint accepted).1 ends
        exact ⟨_, .handled found accepted handled⟩
  · next found => exact ⟨_, .otherMethod found⟩
  · next found => exact ⟨_, .nothing found⟩

/-- The security headers stand on every response of a server without layers of
its own.  Whatever becomes of a request, and what it leaves in its exchange, it
is answered with a response that is secured for that exchange, and it is
answered in no other way.  An exchange that nobody has touched holds none of
these headers; a handler writes one under its name in letters of either case,
and a value that cannot be sent counts as none. -/
theorem security_headers_everywhere (plain : c.middleware = []) (mounted : ofConfig c = .ok r)
    (q : Request) (s : Scheduler Exchange σ) :
    (∀ x, r.Leaves q s x → ∃ response s', Ends (r.handle q) s response s' ∧ Secured c x response) ∧
    (∀ response s', Ends (r.handle q) s response s' →
      ∃ x, r.Leaves q s x ∧ Secured c x response) ∧
    ∀ name, ({} : Exchange).sendable? name = none ∧
      ∀ (x : Exchange) (spelled value : String), foldName spelled = name →
        (x.setHeader spelled value).sendable? name =
          if isHeaderValue value then some value else none := by
  have layers := (ofConfig_eq_ok mounted).2.2
  refine ⟨fun x left => left.exists_ends plain layers, ?_, fun name => ⟨rfl, ?_⟩⟩
  · intro response s' ends
    obtain ⟨x, left⟩ := exists_leaves ends
    obtain ⟨response', s'', ends', secured⟩ := left.exists_ends plain layers
    obtain ⟨rfl, -⟩ := ends.unique ends'
    exact ⟨x, left, secured⟩
  · rintro x spelled value rfl
    exact x.sendable?_setHeader spelled value

/-- Writes a value of its own for one of the headers, writes another that cannot
be sent, and fails. -/
private def framing : Handler Unit := .plain fun _ =>
  .write (·.setHeader "X-Frame-Options" "DENY") <|
    .write (·.setHeader "X-XSS-Protection" "1\n2") <| .done (.error (.ofMessage "oops"))

/-- A handler's own value stays, and one that cannot be sent does not count. -/
theorem security_headers_everywhere_own :
    let c : Config Unit := { routes := [⟨.get, "/page", framing⟩] }
    let s : Scheduler Exchange Unit := { state := {}, world := { own := () } }
    let q : Request := { target := ⟨"/page", none⟩ }
    ∃ r response s', ofConfig c = .ok r ∧ Ends (r.handle q) s response s' ∧
      response.headers.values "x-frame-options" = ["DENY"] ∧
      response.headers.values "x-xss-protection" = ["0"] ∧
      response.headers.values "x-download-options" = ["noopen"] := by
  intro c s q
  let r : Router Unit := ⟨⟨[("/page", [(.get, framing)])]⟩, c.lifecycle, c.parsing, c.layers⟩
  have mounted : ofConfig c = .ok r := rfl
  have found : r.routes.look "GET" "/page" = .handler framing .empty := by
    have pieces : Route.Piece.ofPath "/page" = [.text "/page".toList] := by decide +kernel
    rw [Route.Mounted.look, Route.Mounted.tree, List.foldl_cons, List.foldl_nil,
      Route.Tree.insert, Route.insertBelow, pieces]
    rfl
  obtain ⟨every, -⟩ := security_headers_everywhere rfl mounted q s
  obtain ⟨response, s', ends, secured⟩ := every _ (.handled found rfl ⟨0, rfl⟩)
  refine ⟨r, response, s', mounted, ends, ?_, ?_, ?_⟩
  · exact secured ("x-frame-options", "SAMEORIGIN") (by decide)
  · exact secured ("x-xss-protection", "0") (by decide)
  · exact secured ("x-download-options", "noopen") (by decide)

end Server.Router

end Switchboard
