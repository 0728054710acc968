import Switchboard.Demo.Handlers
import Switchboard.Proofs.ContentType
import Switchboard.Proofs.ErrorResponse
import Switchboard.Proofs.JsonText
import Switchboard.Proofs.Performing
import Switchboard.Proofs.ReturnedCookies

/-!
# Switchboard.Proofs.Echo

A value through a server and back.  It comes in as a body that is declared as
JSON, in a field that is readable, and goes out as the body of the response.

* `Request.Carries` — which requests carry a value, and `Carries.requestSide`,
  that a handler is given this value;
* `ends_run_echo` — the echo handler writes the body of its request;
* `Response.Echoes` — which responses give a value back;
* `echo_gives_back` — from the request to the answer.
-/

namespace Switchboard

variable {σ : Type}

/-! ## Requests that carry a value -/

namespace Http

/-- A request carries a value: it sends the text of the value, in any chunks
and behind a readable field that says JSON, or it has no body at all, and the
value is null. -/
inductive Request.Carries (q : Request) : Json → Prop where
  | text (v : Json) (chunks : List Bytes) (body : q.body = chunks.map .octets)
      (whole : chunks.flatten = Utf8.encode v.text)
      (fits : (Utf8.encode v.text).length ≤ bodyLimit)
      (field : Bytes) (declared : q.declared? = some field) (json : SaysJson field)
      (readable : ∀ b ∈ field, Header.isReadable b = true) : Carries q v
  | nothing (chunks : List Bytes) (body : q.body = chunks.map .octets)
      (whole : chunks.flatten = []) : Carries q .null

/-- The chunks of a body that is not too large are put together. -/
theorem collectBody_octets (limit size : Nat) (pieces chunks : List Bytes)
    (fits : size + chunks.flatten.length ≤ limit) :
    collectBody limit size pieces (chunks.map .octets) =
      .ok (pieces.reverse.flatten ++ chunks.flatten) := by
  induction chunks generalizing size pieces with
  | nil => simp [collectBody]
  | cons bs chunks ih =>
    rw [List.flatten_cons, List.length_append] at fits
    rw [List.map_cons, collectBody, if_neg (by omega), ih _ _ (by omega), List.reverse_cons,
      List.flatten_append, List.flatten_singleton, List.flatten_cons, List.append_assoc]

theorem readBody_octets {chunks : List Bytes} (fits : chunks.flatten.length ≤ bodyLimit) :
    readBody (chunks.map .octets) = .ok chunks.flatten :=
  collectBody_octets bodyLimit 0 [] chunks (by rwa [Nat.zero_add])

variable {p : Parsing} {params : Dict String} {q : Request} {v : Json}

/-- The text of a value that is declared as JSON is read as this value: it is
never empty, so that null is not taken for a body that is missing. -/
theorem parseBody_text {contentType : String}
    (json : MediaKind.ofContentType contentType = .json) (readable : v.Readable Json.nestingLimit) :
    parseBody contentType (Utf8.encode v.text) = .ok v := by
  have nonempty : (Utf8.encode v.text).isEmpty = false := by
    obtain ⟨b, bs, first, -⟩ := Json.octets_chars v
    rw [Utf8.encode_eq, Json.text, String.toList_ofList, first]
    rfl
  rw [parseBody, nonempty, json]
  simp only [Json.readOrMessage, Json.read_text readable]
  rfl

/-- Without a content type, what is not empty is a string. -/
theorem parseBody_undeclared {bs : Bytes} (nonempty : bs.isEmpty = false) :
    parseBody "" bs = .ok (.string (Utf8.decodeLossy bs)) := by
  have text : MediaKind.ofContentType "" = .text := by decide +kernel
  rw [parseBody, nonempty, text]
  rfl

/-- The handler is given what the body is read as. -/
theorem Parsing.requestSide_of_body {bs : Bytes} (parsed : p.body = true)
    (collected : readBody q.body = .ok bs) (value : parseBody q.contentType bs = .ok v) :
    ∃ request, p.requestSide params q = .ok request ∧ request.body = v := by
  have bound : Except.ok bs >>= parseBody q.contentType = .ok v := value
  rw [requestSide, parsed, if_pos rfl, collected, bound]
  exact ⟨_, rfl, rfl⟩

/-- The handler of a request that carries a value is given this value. -/
theorem Request.Carries.requestSide (h : q.Carries v) (parsed : p.body = true)
    (readable : v.Readable Json.nestingLimit) :
    ∃ request, p.requestSide params q = .ok request ∧ request.body = v := by
  cases h with
  | text v chunks body whole fits field declared json shown =>
    rw [← whole] at fits
    refine p.requestSide_of_body parsed (body ▸ readBody_octets fits) ?_
    rw [whole, Request.contentType_of_readable declared shown]
    exact parseBody_text json.kind readable
  | nothing chunks body whole =>
    have fits : chunks.flatten.length ≤ bodyLimit := by
      rw [whole]
      exact Nat.zero_le _
    refine p.requestSide_of_body parsed (body ▸ readBody_octets fits) ?_
    rw [whole]
    rfl

end Http

/-! ## The echo command -/

/-- A base command that is not overridden is answered by its base resolver. -/
theorem Server.Config.registry_base {c : Server.Config σ} {name : String} {resolver : Resolver σ}
    (base : (name, resolver) ∈ Base.interpreters) (kept : name ∉ c.interpreters.names) :
    c.registry.get? name = some resolver := by
  have distinct : ((Base.interpreters (σ := σ)).map (·.1)).Nodup := by
    show ["echo", "now", "random_number", "ulid", "log_info", "log_error", "sleep"].Nodup
    decide
  have standing : (Dict.empty.insertAll Base.interpreters).get? name = some resolver :=
    (Dict.get?_insertAll_of_nodup distinct _ _ _).mpr (.inl base)
  rw [← standing]
  exact Dict.get?_insertAll_of_not_mem kept _

namespace Lifecycle

open Scheduler

variable {l : Lifecycle σ} {s : Scheduler Exchange σ}

/-- The echo handler writes the body of its request as the body of the
response. -/
theorem ends_run_echo (base : l.registry.get? "echo" = some Base.echoResolver)
    (free : s.state.hasResponse = false) (unused : s.outcome? s.nextTicket = none)
    (kept : s.dropped s.nextTicket = false) :
    ∃ s', Ends (l.run (.script Demo.echo)) s (.ok .written) s' ∧
      s'.state = (s.state.setStatus 200).setBody s.state.request.body := by
  let v := s.state.request.body
  have known : (l.registry.surroundings l.ambient).resolve? (Base.echo v) =
      some (.done (.ok v)) := by
    show (l.registry.get? "echo").map _ = _
    rw [base]
    rfl
  obtain ⟨s₁, state, ends⟩ := ends_interpret_perform
    (fun r => r.map fun v => some (Reply.send v)) known rfl unused kept
  have ran : Ends (l.dispatch (.script Demo.echo)) s (.ok (some (.send v))) s₁ :=
    dispatch_script.mpr ⟨_, ends, rfl⟩
  have written : s₁.state.synthesize (some (.send v)) =
      .ok (.written, (s.state.setStatus 200).setBody v) := by
    rw [state, Exchange.synthesize_written free rfl]
    rfl
  exact ⟨_, ends_run.mpr ⟨_, s₁, ran, ends_respond.mpr (.inl ⟨_, _, written, rfl, rfl⟩)⟩, rfl⟩

end Lifecycle

/-! ## Responses -/

namespace Http

/-- A response gives a value back: a string as it is, as plain text, and any
other value as its compact text, as JSON. -/
structure Response.Echoes (r : Response) (v : Json) : Prop where
  status : r.status = 200
  string : ∀ t, v = .string t →
    r.body = t ∧ r.headers.values "content-type" = ["text/plain; charset=utf-8"]
  other : (∀ t, v ≠ .string t) →
    r.body = v.text ∧ r.headers.values "content-type" = ["application/json"]

/-- What is rendered of a body alone. -/
theorem echoes_render (request : RequestSide) (v : Json) :
    ((({ request } : Exchange).setStatus 200).setBody v).render.Echoes v where
  status := by cases v <;> rfl
  string t h := by
    rw [h]
    exact ⟨rfl, rfl⟩
  other h := by
    cases v with
    | string t => exact absurd rfl (h t)
    | _ => exact ⟨rfl, rfl⟩

variable {r r' : Response} {v : Json}

theorem Response.Echoes.of_eq (h : r.Echoes v) (status : r'.status = r.status)
    (body : r'.body = r.body)
    (types : r'.headers.values "content-type" = r.headers.values "content-type") :
    r'.Echoes v where
  status := status.trans h.status
  string t ht := by
    rw [body, types]
    exact h.string t ht
  other ht := by
    rw [body, types]
    exact h.other ht

theorem Fields.values_insertIfAbsent_of_ne (fs : Fields) {key name : String} (value : String)
    (h : key ≠ name) : (fs.insertIfAbsent key value).values name = fs.values name := by
  unfold insertIfAbsent
  split
  · rfl
  · exact values_append_of_ne fs value h

/-- Layers leave the headers alone that they do not name. -/
theorem Layer.values_foldl_apply {layers : List Layer} {name : String}
    (h : ∀ l ∈ layers, l.name ≠ name) (fs : Fields) :
    (layers.foldl Layer.apply fs).values name = fs.values name := by
  induction layers generalizing fs with
  | nil => rfl
  | cons l layers ih =>
    obtain ⟨hl, hs⟩ := List.forall_mem_cons.mp h
    rw [List.foldl_cons, ih hs, Layer.apply]
    split
    · exact Fields.values_insert_of_ne fs l.value hl
    · exact Fields.values_insertIfAbsent_of_ne fs l.value hl
    · exact Fields.values_append_of_ne fs l.value hl

end Http

/-! ## The echo of a request -/

namespace Server.Router

open Http Scheduler

variable {c : Config σ} {r : Router σ} {q : Request} {params : Dict String} {v : Json}
  {s s' : Scheduler Exchange σ} {response : Response}

/-- A matched request is answered with what its endpoint has come to. -/
theorem ends_handle {h : Handler σ}
    (found : r.routes.look q.method q.target.path = .handler h params)
    (ends : Ends (r.endpoint h params q) s response s') :
    Ends (r.handle q) s (answer r.layers q.method none response) s' := by
  rw [handle, found]
  exact ends_bind.mpr ⟨response, s', ends, ends_done.mpr ⟨rfl, rfl⟩⟩

theorem answer_echoes {layers : List Layer} {method : String} (get : method ≠ "HEAD")
    (others : ∀ l ∈ layers, l.name ≠ "content-type") (h : response.Echoes v) :
    (answer layers method none response).Echoes v := by
  rw [answer, if_neg get]
  refine h.of_eq rfl rfl ?_
  show (layers.foldl Layer.apply (withLength response).headers).values "content-type" = _
  rw [Layer.values_foldl_apply others]
  exact Fields.values_insertIfAbsent_of_ne _ _ (by decide)

theorem ends_endpoint_echo (base : r.lifecycle.registry.get? "echo" = some Base.echoResolver)
    {request : RequestSide} (accepted : r.parsing.requestSide params q = .ok request)
    (unused : s.outcome? s.nextTicket = none) (kept : s.dropped s.nextTicket = false) :
    ∃ response s', Ends (r.endpoint (.script Demo.echo) params q) s response s' ∧
      response.Echoes request.body := by
  obtain ⟨s₁, ran, state⟩ := Lifecycle.ends_run_echo (s := { s with state := { request } })
    base rfl unused kept
  refine ⟨s₁.state.render, _, (ends_endpoint accepted).mpr
    ⟨s₁, Lifecycle.ends_handle.mpr ⟨_, s₁, ran, rfl⟩, rfl, rfl⟩, ?_⟩
  rw [state]
  exact echoes_render request request.body

/-- What a server knows is what its configuration says. -/
theorem ofConfig_eq_ok (mounted : ofConfig c = .ok r) :
    r.lifecycle = c.lifecycle ∧ r.parsing = c.parsing ∧ r.layers = c.layers := by
  unfold ofConfig at mounted
  cases hm : Route.Mounted.ofRoutes c.routes with
  | error f =>
    rw [hm] at mounted
    cases mounted
  | ok routes =>
    rw [hm] at mounted
    cases mounted
    exact ⟨rfl, rfl, rfl⟩

/-- A route that echoes the body of a request gives back the value that the
request carries, and an empty body is null.  The layers of the server are given
this response; it is the answer, unless one of them says otherwise or only the
head of it is asked for.  Of the doubles in the value it has to be known that
they read back from their own texts, and of the scheduler that nobody has
dropped an emission before it is made. -/
theorem echo_gives_back (mounted : ofConfig c = .ok r) (base : "echo" ∉ c.interpreters.names)
    (parsed : c.disableBodyParser = false)
    (found : r.routes.look q.method q.target.path = .handler (.script Demo.echo) params)
    (well : v.WellFormed) (deep : v.depth ≤ 127) (back : ∀ x ∈ v.reals, Json.ReadsBack x)
    (carried : q.Carries v) (hs : Reachable s) (kept : s.dropped s.nextTicket = false) :
    ∃ response s', Ends (r.endpoint (.script Demo.echo) params q) s response s' ∧
      response.Echoes v ∧
      Ends (r.handle q) s (answer r.layers q.method none response) s' ∧
      (q.method ≠ "HEAD" → (∀ l ∈ c.middleware, l.name ≠ "content-type") →
        (answer r.layers q.method none response).Echoes v) := by
  obtain ⟨lifecycle, parsing, layers⟩ := ofConfig_eq_ok mounted
  have resolver : r.lifecycle.registry.get? "echo" = some Base.echoResolver := by
    rw [lifecycle]
    exact Config.registry_base List.mem_cons_self base
  have body : r.parsing.body = true := by
    rw [parsing]
    show (!c.disableBodyParser) = true
    rw [parsed]
    rfl
  have reading : ∃ request, r.parsing.requestSide params q = .ok request ∧ request.body = v :=
    carried.requestSide body ⟨well, deep, back⟩
  obtain ⟨request, accepted, rfl⟩ := reading
  obtain ⟨response, s', ends, echoes⟩ :=
    ends_endpoint_echo resolver accepted hs.rests.1.outcome?_next kept
  refine ⟨response, s', ends, echoes, ends_handle found ends, ?_⟩
  intro get others
  refine answer_echoes get ?_ echoes
  rw [layers]
  intro l hl
  obtain security | configured := List.mem_append.mp hl
  · have own : ∀ l ∈ Layer.security, l.name ≠ "content-type" := by decide
    split at security
    · cases security
    · exact own l security
  · exact others l configured

/-- A server with nothing but this route finds it. -/
theorem look_echo :
    (⟨[("/echo", [(.post, .script Demo.echo)])]⟩ : Route.Mounted σ).look "POST" "/echo" =
      .handler (.script Demo.echo) .empty := by
  have pieces : Route.Piece.ofPath "/echo" = [.text "/echo".toList] := by decide +kernel
  rw [Route.Mounted.look, Route.Mounted.tree, List.foldl_cons, List.foldl_nil,
    Route.Tree.insert, Route.insertBelow, pieces]
  rfl

/-- An object that holds the double 1.5 is sent in pieces and declared as some
type of JSON. -/
theorem echo_gives_back_pieces :
    let c : Config Unit := { routes := [⟨.post, "/echo", .script Demo.echo⟩] }
    let x : Binary64 := ⟨false, 3 <<< 51, -52⟩
    let v : Json := .object [("a", .array [.null, .int (-1), .real x]), ("b", .string "é")]
    let field := Utf8.encode "Application/Problem+JSON; charset=utf-8"
    let q : Request :=
      { method := "POST"
        target := ⟨"/echo", none⟩
        headers := [⟨"content-type", field⟩]
        body := [.octets ((Utf8.encode v.text).take 7), .octets [],
          .octets ((Utf8.encode v.text).drop 7)] }
    let s : Scheduler Exchange Unit := { state := {}, world := { own := () } }
    ∃ r response s', ofConfig c = .ok r ∧ Ends (r.handle q) s response s' ∧
      response.status = 200 ∧ response.body = v.text ∧
      response.headers.values "content-type" = ["application/json"] := by
  intro c x v field q s
  let r : Router Unit :=
    ⟨⟨[("/echo", [(.post, .script Demo.echo)])]⟩, c.lifecycle, c.parsing, c.layers⟩
  have mounted : ofConfig c = .ok r := rfl
  have well : v.WellFormed := by
    have sorted : SortedEntries
        [("a", Json.array [.null, .int (-1), .real x]), ("b", .string "é")] := by
      have first : "a" < "b" := by decide +kernel
      exact .cons (fun e he => List.mem_singleton.mp he ▸ first) (List.pairwise_singleton _ _)
    have word : Json.FitsWord (-1) := by decide
    have canonical : x.magnitude.Canonical := ⟨by decide, by decide, by decide, .inl (by decide)⟩
    exact ⟨sorted, ⟨trivial, word, canonical, trivial⟩, trivial, trivial⟩
  have back : ∀ x ∈ v.reals, Json.ReadsBack x := by decide +kernel
  have carried : q.Carries v := by
    have json : SaysJson field :=
      ⟨[], Utf8.encode "Application/Problem+JSON", [], Utf8.encode "; charset=utf-8",
        by decide +kernel, by simp, by decide +kernel, by decide +kernel, .inr (by decide +kernel)⟩
    refine .text v [(Utf8.encode v.text).take 7, [], (Utf8.encode v.text).drop 7] rfl ?_ ?_
      field rfl json (by decide +kernel)
    · simp
    · decide +kernel
  obtain ⟨response, s', -, -, ends, echoes⟩ := echo_gives_back mounted List.not_mem_nil rfl
    look_echo well (by decide) back carried (.fresh {} _) rfl
  have answered := echoes (by decide) (by intro l hl; cases hl)
  obtain ⟨body, types⟩ := answered.other fun t ht => Json.noConfusion ht
  exact ⟨r, _, s', mounted, ends, answered.status, body, types⟩

/-- A parameter that is not readable hides the media type in front of it: an object
that is sent as JSON comes back as a string, although its text is the same. -/
theorem unreadable_parameter_hides_json :
    let c : Config Unit := { routes := [⟨.post, "/echo", .script Demo.echo⟩] }
    let v : Json := .object [("a", .int 1)]
    let field := Utf8.encode "application/json; charset=é"
    let q : Request :=
      { method := "POST"
        target := ⟨"/echo", none⟩
        headers := [⟨"content-type", field⟩]
        body := [.octets (Utf8.encode v.text)] }
    let s : Scheduler Exchange Unit := { state := {}, world := { own := () } }
    v.WellFormed ∧ q.declared? = some field ∧ SaysJson field ∧
      ∃ r response s', ofConfig c = .ok r ∧ Ends (r.handle q) s response s' ∧
        response.status = 200 ∧ response.body = v.text ∧
        response.headers.values "content-type" = ["text/plain; charset=utf-8"] ∧
        ¬ response.Echoes v := by
  intro c v field q s
  have well : v.WellFormed := by
    have word : Json.FitsWord 1 := by decide
    exact ⟨List.pairwise_singleton _ _, word, trivial⟩
  have json : SaysJson field :=
    ⟨[], Utf8.encode "application/json", [], Utf8.encode "; charset=é", by decide +kernel, by simp,
      by decide +kernel, by decide +kernel, .inl (by decide +kernel)⟩
  have string : parseBody q.contentType (Utf8.encode v.text) =
      .ok (.string (Utf8.decodeLossy (Utf8.encode v.text))) := by
    have hidden : ∃ b ∈ field, Header.isReadable b = false := by decide +kernel
    have undeclared : q.contentType = "" := Request.contentType_of_unreadable rfl hidden
    rw [undeclared]
    exact parseBody_undeclared (by decide +kernel)
  have collected : readBody q.body = .ok (Utf8.encode v.text) := by decide +kernel
  obtain ⟨request, accepted, body⟩ : ∃ request,
      c.parsing.requestSide .empty q = .ok request ∧ request.body = .string _ :=
    c.parsing.requestSide_of_body rfl collected string
  let r : Router Unit :=
    ⟨⟨[("/echo", [(.post, .script Demo.echo)])]⟩, c.lifecycle, c.parsing, c.layers⟩
  have base : r.lifecycle.registry.get? "echo" = some Base.echoResolver :=
    Config.registry_base (c := c) List.mem_cons_self List.not_mem_nil
  obtain ⟨response, s', ends, echoes⟩ := ends_endpoint_echo (r := r) (s := s) base accepted rfl rfl
  have answered : (answer r.layers "POST" none response).Echoes request.body :=
    answer_echoes (by decide) (by decide) echoes
  rw [body] at answered
  obtain ⟨text, types⟩ := answered.string _ rfl
  refine ⟨well, rfl, json, r, _, s', rfl, ends_handle look_echo ends, answered.status, ?_, types,
    ?_⟩
  · rw [text]
    decide +kernel
  · intro h
    have := (h.other fun t ht => Json.noConfusion ht).2
    rw [types] at this
    exact absurd this (by decide)

end Server.Router

end Switchboard
