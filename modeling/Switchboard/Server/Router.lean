import Switchboard.Exchange.Render
import Switchboard.Route.Mount
import Switchboard.Server.Config

/-!
# Switchboard.Server.Router

Requests through a server, from the target to the finished response.  A
request is read, handled and rendered under the route that it matches.  A
path that no route knows is answered like an exchange that nobody touched, and
a method that its path does not know is answered with those that it does.
The length of a response is set before it passes the layers.
-/

namespace Switchboard.Server

open Http Route

structure Router (σ : Type) where
  routes : Mounted σ
  lifecycle : Lifecycle σ
  parsing : Parsing
  layers : List Layer

namespace Router

variable {σ : Type}

/-- Mount the routes of a configuration. -/
def ofConfig (c : Config σ) : Except MountFault (Router σ) :=
  (Mounted.ofRoutes c.routes).map fun routes => ⟨routes, c.lifecycle, c.parsing, c.layers⟩

/-- Take the exchange out and render it, with the warnings in the log. -/
def renderExchange : Lifecycle.Step σ Response :=
  .look fun _ x _ => .write (·.take.2) <| .note (·.log x.warnings) <| .done x.render

/-- The response of a handler to a request. -/
def endpoint (r : Router σ) (h : Handler σ) (params : Dict String) (q : Request) :
    Lifecycle.Step σ Response :=
  match r.parsing.requestSide params q with
  | .error rejection => .done rejection.response
  | .ok request =>
    .write (fun _ => { request }) <| (r.lifecycle.handle h).bind fun () => renderExchange

/-- The length of a response's body, in octets. -/
def contentLength (r : Response) : String := toString r.body.utf8ByteSize

/-- Say how long the body is, unless the handler has. -/
def withLength (r : Response) : Response :=
  { r with headers := r.headers.insertIfAbsent "content-length" (contentLength r) }

/-- Say which methods are allowed, unless a layer has. -/
def withAllow (allow : Option String) (r : Response) : Response :=
  match allow with
  | none => r
  | some methods => { r with headers := r.headers.insertIfAbsent "allow" methods }

/-- A response of a path that is known: the head of it has no body. -/
def answer (layers : List Layer) (method : String) (allow : Option String) (r : Response) :
    Response :=
  let r := withAllow allow ((withLength r).through layers)
  if method = "HEAD" then { r with body := "" } else r

/-- Answer a request. -/
def handle (r : Router σ) (q : Request) : Lifecycle.Step σ Response :=
  match r.routes.look q.method q.target.path with
  | .handler h params => (r.endpoint h params q).bind fun response =>
      .done (answer r.layers q.method none response)
  | .otherMethod allow => .done (answer r.layers q.method (some allow) (.bare 405))
  | .nothing =>
    .note (·.log ({} : Exchange).warnings) <|
      .done ((withLength ({} : Exchange).render).through r.layers)

end Router

end Switchboard.Server
