import Switchboard.Exchange.Basic
import Switchboard.Http.Response
import Switchboard.Journal

/-!
# Switchboard.Exchange.Render

The response that an exchange amounts to.  Rendering never fails: a status
that no response can have becomes 500, and a header or a cookie that cannot be
sent is left out, each with a warning.  Headers that were written take the
place of the content type that the body implies; cookies come last.
-/

namespace Switchboard.Exchange

open Http

/-- The statuses that a response can have. -/
def isRenderable (status : UInt16) : Bool := 100 ≤ status && status ≤ 999

def renderedStatus (status : UInt16) : Nat := if isRenderable status then status.toNat else 500

/-- The response of a status and a body alone. -/
def renderBody (status : Nat) : Option Json → Response
  | none => if status = 404 then .plain status "Not Found" else .bare status
  | some (.string text) => .plain status text
  | some body => .json status body

def renderHeader (fields : Fields) (h : String × String) : Fields :=
  if isHeaderName h.1 && isHeaderValue h.2 then fields.insert h.1 h.2 else fields

def renderCookie (fields : Fields) (c : Cookie) : Fields :=
  match c.headerValue with
  | .ok value => fields.append "set-cookie" value
  | .error _ => fields

/-! ## Warnings -/

def statusWarnings (status : UInt16) : List LogRecord :=
  if isRenderable status then []
  else [⟨.warn, "invalid response status, rendering 500", [("status", .int status.toNat)]⟩]

def headerWarnings (h : String × String) : List LogRecord :=
  if isHeaderName h.1 && isHeaderValue h.2 then []
  else [⟨.warn, "dropping invalid response header", [("header", .string h.1)]⟩]

def cookieWarnings (c : Cookie) : List LogRecord :=
  match c.headerValue with
  | .ok _ => []
  | .error e =>
    [⟨.warn, "dropping invalid cookie",
      [("cookie", .string (Text.quoted c.name)), ("reason", .string e.message)]⟩]

/-- The warnings of rendering an exchange: about the status, about headers by
name, about cookies in order. -/
def warnings (x : Exchange) : List LogRecord :=
  statusWarnings x.response.status
    ++ x.response.headers.entries.flatMap headerWarnings
    ++ x.response.cookies.flatMap cookieWarnings

/-- The response that an exchange amounts to. -/
def render (x : Exchange) : Response :=
  let base := renderBody (renderedStatus x.response.status) x.response.body
  let fields := x.response.headers.entries.foldl renderHeader base.headers
  { base with headers := x.response.cookies.foldl renderCookie fields }

end Switchboard.Exchange
