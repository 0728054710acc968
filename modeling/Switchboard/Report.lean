import Switchboard.Exchange.Basic
import Switchboard.Failure
import Switchboard.Http.Response

/-!
# Switchboard.Report

How failures, exchanges and responses show themselves as JSON: in the journal,
and to a step that catches a failure.
-/

namespace Switchboard

/-! ## Failures -/

def TransportFailure.kind : TransportFailure → String
  | .bind _ _ => "Bind"
  | .serve _ => "Serve"
  | .join _ => "Join"
  | .alreadyListening _ => "AlreadyListening"
  | .stopped => "Stopped"

/-- The name of the kind of a failure. -/
def Failure.kind : Failure → String
  | .unknownCommand _ => "UnknownCommand"
  | .missingBody => "MissingResponseBody"
  | .handler _ => "Handler"
  | .decode _ => "Decode"
  | .detached => "Detached"
  | .transport f => "Transport." ++ f.kind

private def statusJson : Option UInt16 → Json
  | none => .null
  | some status => .int status.toNat

/-- The members that stand for a failure: a status only where one is asked
for. -/
def Failure.members (f : Failure) : List (String × Json) :=
  [("error", .string f.kind), ("message", .string f.message), ("status", statusJson f.status)]

def Failure.toJson (f : Failure) : Json := .ofMembers f.members

/-- A failure in its envelope: the context that is attached is listed. -/
def Envelope.toJson (e : Envelope) : Json :=
  .ofMembers (("ambient", .array (e.ambient.map (·.value)).toList) :: e.failure.members)

/-- A value or a failure. -/
def resultJson : Except Failure Json → Json
  | .ok v => .object [("ok", v)]
  | .error f => .object [("err", f.toJson)]

/-! ## Exchanges and responses -/

/-- The response side of an exchange. -/
def Exchange.stateJson (x : Exchange) : Json :=
  .ofMembers <|
    [("status", .int x.response.status.toNat), ("has_response", .bool x.hasResponse),
     ("headers", .ofTexts x.response.headers),
     ("cookies", .array (x.response.cookies.map (·.toJson)))]
    ++ (x.response.body.map ("body", ·)).toList

/-- The request side of an exchange, with its body as text. -/
def RequestSide.toJson (r : RequestSide) : Json :=
  .ofMembers
    [("query", .ofTexts r.query), ("params", .ofTexts r.params), ("headers", .ofTexts r.headers),
     ("cookies", .ofTexts r.cookies), ("body_json", .string r.body.text)]

/-- Header fields by name; those of one name stay in their order. -/
def Http.Fields.sorted (fs : Http.Fields) : Http.Fields :=
  fs.mergeSort fun a b => !decide (b.1 < a.1)

/-- A rendered response. -/
def Http.Response.toJson (r : Http.Response) : Json :=
  .ofMembers
    [("status", .ofNat r.status), ("body", .string r.body),
     ("headers", .array (r.headers.sorted.map fun h => .array [.string h.1, .string h.2]))]

end Switchboard
