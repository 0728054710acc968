import Switchboard.Base
import Switchboard.Exchange.Basic
import Switchboard.Json.Shape
import Switchboard.Reply

/-!
# Switchboard.Workflow.Description

The parts of a workflow as its author describes them in JSON: commands,
cookies, replies and failures.  A description that makes no sense is refused
with a message.
-/

namespace Switchboard.Workflow

/-- What a description stands for, or what is wrong with it. -/
abbrev Described (α : Type) := Except String α

/-! ## Members -/

def required (v : Json) (key : String) : Described Json :=
  match v.member? key with
  | some x => .ok x
  | none => .error (Json.missingField key)

def textAt (v : Json) (key : String) : Described String := (required v key).bind Json.asText

/-- An unsigned integer of 64 bits. -/
def asCount (v : Json) : Described Nat :=
  match v.unsignedWord? with
  | some n => .ok n
  | none => .error (Json.wrongType v "u64")

def countAt (v : Json) (key : String) : Described Nat := (required v key).bind asCount

/-- A member that may be missing. -/
def optional {α : Type} (v : Json) (key : String) (read : Json → Described α) :
    Described (Option α) :=
  (v.member? key).mapM read

def listAt {α : Type} (v : Json) (key : String) (read : Json → Described α) :
    Described (List α) :=
  (required v key).bind (Json.asListOf read)

/-- A member that is a list if it is there. -/
def listOrNone {α : Type} (v : Json) (key : String) (read : Json → Described α) :
    Described (List α) :=
  (optional v key (Json.asListOf read)).map fun items => items.getD []

/-- A pair of a label and something else. -/
def asLabelled {α : Type} (read : Json → Described α) : Json → Described (String × α)
  | .array [label, v] => do return (← Json.asText label, ← read v)
  | v => .error (Json.wrongType v "a pair")

def asTextPair : Json → Described (String × String) := asLabelled Json.asText

/-! ## Commands -/

/-- The base command of a name, made from a payload. -/
def baseCommand (name : String) (payload : Json) : Described Command :=
  match name with
  | "echo" => .ok (Base.echo payload)
  | "now" => .ok Base.now
  | "ulid" => .ok Base.ulid
  | "random_number" => .ok Base.randomNumber
  | "log_info" => (Json.asText payload).map Base.logInfo
  | "log_error" => (Json.asText payload).map Base.logError
  | "sleep" => (asCount payload).map Base.sleep
  | _ => .error s!"no base command goes by the name {name}"

/-- A command.  A payload that is missing is null, and one way to give a
command is by a base command's name. -/
def asCommand (v : Json) : Described Command := do
  let name ← textAt v "name"
  let payload := Json.ofOption (v.member? "payload")
  match v.member? "via" with
  | none => return ⟨name, payload⟩
  | some (.string "cmds") => baseCommand name payload
  | some other => throw (Json.wrongValue other "cmds")

def asCommands : Json → Described (List Command) := Json.asListOf asCommand

/-- Commands under labels.  A label that comes again takes its later command
at its earlier place. -/
def asLabelledCommands (v : Json) : Described (Labelled Command) :=
  (Json.asListOf (asLabelled asCommand) v).map Labelled.ofList

/-- An effect: one command, several, or several under labels. -/
def asEffect (v : Json) : Described Effect :=
  match v.member? "cmd", v.member? "cmds", v.member? "named" with
  | some c, _, _ => (asCommand c).map .single
  | none, some cs, _ => (asCommands cs).map .sequence
  | none, none, some cs => (asLabelledCommands cs).map .mapping
  | none, none, none => .error (Json.missingField "cmd")

/-! ## Cookies and replies -/

/-- A cookie.  Options that are null are none. -/
def asCookie : Json → Described Cookie
  | .array [name, value] => do return ⟨← Json.asText name, ← Json.asText value, .empty⟩
  | .array [name, value, options] => do
    let options ← Json.asOption (Json.asDictOf .ok) options
    return ⟨← Json.asText name, ← Json.asText value, options.getD .empty⟩
  | v => .error (Json.wrongType v "a cookie")

/-- The reply that a description begins with. -/
def baseReply (v : Json) : Described Reply :=
  match v.member? "via" with
  | none => (required v "body").map Reply.send
  | some (.string "send") => (required v "body").map Reply.send
  | some (.string "not_found") => .ok (.notFound (v.member? "body"))
  | some (.string "not_authorized") => .ok (.notAuthorized (v.member? "body"))
  | some (.string "raw") => .ok { body := v.member? "body" }
  | some other => .error (Json.wrongValue other "a way to make a reply")

/-- A reply.  Its parts are applied in this order: the status, the headers as
a whole, single headers, single cookies, cookies as a whole. -/
def asReply (v : Json) : Described Reply := do
  let base ← baseReply v
  let status ← optional v "status" Json.asWord16
  let headers ← optional v "headers" (Json.asListOf asTextPair)
  let single ← listOrNone v "with_header" asTextPair
  let cookies ← listOrNone v "with_cookie" asCookie
  let more ← listOrNone v "cookies" asCookie
  let r := (status.map base.withStatus).getD base
  let r := (headers.map fun hs => r.withHeaders (.ofList hs)).getD r
  let r := single.foldl (fun r h => r.withHeader h.1 h.2) r
  let r := cookies.foldl Reply.withCookie r
  return r.withCookies more

/-- What a handler returns: a reply, or nothing for null. -/
def asReturned : Json → Described (Option Reply) := Json.asOption asReply

/-! ## Failures -/

/-- A failure of a handler; it may ask for a status. -/
def asHandlerFailure (v : Json) : Described HandlerFailure := do
  let status ← optional v "status" (Json.asOption Json.asWord16)
  return { message := ← textAt v "message", status := status.join }

/-- The failure of reading a text that is not JSON. -/
def readFailure (text : String) : Described Failure :=
  match Json.readOrMessage (Utf8.encode text) with
  | .error reason => .ok (.decode reason)
  | .ok _ => .error "the text is JSON"

/-- A failure of any kind. -/
def asFailure (v : Json) : Described Failure := do
  let message := textAt v "message"
  match ← textAt v "kind" with
  | "handler" => return .handler (← asHandlerFailure v)
  | "from_error" =>
    let f ← asHandlerFailure v
    return .handler { f with cause := some f.message }
  | "unknown" => return .unknownCommand (← message)
  | "missing_body" => return .missingBody
  | "detached" => return .detached
  | "decode" => readFailure (← textAt v "json")
  | "bind" => return .transport (.bind (← countAt v "port") (← message))
  | "serve" => return .transport (.serve (← message))
  | "join" => return .transport (.join (← message))
  | "already_listening" => return .transport (.alreadyListening (← message))
  | "stopped" => return .transport .stopped
  | other => throw s!"no failure is of the kind {other}"

end Switchboard.Workflow
