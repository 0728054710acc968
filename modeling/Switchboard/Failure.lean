import Switchboard.Context

/-!
# Switchboard.Failure

Everything that can go wrong while a request is handled, and the envelope in
which a failure reaches the boundary of a request.  A failure that was raised
while effects were interpreted carries the ambient context in its envelope.
-/

namespace Switchboard

/-- What a handler, a script or a resolver failed with.  It may ask for a
status, and it may wrap another error whose text is kept beside it. -/
structure HandlerFailure where
  message : String
  status : Option UInt16 := none
  cause : Option String := none
  deriving DecidableEq

/-- What can go wrong between a server and its port. -/
inductive TransportFailure where
  | bind (port : Nat) (reason : String)
  | serve (reason : String)
  | join (reason : String)
  | alreadyListening (address : String)
  | stopped
  deriving DecidableEq

def TransportFailure.message : TransportFailure → String
  | .bind port reason => s!"failed to bind port {port}: {reason}"
  | .serve reason => s!"server error: {reason}"
  | .join reason => s!"server task failed: {reason}"
  | .alreadyListening address => s!"server is already listening on {address}"
  | .stopped => "server has been stopped"

inductive Failure where
  /-- No resolver goes by this name. -/
  | unknownCommand (name : String)
  /-- A response was to be made from a reply without a body. -/
  | missingBody
  | handler (failure : HandlerFailure)
  /-- A value or a text was not of the shape that was asked for. -/
  | decode (reason : String)
  /-- An effect was emitted where no interpreter listens. -/
  | detached
  | transport (failure : TransportFailure)
  deriving DecidableEq

namespace Failure

/-- A failure of a handler that asks for no status. -/
def ofMessage (message : String) : Failure := .handler { message }

def message : Failure → String
  | .unknownCommand name => s!"unknown command: {name}"
  | .missingBody => "`body` cannot be undefined. Are you using the `send()` function?"
  | .handler f => f.message
  | .decode reason => s!"json decode: {reason}"
  | .detached => "effect script is not running under an interpreter"
  | .transport f => f.message

/-- The status that a failure asks for; only handlers ask for one. -/
def status : Failure → Option UInt16
  | .handler f => f.status
  | _ => none

/-- The texts of the errors behind a failure, nearest first. -/
def causes : Failure → List String
  | .handler f => f.cause.toList
  | .decode reason => [reason]
  | .transport (.bind _ reason) => [reason]
  | .transport (.serve reason) => [reason]
  | _ => []

end Failure

/-- A failure at the boundary of a request, with the ambient context if it
was raised under an interpreter. -/
structure Envelope where
  failure : Failure
  ambient : Option Context := none

namespace Envelope

def message (e : Envelope) : String := e.failure.message

def status (e : Envelope) : Option UInt16 := e.failure.status

/-- Attach the ambient context. -/
def withAmbient (e : Envelope) (ambient : Context) : Envelope :=
  { e with ambient := some ambient }

/-- The texts of the errors behind an envelope: its failure's first. -/
def sources (e : Envelope) : List String := e.failure.message :: e.failure.causes

end Envelope

end Switchboard
