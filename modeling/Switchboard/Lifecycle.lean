import Switchboard.Exchange.Synthesis
import Switchboard.Recovery

/-!
# Switchboard.Lifecycle

One request from the handler to the response.  A script is interpreted, a
plain handler is simply run; what it returns is made into a response; and a
failure on the way goes to recovery.  So every request that is handled ends
with a response in its exchange.
-/

namespace Switchboard

/-- A handler under an interpreter. -/
abbrev ScriptHandler (σ : Type) := RequestSide → Script Exchange σ (Option Reply)

/-- A handler without effects. -/
abbrev PlainHandler (σ : Type) :=
  RequestSide → Routine Exchange σ (Option Reply) (Except Failure (Option Reply))

/-- What a route is bound to.  It is given the request side as it stood when
the request came in. -/
inductive Handler (σ : Type) where
  | script (run : ScriptHandler σ)
  | plain (run : PlainHandler σ)

namespace Handler

variable {σ : Type}

def isScript : Handler σ → Bool
  | .script _ => true
  | .plain _ => false

def kind : Handler σ → String
  | .script _ => "script"
  | .plain _ => "plain"

/-- How a handler shows itself. -/
def described (h : Handler σ) : String := "Handler::" ++ h.kind

/-- A plain handler that returns nothing. -/
def idle : Handler σ := .plain fun _ => .done (.ok none)

end Handler

/-- What all requests of a server share. -/
structure Lifecycle (σ : Type) where
  registry : Registry σ
  ambient : Context
  recovery : Recovery σ

namespace Lifecycle

variable {σ : Type}

/-- A routine that handles one request. -/
abbrev Step (σ α : Type) := Routine Exchange σ (Option Reply) α

/-- Run a handler to its end.  Only a failure of a script carries the ambient
context. -/
def dispatch (l : Lifecycle σ) (h : Handler σ) : Step σ (Except Envelope (Option Reply)) :=
  .look fun _ x _ => match h with
    | .script run =>
      .interpret (l.registry.surroundings l.ambient) (run x.request) fun r =>
        .done (r.mapError fun f => ({ failure := f } : Envelope).withAmbient l.ambient)
    | .plain run => (run x.request).bind fun r => .done (r.mapError fun f => { failure := f })

/-- Make a response of what a handler returned. -/
def respond (reply : Option Reply) : Step σ (Except Envelope Synthesis) :=
  .look fun _ x _ => match x.synthesize reply with
    | .error f => .done (.error { failure := f })
    | .ok (outcome, x') => .write (fun _ => x') (.done (.ok outcome))

/-- Run a handler and make a response, without recovery. -/
def run (l : Lifecycle σ) (h : Handler σ) : Step σ (Except Envelope Synthesis) :=
  (l.dispatch h).bind fun r => match r with
    | .error e => .done (.error e)
    | .ok reply => respond reply

/-- Handle a request: there is a response in the exchange at the end. -/
def handle (l : Lifecycle σ) (h : Handler σ) : Step σ Unit :=
  (l.run h).bind fun r => match r with
    | .ok _ => .done ()
    | .error e => (l.recovery.recover e).bind fun _ => .done ()

end Lifecycle

end Switchboard
