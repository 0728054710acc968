import Switchboard.Failure
import Switchboard.Journal
import Switchboard.Server.Router

/-!
# Switchboard.Server.Basic

The life of a server.  It is created, then it listens once, and then it is
stopped for good; it may also be stopped without ever having listened.
Starting it binds its port; a port that cannot be bound leaves the server as
it was.  Every call says what it did to the outside.
-/

namespace Switchboard.Server

/-- Where a server stands. -/
inductive Standing where
  | created
  | listening (endpoint : Endpoint)
  | stopped
  deriving DecidableEq

def Standing.name : Standing → String
  | .created => "Created"
  | .listening _ => "Listening"
  | .stopped => "Stopped"

/-- The endpoint that a server listens on. -/
def Standing.endpoint? : Standing → Option Endpoint
  | .listening e => some e
  | _ => none

/-- What comes of binding a port. -/
inductive Bound where
  | refused (reason : String)
  /-- The port was bound, but the endpoint cannot be told.  It is let go. -/
  | nameless (reason : String)
  | held (endpoint : Endpoint)

/-- How the serving task comes to its end. -/
inductive Ending where
  | finished
  | failed (reason : String)
  | crashed (reason : String)

/-- What whoever waits for the serving task is told. -/
def Ending.result : Ending → Except TransportFailure Unit
  | .finished => .ok ()
  | .failed reason => .error (.serve reason)
  | .crashed reason => .error (.join reason)

/-- What a call does to the outside. -/
inductive Deed where
  | bind (outcome : Bound)
  /-- Tell the serving task to come to an end, and wait for it. -/
  | shutdown (endpoint : Endpoint)
  | log (record : LogRecord)

/-- What comes of a call. -/
structure Turn (α : Type) where
  standing : Standing
  result : Except TransportFailure α
  deeds : List Deed := []

/-- What a server says of itself, unless it is there for a test. -/
def announce (test : Bool) (message : String) : List Deed :=
  if test then [] else [.log ⟨.info, message, []⟩]

namespace Standing

/-- Start a server.  `bound` is what comes of binding its port, if that is
tried at all. -/
def start (port : Nat) (test : Bool) (bound : Bound) : Standing → Turn Endpoint
  | .listening e => ⟨.listening e, .error (.alreadyListening e.text), []⟩
  | .stopped => ⟨.stopped, .error .stopped, []⟩
  | .created => match bound with
    | .refused reason => ⟨.created, .error (.bind port reason), [.bind bound]⟩
    | .nameless reason => ⟨.created, .error (.serve reason), [.bind bound]⟩
    | .held e => ⟨.listening e, .ok e,
        .bind bound :: announce test s!"Server Listening on Port {e.port}"⟩

/-- Stop a server.  Once it has been told to, it counts as stopped, however its
serving task comes to its end. -/
def stop (test : Bool) (ending : Ending) : Standing → Turn Unit
  | .listening e => ⟨.stopped, ending.result, .shutdown e :: match ending with
    | .finished => announce test "Server Stopped"
    | _ => []⟩
  | _ => ⟨.stopped, .ok (), []⟩

end Standing

end Switchboard.Server

namespace Switchboard

/-- A server: where it is to listen, how it answers, and where it stands. -/
structure Server (σ : Type) where
  host : Address
  port : UInt16
  test : Bool
  router : Server.Router σ
  standing : Server.Standing := .created

namespace Server

variable {σ : Type}

/-- A server that has been made and listens nowhere yet.  A configuration that
was accepted can be mounted. -/
def init (c : Config σ) : Except Route.MountFault (Server σ) :=
  (Router.ofConfig c).map fun router => ⟨c.host, c.port, c.test, router, .created⟩

/-- How a server shows itself. -/
def described (s : Server σ) : String :=
  s!"Server \x7b host: {s.host.text}, port: {s.port}, test: {s.test}, .. \x7d"

def start (s : Server σ) (bound : Bound) : Turn Endpoint :=
  s.standing.start s.port.toNat s.test bound

/-- Stop a server, whose serving task may come to its end in any way. -/
def stopWith (s : Server σ) (ending : Ending) : Turn Unit := s.standing.stop s.test ending

/-- Stop a server whose serving task does what it is told. -/
def stop (s : Server σ) : Turn Unit := s.stopWith .finished

end Server

end Switchboard
