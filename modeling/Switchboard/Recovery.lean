import Switchboard.Exchange.Basic
import Switchboard.Registry

/-!
# Switchboard.Recovery

What becomes of a failure at the boundary of a request.  It is logged, then
reported to the hook that observes failures, and when that hook is done a
response is rendered: by the custom renderer if there is one, and otherwise
by default.  A custom renderer may ask for the default rendering as well.
-/

namespace Switchboard

/-- Observes failures.  It sees the envelope and the configured context, and
it is waited for. -/
abbrev Reporter (σ : Type) := Envelope → Context → Job σ Unit

/-- The status of a failure that asks for none. -/
def defaultErrorStatus : UInt16 := 500

/-- The writes of the default rendering: the failure's status and its message
as the body. -/
def Envelope.defaultWrites (e : Envelope) : List Write :=
  [.status (e.status.getD defaultErrorStatus),
   .body (.object [("message", .string e.message)])]

/-- Render a failure by default. -/
def Exchange.renderFailure (x : Exchange) (e : Envelope) : Exchange :=
  x.writeAll e.defaultWrites

/-- What a custom renderer does.  It works on the exchange only and never
waits. -/
inductive Rendering (σ : Type) where
  | done
  | look (next : Exchange → Rendering σ)
  | write (w : Write) (next : Rendering σ)
  | note (change : World σ → World σ) (next : Rendering σ)
  /-- Take the exchange out and leave a fresh one. -/
  | take (next : Exchange → Rendering σ)
  /-- Fall through to the default rendering; a second time it does nothing. -/
  | byDefault (next : Rendering σ)

/-- Renders a failure in its own way. -/
abbrev Renderer (σ : Type) := Envelope → Context → Rendering σ

/-- Carry a rendering out.  The default rendering may be called as long as
`mayCall` says so. -/
def Rendering.routine {σ ρ : Type} (e : Envelope) (mayCall : Bool) :
    Rendering σ → Routine Exchange σ ρ Unit
  | .done => .done ()
  | .look next => .look fun _ x _ => (next x).routine e mayCall
  | .write w next => .write (·.write w) (next.routine e mayCall)
  | .note change next => .note change (next.routine e mayCall)
  | .take next => .look fun _ x _ => .write (·.take.2) ((next x).routine e mayCall)
  | .byDefault next =>
    if mayCall then .write (·.renderFailure e) (next.routine e false)
    else next.routine e false

/-- Who rendered a failure. -/
inductive Rendered where
  | byDefault
  | custom
  deriving DecidableEq

def Rendered.name : Rendered → String
  | .byDefault => "Default"
  | .custom => "Custom"

/-- The hooks that deal with failures. -/
structure Recovery (σ : Type) where
  ambient : Context := .empty
  reporter : Option (Reporter σ) := none
  renderer : Option (Renderer σ) := none

namespace Recovery

variable {σ ρ : Type}

/-- How the hooks show themselves. -/
def described (r : Recovery σ) : String :=
  s!"ErrorPipeline \x7b on_error: {r.reporter.isSome}, handle_error: {r.renderer.isSome} \x7d"

/-- The record of a failure that has reached the boundary. -/
def failedRecord (e : Envelope) : LogRecord :=
  ⟨.error, "request failed",
    [("status", .int (e.status.getD defaultErrorStatus).toNat), ("error", .string e.message)]⟩

/-- Render a failure into the exchange. -/
def render (r : Recovery σ) (e : Envelope) : Routine Exchange σ ρ Rendered :=
  match r.renderer with
  | none => .write (·.renderFailure e) (.done .byDefault)
  | some renderer => ((renderer e r.ambient).routine e true).bind fun () => .done .custom

/-- Log, report and render a failure. -/
def recover (r : Recovery σ) (e : Envelope) : Routine Exchange σ ρ Rendered :=
  .note (·.log [failedRecord e]) <|
    match r.reporter with
    | none => r.render e
    | some report => (Routine.ofJob (report e r.ambient)).bind fun () => r.render e

end Recovery

end Switchboard
