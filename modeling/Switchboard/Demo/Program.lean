import Switchboard.Demo.Arguments
import Switchboard.Demo.Handlers
import Switchboard.Server.Config

/-!
# Switchboard.Demo.Program

The demo server as a whole: its routes and hooks, and what becomes of a
command line.  The context is read after the command line as a whole has been
understood.
-/

namespace Switchboard.Demo

open Http Server

variable {σ : Type}

def routes : List (Route σ) :=
  [⟨.get, "/hello-world", .script helloWorld⟩, ⟨.get, "/greet", .script greet⟩,
   ⟨.get, "/items/:id", .script item⟩, ⟨.post, "/echo", .script echo⟩,
   ⟨.get, "/plain", .plain plain⟩]

/-- Write every failure to the log. -/
def reportFailure : Reporter σ := fun e _ =>
  .write (·.log [⟨.warn, "handler failed", [("error", .string e.message)]⟩]) (.done ())

/-- The configuration for a port and a context. -/
def config (port : UInt16) (context : Context) : Config σ :=
  { port, context, routes
    interpreters := [(greetCommand, greetResolver)]
    reporter := some reportFailure }

/-- What becomes of a command line. -/
inductive Plan where
  | refuse (refusal : Refusal)
  /-- The context is not JSON. -/
  | badContext (reason : String)
  | serve (port : UInt16) (verbose : Bool) (context : Context)

def Plan.ofArguments (args : List String) : Plan :=
  match Options.ofArguments args with
  | .error r => .refuse r
  | .ok o => match Json.readOrMessage (Utf8.encode o.context) with
    | .error reason => .badContext reason
    | .ok v => .serve o.port o.verbose ⟨v⟩

/-- What is said about a context that is not JSON. -/
def badContextReport (reason : String) : String :=
  s!"Error: --context must be valid JSON\n\nCaused by:\n    {reason}\n"

/-- The exit code of a plan that is carried out without trouble. -/
def Plan.exitCode : Plan → UInt8
  | .refuse r => r.exitCode
  | .badContext _ => 1
  | .serve _ _ _ => 0

end Switchboard.Demo
