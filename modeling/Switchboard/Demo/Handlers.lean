import Switchboard.Base
import Switchboard.Lifecycle

/-!
# Switchboard.Demo.Handlers

The handlers of the demo server, and the one resolver that it adds to the base
commands.
-/

namespace Switchboard.Demo

variable {σ : Type}

/-! ## Greeting -/

def greetCommand : String := "greet"

/-- The greeting of a context. -/
def greetingOf (ambient : Context) : String :=
  ((ambient.get? "greeting").bind Json.string?).getD "hello"

/-- Greet the one whose name is the payload, or the world. -/
def greetResolver : Resolver σ := fun payload ambient =>
  let name := payload.string?.getD "world"
  .done (.ok (.string s!"{greetingOf ambient}, {name}"))

/-! ## Handlers -/

private def sendMessage (message : Json) : Option Reply :=
  some (.send (.object [("message", message)]))

/-- Send a message that has gone round as an echo. -/
def helloWorld : ScriptHandler σ := fun _ =>
  .perform (Base.echo (.string "hello world")) fun r => .done (r.map sendMessage)

/-- Greet somebody, and say so in the log at the same time. -/
def greet : ScriptHandler σ := fun request =>
  let name := (request.query.get? "name").getD ""
  .join [⟨greetCommand, .string name⟩, Base.logInfo s!"greeting {name}"] fun
    | message :: _ => .done (message.map sendMessage)
    | [] => .done (.ok none)

/-- Show an item with a fresh identifier and the time. -/
def item : ScriptHandler σ := fun request =>
  match request.params.get? "id" with
  | none => .done (.ok (some (.notFound none)))
  | some id =>
    .allNamed
      (.ofList [("id", Base.echo (.string id)), ("ulid", Base.ulid), ("fetchedAt", Base.now)])
      fun r => .done (r.map fun values => some (.send (.ofMembers values.entries)))

/-- Send the body of the request back. -/
def echo : ScriptHandler σ := fun request =>
  .perform (Base.echo request.body) fun r => .done (r.map fun v => some (.send v))

/-- Write a response and return nothing. -/
def plain : PlainHandler σ := fun _ =>
  .write (·.setBody (.object [("message", .string "foo bar")])) (.done (.ok none))

/-- A handler of the demo by its name. -/
def handler? : String → Option (Handler σ)
  | "hello_world" => some (.script helloWorld)
  | "greet" => some (.script greet)
  | "item" => some (.script item)
  | "echo" => some (.script echo)
  | "plain" => some (.plain plain)
  | _ => none

end Switchboard.Demo
