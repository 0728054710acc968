import Switchboard.Workflow.Description
import Switchboard.Workflow.Template

/-!
# Switchboard.Workflow.Step

The steps of a workflow.  Some can be taken anywhere, some need an
interpreter, one kind ends the workflow, and one is for renderers only.
-/

namespace Switchboard.Workflow

/-- What a workflow ends with. -/
inductive Yield where
  | reply (reply : Option Reply)
  | value (value : Json)

/-- What a handler returns: a value that is yielded is sent. -/
def Yield.returned : Yield → Option Reply
  | .reply r => r
  | .value v => some (.send v)

/-- A step that needs no interpreter. -/
inductive LocalAction where
  | wait (ms : Nat)
  | fail (failure : Failure)
  | value (value : Json)
  | write (write : Write)
  | take

/-- A step that has effects interpreted. -/
inductive EffectAction where
  | perform (command : Command)
  | all (commands : List Command)
  | allNamed (commands : Labelled Command)
  | suspend (effect : Effect)
  /-- Perform commands on their own, started together. -/
  | join (commands : List Command)
  /-- Emit a command and never ask for its outcome. -/
  | abandon (command : Command)
  /-- Emit a command and ask for its outcome after the workflow's end. -/
  | stashPending (command : Command)
  /-- Keep the way to the interpreter beyond the workflow's end. -/
  | stashHandle
  /-- Perform a command in a task of its own. -/
  | spawn (command : Command)

inductive Action where
  | plain (action : LocalAction)
  | effectful (action : EffectAction)
  | finish (yield : Yield)
  /-- Render a failure by default. -/
  | byDefault

/-- A step: what it does, whether its failure is caught, and the variable that
takes its value. -/
structure Step where
  action : Action
  caught : Bool := false
  target? : Option String := none

/-- A write to the exchange, if the action is one. -/
def write? (name : String) (v : Json) : Option (Described Write) :=
  match name with
  | "set_status" => some (((required v "status").bind Json.asWord16).map .status)
  | "set_body" => some ((required v "body").map .body)
  | "set_header" => some do return .header (← textAt v "name") (← textAt v "value")
  | "set_cookie" => some (((required v "cookie").bind asCookie).map .cookie)
  | _ => none

def localAction? (name : String) (v : Json) : Option (Described LocalAction) :=
  match name with
  | "wait" => some ((countAt v "ms").map .wait)
  | "fail" => some (((required v "error").bind asFailure).map .fail)
  | "value" => some (.ok (.value (.ofOption (v.member? "value"))))
  | "take" => some (.ok .take)
  | _ => (write? name v).map fun w => w.map .write

def effectAction? (name : String) (v : Json) : Option (Described EffectAction) :=
  let command := (required v "cmd").bind asCommand
  let commands := (required v "cmds").bind asCommands
  match name with
  | "perform" => some (command.map .perform)
  | "all" => some (commands.map .all)
  | "all_named" => some (((required v "cmds").bind asLabelledCommands).map .allNamed)
  | "suspend" => some ((asEffect v).map .suspend)
  | "join" => some (commands.map .join)
  | "abandon" => some (command.map .abandon)
  | "stash_pending" => some (command.map .stashPending)
  | "stash_handle" => some (.ok .stashHandle)
  | "spawn" => some (command.map .spawn)
  | _ => none

/-- The action of a name. -/
def asAction (name : String) (v : Json) : Described Action :=
  match localAction? name v, effectAction? name v with
  | some a, _ => a.map .plain
  | none, some a => a.map .effectful
  | none, none => match name with
    | "reply" => ((required v "reply").bind asReturned).map fun r => .finish (.reply r)
    | "return" => .ok (.finish (.value (.ofOption (v.member? "value"))))
    | "next" => .ok .byDefault
    | _ => .error s!"no step is called {name}"

/-- A step whose holes have been filled. -/
def asStep (v : Json) : Described Step := do
  let action ← asAction (← textAt v "do") v
  return {
    action
    caught := ((v.member? "catch").bind Json.bool?).getD false
    target? := (v.member? "as").bind Json.string? }

end Switchboard.Workflow
