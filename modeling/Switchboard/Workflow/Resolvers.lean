import Switchboard.Base
import Switchboard.Workflow.Description
import Switchboard.Workflow.Store

/-!
# Switchboard.Workflow.Resolvers

Resolvers that are described by data.  Each call leaves a mark with the
resolver's name, the payload and the time.
-/

namespace Switchboard.Workflow

/-- What a described resolver does. -/
inductive Behaviour where
  /-- Answer with a fixed value. -/
  | constant (value : Json)
  /-- Answer with the payload. -/
  | payload
  | fail (failure : HandlerFailure)
  /-- Answer with the whole ambient context. -/
  | ambient
  /-- Answer with a member of the ambient context. -/
  | ambientMember (key : String)
  /-- Answer with the number of calls so far, this one included. -/
  | counter (number : Nat)
  /-- Read the payload as a command and answer with that. -/
  | decode
  /-- Take the time that the payload asks for. -/
  | timed
  | crash

/-- The mark of a call, or of its end. -/
def callMark (word name : String) (payload : Json) (now : Nat) : Json :=
  .ofMembers [(word, .string name), ("payload", payload), ("at", .ofNat now)]

/-- What a payload with a time asks to be answered. -/
def timedAnswer (payload : Json) : Answer :=
  match payload.member? "fail" with
  | none => .ok (.ofOption (payload.member? "value"))
  | some described => match asHandlerFailure described with
    | .ok f => .error (.handler f)
    | .error message => .error (.decode message)

/-- Sleep for as long as the payload asks for, leave a mark, and answer. -/
def timedJob (name : String) (payload : Json) : Job Store Answer :=
  let ms := ((payload.member? "ms").bind Json.unsignedWord?).getD 0
  .sleep ms (.mark (callMark "done" name payload) (.done (timedAnswer payload)))

/-- The job of a behaviour. -/
def Behaviour.job (b : Behaviour) (name : String) (payload : Json) (ambient : Context) :
    Job Store Answer :=
  match b with
  | .constant v => .done (.ok v)
  | .payload => .done (.ok payload)
  | .fail f => .done (.error (.handler f))
  | .ambient => .done (.ok ambient.value)
  | .ambientMember key => .done (.ok (.ofOption (ambient.get? key)))
  | .counter n => .write (fun w => { w with own := w.own.count n }) <|
      .look fun _ w => .done (.ok (.ofNat (w.own.tally n)))
  | .decode => .done ((Command.ofJson payload).map Command.toJson |>.mapError .decode)
  | .timed => timedJob name payload
  | .crash => .crash

/-- A resolver that leaves a mark when it is called. -/
def Behaviour.resolver (b : Behaviour) (name : String) : Resolver Store := fun payload ambient =>
  .mark (callMark "call" name payload) (b.job name payload ambient)

/-- A resolver that answers with a fixed value and leaves no mark. -/
def quietConstant (v : Json) : Resolver Store := fun _ _ => .done (.ok v)

/-! ## As described -/

/-- The behaviour of a described resolver.  One that counts is known by its
number. -/
def asBehaviour (number : Nat) (v : Json) : Described Behaviour := do
  match ← textAt v "kind" with
  | "const" => return .constant (.ofOption (v.member? "value"))
  | "payload" => return .payload
  | "fail" =>
    let status ← optional v "status" (Json.asOption Json.asWord16)
    let message ← optional v "message" Json.asText
    return .fail { message := message.getD "failed", status := status.join }
  | "ambient" => return .ambient
  | "ambient_get" => return .ambientMember (← textAt v "key")
  | "counter" => return .counter number
  | "decode" => return .decode
  | "timed" => return .timed
  | "panic" => return .crash
  | other => throw s!"no resolver is of the kind {other}"

/-- A described resolver under its name. -/
def asResolver (number : Nat) (v : Json) : Described (String × Resolver Store) := do
  let name ← textAt v "name"
  return (name, (← asBehaviour number v).resolver name)

end Switchboard.Workflow
