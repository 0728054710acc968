import Switchboard.Recovery
import Switchboard.Workflow.Step
import Switchboard.Workflow.Store

/-!
# Switchboard.Workflow.Hooks

Hooks that are described by data: a reporter that takes its time and may
crash, and a renderer that is a workflow of its own, with the failure as its
bindings.  Both leave a mark when they are called.
-/

namespace Switchboard.Workflow

/-- The members of a hook's mark. -/
def hookMark (name : String) (e : Envelope) (ambient : Context) : List (String × Json) :=
  [("hook", .string name), ("envelope", e.toJson), ("context", ambient.value)]

/-- A reporter that sleeps, leaves its mark, and then may crash. -/
def reporter (ms : Nat) (crashes : Bool) : Reporter Store := fun e ambient =>
  .sleep ms <| .mark (fun now => .ofMembers (("at", .ofNat now) :: hookMark "on_error" e ambient))
    (if crashes then .crash else .done ())

/-- The bindings of a renderer. -/
def failureVariables (e : Envelope) (ambient : Context) : Dict Json :=
  .ofList
    [("message", .string e.message), ("kind", .string e.failure.kind),
     ("status", .ofOption (e.status.map fun s => .int s.toNat)), ("context", ambient.value)]

/-- Run the steps of a renderer: writes, taking the exchange out, and the
default rendering. -/
def rendering (bindings : Dict Json) : List Json → Rendering Store
  | [] => .done
  | template :: rest => .look fun x =>
    let next := rendering bindings rest
    match asStep ((⟨bindings, {}, x⟩ : Scene).evaluate template) with
    | .error _ => next
    | .ok step => match step.action with
      | .plain (.write w) => .write w next
      | .plain .take => .take fun _ => next
      | .byDefault => .byDefault next
      | _ => next

/-- A renderer that leaves its mark and then runs its steps. -/
def renderer (steps : List Json) : Renderer Store := fun e ambient =>
  .note (·.mark (.ofMembers (hookMark "handle_error" e ambient)))
    (rendering (failureVariables e ambient) steps)

/-! ## As described -/

def asReporter (v : Json) : Described (Reporter Store) := do
  let ms ← optional v "ms" asCount
  return reporter (ms.getD 0) (((v.member? "panic").bind Json.bool?).getD false)

def asRenderer (v : Json) : Described (Renderer Store) :=
  (listAt v "steps" .ok).map renderer

end Switchboard.Workflow
