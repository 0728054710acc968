import Switchboard.Lifecycle
import Switchboard.Workflow.Step
import Switchboard.Workflow.Store

/-!
# Switchboard.Workflow.Handler

Workflows as handlers.  A workflow is a list of templates; each is filled when
its turn comes, so it sees what the steps before it have left behind.  Every
step leaves a mark with its number, the time, and its value or failure; the
step that ends a workflow leaves none.  A failure ends the workflow unless its
step catches it; then the failure itself is the step's value.
-/

namespace Switchboard.Workflow

/-- The mark of a step. -/
def stepMark (index now : Nat) (result : Except Failure Json) : Json :=
  let outcome := match result with
    | .ok v => ("ok", v)
    | .error f => ("err", f.toJson)
  .ofMembers [("step", .ofNat index), ("at", .ofNat now), outcome]

/-- Bind a value to a step's variable, if it has one. -/
def Step.bind (s : Step) (bindings : Dict Json) (v : Json) : Dict Json :=
  match s.target? with
  | none => bindings
  | some name => bindings.insert name v

/-- The bindings after a step, or the failure that ends the workflow. -/
def Step.after (s : Step) (bindings : Dict Json) :
    Except Failure Json → Except Failure (Dict Json)
  | .ok v => .ok (s.bind bindings v)
  | .error f => if s.caught then .ok (s.bind bindings f.toJson) else .error f

/-! ## Under an interpreter -/

/-- A workflow under an interpreter. -/
abbrev Course := Script Exchange Store Yield

/-- What becomes of an effect, as a value. -/
def resumedJson : Resumed → Json
  | .single v => .ofMembers [("kind", .string "single"), ("value", v)]
  | .sequence vs => .ofMembers [("kind", .string "sequence"), ("value", .array vs)]
  | .mapping vs => .ofMembers
      [("kind", .string "mapping"),
       ("value", .array (vs.entries.map fun e => .array [.string e.1, e.2]))]

/-- A task that performs a command and leaves a mark when it resumes. -/
def errand (index : Nat) (c : Command) : Errand Store :=
  .emit (.single c) fun t => .await t fun o => .look fun now _ =>
    .write (·.mark (.ofMembers
      [("spawned", .ofNat index), ("at", .ofNat now), ("result", resultJson (Script.asSingle o))]))
      .done

def runLocal (a : LocalAction) (next : Except Failure Json → Course) : Course :=
  match a with
  | .wait ms => .sleep ms (next (.ok .null))
  | .fail f => next (.error f)
  | .value v => next (.ok v)
  | .write w => .write (·.write w) (next (.ok .null))
  | .take => .look fun _ x _ => .write (·.take.2) (next (.ok x.stateJson))

def runEffectful (index : Nat) (a : EffectAction) (next : Except Failure Json → Course) :
    Course :=
  match a with
  | .perform c => .perform c next
  | .all cs => .all cs fun r => next (r.map .array)
  | .allNamed cs => .allNamed cs fun r => next (r.map fun vs => .ofMembers vs.entries)
  | .suspend e => .suspend e fun o => next (o.map resumedJson)
  | .join cs => .join cs fun rs => next (.ok (.array (rs.map resultJson)))
  | .abandon c => .emit (.single c) fun t => .drop t (next (.ok (.bool true)))
  | .stashPending c => .emit (.single c) fun t =>
      .note (fun w => { w with own := w.own.stash t }) (next (.ok (.bool true)))
  | .stashHandle =>
      .note (fun w => { w with own := w.own.keepHandle }) (next (.ok .null))
  | .spawn c => .spawn (errand index c) (next (.ok .null))

/-- Run the steps of a workflow from a number on. -/
def course (request : RequestSide) (index : Nat) (bindings : Dict Json) :
    List Json → Course
  | [] => .done (.ok (.reply none))
  | template :: rest => .look fun _ x _ =>
    match asStep ((⟨bindings, request, x⟩ : Scene).evaluate template) with
    | .error message => .done (.error (.ofMessage message))
    | .ok step =>
      let next (result : Except Failure Json) : Course :=
        .mark (fun now => stepMark index now result) <|
          match step.after bindings result with
          | .ok bindings => course request (index + 1) bindings rest
          | .error f => .done (.error f)
      match step.action with
      | .plain a => runLocal a next
      | .effectful a => runEffectful index a next
      | .finish y => .done (.ok y)
      | .byDefault => next (.ok .null)

/-- A workflow as a handler under an interpreter. -/
def scriptHandler (steps : List Json) : Handler Store :=
  .script fun request => (course request 0 .empty steps).map Yield.returned

/-! ## Without an interpreter -/

/-- A workflow as a handler without effects. -/
abbrev PlainCourse := Routine Exchange Store (Option Reply) (Except Failure (Option Reply))

/-- What a step fails with that needs an interpreter and has none. -/
def needsInterpreter : Failure := .ofMessage "this step needs an interpreter"

def runPlainly (a : LocalAction) (next : Except Failure Json → PlainCourse) : PlainCourse :=
  match a with
  | .wait ms => .sleep ms (next (.ok .null))
  | .fail f => next (.error f)
  | .value v => next (.ok v)
  | .write w => .write (·.write w) (next (.ok .null))
  | .take => .look fun _ x _ => .write (·.take.2) (next (.ok x.stateJson))

/-- Run the steps of a workflow that has no effects. -/
def plainCourse (request : RequestSide) (index : Nat) (bindings : Dict Json) :
    List Json → PlainCourse
  | [] => .done (.ok none)
  | template :: rest => .look fun _ x _ =>
    match asStep ((⟨bindings, request, x⟩ : Scene).evaluate template) with
    | .error message => .done (.error (.ofMessage message))
    | .ok step =>
      let next (result : Except Failure Json) : PlainCourse :=
        .look fun now _ _ => .note (·.mark (stepMark index now result)) <|
          match step.after bindings result with
          | .ok bindings => plainCourse request (index + 1) bindings rest
          | .error f => .done (.error f)
      match step.action with
      | .plain a => runPlainly a next
      | .effectful _ => next (.error needsInterpreter)
      | .finish y => .done (.ok y.returned)
      | .byDefault => next (.ok .null)

def plainHandler (steps : List Json) : Handler Store :=
  .plain fun request => plainCourse request 0 .empty steps

end Switchboard.Workflow
