import Switchboard.Exchange.Basic
import Switchboard.Report

/-!
# Switchboard.Workflow.Template

Values with holes.  An object whose only key is one of five words stands for
something that is known when the step it occurs in is about to run: a
variable, a part of the request, a part of the response in the making, a
member of a value, or the size of a value.  Holes are filled from the inside
out, and what fills a hole is not looked at again.
-/

namespace Switchboard.Workflow

/-- What the holes of a template can see. -/
structure Scene where
  bindings : Dict Json
  /-- The request as it came in. -/
  request : RequestSide
  exchange : Exchange

/-- A part of the request by its name. -/
def requestPart? (r : RequestSide) : String → Option Json
  | "query" => some (.ofTexts r.query)
  | "params" => some (.ofTexts r.params)
  | "headers" => some (.ofTexts r.headers)
  | "cookies" => some (.ofTexts r.cookies)
  | "body" => some r.body
  | _ => none

/-- A part of the response in the making by its name. -/
def responsePart? (r : ResponseSide) : String → Option Json
  | "status" => some (.int r.status.toNat)
  | "body" => some (.ofOption r.body)
  | _ => none

/-- The member of an object under a key, or the item of a list at an
index. -/
def select? : Json → Json → Option Json
  | v, .string key => v.member? key
  | .array items, .int (.ofNat i) => items[i]?
  | _, _ => none

/-- The number of characters, items or members. -/
def extent : Json → Nat
  | .string s => s.length
  | .array items => items.length
  | .object members => members.length
  | _ => 0

/-- Fill a hole that is written under a key.  Under any other key there is no
hole. -/
def Scene.fill (s : Scene) (key : String) (v : Json) : Json :=
  match key, v with
  | "$var", .string name => .ofOption (s.bindings.get? name)
  | "$args", .string part => .ofOption (requestPart? s.request part)
  | "$ctx", .string part => .ofOption (responsePart? s.exchange.response part)
  | "$get", .array [e, selector] => .ofOption (select? e selector)
  | "$len", e => .ofNat (extent e)
  | _, _ => .object [(key, v)]

mutual

/-- Fill the holes of a template. -/
def Scene.evaluate (s : Scene) : Json → Json
  | .array items => .array (s.evaluateItems items)
  | .object [(key, v)] => s.fill key (s.evaluate v)
  | .object members => .object (s.evaluateMembers members)
  | v => v

def Scene.evaluateItems (s : Scene) : List Json → List Json
  | [] => []
  | v :: rest => s.evaluate v :: s.evaluateItems rest

def Scene.evaluateMembers (s : Scene) : List (String × Json) → List (String × Json)
  | [] => []
  | (key, v) :: rest => (key, s.evaluate v) :: s.evaluateMembers rest

end

end Switchboard.Workflow
