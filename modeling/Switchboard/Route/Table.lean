import Switchboard.Route.Basic

/-!
# Switchboard.Route.Table

Routes grouped by their paths: every path has a table of the methods that are
bound to it.  Binding a method twice is a fault.  A request for the head of a
resource falls back to getting it.
-/

namespace Switchboard.Route

open Http

variable {σ : Type}

/-- Why routes cannot be mounted. -/
inductive MountFault where
  | methodTaken (method : Method)
  | pathTaken (path : String)
  | notRooted (path : String)
  | namelessParameter (segment : String)
  | severalParameters (segment : String)
  | tooManyParameters (path : String)
  /-- A wildcard that is not a last segment as a whole. -/
  | innerWildcard (segment : String)
  /-- Where one parameter stands, another one stands already. -/
  | parameterTaken (segment other : String)
  deriving DecidableEq

/-- The handlers of one path, in the order in which they were bound. -/
abbrev MethodTable (σ : Type) := List (Method × Handler σ)

namespace MethodTable

/-- Bind a handler to a method. -/
def on (t : MethodTable σ) (m : Method) (h : Handler σ) : Except MountFault (MethodTable σ) :=
  if t.any (·.1 = m) then .error (.methodTaken m) else .ok (t ++ [(m, h)])

def get? (t : MethodTable σ) (m : Method) : Option (Handler σ) := t.lookup m

/-- The handler for the name of a method.  A head falls back to a get. -/
def handler? (t : MethodTable σ) (name : String) : Option (Handler σ) :=
  match Method.ofName? name with
  | none => none
  | some .head => (t.get? .head).or (t.get? .get)
  | some m => t.get? m

/-- The methods that binding one method allows. -/
def allowedBy : Method → List String
  | .get => ["GET", "HEAD"]
  | m => [m.name]

/-- The methods that are allowed, each named once. -/
def allowed (t : MethodTable σ) : List String := (t.flatMap fun e => allowedBy e.1).eraseDups

/-- The value of the header that lists them. -/
def allowHeader (t : MethodTable σ) : String := ",".intercalate t.allowed

end MethodTable

/-- Paths and their handlers, in the order in which the paths first came. -/
abbrev Table (σ : Type) := Labelled (MethodTable σ)

namespace Table

/-- Bind one more route. -/
def bind (t : Table σ) (r : Route σ) : Except MountFault (Table σ) :=
  (MethodTable.on ((t.get? r.path).getD []) r.method r.handler).map fun methods =>
    t.place r.path methods

/-- Bind routes in order. -/
def bindAll (t : Table σ) : List (Route σ) → Except MountFault (Table σ)
  | [] => .ok t
  | r :: rest => (t.bind r).bind fun t => bindAll t rest

def ofRoutes (routes : List (Route σ)) : Except MountFault (Table σ) := bindAll .empty routes

end Table

end Switchboard.Route
