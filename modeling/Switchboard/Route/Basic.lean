import Switchboard.Http.Method
import Switchboard.Lifecycle
import Switchboard.Route.Path

/-!
# Switchboard.Route.Basic

Routes, and the lists of them that can be served.  No method may be bound to a
path twice, every path must be well formed, and no two paths may disagree
about a parameter.  Routes are checked in order, and the first fault counts.
-/

namespace Switchboard

open Http

/-- A handler under a method and a path. -/
structure Route (σ : Type) where
  method : Method
  path : String
  handler : Handler σ

/-- Why a list of routes cannot be served. -/
inductive RouteFault where
  | duplicate (method : Method) (path : String)
  | invalid (method : Method) (path : String) (fault : Route.PathFault)
  deriving DecidableEq

namespace RouteFault

def kind : RouteFault → String
  | .duplicate _ _ => "DuplicateRoute"
  | .invalid _ _ _ => "InvalidRoute"

def method : RouteFault → Method
  | .duplicate m _ => m
  | .invalid m _ _ => m

def path : RouteFault → String
  | .duplicate _ p => p
  | .invalid _ p _ => p

/-- What is wrong with the path, where that is the fault. -/
def reason : RouteFault → Option String
  | .duplicate _ _ => none
  | .invalid _ _ fault => some fault.message

def message : RouteFault → String
  | .duplicate m p => s!"duplicate route: {m.name} {p}"
  | .invalid m p fault => s!"invalid route {m.name} {p}: {fault.message}"

end RouteFault

namespace Route

/-- Check a path against those that are there, in order. -/
def checkAgainstAll (path : String) : List String → Except PathFault Unit
  | [] => .ok ()
  | existing :: rest => (checkAgainst existing path).bind fun () => checkAgainstAll path rest

/-- Check a method and a path against those before them, oldest first. -/
def checkNext (before : List (Method × String)) (method : Method) (path : String) :
    Except RouteFault Unit :=
  if before.contains (method, path) then .error (.duplicate method path)
  else match (checkPath path).bind fun () => checkAgainstAll path (before.map (·.2)) with
    | .error fault => .error (.invalid method path fault)
    | .ok () => .ok ()

/-- Check methods and paths, those before them being right already. -/
def checkFrom (before : List (Method × String)) : List (Method × String) → Except RouteFault Unit
  | [] => .ok ()
  | (method, path) :: rest =>
    (checkNext before method path).bind fun () => checkFrom (before ++ [(method, path)]) rest

/-- Check a list of routes. -/
def checkAll {σ : Type} (routes : List (Route σ)) : Except RouteFault Unit :=
  checkFrom [] (routes.map fun r => (r.method, r.path))

end Route

end Switchboard
