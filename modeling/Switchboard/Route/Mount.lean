import Switchboard.Route.Parameters
import Switchboard.Route.Table
import Switchboard.Route.Tree

/-!
# Switchboard.Route.Mount

Mounting the paths of a table one after another, and finding the handler of a
request among them.  The segments of the paths form a tree, and every place in
it has room for one parameter.  A path that is known under other methods is
told apart from one that is not known at all.
-/

namespace Switchboard.Route

open Http

variable {σ : Type}

/-! ## Places -/

/-- A place for a parameter: the segments that lead to it. -/
abbrev Place := List (List Char)

/-- The parameters of a path with their places.  `before` has been passed
already, the last segment first. -/
def placesFrom (before : Place) : List (List Char) → List (Place × List Char)
  | [] => []
  | s :: rest =>
    let later := placesFrom (s :: before) rest
    if isParameter s then (before, s) :: later else later

def places (path : String) : List (Place × List Char) := placesFrom [] (segments path)

/-! ## Mounting -/

/-- What stands from the first marker of a segment on. -/
def markedPart (s : List Char) : List Char := s.dropWhile fun c => !isMarker c

/-- A segment that can be mounted. -/
def mountSegment (isLast : Bool) (s : List Char) : Except MountFault Unit :=
  let text := String.ofList s
  match markedPart s with
  | [] => .ok ()
  | c :: name =>
    if name.isEmpty then .error (.namelessParameter text)
    else if name.any isMarker then .error (.severalParameters text)
    else if c = '*' && !(isLast && isParameter s) then .error (.innerWildcard text)
    else .ok ()

def mountSegments : List (List Char) → Except MountFault Unit
  | [] => .ok ()
  | s :: rest => (mountSegment rest.isEmpty s).bind fun () => mountSegments rest

/-- The parameters, other than a wildcard, that one path has room for. -/
def parameterLimit : Nat := 25

def parameterCount (path : String) : Nat :=
  (segments path).countP fun s => (markedPart s).head? = some ':'

/-- Is one of the parameters placed where another one stands? -/
def parameterFault? (standing new : List (Place × List Char)) : Option MountFault :=
  new.findSome? fun p => (standing.find? fun q => q.1 = p.1 && q.2 ≠ p.2).map fun q =>
    .parameterTaken (String.ofList p.2) (String.ofList q.2)

/-- Paths that have been mounted, with their handlers, in order. -/
structure Mounted (σ : Type) where
  entries : List (String × MethodTable σ) := []

namespace Mounted

def paths (m : Mounted σ) : List String := m.entries.map (·.1)

/-- Mount one more path. -/
def mount (m : Mounted σ) (path : String) (methods : MethodTable σ) :
    Except MountFault (Mounted σ) := do
  if path.toList.head? ≠ some '/' then throw (.notRooted path)
  mountSegments (segments path)
  if parameterLimit < parameterCount path then throw (.tooManyParameters path)
  if m.paths.contains path then throw (.pathTaken path)
  match parameterFault? (m.paths.flatMap places) (places path) with
  | some fault => throw fault
  | none => return ⟨m.entries ++ [(path, methods)]⟩

/-- Mount paths in order. -/
def mountAll (m : Mounted σ) : List (String × MethodTable σ) → Except MountFault (Mounted σ)
  | [] => .ok m
  | (path, methods) :: rest => (m.mount path methods).bind fun m => mountAll m rest

/-- Mount the paths of a table. -/
def ofTable (t : Table σ) : Except MountFault (Mounted σ) := mountAll {} t.entries

/-- Group routes by their paths, and mount the paths. -/
def ofRoutes (routes : List (Route σ)) : Except MountFault (Mounted σ) :=
  (Table.ofRoutes routes).bind ofTable

end Mounted

/-! ## Looking requests up -/

/-- The paths as a tree. -/
def Mounted.tree (m : Mounted σ) : Tree (String × MethodTable σ) :=
  m.entries.foldl (fun t e => t.insert (Piece.ofPath e.1) e) []

/-- What is mounted for a request. -/
inductive Found (σ : Type) where
  | handler (handler : Handler σ) (params : Dict String)
  /-- The path is known, but not under this method. -/
  | otherMethod (allow : String)
  | nothing

/-- Look a request up by its method and its path. -/
def Mounted.look (m : Mounted σ) (method path : String) : Found σ :=
  match m.tree.find? path with
  | none => .nothing
  | some ((mountedPath, methods), taken) => match methods.handler? method with
    | some h => .handler h (parameters (parameterNames mountedPath) taken)
    | none => .otherMethod methods.allowHeader

end Switchboard.Route
