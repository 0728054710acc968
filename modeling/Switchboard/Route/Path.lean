/-!
# Switchboard.Route.Path

The paths that routes are bound to.  A path begins with a slash and is a list
of segments between slashes.  A segment is literal, or it is a parameter as a
whole: `:name` stands for one segment, and `*name` at the end for all that is
left.  Two paths that agree up to some point must not name different
parameters there.
-/

namespace Switchboard.Route

/-- What is wrong with a path. -/
inductive PathFault where
  | noLeadingSlash
  | unnamedParameter (segment : String)
  | severalParameters (segment : String)
  | wildcardNotLast (segment : String)
  | partialParameter (segment : String)
  /-- Another path has another parameter at the same place. -/
  | conflict (segment other path : String)
  deriving DecidableEq

def PathFault.message : PathFault → String
  | .noLeadingSlash => "path must start with `/`"
  | .unnamedParameter s => s!"parameter `{s}` has no name"
  | .severalParameters s => s!"`{s}` must be a single parameter"
  | .wildcardNotLast s => s!"wildcard `{s}` must be the last segment"
  | .partialParameter s => s!"parameter in `{s}` must span the whole segment"
  | .conflict s other path => s!"`{s}` conflicts with `{other}` in `{path}`"

/-! ## Segments -/

/-- The characters that begin a parameter. -/
def isMarker (c : Char) : Bool := c = ':' || c = '*'

/-- Is a segment a parameter? -/
def isParameter : List Char → Bool
  | c :: _ => isMarker c
  | [] => false

/-- What stands between the slashes of a path. -/
def segments (path : String) : List (List Char) := path.toList.splitOn '/'

/-- Check one segment. -/
def checkSegment (isLast : Bool) (s : List Char) : Except PathFault Unit :=
  let text := String.ofList s
  match s with
  | [] => .ok ()
  | c :: name =>
    if isMarker c then
      if name.isEmpty then .error (.unnamedParameter text)
      else if name.any isMarker then .error (.severalParameters text)
      else if c = '*' && !isLast then .error (.wildcardNotLast text)
      else .ok ()
    else if name.any isMarker then .error (.partialParameter text)
    else .ok ()

/-- Check the segments of a path from the first one on. -/
def checkSegments : List (List Char) → Except PathFault Unit
  | [] => .ok ()
  | s :: rest => (checkSegment rest.isEmpty s).bind fun () => checkSegments rest

/-- Check the shape of a path. -/
def checkPath (path : String) : Except PathFault Unit :=
  match path.toList with
  | '/' :: rest => checkSegments (rest.splitOn '/')
  | _ => .error .noLeadingSlash

/-! ## Conflicts -/

/-- The two parameters at which two lists of segments part, if they part at
parameters. -/
def clash? : List (List Char) → List (List Char) → Option (List Char × List Char)
  | a :: as, b :: bs =>
    if a = b then clash? as bs
    else if isParameter a && isParameter b then some (a, b)
    else none
  | _, _ => none

/-- Check a path against one that is there already. -/
def checkAgainst (existing path : String) : Except PathFault Unit :=
  match clash? (segments existing) (segments path) with
  | some (a, b) => .error (.conflict (String.ofList b) (String.ofList a) existing)
  | none => .ok ()

end Switchboard.Route
