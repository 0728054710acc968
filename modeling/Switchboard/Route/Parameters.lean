import Switchboard.Dict
import Switchboard.Route.Path
import Switchboard.Text.Percent

/-!
# Switchboard.Route.Parameters

The parameters of a path by name.  What a request fills in is
percent-encoded; it is decoded after matching, so an encoded slash does not
end a segment.
-/

namespace Switchboard.Route

/-- The name of a parameter or a wildcard. -/
def parameterName? : List Char → Option String
  | c :: name => if isMarker c then some (String.ofList name) else none
  | [] => none

/-- The names in a path, in order. -/
def parameterNames (path : String) : List String := (segments path).filterMap parameterName?

/-- Beginnings of names that are kept from handlers. -/
def reservedNames : List String := ["__private__axum_nest_tail_param", "__private__axum_fallback"]

def isReserved (name : String) : Bool :=
  reservedNames.any fun reserved => reserved.toList.isPrefixOf name.toList

/-- What a request fills in, as text. -/
def decodeParameter? (taken : List Char) : Option String :=
  Utf8.decode? (Percent.decode (Utf8.encode (String.ofList taken)))

/-- Parameters by name, from what they have taken in order.  If one of them is
no text, there are none at all. -/
def parameters (names : List String) (taken : List (List Char)) : Dict String :=
  let shown := (names.zip taken).filter fun p => !isReserved p.1
  match shown.mapM fun p => (decodeParameter? p.2).map fun value => (p.1, value) with
  | some pairs => .ofList pairs
  | none => .empty

end Switchboard.Route
