import Switchboard.Json.Shape

/-!
# Switchboard.Http.Method

The request methods that a route can be bound to.  Any other method of a
request is unknown to every route.
-/

namespace Switchboard.Http

inductive Method where
  | get | post | put | patch | delete | head | options
  deriving DecidableEq, Inhabited

namespace Method

def all : List Method := [.get, .post, .put, .patch, .delete, .head, .options]

/-- The name in a request line. -/
def name : Method → String
  | .get => "GET"
  | .post => "POST"
  | .put => "PUT"
  | .patch => "PATCH"
  | .delete => "DELETE"
  | .head => "HEAD"
  | .options => "OPTIONS"

/-- Names are case-sensitive. -/
def ofName? (s : String) : Option Method := all.find? (·.name = s)

def toJson (m : Method) : Json := .string m.name

/-! ## Reading -/

private def unknownVariant (s : String) : String :=
  let known := ", ".intercalate (all.map fun m => s!"`{m.name}`")
  s!"unknown variant `{s}`, expected one of {known}"

/-- The name of a method behind its opening quote. -/
private def readName (input : Bytes) : Json.Read Method :=
  match Json.readString input with
  | .error f => .error f
  | .ok (s, rest) => match ofName? s with
    | some m => .ok (m, rest)
    | none => Json.faultAt (.mismatch (unknownVariant s)) rest

private def readNull (input : Bytes) : Except Json.Fault Bytes :=
  Json.atValue input fun b rest =>
    if b = 110 then Json.readWord Json.wordNull rest
    else Json.mismatch "unit" (b :: rest)

private def closeObject (m : Method) (input : Bytes) : Json.Read Method :=
  match Json.skipBlanks input with
  | [] => Json.faultAt .unfinishedObject []
  | b :: rest =>
    if b = 125 then .ok (m, rest) else Json.faultAt .expectedValue (b :: rest)

/-- The rest of an object behind its opening brace. -/
private def readObject (input : Bytes) : Json.Read Method :=
  match Json.nextMember true input with
  | .error f => .error f
  | .ok none => Json.faultOn .expectedValue (Json.skipBlanks input)
  | .ok (some input) => match readName input with
    | .error f => .error f
    | .ok (m, rest) => match Json.readColon rest with
      | .error f => .error f
      | .ok rest => match readNull rest with
        | .error f => .error f
        | .ok rest => closeObject m rest

/-- Read a method: its name, or an object with its name as the only key and
`null` under it. -/
def read (input : Bytes) : Json.Read Method :=
  Json.atValue input fun b rest =>
    if b = 123 then readObject rest
    else if b = 34 then readName rest
    else Json.faultOn .expectedValue (b :: rest)

/-- Read a method from a whole text. -/
def ofText (input : Bytes) : Except String Method := Json.readWhole read input

end Method

end Switchboard.Http
