import Switchboard.Cookie

/-!
# Switchboard.Exchange.Basic

One request and the response to it while the response is being made.  The
request side is fixed when the exchange begins; the response side is written
to, and remembers whether its status was written or is only implied.
-/

namespace Switchboard

/-- What a handler may know of a request. -/
structure RequestSide where
  query : Dict String := .empty
  params : Dict String := .empty
  /-- Names are in lower case. -/
  headers : Dict String := .empty
  cookies : Dict String := .empty
  body : Json := .null
  deriving Inhabited

/-- A response in the making. -/
structure ResponseSide where
  status : UInt16 := 404
  statusWritten : Bool := false
  body : Option Json := none
  headers : Dict String := .empty
  cookies : List Cookie := []
  deriving Inhabited

structure Exchange where
  request : RequestSide := {}
  response : ResponseSide := {}
  deriving Inhabited

/-- The name of a header in its one spelling. -/
def foldName (name : String) : String := String.ofList (name.toList.map Char.toLower)

namespace ResponseSide

/-- The status of a response that nobody has touched. -/
def defaultStatus : UInt16 := 404

def setStatus (r : ResponseSide) (status : UInt16) : ResponseSide :=
  { r with status, statusWritten := true }

/-- Set the body.  Unless a status was written, it becomes 200. -/
def setBody (r : ResponseSide) (body : Json) : ResponseSide :=
  { r with body := some body, status := if r.statusWritten then r.status else 200 }

def setHeader (r : ResponseSide) (name value : String) : ResponseSide :=
  { r with headers := r.headers.insert (foldName name) value }

def setCookie (r : ResponseSide) (cookie : Cookie) : ResponseSide :=
  { r with cookies := r.cookies ++ [cookie] }

/-- Somebody owns the response: there is a body, or a status other than the
default one. -/
def hasResponse (r : ResponseSide) : Bool := r.body.isSome || r.status ≠ defaultStatus

end ResponseSide

namespace Exchange

def setStatus (x : Exchange) (status : UInt16) : Exchange :=
  { x with response := x.response.setStatus status }

def setBody (x : Exchange) (body : Json) : Exchange :=
  { x with response := x.response.setBody body }

def setHeader (x : Exchange) (name value : String) : Exchange :=
  { x with response := x.response.setHeader name value }

def setCookie (x : Exchange) (cookie : Cookie) : Exchange :=
  { x with response := x.response.setCookie cookie }

def hasResponse (x : Exchange) : Bool := x.response.hasResponse

/-- Take the exchange out, request side and all, and leave a fresh one. -/
def take (x : Exchange) : Exchange × Exchange := (x, {})

end Exchange

/-! ## Writes -/

/-- A write to the response side. -/
inductive Write where
  | status (status : UInt16)
  | body (body : Json)
  | header (name value : String)
  | cookie (cookie : Cookie)

def Exchange.write (x : Exchange) : Write → Exchange
  | .status s => x.setStatus s
  | .body b => x.setBody b
  | .header n v => x.setHeader n v
  | .cookie c => x.setCookie c

/-- Perform writes in order. -/
def Exchange.writeAll (x : Exchange) (ws : List Write) : Exchange := ws.foldl Exchange.write x

end Switchboard
