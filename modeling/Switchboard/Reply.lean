import Switchboard.Cookie

/-!
# Switchboard.Reply

What a handler returns to say which response it wants, without writing one.
A reply without a body is refused where a response is made from it; the value
`null` is a body like any other.
-/

namespace Switchboard

/-- A declared response: each part is optional. -/
structure Reply where
  body : Option Json := none
  status : Option UInt16 := none
  headers : Option (Dict String) := none
  cookies : List Cookie := []
  deriving Inhabited

namespace Reply

/-- The status of a reply that names none. -/
def defaultStatus : UInt16 := 200

def statusOrDefault (r : Reply) : UInt16 := r.status.getD defaultStatus

/-! ## Building -/

/-- A reply with a body. -/
def send (body : Json) : Reply := { body := some body }

private def messageBody (text : String) : Json := .object [("message", .string text)]

/-- Nothing is there: status 404, with the given body or the usual one. -/
def notFound (body : Option Json) : Reply :=
  { body := some (body.getD (messageBody "Not Found")), status := some 404 }

/-- The client may not: status 401, with the given body or the usual one. -/
def notAuthorized (body : Option Json) : Reply :=
  { body := some (body.getD (messageBody "Not Authorized")), status := some 401 }

def withStatus (r : Reply) (status : UInt16) : Reply := { r with status := some status }

/-- Replace all headers. -/
def withHeaders (r : Reply) (headers : Dict String) : Reply :=
  { r with headers := some headers }

/-- Add or replace one header, with its name as it is spelled. -/
def withHeader (r : Reply) (name value : String) : Reply :=
  { r with headers := some ((r.headers.getD .empty).insert name value) }

/-- Append cookies. -/
def withCookies (r : Reply) (cookies : List Cookie) : Reply :=
  { r with cookies := r.cookies ++ cookies }

def withCookie (r : Reply) (cookie : Cookie) : Reply := r.withCookies [cookie]

/-! ## As JSON -/

/-- The parts of a reply under their names: parts that are not set are left
out. -/
def members (r : Reply) : List (String × Json) :=
  (r.body.map ("body", ·)).toList
    ++ (r.status.map fun s => ("status", Json.int s.toNat)).toList
    ++ (r.headers.map fun h => ("headers", Json.ofTexts h)).toList
    ++ (if r.cookies.isEmpty then [] else [("cookies", .array (r.cookies.map (·.toJson)))])

def toJson (r : Reply) : Json := .ofMembers r.members

/-- The text of a reply, its parts in their own order. -/
def text (r : Reply) : String := (Json.object r.members).text

/-- A reply while its members are read: which parts have been given. -/
structure Draft where
  body : Option (Option Json) := none
  status : Option (Option UInt16) := none
  headers : Option (Option (Dict String)) := none
  cookies : Option (List Cookie) := none

/-- Parts that were not given are not set.  A body of `null` counts as not
given. -/
def Draft.finish (d : Draft) : Reply :=
  { body := d.body.join, status := d.status.join, headers := d.headers.join
    cookies := d.cookies.getD [] }

private def readBody (depth : Nat) : Bytes → Json.Read (Option Json) :=
  Json.readOption (Json.readValue depth)

private def readStatus : Bytes → Json.Read (Option UInt16) := Json.readOption Json.readWord16

private def readHeaders (depth : Nat) : Bytes → Json.Read (Option (Dict String)) :=
  Json.readOption (Json.readDictOf (fun _ => Json.readText) depth)

private def readCookies (depth : Nat) : Bytes → Json.Read (List Cookie) :=
  Json.readListOf Cookie.read depth

private def slot (depth : Nat) (d : Draft) (key : String) : Json.Slot Draft :=
  if key = "body" then
    if d.body.isSome then .filled
    else .free fun input => (readBody depth input).map fun p => ({ d with body := some p.1 }, p.2)
  else if key = "status" then
    if d.status.isSome then .filled
    else .free fun input => (readStatus input).map fun p => ({ d with status := some p.1 }, p.2)
  else if key = "headers" then
    if d.headers.isSome then .filled
    else .free fun input =>
      (readHeaders depth input).map fun p => ({ d with headers := some p.1 }, p.2)
  else if key = "cookies" then
    if d.cookies.isSome then .filled
    else .free fun input =>
      (readCookies depth input).map fun p => ({ d with cookies := some p.1 }, p.2)
  else .unknown

/-- Read a reply from the front of a text. -/
def read (depth : Nat) (input : Bytes) : Json.Read Reply :=
  Json.atValue input fun b rest =>
    if b = 123 then match depth with
      | 0 => Json.faultOn .recursionLimit (b :: rest)
      | depth + 1 =>
        (Json.readFields (slot depth) {} true (Json.fuelFor rest) rest).map
          fun p => (p.1.finish, p.2)
    else if b = 91 then match depth with
      | 0 => Json.faultOn .recursionLimit (b :: rest)
      | depth + 1 =>
        let ended (d : Draft) (rest : Bytes) : Json.Read Reply := .ok (d.finish, rest)
        Json.readElement true (readBody depth) (ended {}) (fun body rest =>
          let d : Draft := { body := some body }
          Json.readElement false readStatus (ended d) (fun status rest =>
            let d := { d with status := some status }
            Json.readElement false (readHeaders depth) (ended d) (fun headers rest =>
              let d := { d with headers := some headers }
              Json.readElement false (readCookies depth) (ended d) (fun cookies rest =>
                (Json.endList rest).map
                  fun rest => (({ d with cookies := some cookies } : Draft).finish, rest))
                rest) rest) rest) rest
    else Json.mismatch "struct LogicalResponse" (b :: rest)

/-- Read a reply from a whole text. -/
def ofText (input : Bytes) : Except String Reply :=
  Json.readWhole (read Json.nestingLimit) input

def headersOfJson : Json → Except String (Dict String) := Json.asDictOf Json.asText

/-- The reply that a value describes, with its parts by name or in order.  A
part that is missing or `null` is not set. -/
def ofJson : Json → Except String Reply
  | .object members => do
    let part (key : String) : Json := .ofOption (lookupEntry key members)
    let body ← Json.asOption .ok (part "body")
    let cookies ← (lookupEntry "cookies" members).mapM (Json.asListOf Cookie.ofJson)
    let headers ← Json.asOption headersOfJson (part "headers")
    let status ← Json.asOption Json.asWord16 (part "status")
    return { body, status, headers, cookies := cookies.getD [] }
  | .array items => do
    let part (i : Nat) : Json := .ofOption items[i]?
    let body ← Json.asOption .ok (part 0)
    let status ← Json.asOption Json.asWord16 (part 1)
    let headers ← Json.asOption headersOfJson (part 2)
    let cookies ← items[3]?.mapM (Json.asListOf Cookie.ofJson)
    if 4 < items.length then throw (Json.tooLong items.length)
    return { body, status, headers, cookies := cookies.getD [] }
  | v => .error (Json.wrongType v "struct LogicalResponse")

end Reply

end Switchboard
