import Switchboard.Exchange.Basic
import Switchboard.Http.Form

/-!
# Switchboard.Http.Request

Requests as they arrive: a method, a target, header fields whose values are
octets, and a body in chunks, which may break off.
-/

namespace Switchboard.Http

/-! ## Targets -/

/-- What a request asks for. -/
structure Target where
  path : String
  /-- What stands behind the first question mark, if there is one. -/
  query : Option String := none
  deriving DecidableEq, Inhabited

namespace Target

private def isPathEnd (c : Char) : Bool := c = '/' || c = '?' || c = '#'

/-- A path with its query.  A fragment is dropped, and an empty path is the
root. -/
def ofPath (cs : List Char) : Target :=
  let cs := cs.takeWhile (· ≠ '#')
  let path := cs.takeWhile (· ≠ '?')
  let path := if path.isEmpty then ['/'] else path
  match cs.dropWhile (· ≠ '?') with
  | [] => ⟨String.ofList path, none⟩
  | _ :: query => ⟨String.ofList path, some (String.ofList query)⟩

/-- What stands behind the scheme of an absolute target. -/
def behindScheme? : List Char → Option (List Char)
  | ':' :: '/' :: '/' :: rest => some rest
  | c :: rest => if isPathEnd c then none else behindScheme? rest
  | [] => none

/-- A target as it is written: a path, an absolute target, a lone asterisk, or
an authority, which has no path. -/
def ofText (text : String) : Target :=
  match text.toList with
  | '/' :: cs => ofPath ('/' :: cs)
  | ['*'] => ⟨"*", none⟩
  | cs => match behindScheme? cs with
    | some rest => ofPath (rest.dropWhile fun c => !isPathEnd c)
    | none => ⟨"", none⟩

/-- The query as pairs. -/
def queryPairs (t : Target) : Dict String :=
  match t.query with
  | none => .empty
  | some q => Form.read (Utf8.encode q)

end Target

/-! ## Requests -/

/-- A header field.  Its name is in lower case. -/
structure Header where
  name : String
  value : Bytes
  deriving Inhabited

namespace Header

/-- An octet that a readable value can have: printable ASCII and the tab. -/
def isReadable (b : UInt8) : Bool := (32 ≤ b && b < 127) || b = 9

/-- The value as text, if it is readable. -/
def text? (h : Header) : Option String :=
  if h.value.all isReadable then
    some (String.ofList (h.value.map fun b => Char.ofNat b.toNat))
  else none

end Header

/-- A piece of a body. -/
inductive Chunk where
  | octets (octets : Bytes)
  /-- The body breaks off. -/
  | broken (reason : String)
  deriving Inhabited

structure Request where
  method : String := "GET"
  target : Target := ⟨"/", none⟩
  headers : List Header := []
  body : List Chunk := []
  deriving Inhabited

/-- The fields of a name, in order. -/
def Request.fields (r : Request) (name : String) : List Header :=
  r.headers.filter (·.name = name)

end Switchboard.Http
