import Switchboard.Cookie

/-!
# Switchboard.Http.Response

Rendered responses and their headers.  Header names are kept in lower case;
a name may occur several times, and its values stay in the order in which
they were added.
-/

namespace Switchboard.Http

/-- Header fields in the order in which they were added. -/
abbrev Fields := List (String × String)

namespace Fields

def contains (fs : Fields) (name : String) : Bool := fs.any (·.1 = name)

/-- The values under a name. -/
def values (fs : Fields) (name : String) : List String :=
  (fs.filter (·.1 = name)).map (·.2)

/-- Add a value beside those that are there. -/
def append (fs : Fields) (name value : String) : Fields := fs ++ [(name, value)]

/-- Set the only value of a name. -/
def insert (fs : Fields) (name value : String) : Fields :=
  fs.filter (·.1 ≠ name) ++ [(name, value)]

/-- Add a value where there is none. -/
def insertIfAbsent (fs : Fields) (name value : String) : Fields :=
  if fs.contains name then fs else fs.append name value

end Fields

/-- The longest name that a header can have. -/
def nameLimit : Nat := UInt16.size - 1

/-- A name that a header can have. -/
def isHeaderName (s : String) : Bool :=
  !s.isEmpty && s.length ≤ nameLimit && s.toList.all Cookie.isTokenChar

/-- A text that a header can carry: no controls other than the tab. -/
def isHeaderValue (s : String) : Bool :=
  s.toList.all fun c => (32 ≤ c.toNat && c.toNat ≠ 127) || c.toNat = 9

/-- A rendered response. -/
structure Response where
  status : Nat
  headers : Fields
  body : String

namespace Response

def plainTextType : String := "text/plain; charset=utf-8"

def jsonType : String := "application/json"

/-- A response without a body. -/
def bare (status : Nat) : Response := ⟨status, [], ""⟩

/-- A response with a text as its body. -/
def plain (status : Nat) (text : String) : Response :=
  ⟨status, [("content-type", plainTextType)], text⟩

/-- A response with a JSON body. -/
def json (status : Nat) (body : Json) : Response :=
  ⟨status, [("content-type", jsonType)], body.text⟩

/-- A request is turned down before any handler sees it. -/
def rejection (status : Nat) (message : String) : Response :=
  json status (.object [("message", .string message)])

end Response

end Switchboard.Http
