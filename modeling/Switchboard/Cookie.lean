import Switchboard.Json.Shape

/-!
# Switchboard.Cookie

Cookies that a handler sets, and their `Set-Cookie` header values.  A value is
`name=value` followed by attributes, all separated by `; `.  Each slot has its
own alphabet, and none of them contains the semicolon, so no name, value or
attribute can break out of its slot.
-/

namespace Switchboard

/-- A cookie to be set: its name, its value and its options. -/
structure Cookie where
  name : String
  value : String
  settings : Dict Json
  deriving Inhabited

/-- The options of a cookie, in key order. -/
def Cookie.options (c : Cookie) : List (String × Json) := c.settings.entries

/-- A part of a cookie that does not fit its slot in the header. -/
structure InvalidCookie where
  part : String
  value : String
  deriving DecidableEq

namespace InvalidCookie

def message (e : InvalidCookie) : String :=
  s!"invalid cookie {e.part}: {Text.quoted e.value}"

end InvalidCookie

namespace Cookie

/-! ## Alphabets -/

/-- Printable ASCII other than the blank. -/
def isGraphic (c : Char) : Bool := 33 ≤ c.toNat && c.toNat ≤ 126

/-- The characters that separate tokens in a header. -/
def separators : List Char :=
  ['(', ')', '<', '>', '@', ',', ';', ':', Char.ofNat 92, Char.ofNat 34, '/', '[', ']', '?',
   '=', Char.ofNat 123, Char.ofNat 125]

def isTokenChar (c : Char) : Bool := isGraphic c && !separators.contains c

/-- The characters of a cookie's value. -/
def isOctetChar (c : Char) : Bool :=
  isGraphic c && !([Char.ofNat 34, ',', ';', Char.ofNat 92].contains c)

/-- The characters of an attribute's text. -/
def isAttributeChar (c : Char) : Bool := (c = ' ' || isGraphic c) && c ≠ ';'

/-! ## Options -/

def option? (c : Cookie) (key : String) : Option Json := c.settings.get? key

/-- The text of an option, where it is a text. -/
def textOption? (c : Cookie) (key : String) : Option String := (c.option? key).bind Json.string?

/-- A text that fits the slot of an attribute, or no text at all. -/
def checkAttribute (c : Cookie) (key : String) : Except InvalidCookie (Option String) :=
  match c.textOption? key with
  | none => .ok none
  | some s => if s.toList.all isAttributeChar then .ok (some s) else .error ⟨key, s⟩

/-- The life of the cookie in seconds; the option is in milliseconds and
fractions are cut off. -/
def maxAge? (c : Cookie) : Option Int :=
  ((c.option? "maxAge").bind Json.signedWord?).map (·.tdiv 1000)

/-- The options as they are written, once every text is known to fit. -/
structure Attributes where
  path : Option String
  domain : Option String
  maxAge : Option Int
  expires : Option String
  sameSite : Option String
  secure : Bool
  httpOnly : Bool

/-- Check the name, the value and the attributes in this order. -/
def check (c : Cookie) : Except InvalidCookie Attributes := do
  if c.name.isEmpty || !c.name.toList.all isTokenChar then throw ⟨"name", c.name⟩
  if !c.value.toList.all isOctetChar then throw ⟨"value", c.value⟩
  let path ← c.checkAttribute "path"
  let domain ← c.checkAttribute "domain"
  let expires ← c.checkAttribute "expires"
  let sameSite ← c.checkAttribute "sameSite"
  let strict := (c.option? "sameSite").bind Json.bool? = some true
  return {
    path, domain, expires
    maxAge := c.maxAge?
    sameSite := sameSite.or (if strict then some "Strict" else none)
    secure := ((c.option? "secure").bind Json.bool?).getD false
    httpOnly := ((c.option? "httpOnly").bind Json.bool?).getD true }

/-! ## Header values -/

/-- The parts of a header value, in the order in which they are written. -/
def parts (c : Cookie) (a : Attributes) : List String :=
  [c.name ++ "=" ++ c.value, "Path=" ++ a.path.getD "/"]
    ++ (a.domain.map ("Domain=" ++ ·)).toList
    ++ (a.maxAge.map fun s => "Max-Age=" ++ toString s).toList
    ++ (a.expires.map ("Expires=" ++ ·)).toList
    ++ (a.sameSite.map ("SameSite=" ++ ·)).toList
    ++ (if a.secure then ["Secure"] else [])
    ++ (if a.httpOnly then ["HttpOnly"] else [])

/-- The value of the `Set-Cookie` header that sets a cookie. -/
def headerValue (c : Cookie) : Except InvalidCookie String :=
  c.check.map fun a => "; ".intercalate (c.parts a)

/-! ## As JSON -/

def toJson (c : Cookie) : Json := .array [.string c.name, .string c.value, .object c.options]

private def shape : String := "tuple struct CookieSpec"

private def fullShape : String := "tuple struct CookieSpec with 3 elements"

/-- Read a cookie from the front of a text. -/
def read (depth : Nat) (input : Bytes) : Json.Read Cookie :=
  Json.atValue input fun b rest =>
    if b = 91 then match depth with
      | 0 => Json.faultOn .recursionLimit (b :: rest)
      | depth + 1 =>
        Json.readElement true Json.readText (Json.tooShort 0 fullShape) (fun name rest =>
          Json.readElement false Json.readText (Json.tooShort 1 fullShape) (fun value rest =>
            Json.readElement false (Json.readDictOf Json.readValue depth)
              (Json.tooShort 2 fullShape) (fun settings rest =>
                (Json.endList rest).map fun rest => (⟨name, value, settings⟩, rest))
              rest) rest) rest
    else Json.mismatch shape (b :: rest)

/-- Read a cookie from a whole text. -/
def ofText (input : Bytes) : Except String Cookie :=
  Json.readWhole (read Json.nestingLimit) input

/-- The cookie that a value describes. -/
def ofJson : Json → Except String Cookie
  | .array [] => .error (Json.wrongLength 0 fullShape)
  | .array (name :: rest) => do
    let name ← Json.asText name
    match rest with
    | [] => .error (Json.wrongLength 1 fullShape)
    | value :: rest => do
      let value ← Json.asText value
      match rest with
      | [] => .error (Json.wrongLength 2 fullShape)
      | settings :: rest => do
        let settings ← Json.asDictOf .ok settings
        match rest with
        | [] => .ok ⟨name, value, settings⟩
        | _ :: _ => .error (Json.tooLong (4 + rest.length - 1))
  | v => .error (Json.wrongType v shape)

end Cookie

end Switchboard
