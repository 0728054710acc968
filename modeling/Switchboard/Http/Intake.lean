import Switchboard.Http.Request
import Switchboard.Http.Response
import Switchboard.Json.Reader

/-!
# Switchboard.Http.Intake

Reading a request into the request side of an exchange.  Headers and cookies
that are not readable are passed over.  A body that breaks off, is too large
or does not read as its content type says turns the request down before any
handler sees it.
-/

namespace Switchboard.Http

/-- Why a request is turned down. -/
inductive Rejection where
  | brokenBody (reason : String)
  | bodyTooLarge
  | invalidJson (reason : String)
  deriving DecidableEq

namespace Rejection

def status : Rejection → Nat
  | .bodyTooLarge => 413
  | _ => 400

def message : Rejection → String
  | .brokenBody reason => s!"failed to read request body: {reason}"
  | .bodyTooLarge => "request body too large"
  | .invalidJson reason => s!"invalid JSON body: {reason}"

def response (r : Rejection) : Response := .rejection r.status r.message

end Rejection

/-! ## Headers -/

/-- Put the text of a field beside what its name has already. -/
def addHeader (collected : Dict String) (h : Header) : Dict String :=
  match h.text? with
  | none => collected
  | some text =>
    let joined := match collected.get? h.name with
      | none => text
      | some before => before ++ ", " ++ text
    collected.insert h.name joined

/-- The readable values of every name, in order of arrival. -/
def collectHeaders (headers : List Header) : Dict String := headers.foldl addHeader .empty

/-! ## Cookies -/

/-- Is a readable character blank? -/
def isBlank (c : Char) : Bool := c = ' ' || c = '\t'

/-- Leave out what stands at both ends. -/
def trimBy (p : Char → Bool) (cs : List Char) : List Char :=
  ((cs.dropWhile p).reverse.dropWhile p).reverse

def trim (cs : List Char) : List Char := trimBy isBlank cs

def isQuote (c : Char) : Bool := c = Char.ofNat 34

/-- One pair of a cookie header.  There is none without an equals sign or
without a name. -/
def cookiePair? (cs : List Char) : Option (String × String) :=
  let cs := trim cs
  match cs.dropWhile (· ≠ '=') with
  | [] => none
  | _ :: value =>
    let name := trim (cs.takeWhile (· ≠ '='))
    if name.isEmpty then none
    else some (String.ofList name, String.ofList (trimBy isQuote (trim value)))

/-- The pairs of one cookie header. -/
def cookiePairs (line : String) : List (String × String) :=
  (line.toList.splitOn ';').filterMap cookiePair?

/-- The cookies of several headers; the last pair of a name wins. -/
def readCookies (lines : List String) : Dict String := .ofList (lines.flatMap cookiePairs)

/-- The cookies of a request. -/
def Request.cookies (r : Request) : Dict String :=
  readCookies ((r.fields "cookie").filterMap Header.text?)

/-! ## Bodies -/

/-- The largest body, in octets. -/
def bodyLimit : Nat := 1024 * 1024

/-- Collect a body.  `size` octets have been collected in `pieces`, newest
first. -/
def collectBody (limit size : Nat) (pieces : List Bytes) : List Chunk → Except Rejection Bytes
  | [] => .ok pieces.reverse.flatten
  | .broken reason :: _ => .error (.brokenBody reason)
  | .octets bs :: rest =>
    if limit < size + bs.length then .error .bodyTooLarge
    else collectBody limit (size + bs.length) (bs :: pieces) rest

def readBody (chunks : List Chunk) : Except Rejection Bytes := collectBody bodyLimit 0 [] chunks

/-- What a content type says about a body. -/
inductive MediaKind where
  | json | form | text
  deriving DecidableEq

/-- The media type of a content type: without parameters, in lower case. -/
def mediaType (contentType : String) : String :=
  foldName (String.ofList (trim (contentType.toList.takeWhile (· ≠ ';'))))

/-- Does a text end in another one? -/
def endsIn (text ending : String) : Bool := ending.toList.isSuffixOf text.toList

def MediaKind.ofContentType (contentType : String) : MediaKind :=
  let mediaType := mediaType contentType
  if mediaType = "application/json" || endsIn mediaType "+json" then .json
  else if mediaType = "application/x-www-form-urlencoded" then .form
  else .text

/-- The value of a body.  An empty body is null, whatever its type. -/
def parseBody (contentType : String) (bs : Bytes) : Except Rejection Json :=
  if bs.isEmpty then .ok .null
  else match MediaKind.ofContentType contentType with
    | .json => (Json.readOrMessage bs).mapError .invalidJson
    | .form => .ok (.ofTexts (Form.read bs))
    | .text => .ok (.string (Utf8.decodeLossy bs))

/-- The content type of a request: its first one, if that is readable. -/
def Request.contentType (r : Request) : String :=
  ((r.fields "content-type").head?.bind Header.text?).getD ""

/-! ## Requests -/

/-- What is read of a request. -/
structure Parsing where
  cookies : Bool := true
  body : Bool := true

/-- The request side of an exchange. -/
def Parsing.requestSide (p : Parsing) (params : Dict String) (r : Request) :
    Except Rejection RequestSide := do
  let body ← if p.body then readBody r.body >>= parseBody r.contentType else .ok .null
  return {
    query := r.target.queryPairs
    params
    headers := collectHeaders r.headers
    cookies := if p.cookies then r.cookies else .empty
    body }

end Switchboard.Http
