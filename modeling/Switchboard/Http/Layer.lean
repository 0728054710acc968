import Switchboard.Http.Response

/-!
# Switchboard.Http.Layer

Layers around a server that touch the headers of every response.  Layers that
come later lie further outside and see what earlier ones have done.
-/

namespace Switchboard.Http

/-- How a layer adds its header. -/
inductive LayerMode where
  /-- In place of all values that are there. -/
  | overriding
  | ifNotPresent
  /-- Beside the values that are there. -/
  | appending
  deriving DecidableEq

/-- A header that is added to every response. -/
structure Layer where
  mode : LayerMode
  name : String
  value : String
  deriving DecidableEq

namespace Layer

def apply (fs : Fields) (l : Layer) : Fields :=
  match l.mode with
  | .overriding => fs.insert l.name l.value
  | .ifNotPresent => fs.insertIfAbsent l.name l.value
  | .appending => fs.append l.name l.value

/-- The headers that keep browsers from guessing and framing. -/
def securityHeaders : List (String × String) :=
  [("x-content-type-options", "nosniff"), ("x-frame-options", "SAMEORIGIN"),
   ("x-dns-prefetch-control", "off"), ("x-download-options", "noopen"),
   ("x-xss-protection", "0")]

/-- The layers of the security headers: a handler's own value stays. -/
def security : List Layer := securityHeaders.map fun h => ⟨.ifNotPresent, h.1, h.2⟩

end Layer

/-- A response behind layers. -/
def Response.through (r : Response) (layers : List Layer) : Response :=
  { r with headers := layers.foldl Layer.apply r.headers }

end Switchboard.Http
