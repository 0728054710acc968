import Switchboard.Exchange.Basic
import Switchboard.Failure
import Switchboard.Reply

/-!
# Switchboard.Exchange.Synthesis

Making a response out of what a handler returned.  A handler that has already
written a response is left alone.  Otherwise its reply is written, unless it
has no body: then nothing is written at all.
-/

namespace Switchboard

/-- What became of a reply. -/
inductive Synthesis where
  /-- The handler owns the response already. -/
  | skipped
  | written
  deriving DecidableEq

def Synthesis.name : Synthesis → String
  | .skipped => "Skipped"
  | .written => "Written"

/-- The writes that a reply with a given body stands for. -/
def Reply.writes (r : Reply) (body : Json) : List Write :=
  .status r.statusOrDefault
    :: ((r.headers.getD .empty).entries.map fun h => .header h.1 h.2)
    ++ r.cookies.map .cookie
    ++ [.body body]

/-- Write a reply unless the response is owned already. -/
def Exchange.synthesize (x : Exchange) (reply : Option Reply) :
    Except Failure (Synthesis × Exchange) :=
  if x.hasResponse then .ok (.skipped, x)
  else match reply with
    | none => .error .missingBody
    | some r => match r.body with
      | none => .error .missingBody
      | some body => .ok (.written, x.writeAll (r.writes body))

end Switchboard
