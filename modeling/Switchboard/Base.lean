import Switchboard.Registry
import Switchboard.Text.Timestamp

/-!
# Switchboard.Base

The commands that every server knows, and the resolvers that answer them.
-/

namespace Switchboard.Base

variable {σ : Type}

/-! ## Commands -/

def echo (payload : Json) : Command := ⟨"echo", payload⟩

def now : Command := ⟨"now", .null⟩

def randomNumber : Command := ⟨"random_number", .null⟩

def ulid : Command := ⟨"ulid", .null⟩

def logInfo (message : String) : Command := ⟨"log_info", .string message⟩

def logError (message : String) : Command := ⟨"log_error", .string message⟩

def sleep (ms : Nat) : Command := ⟨"sleep", .int ms⟩

/-! ## Resolvers -/

def echoResolver : Resolver σ := fun payload _ => .done (.ok payload)

/-- The time, as text. -/
def nowResolver : Resolver σ := fun _ _ =>
  .look fun ms _ => .done (.ok (.string (Text.timestamp ms)))

/-- A number from zero up to, but not including, one. -/
def randomNumberResolver : Resolver σ := fun _ _ =>
  .write World.stir <| .look fun _ w =>
    .done (.ok (.real (Binary64.ofUnitNumerator (w.entropy >>> 11))))

/-- A sortable identifier that nobody else has. -/
def ulidResolver : Resolver σ := fun _ _ =>
  .write World.stir <| .look fun _ w₁ => .write World.stir <| .look fun ms w₂ =>
    .done (.ok (.string (Text.sortableId ms (w₁.entropy <<< 16 + w₂.entropy >>> 48))))

/-- Write the payload to the log: a text as it is, anything else as JSON. -/
def logResolver (level : LogLevel) : Resolver σ := fun payload _ =>
  .write (·.log [⟨level, payload.plainText, []⟩]) (.done (.ok .null))

/-- Wait for a number of milliseconds. -/
def sleepResolver : Resolver σ := fun payload _ =>
  match payload.unsignedWord? with
  | some ms => .sleep ms (.done (.ok .null))
  | none => .done (.error (.ofMessage "sleep expects a number of milliseconds"))

/-- The resolvers of the base commands. -/
def interpreters : Interpreters σ :=
  [("echo", echoResolver), ("now", nowResolver), ("random_number", randomNumberResolver),
   ("ulid", ulidResolver), ("log_info", logResolver .info), ("log_error", logResolver .error),
   ("sleep", sleepResolver)]

end Switchboard.Base
