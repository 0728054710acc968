import Switchboard.Json.Shape

/-!
# Switchboard.Command

Commands, the groups of them that a script hands to the interpreter in one
go, and what the script gets back.  A group is answered in its own shape: a
single value, as many values as there were commands, or a value under every
label.
-/

namespace Switchboard

/-- A named instruction.  Its name selects the resolver; its payload is the
resolver's business. -/
structure Command where
  name : String
  payload : Json
  deriving Inhabited

namespace Command

def toJson (c : Command) : Json :=
  .ofMembers [("name", .string c.name), ("payload", c.payload)]

/-- A command while its members are read. -/
structure Draft where
  name : Option String := none
  payload : Option Json := none

private def slot (depth : Nat) (d : Draft) (key : String) : Json.Slot Draft :=
  if key = "name" then
    if d.name.isSome then .filled
    else .free fun input => (Json.readText input).map fun p => ({ d with name := some p.1 }, p.2)
  else if key = "payload" then
    if d.payload.isSome then .filled
    else .free fun input =>
      (Json.readValue depth input).map fun p => ({ d with payload := some p.1 }, p.2)
  else .unknown

/-- The command of a draft, or the first field that it lacks. -/
def Draft.finish? (d : Draft) : Except String Command :=
  match d.name, d.payload with
  | none, _ => .error (Json.missingField "name")
  | some _, none => .error (Json.missingField "payload")
  | some name, some payload => .ok ⟨name, payload⟩

/-- Read a command from the front of a text. -/
def read (depth : Nat) (input : Bytes) : Json.Read Command :=
  Json.atValue input fun b rest =>
    if b = 123 then match depth with
      | 0 => Json.faultOn .recursionLimit (b :: rest)
      | depth + 1 =>
        match Json.readFields (slot depth) {} true (Json.fuelFor rest) rest with
        | .error f => .error f
        | .ok (draft, rest) => match draft.finish? with
          | .error message => Json.faultAt (.mismatch message) rest
          | .ok c => .ok (c, rest)
    else if b = 91 then match depth with
      | 0 => Json.faultOn .recursionLimit (b :: rest)
      | depth + 1 =>
        let shape := "struct Command with 2 elements"
        Json.readElement true Json.readText (Json.tooShort 0 shape) (fun name rest =>
          Json.readElement false (Json.readValue depth) (Json.tooShort 1 shape)
            (fun payload rest => (Json.endList rest).map fun rest => (⟨name, payload⟩, rest))
            rest) rest
    else Json.mismatch "struct Command" (b :: rest)

/-- Read a command from a whole text. -/
def ofText (input : Bytes) : Except String Command :=
  Json.readWhole (read Json.nestingLimit) input

/-- The command that a value describes. -/
def ofJson : Json → Except String Command
  | .object members => do
    let name ← (lookupEntry "name" members).mapM Json.asText
    Draft.finish? ⟨name, lookupEntry "payload" members⟩
  | .array items =>
    let shape := "struct Command with 2 elements"
    match items with
    | [] => .error (Json.wrongLength 0 shape)
    | first :: rest => do
      let name ← Json.asText first
      match rest with
      | [] => .error (Json.wrongLength 1 shape)
      | [payload] => .ok ⟨name, payload⟩
      | _ :: _ :: _ => .error (Json.tooLong items.length)
  | v => .error (Json.wrongType v "struct Command")

end Command

/-! ## Effects -/

/-- What a script suspends on. -/
inductive Effect where
  | single (command : Command)
  /-- Resolved side by side, answered in the same order. -/
  | sequence (commands : List Command)
  /-- Resolved side by side, answered under the same labels. -/
  | mapping (commands : Labelled Command)

namespace Effect

def kind : Effect → String
  | .single _ => "single"
  | .sequence _ => "sequence"
  | .mapping _ => "mapping"

/-- The commands carried, in the order in which they are written. -/
def commands : Effect → List Command
  | .single c => [c]
  | .sequence cs => cs
  | .mapping cs => cs.values

def size (e : Effect) : Nat := e.commands.length

def isEmpty (e : Effect) : Bool := e.size == 0

end Effect

/-- What a script resumes with: values in the shape of its effect. -/
inductive Resumed where
  | single (value : Json)
  | sequence (values : List Json)
  | mapping (values : Labelled Json)

def Resumed.kind : Resumed → String
  | .single _ => "single"
  | .sequence _ => "sequence"
  | .mapping _ => "mapping"

end Switchboard
