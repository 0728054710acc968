import Switchboard.Json.Printer
import Switchboard.Json.Reader
import Switchboard.Json.Skip
import Switchboard.Text.Quoted

/-!
# Switchboard.Json.Shape

Reading JSON of a known shape, either from text or from a value.  Both report
a value of another shape in the same words, but only a fault in text has a
position.

A record is written as an object, whose unknown members are passed over, or as
a list of its fields in order.  A fault of the record as a whole, such as a
missing field, is placed behind the record.
-/

namespace Switchboard.Json

/-! ## Wording -/

/-- What a value is, in a message about its shape. -/
def described : Json → String
  | .null => "null"
  | .bool b => s!"boolean `{b}`"
  | .int i => s!"integer `{i}`"
  | .real x => s!"floating point `{x.text}`"
  | .string s => s!"string {Text.quoted s}"
  | .array _ => "sequence"
  | .object _ => "map"

def wrongType (v : Json) (expected : String) : String :=
  s!"invalid type: {v.described}, expected {expected}"

def wrongValue (v : Json) (expected : String) : String :=
  s!"invalid value: {v.described}, expected {expected}"

def wrongLength (length : Nat) (expected : String) : String :=
  s!"invalid length {length}, expected {expected}"

def missingField (name : String) : String := s!"missing field `{name}`"

def duplicateField (name : String) : String := s!"duplicate field `{name}`"

/-! ## Shapes in text -/

/-- Report the value in front as one of another type.  A scalar is read
first, and its own faults win. -/
def mismatch {α : Type} (expected : String) (input : Bytes) : Except Fault α :=
  match input with
  | [] => faultOn .expectedValue []
  | b :: rest =>
    if b = 91 then faultAt (.mismatch (wrongType (.array []) expected)) (b :: rest)
    else if b = 123 then faultAt (.mismatch (wrongType (.object []) expected)) (b :: rest)
    else match readValueWith (faultAt .expectedValue) (faultAt .expectedValue) input with
      | .error f => .error f
      | .ok (v, rest) => faultAt (.mismatch (wrongType v expected)) rest

/-- The input at its first octet that is not blank. -/
def atValue {α : Type} (input : Bytes) (read : UInt8 → Bytes → Except Fault α) :
    Except Fault α :=
  match skipBlanks input with
  | [] => faultOn .unfinishedValue []
  | b :: rest => read b rest

def readText (input : Bytes) : Read String :=
  atValue input fun b rest =>
    if b = 34 then readString rest else mismatch "a string" (b :: rest)

/-- An unsigned integer of 16 bits. -/
def readWord16 (input : Bytes) : Read UInt16 :=
  atValue input fun b rest =>
    if b = 45 || isDigit b then
      match if b = 45 then readNumber true rest else readNumber false (b :: rest) with
      | .error f => .error f
      | .ok (.int i, rest) =>
        if 0 ≤ i ∧ i < UInt16.size then .ok (i.toNat.toUInt16, rest)
        else faultAt (.mismatch (wrongValue (.int i) "u16")) rest
      | .ok (v, rest) => faultAt (.mismatch (wrongType v "u16")) rest
    else mismatch "u16" (b :: rest)

/-- Something, or `null` for nothing. -/
def readOption {α : Type} (some_ : Bytes → Read α) (input : Bytes) : Read (Option α) :=
  match skipBlanks input with
  | b :: rest =>
    if b = 110 then (readWord wordNull rest).map fun rest => (none, rest)
    else (some_ (b :: rest)).map fun p => (some p.1, p.2)
  | [] => (some_ []).map fun p => (some p.1, p.2)

/-- A list, with `depth` levels of nesting left. -/
def readListOf {α : Type} (item : Nat → Bytes → Read α) (depth : Nat) (input : Bytes) :
    Read (List α) :=
  atValue input fun b rest =>
    if b = 91 then match depth with
      | 0 => faultOn .recursionLimit (b :: rest)
      | depth + 1 => readItems (item depth) [] true (fuelFor rest) rest
    else mismatch "a sequence" (b :: rest)

/-- An object, with `depth` levels of nesting left. -/
def readDictOf {α : Type} (value : Nat → Bytes → Read α) (depth : Nat) (input : Bytes) :
    Read (Dict α) :=
  atValue input fun b rest =>
    if b = 123 then match depth with
      | 0 => faultOn .recursionLimit (b :: rest)
      | depth + 1 => readMembers (value depth) .empty true (fuelFor rest) rest
    else mismatch "a map" (b :: rest)

/-! ### Records -/

/-- What a record does with a member. -/
inductive Slot (σ : Type) where
  /-- No field has this key. -/
  | unknown
  /-- The field has a value already. -/
  | filled
  /-- Read the value into the record. -/
  | free (read : Bytes → Read σ)

/-- The end of a record in which something is wrong: its closing brace, or
where that should have been. -/
def behindObject (input : Bytes) : Bytes :=
  match endObject input with
  | .ok rest => rest
  | .error _ => skipBlanks input

/-- Read the members of a record up to and with the closing brace. -/
def readFields {σ : Type} (slot : σ → String → Slot σ) (record : σ) (first : Bool) :
    (fuel : Bytes) → Bytes → Read σ
  | [], input => faultOn .unfinishedObject input
  | _ :: fuel, input =>
    match nextMember first input with
    | .error f => .error f
    | .ok none => (endObject input).map fun rest => (record, rest)
    | .ok (some input) => match readString input with
      | .error f => .error f
      | .ok (key, input) => match slot record key with
        | .filled => faultAt (.mismatch (duplicateField key)) (behindObject input)
        | .unknown => match readColon input with
          | .error f => .error f
          | .ok input => match skipValue input with
            | .error f => .error f
            | .ok rest => readFields slot record false fuel rest
        | .free read => match readColon input with
          | .error f => .error f
          | .ok input => match read input with
            | .error f => .error f
            | .ok (record, rest) => readFields slot record false fuel rest

/-- Read the next of a record's fields from a list, or give up on it where
the list ends. -/
def readElement {α β : Type} (first : Bool) (element : Bytes → Read α)
    (ended : Bytes → Read β) (next : α → Bytes → Read β) (input : Bytes) : Read β :=
  match nextItem first input with
  | .error f => .error f
  | .ok none => match endList input with
    | .error f => .error f
    | .ok rest => ended rest
  | .ok (some input) => match element input with
    | .error f => .error f
    | .ok (v, rest) => next v rest

/-- The end of a list that ends too early. -/
def tooShort {α : Type} (length : Nat) (expected : String) (rest : Bytes) : Read α :=
  faultAt (.mismatch (wrongLength length expected)) rest

/-- Read a whole input with a reader of one shape. -/
def readWhole {α : Type} (reader : Bytes → Read α) (input : Bytes) : Except String α :=
  match reader input with
  | .error f => .error (f.message input)
  | .ok (v, rest) => match endInput rest with
    | .error f => .error (f.message input)
    | .ok () => .ok v

/-! ## Shapes in values -/

def asText (v : Json) : Except String String :=
  match v with
  | .string s => .ok s
  | v => .error (wrongType v "a string")

def asWord16 (v : Json) : Except String UInt16 :=
  match v with
  | .int i =>
    if 0 ≤ i ∧ i < UInt16.size then .ok i.toNat.toUInt16 else .error (wrongValue (.int i) "u16")
  | v => .error (wrongType v "u16")

def asOption {α : Type} (some_ : Json → Except String α) (v : Json) :
    Except String (Option α) :=
  match v with
  | .null => .ok none
  | v => (some_ v).map some

def asListOf {α : Type} (item : Json → Except String α) (v : Json) :
    Except String (List α) :=
  match v with
  | .array items => items.mapM item
  | v => .error (wrongType v "a sequence")

def asDictOf {α : Type} (value : Json → Except String α) (v : Json) :
    Except String (Dict α) :=
  match v with
  | .object members => (members.mapM fun m => (value m.2).map fun x => (m.1, x)).map Dict.ofList
  | v => .error (wrongType v "a map")

/-- A list that holds more than the fields of a record. -/
def tooLong (length : Nat) : String := wrongLength length "fewer elements in array"

end Switchboard.Json
