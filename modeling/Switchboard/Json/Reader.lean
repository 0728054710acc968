import Switchboard.Json.Scan

/-!
# Switchboard.Json.Reader

Reading JSON values from octets.  Lists and objects may be nested 127 deep.
The nesting that is left is the argument that the recursion goes down on; the
members of one list or object are a loop over the input, with fuel as long as
the input.
-/

namespace Switchboard.Json

/-- How deep lists and objects may be nested. -/
def nestingLimit : Nat := 127

/-- Fuel for a loop that takes at least one octet of its input every time but
the last. -/
def fuelFor (input : Bytes) : Bytes := 0 :: input

/-- Read the items of a list, behind the opening bracket or behind an item,
up to and with the closing bracket.  The loop takes one octet of the fuel for
every item. -/
def readItems {α : Type} (item : Bytes → Read α) (acc : List α) (first : Bool) :
    (fuel : Bytes) → Bytes → Read (List α)
  | [], input => faultOn .unfinishedList input
  | _ :: fuel, input =>
    match nextItem first input with
    | .error f => .error f
    | .ok none => (endList input).map fun rest => (acc.reverse, rest)
    | .ok (some input) => match item input with
      | .error f => .error f
      | .ok (v, rest) => readItems item (v :: acc) false fuel rest

/-- Read the members of an object, behind the opening brace or behind a
member, up to and with the closing brace.  A later member of the same key
takes the place of an earlier one. -/
def readMembers {α : Type} (value : Bytes → Read α) (acc : Dict α) (first : Bool) :
    (fuel : Bytes) → Bytes → Read (Dict α)
  | [], input => faultOn .unfinishedObject input
  | _ :: fuel, input =>
    match nextMember first input with
    | .error f => .error f
    | .ok none => (endObject input).map fun rest => (acc, rest)
    | .ok (some input) => match readString input with
      | .error f => .error f
      | .ok (key, input) => match readColon input with
        | .error f => .error f
        | .ok input => match value input with
          | .error f => .error f
          | .ok (v, rest) => readMembers value (acc.insert key v) false fuel rest

/-- Read a scalar, or hand a list or an object behind its opening octet to the
reader for it. -/
def readValueWith (list object : Bytes → Read Json) (input : Bytes) : Read Json :=
  match skipBlanks input with
  | [] => faultOn .unfinishedValue []
  | b :: rest =>
    if b = 110 then (readWord wordNull rest).map fun rest => (.null, rest)
    else if b = 116 then (readWord wordTrue rest).map fun rest => (.bool true, rest)
    else if b = 102 then (readWord wordFalse rest).map fun rest => (.bool false, rest)
    else if b = 45 then readNumber true rest
    else if isDigit b then readNumber false (b :: rest)
    else if b = 34 then (readString rest).map fun p => (.string p.1, p.2)
    else if b = 91 then list rest
    else if b = 123 then object rest
    else faultOn .expectedValue (b :: rest)

/-- Read a value with `depth` levels of nesting left. -/
def readValue : (depth : Nat) → Bytes → Read Json
  | 0 => readValueWith (fun rest => .error ⟨.recursionLimit, rest.length⟩)
      (fun rest => .error ⟨.recursionLimit, rest.length⟩)
  | depth + 1 => readValueWith
      (fun rest => (readItems (readValue depth) [] true (fuelFor rest) rest).map
        fun p => (.array p.1, p.2))
      (fun rest => (readMembers (readValue depth) .empty true (fuelFor rest) rest).map
        fun p => (.ofDict p.1, p.2))

/-- Read a whole input that holds one value. -/
def read (input : Bytes) : Except Fault Json :=
  match readValue nestingLimit input with
  | .error f => .error f
  | .ok (v, rest) => (endInput rest).map fun _ => v

/-- Read a value, or say what is wrong and where. -/
def readOrMessage (input : Bytes) : Except String Json :=
  (read input).mapError (Fault.message input)

/-- Read the value that a text writes, if it writes one. -/
def ofText? (s : String) : Option Json := (read (Utf8.encode s)).toOption

end Switchboard.Json
