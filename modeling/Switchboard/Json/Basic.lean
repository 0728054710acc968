import Switchboard.Dict
import Switchboard.Number.Binary64

/-!
# Switchboard.Json.Basic

JSON values.  Integers that fit 64 bits, signed or unsigned, stay integers
and every other number is a double.  The members of an object are listed in
increasing key order, each key once; `Json.WellFormed` says so for a whole
value, and the constructors of this module keep it.
-/

namespace Switchboard

/-- A JSON value. -/
inductive Json where
  | null
  | bool (value : Bool)
  | int (value : Int)
  | real (value : Binary64)
  | string (text : String)
  | array (items : List Json)
  | object (members : List (String × Json))
  deriving Inhabited

namespace Json

/-- The integers that are kept as integers: those of 64 bits, signed or
unsigned. -/
def FitsWord (i : Int) : Prop := -(1 <<< 63 : Nat) ≤ i ∧ i < UInt64.size

instance (i : Int) : Decidable (FitsWord i) := inferInstanceAs (Decidable (_ ∧ _))

mutual

/-- Every integer fits a word, every double is canonical and every object
lists its keys in increasing order. -/
def WellFormed : Json → Prop
  | .null => True
  | .bool _ => True
  | .int i => FitsWord i
  | .real x => x.magnitude.Canonical
  | .string _ => True
  | .array items => WellFormedItems items
  | .object members => SortedEntries members ∧ WellFormedMembers members

def WellFormedItems : List Json → Prop
  | [] => True
  | v :: rest => v.WellFormed ∧ WellFormedItems rest

def WellFormedMembers : List (String × Json) → Prop
  | [] => True
  | (_, v) :: rest => v.WellFormed ∧ WellFormedMembers rest

end

/-! ## Building -/

/-- An object from its members; of two members with one key the later is
kept. -/
def ofMembers (members : List (String × Json)) : Json :=
  .object (Dict.ofList members).entries

def ofDict (d : Dict Json) : Json := .object d.entries

/-- The object of a map from text to text. -/
def ofTexts (d : Dict String) : Json := ofDict (d.map .string)

/-- An integer, or the nearest double where it does not fit a word. -/
def ofInt (i : Int) : Json :=
  if FitsWord i then .int i else (Binary64.ofInt? i).elim .null .real

def ofNat (n : Nat) : Json := ofInt n

def ofOption : Option Json → Json
  | none => .null
  | some v => v

/-! ## Looking inside -/

def string? : Json → Option String
  | .string s => some s
  | _ => none

def bool? : Json → Option Bool
  | .bool b => some b
  | _ => none

/-- The integer of a value, if it is one of 64 bits with a sign. -/
def signedWord? : Json → Option Int
  | .int i => if i < (1 <<< 63 : Nat) then some i else none
  | _ => none

/-- The integer of a value, if it is not negative. -/
def unsignedWord? : Json → Option Nat
  | .int (.ofNat n) => some n
  | _ => none

/-- The member of an object under a key. -/
def member? (v : Json) (key : String) : Option Json :=
  match v with
  | .object members => lookupEntry key members
  | _ => none

end Json

end Switchboard
