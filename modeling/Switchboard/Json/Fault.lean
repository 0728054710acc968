import Switchboard.Text.Utf8

/-!
# Switchboard.Json.Fault

What can be wrong with a JSON text, and where.  A reader knows only what is
left of its input, so a fault records how many octets remained; the line and
the column follow from the whole input.  Columns count octets, and both
counts begin with the octet before the first one: a fault at the very start
is at line 1, column 0.
-/

namespace Switchboard.Json

inductive FaultKind where
  | unfinishedValue
  | unfinishedList
  | unfinishedObject
  | unfinishedString
  | expectedValue
  | expectedIdent
  | expectedColon
  | expectedListCommaOrEnd
  | expectedObjectCommaOrEnd
  | trailingComma
  | trailingCharacters
  | keyNotString
  | invalidNumber
  | numberOutOfRange
  | invalidEscape
  | unfinishedHexEscape
  | loneLeadingSurrogate
  | invalidCodePoint
  | controlCharacter
  | recursionLimit
  /-- The text is JSON, but not of the shape that was asked for. -/
  | mismatch (message : String)
  deriving DecidableEq

def FaultKind.message : FaultKind → String
  | .unfinishedValue => "EOF while parsing a value"
  | .unfinishedList => "EOF while parsing a list"
  | .unfinishedObject => "EOF while parsing an object"
  | .unfinishedString => "EOF while parsing a string"
  | .expectedValue => "expected value"
  | .expectedIdent => "expected ident"
  | .expectedColon => "expected `:`"
  | .expectedListCommaOrEnd => "expected `,` or `]`"
  | .expectedObjectCommaOrEnd => "expected `,` or `\x7d`"
  | .trailingComma => "trailing comma"
  | .trailingCharacters => "trailing characters"
  | .keyNotString => "key must be a string"
  | .invalidNumber => "invalid number"
  | .numberOutOfRange => "number out of range"
  | .invalidEscape => "invalid escape"
  | .unfinishedHexEscape => "unexpected end of hex escape"
  | .loneLeadingSurrogate => "lone leading surrogate in hex escape"
  | .invalidCodePoint => "invalid unicode code point"
  | .controlCharacter => "control character (\\u0000-\\u001F) found while parsing a string"
  | .recursionLimit => "recursion limit exceeded"
  | .mismatch message => message

/-- A fault, and the number of octets that remained behind it. -/
structure Fault where
  kind : FaultKind
  remaining : Nat
  deriving DecidableEq

/-- A place in a text: the line, counted from 1, and the octets before it on
that line. -/
structure Position where
  line : Nat
  column : Nat
  deriving DecidableEq

/-- The position after the given octets. -/
def Position.after (read : Bytes) : Position :=
  read.foldl (fun p b => if b = 10 then ⟨p.line + 1, 0⟩ else ⟨p.line, p.column + 1⟩) ⟨1, 0⟩

/-- The message of a fault in a given input. -/
def Fault.message (input : Bytes) (f : Fault) : String :=
  let p := Position.after (input.take (input.length - f.remaining))
  s!"{f.kind.message} at line {p.line} column {p.column}"

/-- The outcome of reading something from the front of an input: what was
read and what is left. -/
abbrev Read (α : Type) := Except Fault (α × Bytes)

/-- A fault right before `rest`. -/
def faultAt {α : Type} (kind : FaultKind) (rest : Bytes) : Except Fault α :=
  .error ⟨kind, rest.length⟩

/-- A fault that points at the first octet of `rest`, or at the end if there
is none. -/
def faultOn {α : Type} (kind : FaultKind) (rest : Bytes) : Except Fault α :=
  .error ⟨kind, rest.length - 1⟩

end Switchboard.Json
