import Switchboard.Json.Basic
import Switchboard.Number.Text

/-!
# Switchboard.Json.Printer

Compact JSON text: no blanks, object members in key order, characters
outside the basic set as they are.  Only the quote, the backslash and the
controls below the blank are escaped.
-/

namespace Switchboard.Json

/-- A hexadecimal digit, in lower case. -/
def hexDigit (n : Nat) : Char := Nat.digitChar (n % 16)

/-- How a character is written between quotes. -/
def escapeChar (c : Char) : List Char :=
  if c = Char.ofNat 34 then ['\\', c]
  else if c = Char.ofNat 92 then ['\\', c]
  else if 32 ≤ c.toNat then [c]
  else match c.toNat with
    | 8 => ['\\', 'b']
    | 9 => ['\\', 't']
    | 10 => ['\\', 'n']
    | 12 => ['\\', 'f']
    | 13 => ['\\', 'r']
    | n => ['\\', 'u', '0', '0', hexDigit (n / 16), hexDigit n]

/-- A quoted string. -/
def quotedChars (s : List Char) : List Char :=
  Char.ofNat 34 :: (s.flatMap escapeChar ++ [Char.ofNat 34])

mutual

def chars : Json → List Char
  | .null => ['n', 'u', 'l', 'l']
  | .bool true => ['t', 'r', 'u', 'e']
  | .bool false => ['f', 'a', 'l', 's', 'e']
  | .int i => intChars i
  | .real x => x.chars
  | .string s => quotedChars s.toList
  | .array [] => ['[', ']']
  | .array (v :: rest) => '[' :: (v.chars ++ itemsChars rest)
  | .object [] => [Char.ofNat 123, Char.ofNat 125]
  | .object ((k, v) :: rest) =>
    Char.ofNat 123 :: (quotedChars k.toList ++ ':' :: (v.chars ++ membersChars rest))

/-- The items after the first one, and the closing bracket. -/
def itemsChars : List Json → List Char
  | [] => [']']
  | v :: rest => ',' :: (v.chars ++ itemsChars rest)

/-- The members after the first one, and the closing brace. -/
def membersChars : List (String × Json) → List Char
  | [] => [Char.ofNat 125]
  | (k, v) :: rest =>
    ',' :: (quotedChars k.toList ++ ':' :: (v.chars ++ membersChars rest))

end

/-- The compact text of a value. -/
def text (v : Json) : String := String.ofList v.chars

/-- The text of a value in a log: a string stands for itself. -/
def plainText : Json → String
  | .string s => s
  | v => v.text

end Switchboard.Json
