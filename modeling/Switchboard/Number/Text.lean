import Switchboard.Number.Shortest

/-!
# Switchboard.Number.Text

How numbers are written in JSON text.  Integers are plain decimal.  A double
is written with its shortest digits: positionally, and then always with a
decimal point, when its decimal exponent is from -5 to 15, and otherwise as
one digit, an optional fraction and a signed exponent.
-/

namespace Switchboard

/-- The decimal digits of a natural. -/
def natChars (n : Nat) : List Char := Nat.toDigits 10 n

def intChars (i : Int) : List Char :=
  if i < 0 then '-' :: natChars i.natAbs else natChars i.natAbs

/-- Where positional notation of doubles begins and where it ends. -/
structure PositionalRange where
  first : Int
  last : Int

/-- The exponents whose doubles are written positionally. -/
def positional : PositionalRange := ⟨-5, 15⟩

/-- Digits with the decimal point after the first `intDigits` of them, padded
with zeros on either side; a whole number ends in `.0`. -/
def positionalChars (digits : List Char) (exponent : Int) : List Char :=
  if exponent < 0 then
    '0' :: '.' :: (List.replicate (-exponent - 1).toNat '0' ++ digits)
  else
    let whole := exponent.toNat + 1
    if digits.length ≤ whole then
      digits ++ List.replicate (whole - digits.length) '0' ++ ['.', '0']
    else digits.take whole ++ '.' :: digits.drop whole

/-- One digit, the others behind a point, and the exponent with its sign. -/
def scientificChars (digits : List Char) (exponent : Int) : List Char :=
  let mantissa := match digits with
    | [] => []
    | [d] => [d]
    | d :: rest => d :: '.' :: rest
  let sign := if exponent < 0 then '-' else '+'
  mantissa ++ 'e' :: sign :: natChars exponent.natAbs

namespace Binary64

/-- The text of a double without its sign. -/
def magnitudeChars (m : Magnitude) : List Char :=
  if m.isZero then ['0', '.', '0']
  else
    let d := m.shortest
    let digits := natChars d.digits
    let exponent := d.exponent + (digits.length : Int) - 1
    if positional.first ≤ exponent && exponent ≤ positional.last then
      positionalChars digits exponent
    else scientificChars digits exponent

def chars (x : Binary64) : List Char :=
  if x.negative then '-' :: magnitudeChars x.magnitude else magnitudeChars x.magnitude

def text (x : Binary64) : String := String.ofList x.chars

end Binary64

end Switchboard
