import Switchboard.Text.Utf8

/-!
# Switchboard.Text.Percent

Percent-encoding.  A percent sign and two hexadecimal digits stand for an
octet; a percent sign with anything else behind it stands for itself.
-/

namespace Switchboard.Percent

/-- The value of a hexadecimal digit of either case. -/
def digit? (b : UInt8) : Option UInt8 :=
  if 48 ≤ b && b ≤ 57 then some (b - 48)
  else if 65 ≤ b && b ≤ 70 then some (b - 55)
  else if 97 ≤ b && b ≤ 102 then some (b - 87)
  else none

/-- The octet that two hexadecimal digits write. -/
def octet? (high low : UInt8) : Option UInt8 := do
  return (← digit? high) * 16 + (← digit? low)

/-- The octets decoded so far, newest first, and those of the rest. -/
def decodeOnto (acc : Bytes) : Bytes → Bytes
  | 37 :: high :: low :: rest => match octet? high low with
    | some b => decodeOnto (b :: acc) rest
    | none => decodeOnto (37 :: acc) (high :: low :: rest)
  | b :: rest => decodeOnto (b :: acc) rest
  | [] => acc.reverse

/-- The octets that percent-encoded octets stand for. -/
def decode (bs : Bytes) : Bytes := decodeOnto [] bs

end Switchboard.Percent
