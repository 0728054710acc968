import Switchboard.Text.GraphemeExtend
import Switchboard.Text.Unprintable

/-!
# Switchboard.Text.Quoted

Text as error messages quote it: between double quotes, with everything that
a reader could not see or could not tell apart written as an escape.  A
single quote stays as it is.
-/

namespace Switchboard.Text

/-- Is a code point in one of the inclusive ranges? -/
def inRanges (ranges : List (Nat × Nat)) (code : Nat) : Bool :=
  ranges.any fun r => r.1 ≤ code && code ≤ r.2

/-- The halfwidth sound marks: they extend the letter before them, and yet
have a place of their own. -/
def isSoundMark (code : Nat) : Bool := code = 0xFF9E || code = 0xFF9F

/-- The letters that stand for a vowel where there is none, in their three
widths: nothing shows. -/
def isVowelFiller (code : Nat) : Bool := code = 0x1160 || code = 0x3164 || code = 0xFFA0

/-- Is a code point seen only together with the character before it? -/
def isCombining (code : Nat) : Bool := inRanges graphemeExtendRanges code && !isSoundMark code

/-- Does a character show as itself when it stands alone? -/
def isVisible (c : Char) : Bool :=
  if c.toNat < 127 then 32 ≤ c.toNat
  else !isCombining c.toNat && !isVowelFiller c.toNat && !inRanges unprintableRanges c.toNat

/-- The code point of a character in braces, in lower-case hexadecimal. -/
def codePointChars (c : Char) : List Char :=
  '\\' :: 'u' :: Char.ofNat 123 :: (Nat.toDigits 16 c.toNat ++ [Char.ofNat 125])

def quoteChar (c : Char) : List Char :=
  match c.toNat with
  | 0 => ['\\', '0']
  | 9 => ['\\', 't']
  | 10 => ['\\', 'n']
  | 13 => ['\\', 'r']
  | 34 => ['\\', c]
  | 92 => ['\\', c]
  | _ => if isVisible c then [c] else codePointChars c

/-- The quoted form of a text. -/
def quoted (s : String) : String :=
  String.ofList (Char.ofNat 34 :: (s.toList.flatMap quoteChar ++ [Char.ofNat 34]))

end Switchboard.Text
