import Switchboard.Number.Text

/-!
# Switchboard.Text.Timestamp

Moments as text: the date and the time of day in UTC, and the sortable
identifiers that begin with a moment.
-/

namespace Switchboard.Text

/-- A date of the Gregorian calendar. -/
structure Date where
  year : Nat
  month : Nat
  day : Nat
  deriving DecidableEq

/-- The date a number of days after 1970-01-01.  The count is moved to begin
with a March, so that the leap day is the last of a year, and is then divided
into cycles of 400 years. -/
def Date.ofDays (days : Nat) : Date :=
  let z := days + 719468
  let cycle := z / 146097
  let dayOfCycle := z % 146097
  let yearOfCycle :=
    (dayOfCycle - dayOfCycle / 1460 + dayOfCycle / 36524 - dayOfCycle / 146096) / 365
  let dayOfYear := dayOfCycle - (365 * yearOfCycle + yearOfCycle / 4 - yearOfCycle / 100)
  let shifted := (5 * dayOfYear + 2) / 153
  let month := if shifted < 10 then shifted + 3 else shifted - 9
  { year := yearOfCycle + cycle * 400 + (if month ≤ 2 then 1 else 0)
    month
    day := dayOfYear - (153 * shifted + 2) / 5 + 1 }

/-- A number with zeros in front, up to a width. -/
def padded (width n : Nat) : String :=
  let ds := natChars n
  String.ofList (List.replicate (width - ds.length) '0' ++ ds)

/-- The moment a number of milliseconds after the beginning of 1970. -/
def timestamp (ms : Nat) : String :=
  let seconds := ms / 1000
  let d := Date.ofDays (seconds / 86400)
  let clock := seconds % 86400
  let fraction := if ms % 1000 = 0 then "" else "." ++ padded 3 (ms % 1000)
  s!"{padded 4 d.year}-{padded 2 d.month}-{padded 2 d.day}T"
    ++ s!"{padded 2 (clock / 3600)}:{padded 2 (clock / 60 % 60)}:{padded 2 (clock % 60)}"
    ++ fraction ++ "+00:00"

/-- Thirty-two digits without letters that look like others. -/
def base32Alphabet : List Char := "0123456789ABCDEFGHJKMNPQRSTVWXYZ".toList

/-- The last `width` digits of a number in base 32. -/
def base32Chars : (width : Nat) → Nat → List Char
  | 0, _ => []
  | width + 1, n => base32Chars width (n / 32) ++ [base32Alphabet.getD (n % 32) '0']

/-- An identifier of 26 digits: 48 bits of time before 80 random bits. -/
def sortableId (ms random : Nat) : String :=
  String.ofList (base32Chars 10 ms ++ base32Chars 16 random)

end Switchboard.Text
