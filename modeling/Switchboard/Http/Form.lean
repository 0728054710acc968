import Switchboard.Dict
import Switchboard.Text.Percent

/-!
# Switchboard.Http.Form

Name-value pairs as queries and form bodies write them: pairs are separated by
`&`, a name ends at the first `=`, a plus sign is a blank, and the rest is
percent-encoded.  An empty pair is passed over; octets that are not text are
replaced.
-/

namespace Switchboard.Http.Form

/-- A blank is written as a plus sign. -/
def blankFromPlus (b : UInt8) : UInt8 := if b = 43 then 32 else b

/-- The text of a name or a value. -/
def decodeText (bs : Bytes) : String := Utf8.decodeLossy (Percent.decode (bs.map blankFromPlus))

/-- One pair.  Without an equals sign the value is empty. -/
def readPair (bs : Bytes) : String × String :=
  (decodeText (bs.takeWhile (· ≠ 61)), decodeText ((bs.dropWhile (· ≠ 61)).drop 1))

/-- All pairs in order. -/
def pairs (bs : Bytes) : List (String × String) :=
  ((bs.splitOn 38).filter (!·.isEmpty)).map readPair

/-- The value of every name; the last pair of a name wins. -/
def read (bs : Bytes) : Dict String := .ofList (pairs bs)

end Switchboard.Http.Form
