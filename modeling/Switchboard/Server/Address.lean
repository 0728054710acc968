import Switchboard.Number.Text

/-!
# Switchboard.Server.Address

Network addresses and their texts.  A long address is eight groups of 16 bits;
in its text the longest run of zero groups is left out, the first of several,
if it has at least two groups.
-/

namespace Switchboard

/-- The address of a host. -/
inductive Address where
  | short (octets : List UInt8)
  | long (groups : List UInt16)
  deriving DecidableEq

namespace Address

/-- All addresses of this host. -/
def unspecified : Address := .short [0, 0, 0, 0]

/-- This host, for itself only. -/
def loopback : Address := .short [127, 0, 0, 1]

/-! ## Text -/

private def dotted (octets : List UInt8) : String :=
  ".".intercalate (octets.map fun b => String.ofList (natChars b.toNat))

private def groupText (g : UInt16) : String := String.ofList (Nat.toDigits 16 g.toNat)

private def groupsText (gs : List UInt16) : String := ":".intercalate (gs.map groupText)

/-- The number of zero groups in front. -/
def zerosInFront (gs : List UInt16) : Nat := (gs.takeWhile (· = 0)).length

/-- The first of the longest runs of zero groups: where it begins and how long
it is. -/
def longestZeros (start : Nat) : List UInt16 → Nat × Nat
  | [] => (start, 0)
  | g :: rest =>
    let here := zerosInFront (g :: rest)
    let later := longestZeros (start + 1) rest
    if later.2 ≤ here then (start, here) else later

def text : Address → String
  | .short octets => dotted octets
  | .long [0, 0, 0, 0, 0, 65535, high, low] =>
    let octets := [high.toNat / 256, high.toNat % 256, low.toNat / 256, low.toNat % 256]
    "::ffff:" ++ dotted (octets.map Nat.toUInt8)
  | .long groups =>
    let (start, count) := longestZeros 0 groups
    if count < 2 then groupsText groups
    else groupsText (groups.take start) ++ "::" ++ groupsText (groups.drop (start + count))

/-! ## Reading -/

private def decimal? (cs : List Char) : Option Nat :=
  if cs.isEmpty || 3 < cs.length || !cs.all Char.isDigit || (1 < cs.length && cs.head? = some '0')
  then none
  else some (cs.foldl (fun n c => n * 10 + (c.toNat - 48)) 0)

private def octet? (cs : List Char) : Option UInt8 :=
  (decimal? cs).bind fun n => if n < 256 then some n.toUInt8 else none

private def readShort? (cs : List Char) : Option (List UInt8) :=
  ((cs.splitOn '.').mapM octet?).bind fun bs => if bs.length = 4 then some bs else none

private def hexDigit? (c : Char) : Option Nat :=
  if c.isDigit then some (c.toNat - 48)
  else if 'a' ≤ c && c ≤ 'f' then some (c.toNat - 87)
  else if 'A' ≤ c && c ≤ 'F' then some (c.toNat - 55)
  else none

private def group? (cs : List Char) : Option UInt16 :=
  if cs.isEmpty || 4 < cs.length then none
  else (cs.mapM hexDigit?).map fun ds => (ds.foldl (fun n d => n * 16 + d) 0).toUInt16

private def pairUp : List UInt8 → List UInt16
  | a :: b :: rest => (a.toNat * 256 + b.toNat).toUInt16 :: pairUp rest
  | _ => []

/-- Groups with colons between them; a short address may stand for the last
two. -/
private def readGroups? : List (List Char) → Option (List UInt16)
  | [] => some []
  | [last] => match group? last with
    | some g => some [g]
    | none => (readShort? last).map pairUp
  | g :: rest => do return (← group? g) :: (← readGroups? rest)

private def readPart? (cs : List Char) : Option (List UInt16) :=
  if cs.isEmpty then some [] else readGroups? (cs.splitOn ':')

/-- What stands before and behind the first two colons in a row. -/
private def splitAtGap? : List Char → Option (List Char × List Char)
  | ':' :: ':' :: rest => some ([], rest)
  | c :: rest => (splitAtGap? rest).map fun p => (c :: p.1, p.2)
  | [] => none

private def readLong? (cs : List Char) : Option (List UInt16) :=
  match splitAtGap? cs with
  | none => (readPart? cs).bind fun gs => if gs.length = 8 then some gs else none
  | some (front, back) => do
    let front ← readPart? front
    let back ← readPart? back
    if 7 < front.length + back.length then none
    else return front ++ List.replicate (8 - front.length - back.length) 0 ++ back

/-- The address that a text writes. -/
def ofText? (text : String) : Option Address :=
  match readShort? text.toList with
  | some octets => some (.short octets)
  | none => (readLong? text.toList).map .long

end Address

/-- A host with a number that tells its services apart. -/
structure Endpoint where
  host : Address
  port : Nat
  deriving DecidableEq

/-- The text of an endpoint: a long address stands in brackets. -/
def Endpoint.text (e : Endpoint) : String :=
  match e.host with
  | .short _ => s!"{e.host.text}:{e.port}"
  | .long _ => s!"[{e.host.text}]:{e.port}"

end Switchboard
