import Switchboard.Json.Basic
import Switchboard.Json.Fault

/-!
# Switchboard.Json.Scan

The lexical parts of JSON text: blanks, the three words, numbers, strings
and the punctuation of lists and objects.  Every reader of JSON is put
together from these, so that all of them agree on what is well-formed and on
the fault they report.
-/

namespace Switchboard.Json

/-! ## Blanks, words and punctuation -/

def isBlank (b : UInt8) : Bool := b == 32 || b == 10 || b == 9 || b == 13

def skipBlanks : Bytes → Bytes
  | [] => []
  | b :: rest => if isBlank b then skipBlanks rest else b :: rest

/-- The rest of one of the words `null`, `true` and `false`. -/
def readWord : (letters : Bytes) → Bytes → Except Fault Bytes
  | [], rest => .ok rest
  | _ :: _, [] => faultAt .unfinishedValue []
  | c :: letters, b :: rest =>
    if b = c then readWord letters rest else faultAt .expectedIdent rest

/-- The rest of `null`. -/
def wordNull : Bytes := [117, 108, 108]

/-- The rest of `true`. -/
def wordTrue : Bytes := [114, 117, 101]

/-- The rest of `false`. -/
def wordFalse : Bytes := [97, 108, 115, 101]

/-- Go to the next item of a list: the input at the item, or `none` before
the closing bracket. -/
def nextItem (first : Bool) (input : Bytes) : Except Fault (Option Bytes) :=
  match skipBlanks input with
  | [] => faultOn .unfinishedList []
  | b :: rest =>
    if b = 93 then .ok none
    else if first then .ok (some (b :: rest))
    else if b = 44 then match skipBlanks rest with
      | [] => faultOn .unfinishedValue []
      | c :: rest' =>
        if c = 93 then faultOn .trailingComma (c :: rest') else .ok (some (c :: rest'))
    else faultOn .expectedListCommaOrEnd (b :: rest)

/-- Go to the next member of an object: the input behind the opening quote of
its key, or `none` before the closing brace. -/
def nextMember (first : Bool) (input : Bytes) : Except Fault (Option Bytes) :=
  match skipBlanks input with
  | [] => faultOn .unfinishedObject []
  | b :: rest =>
    if b = 125 then .ok none
    else if first then
      if b = 34 then .ok (some rest) else faultOn .keyNotString (b :: rest)
    else if b = 44 then match skipBlanks rest with
      | [] => faultOn .unfinishedValue []
      | c :: rest' =>
        if c = 34 then .ok (some rest')
        else if c = 125 then faultOn .trailingComma (c :: rest')
        else faultOn .keyNotString (c :: rest')
    else faultOn .expectedObjectCommaOrEnd (b :: rest)

/-- The colon between a key and its value. -/
def readColon (input : Bytes) : Except Fault Bytes :=
  match skipBlanks input with
  | [] => faultOn .unfinishedObject []
  | b :: rest => if b = 58 then .ok rest else faultOn .expectedColon (b :: rest)

/-- The closing bracket of a list. -/
def endList (input : Bytes) : Except Fault Bytes :=
  match skipBlanks input with
  | [] => faultOn .unfinishedList []
  | b :: rest =>
    if b = 93 then .ok rest
    else if b = 44 then match skipBlanks rest with
      | c :: rest' =>
        if c = 93 then faultOn .trailingComma (c :: rest')
        else faultOn .trailingCharacters (c :: rest')
      | [] => faultOn .trailingCharacters []
    else faultOn .trailingCharacters (b :: rest)

/-- The closing brace of an object. -/
def endObject (input : Bytes) : Except Fault Bytes :=
  match skipBlanks input with
  | [] => faultOn .unfinishedObject []
  | b :: rest =>
    if b = 125 then .ok rest
    else if b = 44 then faultOn .trailingComma (b :: rest)
    else faultOn .trailingCharacters (b :: rest)

/-- Nothing but blanks may follow a value. -/
def endInput (input : Bytes) : Except Fault Unit :=
  match skipBlanks input with
  | [] => .ok ()
  | rest => faultOn .trailingCharacters rest

/-! ## Numbers -/

def isDigit (b : UInt8) : Bool := 48 ≤ b && b ≤ 57

def digitValue (b : UInt8) : Nat := b.toNat - 48

def digits (input : Bytes) : Bytes := input.takeWhile isDigit

def behindDigits (input : Bytes) : Bytes := input.dropWhile isDigit

/-- Append digits to a significand while it fits 64 bits: the significand and
the digits that no longer fit. -/
def absorb (significand : Nat) : Bytes → Nat × Bytes
  | [] => (significand, [])
  | d :: rest =>
    let next := significand * 10 + digitValue d
    if next < UInt64.size then absorb next rest else (significand, d :: rest)

/-- Divide by `10^power`, at most 308 decades at a time. -/
def divideDecades (x : Magnitude) (power : Nat) : Magnitude :=
  if power ≤ 308 then
    ((Magnitude.ofNat? (Nat.pow 10 power)).bind x.div?).getD .zero
  else if x.isZero then x
  else divideDecades (((Magnitude.ofNat? (Nat.pow 10 308)).bind x.div?).getD .zero) (power - 308)
termination_by power
decreasing_by omega

/-- The double `significand · 10^exponent`: the significand is rounded to a
double, and then multiplied or divided by a rounded power of ten.  `none`
beyond the largest double. -/
def Magnitude.ofParts? (significand : Nat) (exponent : Int) : Option Magnitude :=
  (Magnitude.ofNat? significand).bind fun x =>
    if exponent < 0 then some (divideDecades x exponent.natAbs)
    else if exponent ≤ 308 then (Magnitude.ofNat? (Nat.pow 10 exponent.natAbs)).bind x.mul?
    else if x.isZero then some x
    else none

/-- A double from its parts, at the end of its text. -/
def realFrom (negative : Bool) (significand : Nat) (exponent : Int) (rest : Bytes) :
    Read Json :=
  match Magnitude.ofParts? significand exponent with
  | some m => .ok (.real ⟨negative, m⟩, rest)
  | none => faultAt .numberOutOfRange rest

/-- The largest exponent that is still added up. -/
def exponentLimit : Nat := 1 <<< 31

/-- Add up exponent digits.  Past the limit the number is zero or out of
range: then the digit that passed it is the last one looked at. -/
def exponentValue (value : Nat) : Bytes → Except Bytes Nat
  | [] => .ok value
  | d :: rest =>
    let next := value * 10 + digitValue d
    if next < exponentLimit then exponentValue next rest else .error rest

/-- The exponent of a number, behind its `e`. -/
def readExponent (negative : Bool) (significand : Nat) (start : Int) (input : Bytes) :
    Read Json :=
  let (minus, input) := match input with
    | b :: rest =>
      if b = 43 then (false, rest) else if b = 45 then (true, rest) else (false, b :: rest)
    | [] => (false, [])
  match input with
  | [] => faultAt .unfinishedValue []
  | d :: rest =>
    if isDigit d then
      let ds := digits rest
      let behind := behindDigits rest
      match exponentValue (digitValue d) ds with
      | .ok value =>
        realFrom negative significand (if minus then start - value else start + value) behind
      | .error left =>
        if significand ≠ 0 ∧ minus = false then
          faultAt .numberOutOfRange (left ++ behind)
        else .ok (.real ⟨negative, .zero⟩, behind)
    else faultAt .invalidNumber rest

/-- What may follow the digits of a number: an exponent or nothing. -/
def readAfterDigits (negative : Bool) (significand : Nat) (exponent : Int)
    (input : Bytes) : Read Json :=
  match input with
  | b :: rest =>
    if b = 101 || b = 69 then readExponent negative significand exponent rest
    else realFrom negative significand exponent input
  | [] => realFrom negative significand exponent []

/-- The fraction of a number, behind its point. -/
def readFraction (negative : Bool) (significand : Nat) (exponent : Int)
    (input : Bytes) : Read Json :=
  let ds := digits input
  let behind := behindDigits input
  match ds, behind with
  | [], [] => faultOn .unfinishedValue []
  | [], _ => faultOn .invalidNumber behind
  | _, _ =>
    let (significand, left) := absorb significand ds
    readAfterDigits negative significand (exponent - (ds.length - left.length : Nat)) behind

/-- An integer, or a double where it does not fit a word.  Zero with a minus
sign is a double too: no integer has that sign. -/
def integer (negative : Bool) (significand : Nat) : Json :=
  if negative then
    if significand = 0 ∨ 1 <<< 63 < significand then
      .real ⟨true, (Magnitude.ofNat? significand).getD .zero⟩
    else .int (-significand)
  else .int significand

/-- A number behind its sign. -/
def readNumber (negative : Bool) (input : Bytes) : Read Json :=
  match input with
  | [] => faultAt .unfinishedValue []
  | d :: rest =>
    if !isDigit d then faultAt .invalidNumber rest
    else if d = 48 && (rest.head?.any isDigit) then faultOn .invalidNumber rest
    else
      let ds := if d = 48 then [d] else d :: digits rest
      let behind := if d = 48 then rest else behindDigits rest
      let (significand, left) := absorb 0 ds
      match behind with
      | b :: behind' =>
        if b = 46 then readFraction negative significand left.length behind'
        else if b = 101 || b = 69 || !left.isEmpty then
          readAfterDigits negative significand left.length behind
        else .ok (integer negative significand, behind)
      | [] =>
        if left.isEmpty then .ok (integer negative significand, [])
        else readAfterDigits negative significand left.length []

/-! ## Strings -/

def hexValue? (b : UInt8) : Option Nat :=
  if isDigit b then some (b.toNat - 48)
  else if 97 ≤ b && b ≤ 102 then some (b.toNat - 87)
  else if 65 ≤ b && b ≤ 70 then some (b.toNat - 55)
  else none

/-- Four hexadecimal digits. -/
def readHex : Bytes → Read Nat
  | a :: b :: c :: d :: rest =>
    match hexValue? a, hexValue? b, hexValue? c, hexValue? d with
    | some x, some y, some z, some w => .ok (((x * 16 + y) * 16 + z) * 16 + w, rest)
    | _, _, _, _ => faultAt .invalidEscape rest
  | _ => faultAt .unfinishedString []

/-- One octet that has to follow, or the escape is unfinished. -/
def readEscapePart (octet : UInt8) : Bytes → Except Fault Bytes
  | [] => faultAt .unfinishedString []
  | b :: rest => if b = octet then .ok rest else faultAt .unfinishedHexEscape rest

/-- The trailing half of a surrogate pair whose leading half is `lead`. -/
def readTrailing (lead : Nat) (input : Bytes) : Read Char :=
  match readEscapePart 92 input with
  | .error f => .error f
  | .ok input => match readEscapePart 117 input with
    | .error f => .error f
    | .ok input => match readHex input with
      | .error f => .error f
      | .ok (n, rest) =>
        if n < 0xDC00 ∨ 0xDFFF < n then faultAt .loneLeadingSurrogate rest
        else .ok (Char.ofNat ((lead - 0xD800) * 0x400 + (n - 0xDC00) + 0x10000), rest)

/-- A code point in hexadecimal digits, behind the letter of its escape.  A
leading surrogate has to be followed by the escape of a trailing one. -/
def readCodePoint (input : Bytes) : Read Char :=
  match readHex input with
  | .error f => .error f
  | .ok (n, rest) =>
    if 0xDC00 ≤ n ∧ n ≤ 0xDFFF then faultAt .loneLeadingSurrogate rest
    else if 0xD800 ≤ n ∧ n ≤ 0xDBFF then readTrailing n rest
    else .ok (Char.ofNat n, rest)

/-- The octet that a one-letter escape stands for. -/
def simpleEscape? (b : UInt8) : Option UInt8 :=
  if b = 34 || b = 92 || b = 47 then some b
  else if b = 98 then some 8
  else if b = 102 then some 12
  else if b = 110 then some 10
  else if b = 114 then some 13
  else if b = 116 then some 9
  else none

/-- An escape behind its backslash, as the octets it stands for. -/
def readEscape : Bytes → Read Bytes
  | [] => faultAt .unfinishedString []
  | b :: rest => match simpleEscape? b with
    | some o => .ok ([o], rest)
    | none =>
      if b = 117 then (readCodePoint rest).map fun p => (String.utf8EncodeChar p.1, p.2)
      else faultAt .invalidEscape rest

theorem readHex_length {input rest : Bytes} {n : Nat} (h : readHex input = .ok (n, rest)) :
    rest.length < input.length := by
  unfold readHex faultAt at h
  split at h
  · split at h
    · simp only [Except.ok.injEq, Prod.mk.injEq] at h
      rw [← h.2]; simp only [List.length_cons]; omega
    · simp at h
  · simp at h

theorem readEscapePart_length {octet : UInt8} {input rest : Bytes}
    (h : readEscapePart octet input = .ok rest) : rest.length < input.length := by
  unfold readEscapePart faultAt at h
  split at h
  · simp at h
  · split at h
    · simp only [Except.ok.injEq] at h
      rw [← h]; simp
    · simp at h

theorem readTrailing_length {lead : Nat} {input rest : Bytes} {c : Char}
    (h : readTrailing lead input = .ok (c, rest)) : rest.length < input.length := by
  unfold readTrailing at h
  split at h
  · simp at h
  · next a ha =>
    split at h
    · simp at h
    · next b hb =>
      split at h
      · simp at h
      · next n r hr =>
        have := readEscapePart_length ha
        have := readEscapePart_length hb
        have := readHex_length hr
        split at h
        · simp [faultAt] at h
        · simp only [Except.ok.injEq, Prod.mk.injEq] at h
          rw [← h.2]; omega

theorem readCodePoint_length {input rest : Bytes} {c : Char}
    (h : readCodePoint input = .ok (c, rest)) : rest.length < input.length := by
  unfold readCodePoint at h
  split at h
  · simp at h
  · next n r hr =>
    have := readHex_length hr
    split at h
    · simp [faultAt] at h
    · split at h
      · exact Nat.lt_trans (readTrailing_length h) this
      · simp only [Except.ok.injEq, Prod.mk.injEq] at h
        rw [← h.2]; exact this

theorem readEscape_length {input rest o : Bytes} (h : readEscape input = .ok (o, rest)) :
    rest.length < input.length := by
  unfold readEscape at h
  split at h
  · simp [faultAt] at h
  · next b r =>
    split at h
    · simp only [Except.ok.injEq, Prod.mk.injEq] at h
      rw [← h.2]; simp
    · split at h
      · cases hc : readCodePoint r with
        | error f => simp [hc, Except.map] at h
        | ok p =>
          simp only [hc, Except.map, Except.ok.injEq, Prod.mk.injEq] at h
          have : p.2.length < r.length := readCodePoint_length hc
          rw [← h.2]; simp only [List.length_cons]; omega
      · simp [faultAt] at h

/-- The octets of a string behind its opening quote, put onto those read so
far, newest first. -/
def readOctets (acc : Bytes) (input : Bytes) : Read Bytes :=
  match input with
  | [] => faultAt .unfinishedString []
  | b :: rest =>
    if b = 34 then .ok (acc.reverse, rest)
    else if b = 92 then
      match h : readEscape rest with
      | .error f => .error f
      | .ok (octets, rest') =>
        have := readEscape_length h
        readOctets (octets.reverse ++ acc) rest'
    else if b < 32 then faultAt .controlCharacter rest
    else readOctets (b :: acc) rest
termination_by input.length
decreasing_by all_goals simp only [List.length_cons]; omega

/-- A string behind its opening quote.  Its octets have to be well-formed
text; an escape writes whole characters only, so what is ill-formed stands in
the input as it is.  The fault is counted back from the end of the string by
the octets from the first ill-formed one on. -/
def readString (input : Bytes) : Read String :=
  match readOctets [] input with
  | .error f => .error f
  | .ok (octets, rest) => match Utf8.decode? octets with
    | some s => .ok (s, rest)
    | none => .error ⟨.invalidCodePoint, rest.length + (Utf8.illFormed octets).length⟩

end Switchboard.Json
