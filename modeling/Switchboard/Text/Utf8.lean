/-!
# Switchboard.Text.Utf8

Text as octets.  `Utf8.scan` reads one character from the front of a
sequence; where none stands there, it drops the longest stretch that could
still have begun one, so that a lossy reading puts exactly one replacement
character for each such stretch.
-/

namespace Switchboard

/-- Octets, as they travel in a message. -/
abbrev Bytes := List UInt8

namespace Utf8

/-- The octets of a text. -/
def encode (s : String) : Bytes := s.toList.flatMap String.utf8EncodeChar

def isContinuation (b : UInt8) : Bool := 0x80 ≤ b && b ≤ 0xBF

/-- How a multi-octet character goes on after its first octet. -/
structure Lead where
  /-- Continuation octets after the second one. -/
  more : Nat
  /-- The bits that the first octet contributes. -/
  bits : Nat
  /-- The smallest and the largest second octet. -/
  low : UInt8
  high : UInt8

/-- The first octets that begin a character of several octets.  The range of
the second octet leaves out overlong forms, surrogates and code points
beyond the last one. -/
def lead? (b : UInt8) : Option Lead :=
  if b < 0xC2 then none
  else if b < 0xE0 then some ⟨0, b.toNat - 0xC0, 0x80, 0xBF⟩
  else if b = 0xE0 then some ⟨1, 0, 0xA0, 0xBF⟩
  else if b = 0xED then some ⟨1, 0xD, 0x80, 0x9F⟩
  else if b < 0xF0 then some ⟨1, b.toNat - 0xE0, 0x80, 0xBF⟩
  else if b = 0xF0 then some ⟨2, 0, 0x90, 0xBF⟩
  else if b < 0xF4 then some ⟨2, b.toNat - 0xF0, 0x80, 0xBF⟩
  else if b = 0xF4 then some ⟨2, 4, 0x80, 0x8F⟩
  else none

/-- Read the last `more` continuation octets of a character. -/
def finish (code : Nat) : Nat → Bytes → Option Char × Bytes
  | 0, rest => (some (Char.ofNat code), rest)
  | _ + 1, [] => (none, [])
  | more + 1, b :: rest =>
    if isContinuation b then finish (code * 64 + (b.toNat - 0x80)) more rest
    else (none, b :: rest)

/-- Read one character that begins with the octet `b`.  `none` stands for an
ill-formed stretch, which is dropped. -/
def scan (b : UInt8) (rest : Bytes) : Option Char × Bytes :=
  if b < 0x80 then (some (Char.ofNat b.toNat), rest)
  else match lead? b with
    | none => (none, rest)
    | some l => match rest with
      | [] => (none, [])
      | c :: rest' =>
        if l.low ≤ c && c ≤ l.high then finish (l.bits * 64 + (c.toNat - 0x80)) l.more rest'
        else (none, rest)

theorem finish_length (code more : Nat) (rest : Bytes) :
    (finish code more rest).2.length ≤ rest.length := by
  fun_induction finish code more rest with
  | case1 => simp
  | case2 => simp
  | case3 code more b rest h ih => simp only [List.length_cons]; omega
  | case4 => simp

theorem scan_length (b : UInt8) (rest : Bytes) : (scan b rest).2.length ≤ rest.length := by
  unfold scan
  split
  · exact Nat.le_refl _
  · split
    · exact Nat.le_refl _
    · split
      · exact Nat.le_refl _
      · split
        · exact Nat.le_trans (finish_length _ _ _) (Nat.le_succ _)
        · exact Nat.le_refl _

/-- What stands for an ill-formed stretch. -/
def replacement : Char := Char.ofNat 0xFFFD

/-- The characters read so far, newest first, and those of the octets. -/
def decodeLossyOnto (acc : List Char) : Bytes → List Char
  | [] => acc.reverse
  | b :: rest =>
    have := scan_length b rest
    decodeLossyOnto ((scan b rest).1.getD replacement :: acc) (scan b rest).2
termination_by bs => bs.length
decreasing_by simp only [List.length_cons]; omega

/-- Read octets as text, each ill-formed stretch as one replacement
character. -/
def decodeLossy (bs : Bytes) : String := String.ofList (decodeLossyOnto [] bs)

def decodeOnto? (acc : List Char) : Bytes → Option (List Char)
  | [] => some acc.reverse
  | b :: rest =>
    have := scan_length b rest
    match (scan b rest).1 with
    | none => none
    | some c => decodeOnto? (c :: acc) (scan b rest).2
termination_by bs => bs.length
decreasing_by simp only [List.length_cons]; omega

/-- Read octets as text, if all of them are well-formed. -/
def decode? (bs : Bytes) : Option String := (decodeOnto? [] bs).map String.ofList

/-- What is left of octets from the first ill-formed stretch on. -/
def illFormed : Bytes → Bytes
  | [] => []
  | b :: rest =>
    have := scan_length b rest
    match (scan b rest).1 with
    | none => b :: rest
    | some _ => illFormed (scan b rest).2
termination_by bs => bs.length
decreasing_by simp only [List.length_cons]; omega

end Utf8

end Switchboard
