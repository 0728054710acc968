import Switchboard.Json.Scan

/-!
# Switchboard.Json.Skip

Passing over a value that nobody asked for.  Its words, punctuation and
escapes are checked, but nothing is built from it: numbers of any size,
unpaired surrogates, ill-formed octets and any depth of nesting pass.
-/

namespace Switchboard.Json

/-! ## Scalars -/

def skipExponent (input : Bytes) : Except Fault Bytes :=
  let input := match input with
    | b :: rest => if b = 43 || b = 45 then rest else b :: rest
    | [] => []
  match input with
  | [] => faultAt .invalidNumber []
  | d :: rest => if isDigit d then .ok (behindDigits rest) else faultAt .invalidNumber rest

def skipAfterDigits (input : Bytes) : Except Fault Bytes :=
  match input with
  | b :: rest => if b = 101 || b = 69 then skipExponent rest else .ok (b :: rest)
  | [] => .ok []

/-- A number behind its sign. -/
def skipNumber (input : Bytes) : Except Fault Bytes :=
  match input with
  | [] => faultAt .invalidNumber []
  | d :: rest =>
    if !isDigit d then faultAt .invalidNumber rest
    else if d = 48 && (rest.head?.any isDigit) then faultOn .invalidNumber rest
    else match behindDigits (d :: rest) with
      | b :: behind =>
        if b = 46 then
          if behind.head?.any isDigit then skipAfterDigits (behindDigits behind)
          else faultOn .invalidNumber behind
        else skipAfterDigits (b :: behind)
      | [] => .ok []

/-- An escape behind its backslash. -/
def skipEscape : Bytes → Except Fault Bytes
  | [] => faultAt .unfinishedString []
  | b :: rest =>
    if (simpleEscape? b).isSome then .ok rest
    else if b = 117 then (readHex rest).map (·.2)
    else faultAt .invalidEscape rest

theorem skipEscape_length {input rest : Bytes} (h : skipEscape input = .ok rest) :
    rest.length < input.length := by
  unfold skipEscape at h
  split at h
  · simp [faultAt] at h
  · next b r =>
    split at h
    · simp only [Except.ok.injEq] at h
      rw [← h]; simp
    · split at h
      · cases hx : readHex r with
        | error f => simp [hx, Except.map] at h
        | ok p =>
          simp only [hx, Except.map, Except.ok.injEq] at h
          have : p.2.length < r.length := readHex_length hx
          rw [← h]; simp only [List.length_cons]; omega
      · simp [faultAt] at h

/-- A string behind its opening quote. -/
def skipString (input : Bytes) : Except Fault Bytes :=
  match input with
  | [] => faultAt .unfinishedString []
  | b :: rest =>
    if b = 34 then .ok rest
    else if b = 92 then
      match h : skipEscape rest with
      | .error f => .error f
      | .ok rest' =>
        have := skipEscape_length h
        skipString rest'
    else if b < 32 then faultAt .controlCharacter (b :: rest)
    else skipString rest
termination_by input.length
decreasing_by all_goals simp only [List.length_cons]; omega

/-! ## Nested values -/

/-- A list or an object whose end has not been reached. -/
inductive Enclosure where
  | list
  | object
  deriving DecidableEq

namespace Enclosure

def closing : Enclosure → UInt8
  | .list => 93
  | .object => 125

def unfinished : Enclosure → FaultKind
  | .list => .unfinishedList
  | .object => .unfinishedObject

def expectedCommaOrEnd : Enclosure → FaultKind
  | .list => .expectedListCommaOrEnd
  | .object => .expectedObjectCommaOrEnd

end Enclosure

/-- Where in a value a skip stands. -/
inductive SkipStage where
  /-- Before a value. -/
  | value
  /-- Behind the opening octet of the innermost enclosure. -/
  | opened
  /-- Behind a value. -/
  | behind

/-- The key and the colon of a member, or nothing in a list. -/
def skipKey (e : Enclosure) (input : Bytes) : Except Fault Bytes :=
  match e with
  | .list => .ok input
  | .object => match skipBlanks input with
    | [] => faultOn .unfinishedObject []
    | b :: rest =>
      if b = 34 then match skipString rest with
        | .error f => .error f
        | .ok rest => readColon rest
      else faultOn .keyNotString (b :: rest)

/-- Go on skipping inside the given enclosures, innermost first.  Every step
passes at least one octet, so the length of the input bounds the steps. -/
def skipFrom : (steps : Nat) → SkipStage → List Enclosure → Bytes → Except Fault Bytes
  | 0, _, _, input => faultOn .unfinishedValue input
  | steps + 1, .value, open_, input =>
    match skipBlanks input with
    | [] => faultOn .unfinishedValue []
    | b :: rest =>
      let scalar (after : Except Fault Bytes) : Except Fault Bytes :=
        match after with
        | .error f => .error f
        | .ok rest => skipFrom steps .behind open_ rest
      if b = 110 then scalar (readWord wordNull rest)
      else if b = 116 then scalar (readWord wordTrue rest)
      else if b = 102 then scalar (readWord wordFalse rest)
      else if b = 45 then scalar (skipNumber rest)
      else if isDigit b then scalar (skipNumber (b :: rest))
      else if b = 34 then scalar (skipString rest)
      else if b = 91 then skipFrom steps .opened (.list :: open_) rest
      else if b = 123 then skipFrom steps .opened (.object :: open_) rest
      else faultOn .expectedValue (b :: rest)
  | _ + 1, .opened, [], input => .ok input
  | steps + 1, .opened, e :: outer, input =>
    match skipBlanks input with
    | [] => faultOn e.unfinished []
    | b :: rest =>
      if b = e.closing then skipFrom steps .behind outer rest
      else match skipKey e (b :: rest) with
        | .error f => .error f
        | .ok rest => skipFrom steps .value (e :: outer) rest
  | _ + 1, .behind, [], input => .ok input
  | steps + 1, .behind, e :: outer, input =>
    match skipBlanks input with
    | [] => faultOn e.unfinished []
    | b :: rest =>
      if b = e.closing then skipFrom steps .behind outer rest
      else if b = 44 then match skipKey e rest with
        | .error f => .error f
        | .ok rest => skipFrom steps .value (e :: outer) rest
      else faultOn e.expectedCommaOrEnd (b :: rest)

/-- Pass over one value. -/
def skipValue (input : Bytes) : Except Fault Bytes :=
  skipFrom (2 * input.length + 2) .value [] input

end Switchboard.Json
