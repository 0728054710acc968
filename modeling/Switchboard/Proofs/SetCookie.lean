import Switchboard.Http.Response
import Switchboard.Proofs.Octets

/-!
# Switchboard.Proofs.SetCookie

What a `Set-Cookie` value says.  A cookie is written exactly when each of its
texts fits its slot, and the first slot that does not fit is the one that is
reported.  What is written is printable, and it reads back: split at the
semicolons, it is the cookie's name and value and then the attributes that the
options ask for, and nothing else.

* **cutting** -- what stands in front of a character, and behind it;
* **alphabets** -- the characters of each kind of slot, as ranges of code
  points;
* **slots** -- `check` is a walk over the slots of a cookie;
* **parts** -- a header value is a list of parts, each a name with or without
  a text, and no part holds a semicolon;
* **reading back** -- `readParts?` inverts the writing.
-/

namespace Switchboard

open Http

/-! ## Cutting at a character -/

section Cutting

variable {d : Char} {cs rest : List Char} (free : d ∉ cs) (begins : ∀ c ∈ rest.head?, c = d)
include free begins

/-- What stands in front of the first `d`, where what follows begins with one or
is empty. -/
theorem takeWhile_until : (cs ++ rest).takeWhile (· ≠ d) = cs := by
  have pass : ∀ c ∈ cs, decide (c ≠ d) = true :=
    fun c hc => decide_eq_true (ne_of_mem_of_not_mem hc free)
  rw [List.takeWhile_append_of_pos pass]
  cases rest with
  | nil => rw [List.takeWhile_nil, List.append_nil]
  | cons c rest => rw [begins c rfl, List.takeWhile_cons_of_neg (by simp), List.append_nil]

/-- The first `d` and what stands behind it. -/
theorem dropWhile_until : (cs ++ rest).dropWhile (· ≠ d) = rest := by
  have pass : ∀ c ∈ cs, decide (c ≠ d) = true :=
    fun c hc => decide_eq_true (ne_of_mem_of_not_mem hc free)
  rw [List.dropWhile_append_of_pos pass]
  cases rest with
  | nil => rfl
  | cons c rest => rw [begins c rfl, List.dropWhile_cons_of_neg (by simp)]

end Cutting

namespace Cookie

/-! ## Alphabets -/

/-- Ranges of code points, both ends included. -/
abbrev Ranges := List (Nat × Nat)

/-- A character stands in one of the ranges. -/
def Ranges.Contains (rs : Ranges) (c : Char) : Prop := ∃ r ∈ rs, r.1 ≤ c.toNat ∧ c.toNat ≤ r.2

instance (rs : Ranges) (c : Char) : Decidable (rs.Contains c) :=
  inferInstanceAs (Decidable (∃ r ∈ rs, r.1 ≤ c.toNat ∧ c.toNat ≤ r.2))

/-- The characters of a token. -/
def tokenRanges : Ranges :=
  [(0x21, 0x21), (0x23, 0x27), (0x2A, 0x2B), (0x2D, 0x2E), (0x30, 0x39), (0x41, 0x5A),
   (0x5E, 0x7A), (0x7C, 0x7C), (0x7E, 0x7E)]

/-- The octets of a cookie's value, as RFC 6265 lists them. -/
def octetRanges : Ranges :=
  [(0x21, 0x21), (0x23, 0x2B), (0x2D, 0x3A), (0x3C, 0x5B), (0x5D, 0x7E)]

/-- The blank and all printable ASCII but the semicolon. -/
def attributeRanges : Ranges := [(0x20, 0x3A), (0x3C, 0x7E)]

theorem isTokenChar_iff (c : Char) : isTokenChar c = true ↔ tokenRanges.Contains c := by
  by_cases hc : c.toNat < 128
  · exact Utf8.forall_ascii (p := fun c => isTokenChar c = true ↔ tokenRanges.Contains c)
      (by decide) hc
  · simp [isTokenChar, isGraphic, Ranges.Contains, tokenRanges]
    omega

theorem isOctetChar_iff (c : Char) : isOctetChar c = true ↔ octetRanges.Contains c := by
  by_cases hc : c.toNat < 128
  · exact Utf8.forall_ascii (p := fun c => isOctetChar c = true ↔ octetRanges.Contains c)
      (by decide) hc
  · simp [isOctetChar, isGraphic, Ranges.Contains, octetRanges]
    omega

theorem isAttributeChar_iff (c : Char) : isAttributeChar c = true ↔ attributeRanges.Contains c := by
  by_cases hc : c.toNat < 128
  · exact Utf8.forall_ascii (p := fun c => isAttributeChar c = true ↔ attributeRanges.Contains c)
      (by decide) hc
  · have hb : c ≠ ' ' := by
      intro h
      exact hc (by rw [h]; decide)
    simp [isAttributeChar, isGraphic, Ranges.Contains, attributeRanges, hb]
    omega

/-- The characters of a token can stand in an attribute, and so can the octets
of a value. -/
theorem Ranges.Contains.attribute {c : Char}
    (h : tokenRanges.Contains c ∨ octetRanges.Contains c) : attributeRanges.Contains c := by
  simp [Ranges.Contains, tokenRanges, octetRanges, attributeRanges] at h ⊢
  omega

/-! ## Slots -/

/-- A text of a cookie and what its slot in the header takes. -/
structure Slot where
  part : String
  text : String
  alphabet : Ranges
  mayBeEmpty : Bool := true

/-- The text of a slot has only characters of the slot's alphabet, and it is
not empty where it must not be. -/
def Slot.Fits (s : Slot) : Prop :=
  (s.mayBeEmpty = false → s.text ≠ "") ∧ ∀ c ∈ s.text.toList, s.alphabet.Contains c

instance (s : Slot) : Decidable s.Fits :=
  @instDecidableAnd _ _ inferInstance (List.decidableBAll _ _)

def nameSlot (c : Cookie) : Slot := ⟨"name", c.name, tokenRanges, false⟩

def valueSlot (c : Cookie) : Slot := { part := "value", text := c.value, alphabet := octetRanges }

/-- The slot of an option, which is there only for a text. -/
def optionSlot (c : Cookie) (key : String) : List Slot :=
  match c.settings.get? key with
  | some (.string s) => [{ part := key, text := s, alphabet := attributeRanges }]
  | _ => []

/-- The slots of a cookie, in the order in which they are checked. -/
def slots (c : Cookie) : List Slot :=
  c.nameSlot :: c.valueSlot :: ["path", "domain", "expires", "sameSite"].flatMap c.optionSlot

/-- A slot is the first of a list that does not fit. -/
def FirstMisfit (slots : List Slot) (s : Slot) : Prop :=
  ∃ before after, slots = before ++ s :: after ∧ (∀ b ∈ before, b.Fits) ∧ ¬ s.Fits

/-- The complaint about the first slot that does not fit. -/
def complaint? (slots : List Slot) : Option InvalidCookie :=
  (slots.find? fun s => !decide s.Fits).map fun s => ⟨s.part, s.text⟩

theorem complaint?_eq_none (slots : List Slot) :
    complaint? slots = none ↔ ∀ s ∈ slots, s.Fits := by
  simp [complaint?]

theorem complaint?_eq_some (slots : List Slot) (e : InvalidCookie) :
    complaint? slots = some e ↔ ∃ s, FirstMisfit slots s ∧ e = ⟨s.part, s.text⟩ := by
  simp only [complaint?, Option.map_eq_some_iff, List.find?_eq_some_iff_append, FirstMisfit]
  constructor
  · intro ⟨s, ⟨hs, before, after, heq, hb⟩, he⟩
    exact ⟨s, ⟨before, after, heq, by simpa using hb, by simpa using hs⟩, he.symm⟩
  · intro ⟨s, ⟨before, after, heq, hb, hs⟩, he⟩
    exact ⟨s, ⟨by simpa using hs, before, after, heq, by simpa using hb⟩, he.symm⟩

theorem complaint?_append (xs ys : List Slot) :
    complaint? (xs ++ ys) = (complaint? xs).or (complaint? ys) := by
  simp only [complaint?, List.find?_append]
  cases xs.find? fun s => !decide s.Fits <;> rfl

/-- Go on unless there is something to complain about. -/
def heed {α : Type} (complaint : Option InvalidCookie) (a : α) : Except InvalidCookie α :=
  match complaint with
  | none => .ok a
  | some e => .error e

/-- A slot that is alone in its list. -/
theorem complaint?_singleton (s : Slot) :
    complaint? [s] = if s.Fits then none else some ⟨s.part, s.text⟩ := by
  by_cases h : s.Fits <;> simp [complaint?, h]

/-- The options as they are written, all texts taken as they are. -/
def attributes (c : Cookie) : Attributes where
  path := c.textOption? "path"
  domain := c.textOption? "domain"
  maxAge := c.maxAge?
  expires := c.textOption? "expires"
  sameSite := (c.textOption? "sameSite").or
    (if (c.option? "sameSite").bind Json.bool? = some true then some "Strict" else none)
  secure := ((c.option? "secure").bind Json.bool?).getD false
  httpOnly := ((c.option? "httpOnly").bind Json.bool?).getD true

theorem checkAttribute_eq (c : Cookie) (key : String) :
    c.checkAttribute key = heed (complaint? (c.optionSlot key)) (c.textOption? key) := by
  unfold checkAttribute optionSlot textOption? option?
  cases c.settings.get? key with
  | none => rfl
  | some v =>
    cases v with
    | string s =>
      have slot : ({ part := key, text := s, alphabet := attributeRanges } : Slot).Fits ↔
          s.toList.all isAttributeChar = true := by
        simp [Slot.Fits, isAttributeChar_iff]
      simp only [Option.bind_some, Json.string?, complaint?_singleton, slot]
      cases s.toList.all isAttributeChar <;> rfl
    | _ => rfl

theorem nameSlot_fits (c : Cookie) :
    c.nameSlot.Fits ↔ (c.name.isEmpty || !c.name.toList.all isTokenChar) = false := by
  simp [nameSlot, Slot.Fits, isTokenChar_iff]

theorem valueSlot_fits (c : Cookie) :
    c.valueSlot.Fits ↔ (!c.value.toList.all isOctetChar) = false := by
  simp [valueSlot, Slot.Fits, isOctetChar_iff]

/-- Checking a cookie is checking its slots one after the other. -/
theorem check_eq (c : Cookie) : c.check = heed (complaint? c.slots) c.attributes := by
  have hs : c.slots = [c.nameSlot] ++ ([c.valueSlot] ++ (c.optionSlot "path" ++
      (c.optionSlot "domain" ++ (c.optionSlot "expires" ++ c.optionSlot "sameSite")))) := by
    simp [slots]
  unfold check
  simp only [checkAttribute_eq, hs, complaint?_append, complaint?_singleton, nameSlot_fits,
    valueSlot_fits]
  cases c.name.isEmpty || !c.name.toList.all isTokenChar with
  | true => rfl
  | false =>
    cases !c.value.toList.all isOctetChar with
    | true => rfl
    | false =>
      cases complaint? (c.optionSlot "path") with
      | some => rfl
      | none =>
        cases complaint? (c.optionSlot "domain") with
        | some => rfl
        | none =>
          cases complaint? (c.optionSlot "expires") with
          | some => rfl
          | none => cases complaint? (c.optionSlot "sameSite") <;> rfl

/-- A cookie is written exactly when all its slots fit. -/
theorem headerValue_eq (c : Cookie) : c.headerValue =
    heed (complaint? c.slots) ("; ".intercalate (c.parts c.attributes)) := by
  rw [headerValue, check_eq]
  cases complaint? c.slots <;> rfl

/-! ## Parts -/

/-- A part of a header value: a name, with or without a text. -/
structure Part where
  name : String
  text? : Option String := none
  deriving DecidableEq

namespace Part

/-- A part as it is written. -/
def text (p : Part) : String :=
  match p.text? with
  | none => p.name
  | some t => p.name ++ "=" ++ t

/-- A part as it is read: the name ends at the first equals sign. -/
def read (cs : List Char) : Part :=
  match cs.dropWhile (· ≠ '=') with
  | [] => ⟨String.ofList cs, none⟩
  | _ :: t => ⟨String.ofList (cs.takeWhile (· ≠ '=')), some (String.ofList t)⟩

/-- A part whose name is free of the equals sign and which has only characters
that an attribute can have. -/
structure Clean (p : Part) : Prop where
  noEquals : '=' ∉ p.name.toList
  chars : ∀ c ∈ p.text.toList, attributeRanges.Contains c

/-- A clean part is read as it was written. -/
theorem Clean.read_text {p : Part} (h : p.Clean) : read p.text.toList = p := by
  obtain ⟨name, t⟩ := p
  cases t with
  | none =>
    show read name.toList = _
    rw [← List.append_nil name.toList, read, dropWhile_until h.noEquals (by simp),
      List.append_nil, String.ofList_toList]
  | some t =>
    have ht : (Part.mk name (some t)).text.toList = name.toList ++ '=' :: t.toList := by
      simp [text]
    rw [ht, read, dropWhile_until h.noEquals (by simp), takeWhile_until h.noEquals (by simp)]
    simp only [String.ofList_toList]

/-- A clean part has no semicolon. -/
theorem Clean.semicolon {p : Part} (h : p.Clean) : ';' ∉ p.text.toList := by
  intro hc
  exact absurd (h.chars _ hc) (by decide)

end Part

/-! ## The parts that a cookie asks for

Each function takes what stands under an option's key; a value of another type
than the ones it names asks for nothing. -/

def pathPart : Option Json → Part
  | some (.string s) => ⟨"Path", some s⟩
  | _ => ⟨"Path", some "/"⟩

/-- An attribute with the very text of its option. -/
def textPart (name : String) : Option Json → List Part
  | some (.string s) => [⟨name, some s⟩]
  | _ => []

/-- The life in whole seconds, if it is below `2 ^ 63`.  No JSON integer is below
`-2 ^ 63`. -/
def lifePart : Option Json → List Part
  | some (.int ms) =>
    if ms < 9223372036854775808 then [⟨"Max-Age", some (toString (ms.tdiv 1000))⟩] else []
  | _ => []

def sitePart : Option Json → List Part
  | some (.string s) => [⟨"SameSite", some s⟩]
  | some (.bool true) => [⟨"SameSite", some "Strict"⟩]
  | _ => []

def securePart : Option Json → List Part
  | some (.bool true) => [⟨"Secure", none⟩]
  | _ => []

def httpOnlyPart : Option Json → List Part
  | some (.bool false) => []
  | _ => [⟨"HttpOnly", none⟩]

/-- The attributes of a cookie, in the order in which they are written. -/
def asked (c : Cookie) : List Part :=
  [pathPart (c.settings.get? "path")]
    ++ textPart "Domain" (c.settings.get? "domain")
    ++ lifePart (c.settings.get? "maxAge")
    ++ textPart "Expires" (c.settings.get? "expires")
    ++ sitePart (c.settings.get? "sameSite")
    ++ securePart (c.settings.get? "secure")
    ++ httpOnlyPart (c.settings.get? "httpOnly")

/-- All parts of a cookie: its name with its value, then the attributes. -/
def said (c : Cookie) : List Part := ⟨c.name, some c.value⟩ :: c.asked

theorem pathPart_text (o : Option Json) :
    (pathPart o).text = "Path=" ++ (o.bind Json.string?).getD "/" := by
  cases o with
  | none => rfl
  | some v => cases v <;> rfl

theorem textPart_text (name : String) (o : Option Json) :
    (textPart name o).map Part.text =
      ((o.bind Json.string?).map fun s => name ++ "=" ++ s).toList := by
  cases o with
  | none => rfl
  | some v => cases v <;> rfl

theorem lifePart_text (o : Option Json) :
    (lifePart o).map Part.text =
      (((o.bind Json.signedWord?).map (·.tdiv 1000)).map fun s =>
        "Max-Age=" ++ toString s).toList := by
  cases o with
  | none => rfl
  | some v =>
    cases v with
    | int ms =>
      have limit : ((1 <<< 63 : Nat) : Int) = 9223372036854775808 := by decide
      simp only [lifePart, Option.bind_some, Json.signedWord?, limit]
      split <;> rfl
    | _ => rfl

theorem sitePart_text (o : Option Json) :
    (sitePart o).map Part.text = (((o.bind Json.string?).or
      (if o.bind Json.bool? = some true then some "Strict" else none)).map
        ("SameSite=" ++ ·)).toList := by
  cases o with
  | none => rfl
  | some v =>
    cases v with
    | bool b => cases b <;> rfl
    | _ => rfl

theorem securePart_text (o : Option Json) :
    (securePart o).map Part.text =
      if (o.bind Json.bool?).getD false then ["Secure"] else [] := by
  cases o with
  | none => rfl
  | some v =>
    cases v with
    | bool b => cases b <;> rfl
    | _ => rfl

theorem httpOnlyPart_text (o : Option Json) :
    (httpOnlyPart o).map Part.text =
      if (o.bind Json.bool?).getD true then ["HttpOnly"] else [] := by
  cases o with
  | none => rfl
  | some v =>
    cases v with
    | bool b => cases b <;> rfl
    | _ => rfl

/-- What is written are the parts that the cookie asks for. -/
theorem parts_attributes (c : Cookie) : c.parts c.attributes = c.said.map Part.text := by
  simp only [said, asked, List.map_cons, List.map_append, textPart_text, lifePart_text,
    sitePart_text, securePart_text, httpOnlyPart_text, pathPart_text, List.map_nil]
  rfl

/-! ## Every part is clean -/

theorem mem_slots_optionSlot {c : Cookie} {key s : String}
    (hk : key ∈ ["path", "domain", "expires", "sameSite"])
    (h : c.settings.get? key = some (.string s)) :
    { part := key, text := s, alphabet := attributeRanges } ∈ c.slots := by
  have hs : { part := key, text := s, alphabet := attributeRanges } ∈ c.optionSlot key := by
    simp [optionSlot, h]
  exact List.mem_cons_of_mem _ (List.mem_cons_of_mem _ (List.mem_flatMap.mpr ⟨key, hk, hs⟩))

/-- The text of an option of a cookie whose slots fit. -/
theorem option_fits {c : Cookie} (h : ∀ s ∈ c.slots, s.Fits) {key s : String}
    (hk : key ∈ ["path", "domain", "expires", "sameSite"])
    (ho : c.settings.get? key = some (.string s)) : ∀ x ∈ s.toList, attributeRanges.Contains x :=
  (h _ (mem_slots_optionSlot hk ho)).2

/-- A text that is checked for the characters of an attribute has no others. -/
theorem attribute_of_all {s : String} (h : s.toList.all isAttributeChar = true) :
    ∀ x ∈ s.toList, attributeRanges.Contains x :=
  fun x hx => (isAttributeChar_iff x).mp (List.all_eq_true.mp h x hx)

theorem Part.clean_none {name : String} (hn : ∀ x ∈ name.toList, attributeRanges.Contains x)
    (he : '=' ∉ name.toList) : (Part.mk name none).Clean :=
  ⟨he, hn⟩

theorem Part.clean_some {name t : String} (hn : ∀ x ∈ name.toList, attributeRanges.Contains x)
    (he : '=' ∉ name.toList) (ht : ∀ x ∈ t.toList, attributeRanges.Contains x) :
    (Part.mk name (some t)).Clean := by
  refine ⟨he, ?_⟩
  intro x hx
  simp only [text, String.toList_append, List.mem_append] at hx
  obtain (hx | hx) | hx := hx
  · exact hn x hx
  · rw [show x = '=' by simpa using hx]
    decide
  · exact ht x hx

theorem digit_attribute {n : Nat} {x : Char} (h : x ∈ n.repr.toList) :
    attributeRanges.Contains x := by
  rw [Nat.toList_repr] at h
  have hd : x.isDigit = true := Nat.isDigit_of_mem_toDigits (by decide) (by decide) h
  simp [Char.isDigit, UInt32.le_iff_toNat_le] at hd
  simp [Ranges.Contains, attributeRanges]
  change 48 ≤ x.toNat ∧ x.toNat ≤ 57 at hd
  omega

theorem int_attribute {i : Int} : ∀ x ∈ (toString i).toList, attributeRanges.Contains x := by
  intro x hx
  rw [show toString i = i.repr from rfl, Int.repr_eq_if] at hx
  split at hx
  · exact digit_attribute hx
  · rw [String.toList_append, List.mem_append] at hx
    obtain hx | hx := hx
    · rw [show x = '-' by simpa using hx]
      decide
    · exact digit_attribute hx

section Attributes

variable {c : Cookie} (h : ∀ s ∈ c.slots, s.Fits)
include h

theorem pair_clean : (Part.mk c.name (some c.value)).Clean := by
  have hn : c.nameSlot.Fits := h _ List.mem_cons_self
  have hv : c.valueSlot.Fits := h _ (List.mem_cons_of_mem _ List.mem_cons_self)
  refine Part.clean_some ?_ ?_ ?_
  · exact fun x hx => .attribute (.inl (hn.2 x hx))
  · intro hx
    exact absurd (hn.2 _ hx) (by decide : ¬ tokenRanges.Contains '=')
  · exact fun x hx => .attribute (.inr (hv.2 x hx))

theorem pathPart_clean : (pathPart (c.settings.get? "path")).Clean := by
  unfold pathPart
  split
  · next s ho =>
    exact Part.clean_some (attribute_of_all (by decide)) (by decide) (option_fits h (by decide) ho)
  · exact Part.clean_some (attribute_of_all (by decide)) (by decide) (attribute_of_all (by decide))

theorem textPart_clean {name key : String} (hk : key ∈ ["path", "domain", "expires", "sameSite"])
    (hn : ∀ x ∈ name.toList, attributeRanges.Contains x) (he : '=' ∉ name.toList) :
    ∀ p ∈ textPart name (c.settings.get? key), p.Clean := by
  intro p hp
  unfold textPart at hp
  split at hp
  · next s ho =>
    rw [List.mem_singleton.mp hp]
    exact Part.clean_some hn he (option_fits h hk ho)
  · cases hp

theorem sitePart_clean : ∀ p ∈ sitePart (c.settings.get? "sameSite"), p.Clean := by
  intro p hp
  unfold sitePart at hp
  split at hp
  · next s ho =>
    rw [List.mem_singleton.mp hp]
    exact Part.clean_some (attribute_of_all (by decide)) (by decide) (option_fits h (by decide) ho)
  · rw [List.mem_singleton.mp hp]
    exact Part.clean_some (attribute_of_all (by decide)) (by decide) (attribute_of_all (by decide))
  · cases hp

end Attributes

theorem lifePart_clean (o : Option Json) : ∀ p ∈ lifePart o, p.Clean := by
  intro p hp
  unfold lifePart at hp
  split at hp
  · split at hp
    · rw [List.mem_singleton.mp hp]
      exact Part.clean_some (attribute_of_all (by decide)) (by decide) int_attribute
    · cases hp
  · cases hp

theorem securePart_clean (o : Option Json) : ∀ p ∈ securePart o, p.Clean := by
  intro p hp
  unfold securePart at hp
  split at hp
  · rw [List.mem_singleton.mp hp]
    exact Part.clean_none (attribute_of_all (by decide)) (by decide)
  · cases hp

theorem httpOnlyPart_clean (o : Option Json) : ∀ p ∈ httpOnlyPart o, p.Clean := by
  intro p hp
  unfold httpOnlyPart at hp
  split at hp
  · cases hp
  · rw [List.mem_singleton.mp hp]
    exact Part.clean_none (attribute_of_all (by decide)) (by decide)

/-- All parts of a cookie whose slots fit are clean. -/
theorem said_clean {c : Cookie} (h : ∀ s ∈ c.slots, s.Fits) : ∀ p ∈ c.said, p.Clean := by
  simp only [said, asked, List.forall_mem_cons, List.forall_mem_append, List.not_mem_nil,
    false_implies, implies_true, and_true]
  exact ⟨pair_clean h, ⟨⟨⟨⟨⟨pathPart_clean h,
    textPart_clean h (by decide) (attribute_of_all (by decide)) (by decide)⟩, lifePart_clean _⟩,
    textPart_clean h (by decide) (attribute_of_all (by decide)) (by decide)⟩, sitePart_clean h⟩,
    securePart_clean _⟩, httpOnlyPart_clean _⟩

/-! ## Reading back -/

/-- The rest of a text that begins with a blank. -/
def behindBlank? : List Char → Option (List Char)
  | ' ' :: rest => some rest
  | _ => none

/-- The parts of a header value: what stands between the semicolons, each part
but the first behind one blank. -/
def readParts? (text : String) : Option (List Part) :=
  match text.toList.splitOn ';' with
  | [] => none
  | first :: rest => (rest.mapM behindBlank?).map fun rest => (first :: rest).map Part.read

theorem intercalate_cons_head {α : Type} (sep : List α) (x : α) (t : List α)
    (ts : List (List α)) : sep.intercalate ((x :: t) :: ts) = x :: sep.intercalate (t :: ts) := by
  cases ts with
  | nil => simp
  | cons u us => simp [List.intercalate_cons_cons]

/-- Texts that are joined by a semicolon and a blank come apart at the
semicolons, and the blanks stay. -/
theorem splitOn_join (t : List Char) (ts : List (List Char)) (h : ∀ u ∈ t :: ts, ';' ∉ u) :
    ([';', ' '].intercalate (t :: ts)).splitOn ';' = t :: ts.map (' ' :: ·) := by
  induction ts generalizing t with
  | nil =>
    rw [List.intercalate_singleton]
    exact List.splitOn_eq_singleton (h t List.mem_cons_self)
  | cons u us ih =>
    obtain ⟨ht, hu, hus⟩ : ';' ∉ t ∧ ';' ∉ u ∧ ∀ v ∈ us, ';' ∉ v := by simpa using h
    have rest : ∀ v ∈ (' ' :: u) :: us, ';' ∉ v := by simpa using ⟨hu, hus⟩
    calc ([';', ' '].intercalate (t :: u :: us)).splitOn ';'
        = (t ++ ';' :: [';', ' '].intercalate ((' ' :: u) :: us)).splitOn ';' := by
          rw [List.intercalate_cons_cons, intercalate_cons_head]
          simp
      _ = t :: (' ' :: u) :: us.map (' ' :: ·) := by
          rw [List.splitOn_append_cons_self_of_not_mem ht, ih _ rest]

theorem mapM_behindBlank? (ts : List (List Char)) :
    (ts.map (' ' :: ·)).mapM behindBlank? = some ts := by
  induction ts with
  | nil => rfl
  | cons t ts ih =>
    rw [List.map_cons, List.mapM_cons, ih]
    rfl

/-- Clean parts that are joined are read back. -/
theorem readParts?_join {p : Part} {ps : List Part} (h : ∀ q ∈ p :: ps, q.Clean) :
    readParts? ("; ".intercalate ((p :: ps).map Part.text)) = some (p :: ps) := by
  let chars (q : Part) : List Char := q.text.toList
  have split : ("; ".intercalate ((p :: ps).map Part.text)).toList.splitOn ';' =
      chars p :: (ps.map chars).map (' ' :: ·) := by
    rw [String.toList_intercalate, List.map_map, List.map_cons]
    apply splitOn_join
    intro t ht
    obtain ⟨q, hq, hqt⟩ := List.mem_map.mp (List.map_cons ▸ ht : t ∈ (p :: ps).map chars)
    exact hqt ▸ (h q hq).semicolon
  have read : ((p :: ps).map chars).map Part.read = p :: ps := by
    rw [List.map_map]
    exact (List.map_congr_left fun q hq => (h q hq).read_text).trans (List.map_id _)
  rw [readParts?, split]
  show ((List.map (' ' :: ·) _).mapM behindBlank?).map _ = _
  rw [mapM_behindBlank?]
  exact congrArg some read

/-! ## The header value -/

theorem mem_intercalate {α : Type} {sep : List α} {ts : List (List α)} {x : α}
    (h : x ∈ sep.intercalate ts) : x ∈ sep ∨ ∃ t ∈ ts, x ∈ t := by
  induction ts with
  | nil => simp at h
  | cons t ts ih =>
    cases ts with
    | nil => exact .inr ⟨t, by simp, by simpa using h⟩
    | cons u us =>
      rw [List.intercalate_cons_cons, List.mem_append, List.mem_append] at h
      obtain (ht | hs) | hr := h
      · exact .inr ⟨t, List.mem_cons_self, ht⟩
      · exact .inl hs
      · obtain hs | ⟨v, hv, hx⟩ := ih hr
        · exact .inl hs
        · exact .inr ⟨v, List.mem_cons_of_mem _ hv, hx⟩

theorem Ranges.Contains.printable {c : Char} (h : attributeRanges.Contains c) :
    32 ≤ c.toNat ∧ c.toNat ≤ 126 := by
  simp [Ranges.Contains, attributeRanges] at h
  omega

/-- Texts of an attribute's characters stay printable when they are joined. -/
theorem printable_join {texts : List String}
    (h : ∀ t ∈ texts, ∀ x ∈ t.toList, attributeRanges.Contains x) :
    ∀ x ∈ ("; ".intercalate texts).toList, 32 ≤ x.toNat ∧ x.toNat ≤ 126 := by
  intro x hx
  rw [String.toList_intercalate] at hx
  obtain hs | ⟨l, hl, hx⟩ := mem_intercalate hx
  · have sep : ∀ x ∈ "; ".toList, 32 ≤ x.toNat ∧ x.toNat ≤ 126 := Utf8.forall_of_all (by decide)
    exact sep x hs
  · obtain ⟨t, ht, rfl⟩ := List.mem_map.mp hl
    exact (h t ht x hx).printable

theorem isHeaderValue_of_printable {s : String}
    (h : ∀ x ∈ s.toList, 32 ≤ x.toNat ∧ x.toNat ≤ 126) : isHeaderValue s = true := by
  rw [isHeaderValue, List.all_eq_true]
  intro x hx
  have := h x hx
  have : (32 ≤ x.toNat ∧ x.toNat ≠ 127) := by omega
  simp [this]

/-- A cookie is written exactly when all its slots fit, as the parts that it
asks for. -/
theorem headerValue_eq_ok (c : Cookie) (v : String) : c.headerValue = .ok v ↔
    (∀ s ∈ c.slots, s.Fits) ∧ v = "; ".intercalate (c.said.map Part.text) := by
  rw [headerValue_eq, parts_attributes, ← complaint?_eq_none]
  cases complaint? c.slots <;> simp [heed, eq_comm]

/-- Otherwise the first slot that does not fit is reported. -/
theorem headerValue_eq_error (c : Cookie) (e : InvalidCookie) : c.headerValue = .error e ↔
    ∃ s, FirstMisfit c.slots s ∧ e = ⟨s.part, s.text⟩ := by
  rw [headerValue_eq, ← complaint?_eq_some]
  cases complaint? c.slots <;> simp [heed]

/-- A cookie is written exactly when each of its texts fits its slot, and
otherwise the first one that does not is reported.  What is written is
printable, is a header value, and says exactly what the cookie asks for. -/
theorem headerValue_reads_back (c : Cookie) :
    ((∃ v, c.headerValue = .ok v) ↔ ∀ s ∈ c.slots, s.Fits) ∧
    (∀ e, c.headerValue = .error e ↔ ∃ s, FirstMisfit c.slots s ∧ e = ⟨s.part, s.text⟩) ∧
    ∀ v, c.headerValue = .ok v →
      (∀ x ∈ v.toList, 32 ≤ x.toNat ∧ x.toNat ≤ 126) ∧ isHeaderValue v = true ∧
      readParts? v = some (⟨c.name, some c.value⟩ :: c.asked) := by
  refine ⟨?_, headerValue_eq_error c, ?_⟩
  · simp [headerValue_eq_ok]
  · intro v hv
    obtain ⟨fits, rfl⟩ := (headerValue_eq_ok c v).mp hv
    have clean := said_clean fits
    have printable := printable_join (List.forall_mem_map.mpr fun p hp => (clean p hp).chars)
    exact ⟨printable, isHeaderValue_of_printable printable, readParts?_join clean⟩

theorem headerValue_reads_back_full :
    let c : Cookie := ⟨"id", "a+b=c", .ofList [("domain", .string "example.com"),
      ("httpOnly", .bool false), ("maxAge", .int (-1999)), ("path", .string "/a b"),
      ("sameSite", .bool true), ("secure", .bool true)]⟩
    ∃ v, c.headerValue = .ok v ∧ readParts? v = some [⟨"id", some "a+b=c"⟩, ⟨"Path", some "/a b"⟩,
      ⟨"Domain", some "example.com"⟩, ⟨"Max-Age", some "-1"⟩, ⟨"SameSite", some "Strict"⟩,
      ⟨"Secure", none⟩] := by
  intro c
  have fits : ∀ s ∈ c.slots, s.Fits := by decide +kernel
  have said : c.asked = [⟨"Path", some "/a b"⟩, ⟨"Domain", some "example.com"⟩,
      ⟨"Max-Age", some "-1"⟩, ⟨"SameSite", some "Strict"⟩, ⟨"Secure", none⟩] := by decide +kernel
  obtain ⟨v, hv⟩ := (headerValue_reads_back c).1.mpr fits
  have back := ((headerValue_reads_back c).2.2 v hv).2.2
  rw [said] at back
  exact ⟨v, hv, back⟩

end Cookie

end Switchboard
