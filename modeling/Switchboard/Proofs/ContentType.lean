import Mathlib.Data.List.Basic
import Mathlib.Data.List.TakeWhile
import Switchboard.Http.Intake
import Switchboard.Proofs.Octets

/-!
# Switchboard.Proofs.ContentType

What a content type says.  Its field is octets; a field with an octet that is
not readable counts as none, and of a readable one the media type decides: what
stands in front of the first semicolon, without blanks at its ends and in lower
case.

* `Respelled` — fields that declare the same content type, and
  `mediaChars_respelled`, that they have the same media type;
* `Request.declared?`, `Request.readable?` — the field of a request, and
  `mediaKind_respelled`, that its spelling makes no difference;
* `SaysJson` — fields that say JSON, and `SaysJson.kind`, that they are taken
  at their word.
-/

namespace Switchboard.Http

/-! ## Spellings -/

/-- An octet with an ASCII letter in lower case. -/
def lowerOctet (b : UInt8) : UInt8 := if 65 ≤ b ∧ b ≤ 90 then b + 32 else b

/-- An octet that is a space or a tab. -/
def IsBlankOctet (b : UInt8) : Prop := b = 32 ∨ b = 9

/-- Fields that declare one content type: they differ in the case of letters, in
blanks at the ends, or in what stands behind a semicolon. -/
inductive Respelled : Bytes → Bytes → Prop where
  | refl (v : Bytes) : Respelled v v
  | symm {v v' : Bytes} (h : Respelled v v') : Respelled v' v
  | trans {v v' v'' : Bytes} (h : Respelled v v') (h' : Respelled v' v'') : Respelled v v''
  | letterCase {v v' : Bytes} (same : v.map lowerOctet = v'.map lowerOctet) : Respelled v v'
  | blanks (before v behind : Bytes) (blank : ∀ b ∈ before ++ behind, IsBlankOctet b) :
      Respelled (before ++ v ++ behind) v
  | parameters (v params : Bytes) : Respelled (v ++ 59 :: params) v

/-! ## Characters -/

/-- Only the case of an ASCII letter is changed. -/
theorem toLower_cases (c : Char) :
    c.toLower = c ∨ 65 ≤ c.toNat ∧ c.toNat ≤ 90 ∧ c.toLower.toNat = c.toNat + 32 := by
  by_cases h : c.val ≥ 'A'.val ∧ c.val ≤ 'Z'.val
  · right
    have low : 65 ≤ c.val.toNat := UInt32.le_iff_toNat_le.mp h.1
    have high : c.val.toNat ≤ 90 := UInt32.le_iff_toNat_le.mp h.2
    have lower : c.toLower = ⟨c.val + ('a'.val - 'A'.val), _⟩ := dif_pos h
    refine ⟨low, high, ?_⟩
    rw [lower]
    show (c.val.toNat + 32) % 2 ^ 32 = c.val.toNat + 32
    omega
  · exact .inl (dif_neg h)

/-- Case makes no difference to a character that is not a letter. -/
theorem toLower_eq_iff {c d : Char} (h : d.toNat < 65) : c.toLower = d ↔ c = d := by
  obtain same | ⟨low, high, lower⟩ := toLower_cases c
  · rw [same]
  · constructor
    · rintro rfl
      omega
    · rintro rfl
      omega

theorem toLower_toLower (c : Char) : c.toLower.toLower = c.toLower := by
  obtain same | ⟨low, high, lower⟩ := toLower_cases c
  · rw [same, same]
  · obtain same | ⟨-, high', -⟩ := toLower_cases c.toLower
    · exact same
    · omega

theorem isBlank_toLower (c : Char) : isBlank c.toLower = isBlank c := by
  rw [isBlank, isBlank, decide_eq_decide.mpr (toLower_eq_iff (by decide)),
    decide_eq_decide.mpr (toLower_eq_iff (by decide))]

/-- The octets of a field, each as a character. -/
def fieldChars (v : Bytes) : List Char := v.map fun b => Char.ofNat b.toNat

theorem fieldChars_append (v v' : Bytes) : fieldChars (v ++ v') = fieldChars v ++ fieldChars v' :=
  List.map_append

theorem fieldChars_lower (v : Bytes) :
    fieldChars (v.map lowerOctet) = (fieldChars v).map Char.toLower := by
  have all : ∀ n < 256, (Char.ofNat (UInt8.ofNat n).toNat).toLower =
      Char.ofNat (lowerOctet (UInt8.ofNat n)).toNat := by decide +kernel
  have lower (b : UInt8) : (Char.ofNat b.toNat).toLower = Char.ofNat (lowerOctet b).toNat := by
    have := all b.toNat (UInt8.toNat_lt b)
    rwa [UInt8.ofNat_toNat] at this
  rw [fieldChars, fieldChars, List.map_map, List.map_map]
  exact List.map_congr_left fun b _ => (lower b).symm

/-- An octet is the code of the character that stands for it. -/
theorem Header.toNat_ofNat_octet (b : UInt8) : (Char.ofNat b.toNat).toNat = b.toNat := by
  have valid : b.toNat.isValidChar := .inl (Nat.lt_trans b.toNat_lt (by decide))
  rw [Char.ofNat, dif_pos valid]
  rfl

theorem not_mem_fieldChars {v : Bytes} (plain : 59 ∉ v) : ';' ∉ fieldChars v := by
  intro h
  obtain ⟨b, hb, same⟩ := List.mem_map.mp h
  have code : b.toNat = 59 := by
    have := congrArg Char.toNat same
    rwa [Header.toNat_ofNat_octet] at this
  have octet : b = 59 := by
    rw [← UInt8.toNat_inj, code]
    rfl
  exact plain (octet ▸ hb)

/-! ## Trimming -/

/-- What is left out stays left out when the rest is changed in a way that the
predicate does not see. -/
theorem trimBy_map {p : Char → Bool} {f : Char → Char} (h : ∀ c, p (f c) = p c) (cs : List Char) :
    trimBy p (cs.map f) = (trimBy p cs).map f := by
  have same : p ∘ f = p := funext h
  rw [trimBy, List.dropWhile_map, same, ← List.map_reverse, List.dropWhile_map, same,
    ← List.map_reverse, trimBy]

/-- Blanks at the ends are left out, whatever stands between them. -/
theorem trim_blanks {before cs behind : List Char} (before_blank : ∀ c ∈ before, isBlank c = true)
    (behind_blank : ∀ c ∈ behind, isBlank c = true) :
    trim (before ++ cs ++ behind) = trim cs := by
  have nothing : behind.dropWhile isBlank = [] := List.dropWhile_eq_nil_iff.mpr behind_blank
  have back (ds : List Char) :
      ((ds ++ behind).reverse.dropWhile isBlank) = ds.reverse.dropWhile isBlank := by
    rw [List.reverse_append, List.dropWhile_append_of_pos]
    exact fun c hc => behind_blank c (List.mem_reverse.mp hc)
  rw [trim, trim, trimBy, trimBy, List.append_assoc, List.dropWhile_append_of_pos before_blank,
    List.dropWhile_append, nothing]
  split
  · rename_i empty
    rw [List.isEmpty_iff.mp empty]
  · rw [back]

/-- What is left out in front is left out up to where something else stands. -/
theorem dropWhile_between {p : Char → Bool} {before cs : List Char}
    (blank : ∀ c ∈ before, p c = true) (visible : ∀ c ∈ cs.head?, p c = false) :
    (before ++ cs).dropWhile p = cs := by
  rw [List.dropWhile_append_of_pos blank]
  cases cs with
  | nil => rfl
  | cons c cs => rw [List.dropWhile_cons_of_neg (by simp [visible c rfl])]

/-- Trimming does not reach into an ending that has no blank at its own ends. -/
theorem suffix_trim {ending cs : List Char} (front : ∀ c ∈ ending.head?, isBlank c = false)
    (back : ∀ c ∈ ending.reverse.head?, isBlank c = false) (h : ending <:+ cs) :
    ending <:+ trim cs := by
  obtain ⟨before, rfl⟩ := h
  cases ending with
  | nil => exact List.nil_suffix
  | cons c ending =>
    have kept : (before ++ c :: ending).dropWhile isBlank =
        before.dropWhile isBlank ++ c :: ending := by
      rw [List.dropWhile_append, List.dropWhile_cons_of_neg (by simp [front c rfl])]
      split
      · rename_i empty
        rw [List.isEmpty_iff.mp empty, List.nil_append]
      · rfl
    have first : ∀ d ∈ ((c :: ending).reverse ++ (before.dropWhile isBlank).reverse).head?,
        isBlank d = false := by
      rwa [List.head?_append_of_ne_nil _ (by simp)]
    have whole := @dropWhile_between isBlank [] _ (List.forall_mem_nil _) first
    rw [List.nil_append] at whole
    rw [trim, trimBy, kept, List.reverse_append, whole, List.reverse_append, List.reverse_reverse,
      List.reverse_reverse]
    exact List.suffix_append _ _

/-! ## Media types -/

/-- The media type among the characters of a content type, in lower case. -/
def mediaChars (cs : List Char) : List Char := (trim (cs.takeWhile (· ≠ ';'))).map Char.toLower

theorem mediaType_ofList (cs : List Char) :
    mediaType (String.ofList cs) = String.ofList (mediaChars cs) := by
  rw [mediaType, foldName, String.toList_ofList, String.toList_ofList, mediaChars]

theorem mediaChars_map_toLower (cs : List Char) :
    mediaChars (cs.map Char.toLower) = mediaChars cs := by
  have cut : (fun c : Char => decide (c ≠ ';')) ∘ Char.toLower = fun c => decide (c ≠ ';') :=
    funext fun c => decide_eq_decide.mpr (not_congr (toLower_eq_iff (by decide)))
  have folded : Char.toLower ∘ Char.toLower = Char.toLower := funext toLower_toLower
  rw [mediaChars, List.takeWhile_map, cut, trim, trimBy_map isBlank_toLower, List.map_map, folded,
    mediaChars, trim]

theorem mediaChars_blanks {before cs behind : List Char}
    (blank : ∀ c ∈ before ++ behind, isBlank c = true) :
    mediaChars (before ++ cs ++ behind) = mediaChars cs := by
  obtain ⟨before_blank, behind_blank⟩ := List.forall_mem_append.mp blank
  have plain (ds : List Char) (h : ∀ c ∈ ds, isBlank c = true) (c : Char) (hc : c ∈ ds) :
      decide (c ≠ ';') = true := by
    refine decide_eq_true ?_
    rintro rfl
    exact absurd (h _ hc) (by decide)
  have whole : behind.takeWhile (· ≠ ';') = behind :=
    List.takeWhile_eq_self_iff.mpr (plain behind behind_blank)
  rw [mediaChars, mediaChars, List.append_assoc,
    List.takeWhile_append_of_pos (plain before before_blank), List.takeWhile_append, whole]
  split
  · rename_i all
    rw [(List.takeWhile_prefix _).eq_of_length all, ← List.append_assoc,
      trim_blanks before_blank behind_blank]
  · have front : trim (before ++ cs.takeWhile (· ≠ ';') ++ []) = _ :=
      trim_blanks before_blank (List.forall_mem_nil _)
    rw [List.append_nil] at front
    rw [front]

theorem mediaChars_parameters (cs params : List Char) :
    mediaChars (cs ++ ';' :: params) = mediaChars cs := by
  have cut : (';' :: params).takeWhile (· ≠ ';') = [] := List.takeWhile_cons_of_neg (by simp)
  rw [mediaChars, mediaChars, List.takeWhile_append, cut, List.append_nil]
  split
  · rename_i all
    rw [(List.takeWhile_prefix _).eq_of_length all]
  · rfl

/-- However a content type is spelled, its media type is the same. -/
theorem mediaChars_respelled {v v' : Bytes} (h : Respelled v v') :
    mediaChars (fieldChars v) = mediaChars (fieldChars v') := by
  induction h with
  | refl => rfl
  | symm _ ih => exact ih.symm
  | trans _ _ ih ih' => exact ih.trans ih'
  | letterCase same =>
    rw [← mediaChars_map_toLower, ← fieldChars_lower, same, fieldChars_lower,
      mediaChars_map_toLower]
  | blanks before v behind blank =>
    rw [fieldChars_append, fieldChars_append]
    refine mediaChars_blanks fun c hc => ?_
    rw [← fieldChars_append] at hc
    obtain ⟨b, hb, rfl⟩ := List.mem_map.mp hc
    obtain rfl | rfl := blank b hb <;> rfl
  | parameters v params =>
    rw [fieldChars_append]
    exact mediaChars_parameters _ (fieldChars params)

/-! ## Fields -/

/-- The content type that a request declares: the value of its first field of
this name. -/
def Request.declared? (q : Request) : Option Bytes :=
  (q.fields "content-type").head?.map (·.value)

/-- The content type that a request declares, if its field is readable. -/
def Request.readable? (q : Request) : Option Bytes :=
  q.declared?.filter (·.all Header.isReadable)

/-- What is read as the content type: an unreadable field counts as none. -/
theorem Request.contentType_eq (q : Request) :
    q.contentType = ((q.readable?.map fun v => String.ofList (fieldChars v))).getD "" := by
  rw [contentType, readable?, declared?]
  cases (q.fields "content-type").head? with
  | none => rfl
  | some h =>
    rw [Option.bind_some, Option.map_some, Option.filter_some, Header.text?]
    split <;> rfl

variable {q q' : Request} {field : Bytes}

theorem Request.contentType_of_readable (declared : q.declared? = some field)
    (readable : ∀ b ∈ field, Header.isReadable b = true) :
    q.contentType = String.ofList (fieldChars field) := by
  have shown : field.all Header.isReadable = true := List.all_eq_true.mpr readable
  rw [contentType_eq, readable?, declared, Option.filter_some, if_pos shown]
  rfl

theorem Request.contentType_of_unreadable (declared : q.declared? = some field)
    (unreadable : ∃ b ∈ field, Header.isReadable b = false) : q.contentType = "" := by
  have hidden : ¬ field.all Header.isReadable = true := by
    obtain ⟨b, hb, h⟩ := unreadable
    exact fun all => by simp [List.all_eq_true.mp all b hb] at h
  rw [contentType_eq, readable?, declared, Option.filter_some, if_neg hidden]
  rfl

theorem mediaKind_respelled (h : Option.Rel Respelled q.readable? q'.readable?) :
    MediaKind.ofContentType q.contentType = MediaKind.ofContentType q'.contentType := by
  rw [q.contentType_eq, q'.contentType_eq]
  generalize q.readable? = v at h
  generalize q'.readable? = v' at h
  cases h with
  | none => rfl
  | some h =>
    rw [Option.map_some, Option.map_some, Option.getD_some, Option.getD_some,
      MediaKind.ofContentType, MediaKind.ofContentType, mediaType_ofList, mediaType_ofList,
      mediaChars_respelled h]

/-! ## JSON -/

/-- A field that says JSON: in letters of either case it is `application/json`,
or it ends in `+json`.  Blanks may stand around it, and parameters may follow. -/
def SaysJson (field : Bytes) : Prop :=
  ∃ before media behind params : Bytes,
    field = before ++ media ++ behind ++ params ∧
    (∀ b ∈ before ++ behind, IsBlankOctet b) ∧
    59 ∉ media ∧
    (∀ b ∈ params.head?, b = 59) ∧
    (media.map lowerOctet = Utf8.encode "application/json" ∨
      Utf8.encode "+json" <:+ media.map lowerOctet)

/-- Blanks and parameters are a matter of spelling. -/
theorem respelled_media {before media behind params : Bytes}
    (blank : ∀ b ∈ before ++ behind, IsBlankOctet b) (semicolon : ∀ b ∈ params.head?, b = 59) :
    Respelled (before ++ media ++ behind ++ params) media := by
  have around : Respelled (before ++ media ++ behind) media := .blanks before media behind blank
  cases params with
  | nil => rwa [List.append_nil]
  | cons b params =>
    obtain rfl : b = 59 := semicolon b rfl
    exact .trans (.parameters _ params) around

/-- Of a field without parameters, the blanks are trimmed and the letters folded. -/
theorem mediaChars_plain {media : Bytes} (plain : 59 ∉ media) :
    mediaChars (fieldChars media) = trim (fieldChars (media.map lowerOctet)) := by
  have whole : (fieldChars media).takeWhile (· ≠ ';') = fieldChars media := by
    refine List.takeWhile_eq_self_iff.mpr fun c hc => decide_eq_true ?_
    rintro rfl
    exact not_mem_fieldChars plain hc
  rw [mediaChars, whole, fieldChars_lower, trim, trim, trimBy_map isBlank_toLower]

/-- A field that says JSON is taken at its word. -/
theorem SaysJson.kind {field : Bytes} (h : SaysJson field) :
    MediaKind.ofContentType (String.ofList (fieldChars field)) = .json := by
  obtain ⟨before, media, behind, params, rfl, blank, plain, semicolon, json⟩ := h
  have type : mediaChars (fieldChars (before ++ media ++ behind ++ params)) =
      trim (fieldChars (media.map lowerOctet)) :=
    (mediaChars_respelled (respelled_media blank semicolon)).trans (mediaChars_plain plain)
  have json : trim (fieldChars (media.map lowerOctet)) = "application/json".toList ∨
      "+json".toList <:+ trim (fieldChars (media.map lowerOctet)) := by
    obtain whole | ending := json
    · left
      rw [whole]
      decide +kernel
    · right
      have ending : "+json".toList <:+ fieldChars (media.map lowerOctet) := by
        have octets : fieldChars (Utf8.encode "+json") = "+json".toList := by decide +kernel
        rw [← octets]
        exact ending.map _
      exact suffix_trim (by simp [isBlank]) (by simp [isBlank]) ending
  generalize trim (fieldChars (media.map lowerOctet)) = cs at type json
  have json : (decide (String.ofList cs = "application/json") ||
      endsIn (String.ofList cs) "+json") = true := by
    have back : (String.ofList cs).toList = cs := String.toList_ofList
    rw [Bool.or_eq_true, decide_eq_true_eq, endsIn, List.isSuffixOf_iff_suffix, back]
    refine json.imp_left fun whole => ?_
    rw [whole]
    rfl
  rw [MediaKind.ofContentType, mediaType_ofList, type]
  simp only [json, if_true]

end Switchboard.Http
