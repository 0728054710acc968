import Switchboard.Proofs.BodyIntake

/-!
# Switchboard.Proofs.HeaderFields

What a handler is told of the header fields of its request.  Every name has its
readable values, in the order in which they arrived and with a comma and a blank
between them.  A value that is not readable is passed over, and no separator is
left in its place.

* `readableValues` — the readable values of a name, as octets;
* `Collected` — what has been collected so far, `Collected.add` for one more
  field, and `collected_headers` for all of them;
* `headers_told` — every list of fields.
-/

namespace Switchboard

/-- Maps that bind the same keys to the same values are equal. -/
theorem Dict.ext_get? {α : Type} {d e : Dict α} (same : ∀ key, d.get? key = e.get? key) :
    d = e := by
  have : Std.Irrefl fun a b : String × α => a.1 < b.1 := ⟨fun _ => String.lt_irrefl _⟩
  have : Std.Antisymm fun a b : String × α => a.1 < b.1 :=
    ⟨fun _ _ lt gt => absurd gt (String.lt_asymm lt)⟩
  refine Dict.ext (d.sorted.eq_of_mem_iff e.sorted fun p => ?_)
  rw [← d.get?_eq_some_iff, same, e.get?_eq_some_iff]

/-- The octets of joined texts are their joined octets. -/
theorem Utf8.encode_intercalate (s : String) (texts : List String) :
    encode (s.intercalate texts) = (encode s).intercalate (texts.map encode) := by
  induction texts with
  | nil => simp [encode_eq]
  | cons t ts ih =>
    cases ts with
    | nil => simp
    | cons u us =>
      rw [String.intercalate_cons_cons, encode_eq, String.toList_append, String.toList_append,
        octets_append, octets_append, ← encode_eq (s.intercalate _), ih]
      simp [encode_eq, List.intercalate_cons_cons]

namespace Http

/-! ## Readable fields -/

namespace Header

/-- The text of octets that are all readable. -/
def asText (value : Bytes) : String := String.ofList (fieldChars value)

variable {h : Header} {value : Bytes}

theorem text?_of_readable (readable : h.value.all isReadable = true) :
    h.text? = some (asText h.value) := if_pos readable

theorem text?_of_unreadable (unreadable : h.value.all isReadable = false) : h.text? = none :=
  if_neg (by simp [unreadable])

/-- A readable value is an ASCII text. -/
theorem encode_asText (readable : value.all isReadable = true) :
    Utf8.encode (asText value) = value := by
  have ascii : ∀ b ∈ value, b.toNat < 128 := by
    intro b hb
    have := List.all_eq_true.mp readable b hb
    simp [isReadable, UInt8.le_iff_toNat_le, UInt8.lt_iff_toNat_lt, ← UInt8.toNat_inj] at this
    omega
  rw [Utf8.encode_eq, asText, String.toList_ofList, fieldChars, Utf8.octets_ascii, List.map_map]
  · refine (List.map_congr_left fun b hb => ?_).trans (List.map_id _)
    rw [Function.comp_apply, toNat_ofNat_octet]
    exact UInt8.ofNat_toNat
  · intro c hc
    obtain ⟨b, hb, rfl⟩ := List.mem_map.mp hc
    rw [toNat_ofNat_octet]
    exact ascii b hb

end Header

/-- The readable values of a name, in the order in which they arrived. -/
def readableValues (name : String) (headers : List Header) : List Bytes :=
  (headers.filter fun h => h.name = name ∧ h.value.all Header.isReadable).map (·.value)

variable {name : String} {headers headers' : List Header} {h : Header} {collected : Dict String}

theorem readableValues_append (name : String) (headers : List Header) (h : Header) :
    readableValues name (headers ++ [h]) =
      if h.name = name ∧ h.value.all Header.isReadable then readableValues name headers ++ [h.value]
      else readableValues name headers := by
  rw [readableValues, List.filter_append, List.map_append, List.filter_singleton]
  by_cases counts : h.name = name ∧ h.value.all Header.isReadable
  · rw [if_pos counts, decide_eq_true counts]
    rfl
  · rw [if_neg counts, decide_eq_false counts]
    exact List.append_nil _

theorem all_readable {v : Bytes} (hv : v ∈ readableValues name headers) :
    v.all Header.isReadable = true := by
  obtain ⟨h, hh, rfl⟩ := List.mem_map.mp hv
  exact (of_decide_eq_true (List.mem_filter.mp hh).2).2

theorem readableValues_ne_nil_iff :
    readableValues name headers ≠ [] ↔
      ∃ h ∈ headers, h.name = name ∧ h.value.all Header.isReadable = true := by
  rw [readableValues, ne_eq, List.map_eq_nil_iff, List.filter_eq_nil_iff]
  simp

/-! ## Collecting them -/

/-- Texts with a comma and a blank between them, if there are any. -/
def joined? (texts : List String) : Option String :=
  if texts = [] then none else some (", ".intercalate texts)

/-- One more text is put behind what is there. -/
theorem joined?_append (texts : List String) (text : String) :
    joined? (texts ++ [text]) = some ((joined? texts).elim text (· ++ ", " ++ text)) := by
  rw [joined?, joined?, if_neg (by simp)]
  by_cases first : texts = []
  · rw [if_pos first, first, List.nil_append, String.intercalate_singleton, Option.elim_none]
  · rw [if_neg first, String.intercalate_append_of_ne_nil first (List.cons_ne_nil _ _),
      String.intercalate_singleton, Option.elim_some]

/-- What is bound to each name are its readable values, joined. -/
def Collected (collected : Dict String) (headers : List Header) : Prop :=
  ∀ name, collected.get? name = joined? ((readableValues name headers).map Header.asText)

/-- One more field changes what is told of its own name, if it is readable. -/
theorem Collected.add (soFar : Collected collected headers) (h : Header) :
    Collected (addHeader collected h) (headers ++ [h]) := by
  intro name
  rw [readableValues_append]
  cases readable : h.value.all Header.isReadable with
  | false =>
    rw [addHeader, Header.text?_of_unreadable readable, if_neg (by simp)]
    exact soFar name
  | true =>
    rw [addHeader, Header.text?_of_readable readable]
    by_cases same : h.name = name
    · subst same
      rw [Dict.get?_insert_self, if_pos ⟨rfl, rfl⟩, List.map_append, List.map_singleton,
        joined?_append, ← soFar h.name]
      cases collected.get? h.name <;> rfl
    · rw [Dict.get?_insert_of_ne _ _ (Ne.symm same), if_neg fun counts => same counts.1]
      exact soFar name

theorem collected_headers (headers : List Header) : Collected (collectHeaders headers) headers := by
  have from_here : ∀ behind before collected, Collected collected before →
      Collected (behind.foldl addHeader collected) (before ++ behind) := by
    intro behind
    induction behind with
    | nil =>
      intro before collected soFar
      rwa [List.append_nil]
    | cons h behind ih =>
      intro before collected soFar
      rw [List.append_cons]
      exact ih _ _ (soFar.add h)
  exact from_here headers [] .empty fun _ => rfl

/-- What is told of a name has the octets of its readable values. -/
theorem Collected.octets (all : Collected collected headers) {text : String}
    (told : collected.get? name = some text) :
    Utf8.encode text = (Utf8.encode ", ").intercalate (readableValues name headers) := by
  have values : (readableValues name headers).map (Utf8.encode ∘ Header.asText) =
      readableValues name headers :=
    (List.map_congr_left fun v hv => Header.encode_asText (all_readable hv)).trans (List.map_id _)
  rw [all name, joined?] at told
  split at told
  · cases told
  · cases told
    rw [Utf8.encode_intercalate, List.map_map, values]

theorem Collected.contains_iff (all : Collected collected headers) :
    collected.contains name = true ↔ readableValues name headers ≠ [] := by
  rw [Dict.contains, all name, joined?]
  split <;> simp_all

/-- What a handler is given of a request that is not turned down. -/
theorem Parsing.requestSide_eq_ok {p : Parsing} {params : Dict String} {q : Request}
    {side : RequestSide} (taken : p.requestSide params q = .ok side) :
    side = {
      query := q.target.queryPairs
      params
      headers := collectHeaders q.headers
      cookies := if p.cookies then q.cookies else .empty
      body := side.body } := by
  rw [requestSide] at taken
  by_cases parsed : p.body = true
  · rw [if_pos parsed] at taken
    cases read : readBody q.body >>= parseBody q.contentType with
    | error rejection =>
      rw [read] at taken
      cases taken
    | ok body =>
      rw [read] at taken
      cases taken
      rfl
  · rw [if_neg parsed] at taken
    cases taken
    rfl

/-- A map tells of header fields without loss and without mixing. -/
structure Tells (headers : List Header) (told : Dict String) : Prop where
  /-- A name is told if it has a readable value, -/
  names (name : String) : told.contains name = true ↔
    ∃ h ∈ headers, h.name = name ∧ h.value.all Header.isReadable = true
  /-- and then with all of its readable values, in the order of their arrival. -/
  values (name text : String) : told.get? name = some text →
    Utf8.encode text = (Utf8.encode ", ").intercalate (readableValues name headers)
  /-- A value that is alone is told as it is. -/
  single (name : String) (value : Bytes) : readableValues name headers = [value] →
    ∃ text, told.get? name = some text ∧ Utf8.encode text = value

theorem Collected.tells (all : Collected collected headers) : Tells headers collected where
  names _ := all.contains_iff.trans readableValues_ne_nil_iff
  values _ _ := all.octets
  single name value only := by
    obtain ⟨text, told⟩ := Option.isSome_iff_exists.mp
      (all.contains_iff.mpr (by rw [only]; exact List.cons_ne_nil _ _))
    refine ⟨text, told, ?_⟩
    rw [all.octets told, only, List.intercalate_singleton]

/-- The header fields of a request are told name by name, all readable values in
the order of their arrival.  Values that are not readable leave nothing behind, and
what is told of a name depends on its own readable values only. -/
theorem headers_told (headers : List Header) :
    Tells headers (collectHeaders headers) ∧
    collectHeaders (headers.filter (·.value.all Header.isReadable)) = collectHeaders headers ∧
    (∀ headers' name, readableValues name headers' = readableValues name headers →
      (collectHeaders headers').get? name = (collectHeaders headers).get? name) ∧
    ∀ (p : Parsing) params (q : Request) side, q.headers = headers →
      p.requestSide params q = .ok side → side.headers = collectHeaders headers := by
  have alone : ∀ headers' name, readableValues name headers' = readableValues name headers →
      (collectHeaders headers').get? name = (collectHeaders headers).get? name := by
    intro headers' name same
    rw [collected_headers headers' name, collected_headers headers name, same]
  refine ⟨(collected_headers headers).tells, ?_, alone, ?_⟩
  · refine Dict.ext_get? fun name => alone _ name ?_
    rw [readableValues, List.filter_filter]
    exact congrArg _ (List.filter_congr fun h _ => by grind)
  · intro p params q side same taken
    rw [Parsing.requestSide_eq_ok taken, same]

/-- The first and the third value of a name are not readable, and another name
stands between the others. -/
theorem headers_told_between :
    let headers : List Header := [⟨"a", [200]⟩, ⟨"a", [49]⟩, ⟨"b", [50]⟩, ⟨"a", [10]⟩, ⟨"a", []⟩]
    let told := collectHeaders headers
    told.contains "c" = false ∧ (∃ text, told.get? "b" = some text ∧ Utf8.encode text = [50]) ∧
      (∀ text, told.get? "a" = some text → Utf8.encode text = [49, 44, 32]) ∧
      told.contains "a" = true ∧
      (collectHeaders [⟨"a", [49]⟩, ⟨"a", []⟩]).get? "a" = told.get? "a" := by
  intro headers told
  obtain ⟨tells, -, alone, -⟩ := headers_told headers
  refine ⟨?_, tells.single "b" [50] (by decide),
    fun text h => (tells.values "a" text h).trans (by decide),
    (tells.names "a").mpr ⟨⟨"a", [49]⟩, by simp [headers], rfl, by decide⟩, alone _ "a" (by decide)⟩
  rw [← Bool.not_eq_true, tells.names]
  simp [headers]

end Http

end Switchboard
