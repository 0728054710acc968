import Switchboard.Proofs.HeaderFields

/-!
# Switchboard.Proofs.CookieFields

What a handler is told of the cookies of its request.  The fields are read one
by one, and a later one counts more than an earlier one; so reading turns lists
of fields into unions of maps.  A semicolon inside a field does what the end of
the field does.

* `Dict.union` — one map over another;
* `Trimmed` — what is left of a text without the characters at its ends;
* `Says` — the pair that a text says, and `cookiePair?_eq_some_iff`, that it is
  the one that is read;
* `IsCookieName`, `IsCookieValue` — what can come of a pair, however it is
  written;
* `cookiesOf` — the cookies of some fields, and `cookies_eq`, that they are
  those of a request;
* `cookies_told` — every list of readable fields.
-/

namespace Switchboard

/-! ## One map over another -/

namespace Dict

variable {α : Type}

/-- Two maps in one: where both bind a key, the second one counts. -/
def union (d e : Dict α) : Dict α := d.insertAll e.entries

theorem get?_union (d e : Dict α) (key : String) :
    (d.union e).get? key = (e.get? key).or (d.get? key) := by
  have bound : e.get? key = (e.entries.filter (·.1 = key)).getLast?.map (·.2) := by
    rw [← get?_ofList, ofList_entries]
  rw [union, get?_insertAll, bound]

/-- What is bound later is bound over what is bound before. -/
theorem ofList_append (xs ys : List (String × α)) :
    ofList (xs ++ ys) = (ofList xs).union (ofList ys) := by
  refine ext_get? fun key => ?_
  rw [get?_union, get?_ofList ys, ofList, insertAll_append, get?_insertAll]
  rfl

theorem mem_of_get?_ofList {pairs : List (String × α)} {key : String} {value : α}
    (bound : (ofList pairs).get? key = some value) : (key, value) ∈ pairs := by
  rw [get?_ofList, Option.map_eq_some_iff] at bound
  obtain ⟨p, last, rfl⟩ := bound
  obtain ⟨there, same⟩ := List.mem_filter.mp (List.mem_of_getLast? last)
  rw [← of_decide_eq_true same]
  exact there

end Dict

namespace Http

/-! ## Trimming -/

section Trimming

variable {p : Char → Bool} {cs ds : List Char} {c : Char}

/-- What is left of a text when certain characters are taken away from its
ends. -/
structure Trimmed (p : Char → Bool) (cs ds : List Char) : Prop where
  around : ∃ before behind, cs = before ++ (ds ++ behind) ∧ ∀ c ∈ before ++ behind, p c = true
  ends : ∀ c, c ∈ ds.head? ∨ c ∈ ds.getLast? → p c = false

theorem Trimmed.mem (h : Trimmed p cs ds) (hc : c ∈ ds) : c ∈ cs := by
  obtain ⟨before, behind, rfl, -⟩ := h.around
  exact List.mem_append_right _ (List.mem_append_left _ hc)

/-- More of the same at the ends makes no difference. -/
theorem Trimmed.extend (h : Trimmed p cs ds) {before behind : List Char}
    (gone : ∀ c ∈ before ++ behind, p c = true) : Trimmed p (before ++ (cs ++ behind)) ds := by
  obtain ⟨front, back, rfl, all⟩ := h.around
  refine ⟨⟨before ++ front, back ++ behind, by simp, fun c hc => ?_⟩, h.ends⟩
  simp only [List.mem_append] at hc gone all
  obtain (hc | hc) | hc | hc := hc
  · exact gone c (.inl hc)
  · exact all c (.inl hc)
  · exact all c (.inr hc)
  · exact gone c (.inr hc)

theorem not_of_head?_dropWhile (first : (cs.dropWhile p).head? = some c) : p c = false := by
  have stopped := List.head?_dropWhile_not p cs
  rwa [first] at stopped

/-- A text is what is taken away in front, what is left, and what is taken away
behind. -/
theorem trimmed_trimBy (p : Char → Bool) (cs : List Char) : Trimmed p cs (trimBy p cs) := by
  have back : trimBy p cs ++ ((cs.dropWhile p).reverse.takeWhile p).reverse = cs.dropWhile p := by
    rw [trimBy, ← List.reverse_append, List.takeWhile_append_dropWhile, List.reverse_reverse]
  constructor
  · refine ⟨cs.takeWhile p, ((cs.dropWhile p).reverse.takeWhile p).reverse, ?_, fun c hc => ?_⟩
    · rw [back, List.takeWhile_append_dropWhile]
    · rw [List.mem_append, List.mem_reverse] at hc
      exact hc.elim List.mem_takeWhile_imp List.mem_takeWhile_imp
  · rintro c (first | last)
    · have same : (cs.dropWhile p).head? = some c := by
        rw [← back, List.head?_append, Option.mem_def.mp first, Option.some_or]
      exact not_of_head?_dropWhile same
    · rw [trimBy, List.getLast?_reverse] at last
      exact not_of_head?_dropWhile last

theorem trimBy_eq_iff : trimBy p cs = ds ↔ Trimmed p cs ds := by
  constructor
  · rintro rfl
    exact trimmed_trimBy p cs
  · intro h
    obtain ⟨before, behind, rfl, all⟩ := h.around
    obtain ⟨front, back⟩ := List.forall_mem_append.mp all
    have back : ∀ c ∈ behind.reverse, p c = true := fun c hc => back c (List.mem_reverse.mp hc)
    cases ds with
    | nil =>
      have nothing : (before ++ ([] ++ behind)).dropWhile p = [] :=
        List.dropWhile_eq_nil_iff.mpr (by simpa using all)
      rw [trimBy, nothing]
      rfl
    | cons d ds =>
      have first : ∀ c ∈ (d :: ds ++ behind).head?, p c = false := by
        rintro c ⟨⟩
        exact h.ends d (.inl rfl)
      have last : ∀ c ∈ (d :: ds).reverse.head?, p c = false := by
        intro c hc
        rw [List.head?_reverse] at hc
        exact h.ends c (.inr hc)
      rw [trimBy, dropWhile_between front first, List.reverse_append,
        dropWhile_between back last, List.reverse_reverse]

end Trimming

/-! ## Pairs -/

variable {cs : List Char} {name value : String}

/-- A text says that a cookie has a value: the name stands in front of the first
equals sign and the value behind it, with blanks around both of them, and with
quotes around the value. -/
structure Says (cs : List Char) (name value : String) : Prop where
  named : name ≠ ""
  sides : ∃ front back quoted, cs = front ++ '=' :: back ∧ '=' ∉ front ∧
    Trimmed isBlank front name.toList ∧ Trimmed isBlank back quoted ∧
    Trimmed isQuote quoted value.toList

theorem not_blank_equals {before : List Char} (blank : ∀ c ∈ before, isBlank c = true) :
    '=' ∉ before :=
  fun h => absurd (blank _ h) (by decide)

/-- A text has at most one front, without an equals sign, in front of one. -/
theorem equals_unique {front front' back back' : List Char} (apart : '=' ∉ front)
    (apart' : '=' ∉ front') (same : front ++ '=' :: back = front' ++ '=' :: back') :
    front = front' ∧ back = back' := by
  have fronts := congrArg (List.takeWhile (· ≠ '=')) same
  have backs := congrArg (List.dropWhile (· ≠ '=')) same
  rw [takeWhile_until apart (by simp), takeWhile_until apart' (by simp)] at fronts
  rw [dropWhile_until apart (by simp), dropWhile_until apart' (by simp)] at backs
  exact ⟨fronts, (List.cons.inj backs).2⟩

/-- A text with an equals sign is cut at the first one, and both sides are
trimmed. -/
theorem cookiePair?_sides {front back : List Char} (apart : '=' ∉ front) :
    cookiePair? (front ++ '=' :: back) =
      if trim front = [] then none
      else some (String.ofList (trim front), String.ofList (trimBy isQuote (trim back))) := by
  obtain ⟨before, behind, parts, blank⟩ := (trimmed_trimBy isBlank (front ++ '=' :: back)).around
  obtain ⟨before_blank, behind_blank⟩ := List.forall_mem_append.mp blank
  -- The equals sign is not blank, so trimming the whole leaves it where it is.
  have there : '=' ∈ trim (front ++ '=' :: back) := by
    have h : '=' ∈ before ++ (trim (front ++ '=' :: back) ++ behind) := by
      rw [trim, ← parts]
      simp
    rw [List.mem_append, List.mem_append] at h
    exact (h.resolve_left (not_blank_equals before_blank)).resolve_right
      (not_blank_equals behind_blank)
  obtain ⟨front', back', cut, apart'⟩ := List.eq_append_cons_of_mem there
  have whole : front ++ '=' :: back = before ++ front' ++ '=' :: (back' ++ behind) := by
    rw [parts, ← trim, cut]
    simp
  have apart'' : '=' ∉ before ++ front' := by
    rw [List.mem_append, not_or]
    exact ⟨not_blank_equals before_blank, apart'⟩
  obtain ⟨fronts, backs⟩ := equals_unique apart apart'' whole
  have left : trim front = trim front' := by
    have h := (trimmed_trimBy isBlank front').extend (List.forall_mem_append.mpr
      ⟨before_blank, List.forall_mem_nil _⟩)
    rw [List.append_nil, ← fronts] at h
    exact trimBy_eq_iff.mpr h
  have right : trim back = trim back' := by
    have h := (trimmed_trimBy isBlank back').extend (List.forall_mem_append.mpr
      ⟨List.forall_mem_nil _, behind_blank⟩)
    rw [List.nil_append, ← backs] at h
    exact trimBy_eq_iff.mpr h
  rw [cookiePair?, cut, dropWhile_until apart' (by simp), takeWhile_until apart' (by simp), left,
    right]
  simp only [List.isEmpty_iff]

theorem cookiePair?_of_not_mem (absent : '=' ∉ cs) : cookiePair? cs = none := by
  have nothing : (trim cs).dropWhile (· ≠ '=') = [] := by
    rw [List.dropWhile_eq_nil_iff]
    intro c hc
    exact decide_eq_true (ne_of_mem_of_not_mem ((trimmed_trimBy isBlank cs).mem hc) absent)
  rw [cookiePair?, nothing]

/-- A text is read as the pair that it says, and as none if it says none. -/
theorem cookiePair?_eq_some_iff : cookiePair? cs = some (name, value) ↔ Says cs name value := by
  constructor
  · intro h
    by_cases there : '=' ∈ cs
    · obtain ⟨front, back, rfl, apart⟩ := List.eq_append_cons_of_mem there
      rw [cookiePair?_sides apart] at h
      split at h
      · cases h
      · rename_i nonempty
        cases h
        refine ⟨?_, front, back, trim back, rfl, apart, ?_, trimmed_trimBy _ _, ?_⟩
        · rwa [ne_eq, ← String.toList_eq_nil_iff, String.toList_ofList]
        · rw [String.toList_ofList]
          exact trimmed_trimBy _ _
        · rw [String.toList_ofList]
          exact trimmed_trimBy _ _
    · rw [cookiePair?_of_not_mem there] at h
      cases h
  · rintro ⟨named, front, back, quoted, rfl, apart, left, right, inner⟩
    rw [cookiePair?_sides apart, trim, trim, trimBy_eq_iff.mpr left, trimBy_eq_iff.mpr right,
      trimBy_eq_iff.mpr inner, if_neg (fun h => named (String.toList_eq_nil_iff.mp h)),
      String.ofList_toList, String.ofList_toList]

/-! ## Names and values -/

/-- A character that is printed and is not blank. -/
def IsVisible (c : Char) : Prop := 32 < c.toNat ∧ c.toNat < 127

/-- What the name of a cookie can be. -/
structure IsCookieName (name : String) : Prop where
  nonempty : name ≠ ""
  plain : ∀ c ∈ name.toList, c ≠ ';' ∧ c ≠ '='
  trimmed : ∀ c, c ∈ name.toList.head? ∨ c ∈ name.toList.getLast? → IsVisible c

/-- What the value of a cookie can be. -/
structure IsCookieValue (value : String) : Prop where
  plain : ∀ c ∈ value.toList, c ≠ ';'
  unquoted : ∀ c, c ∈ value.toList.head? ∨ c ∈ value.toList.getLast? → isQuote c = false

/-- A character of a readable field. -/
def IsReadableChar (c : Char) : Prop := 32 ≤ c.toNat ∧ c.toNat < 127 ∨ c = '\t'

theorem IsReadableChar.visible {c : Char} (h : IsReadableChar c) (unblank : isBlank c = false) :
    IsVisible c := by
  simp only [isBlank, Bool.or_eq_false_iff, decide_eq_false_iff_not] at unblank
  obtain ⟨low, high⟩ | tab := h
  · refine ⟨Nat.lt_of_le_of_ne low fun space => unblank.1 ?_, high⟩
    rw [← Char.ofNat_toNat c, ← space]
  · exact absurd tab unblank.2

/-- What is said by a text that is readable and has no semicolon. -/
theorem Says.wellFormed (h : Says cs name value) (readable : ∀ c ∈ cs, IsReadableChar c)
    (plain : ';' ∉ cs) : IsCookieName name ∧ IsCookieValue value := by
  obtain ⟨front, back, quoted, rfl, apart, left, right, inner⟩ := h.sides
  have from_front {c : Char} (hc : c ∈ name.toList) : c ∈ front ++ '=' :: back :=
    List.mem_append_left _ (left.mem hc)
  have from_back {c : Char} (hc : c ∈ value.toList) : c ∈ front ++ '=' :: back :=
    List.mem_append_right _ (List.mem_cons_of_mem _ (right.mem (inner.mem hc)))
  refine ⟨⟨h.named, fun c hc => ⟨?_, ?_⟩, fun c hc => ?_⟩, ⟨fun c hc => ?_, inner.ends⟩⟩
  · exact ne_of_mem_of_not_mem (from_front hc) plain
  · exact ne_of_mem_of_not_mem (left.mem hc) apart
  · have there : c ∈ name.toList := hc.elim List.mem_of_mem_head? List.mem_of_mem_getLast?
    exact (readable c (from_front there)).visible (left.ends c hc)
  · exact ne_of_mem_of_not_mem (from_back hc) plain

/-! ## Fields -/

variable {v w : Bytes} {values : List Bytes}

theorem isReadableChar_fieldChars (readable : v.all Header.isReadable = true) {c : Char}
    (hc : c ∈ fieldChars v) : IsReadableChar c := by
  obtain ⟨b, hb, rfl⟩ := List.mem_map.mp hc
  have := List.all_eq_true.mp readable b hb
  simp only [Header.isReadable, Bool.or_eq_true, Bool.and_eq_true, decide_eq_true_eq] at this
  obtain ⟨low, high⟩ | rfl := this
  · rw [UInt8.le_iff_toNat_le] at low
    rw [UInt8.lt_iff_toNat_lt] at high
    exact .inl (by rw [Header.toNat_ofNat_octet]; exact ⟨low, high⟩)
  · exact .inr rfl

/-- A piece between two separators has characters of the whole, and no
separator. -/
theorem mem_of_mem_splitOn {d c : Char} {cs piece : List Char} (h : piece ∈ cs.splitOn d)
    (hc : c ∈ piece) : c ∈ cs ∧ c ≠ d := by
  induction cs generalizing piece with
  | nil =>
    rw [List.splitOn_nil, List.mem_singleton] at h
    rw [h] at hc
    cases hc
  | cons e cs ih =>
    rw [List.splitOn_cons_eq_if_modifyHead] at h
    have later {piece : List Char} (h : piece ∈ cs.splitOn d) (hc : c ∈ piece) :
        c ∈ e :: cs ∧ c ≠ d := (ih h hc).imp_left (List.mem_cons_of_mem e)
    split at h
    · cases h with
      | head => cases hc
      | tail _ h => exact later h hc
    · rename_i other
      obtain ⟨first, rest, parts⟩ := List.exists_cons_of_ne_nil (List.splitOn_ne_nil d cs)
      rw [parts] at later
      rw [parts, List.modifyHead_cons] at h
      cases h with
      | head =>
        cases hc with
        | head => exact ⟨List.mem_cons_self, fun same => other (beq_iff_eq.mpr same)⟩
        | tail _ hc => exact later List.mem_cons_self hc
      | tail _ h => exact later (List.mem_cons_of_mem _ h) hc

/-- The pairs of a readable field are well formed, however the field is written. -/
theorem cookiePairs_wellFormed (readable : v.all Header.isReadable = true)
    (h : (name, value) ∈ cookiePairs (Header.asText v)) :
    IsCookieName name ∧ IsCookieValue value := by
  rw [cookiePairs, Header.asText, String.toList_ofList, List.mem_filterMap] at h
  obtain ⟨piece, there, pair⟩ := h
  exact (cookiePair?_eq_some_iff.mp pair).wellFormed
    (fun c hc => isReadableChar_fieldChars readable (mem_of_mem_splitOn there hc).1)
    fun hc => (mem_of_mem_splitOn there hc).2 rfl

/-- A semicolon does what the end of a field does. -/
theorem cookiePairs_semicolon (v w : Bytes) :
    cookiePairs (Header.asText (v ++ 59 :: w)) =
      cookiePairs (Header.asText v) ++ cookiePairs (Header.asText w) := by
  have chars : fieldChars (v ++ 59 :: w) = fieldChars v ++ ';' :: fieldChars w :=
    fieldChars_append v (59 :: w)
  simp only [cookiePairs, Header.asText, String.toList_ofList, chars, List.splitOn_append_cons_self,
    List.filterMap_append]

theorem cookiePairs_joined (values : List Bytes) :
    cookiePairs (Header.asText ([59].intercalate values)) =
      values.flatMap fun v => cookiePairs (Header.asText v) := by
  induction values with
  | nil => rfl
  | cons v values ih =>
    cases values with
    | nil => rw [List.intercalate_singleton, List.flatMap_singleton]
    | cons w values =>
      rw [List.intercalate_cons_cons, List.append_assoc, List.singleton_append,
        cookiePairs_semicolon, ih]
      rfl

/-! ## Cookies -/

/-- The cookies of fields with these values. -/
def cookiesOf (values : List Bytes) : Dict String :=
  readCookies (values.filterMap fun v => Header.text? ⟨"cookie", v⟩)

theorem Request.cookies_eq (q : Request) :
    q.cookies = cookiesOf ((q.fields "cookie").map (·.value)) := by
  rw [cookies, cookiesOf, List.filterMap_map]
  rfl

/-- The pairs of all fields, one field behind another. -/
theorem cookiesOf_readable (readable : ∀ v ∈ values, v.all Header.isReadable = true) :
    cookiesOf values = .ofList (values.flatMap fun v => cookiePairs (Header.asText v)) := by
  have texts :
      values.filterMap (fun v => Header.text? ⟨"cookie", v⟩) = values.map Header.asText := by
    rw [← List.filterMap_eq_map']
    exact List.filterMap_congr fun v hv => Header.text?_of_readable (readable v hv)
  rw [cookiesOf, texts, readCookies, List.flatMap_map]

/-- A readable field without semicolons is at most one pair. -/
theorem cookiesOf_single (readable : v.all Header.isReadable = true) (plain : 59 ∉ v) :
    cookiesOf [v] = .ofList (cookiePair? (fieldChars v)).toList := by
  rw [cookiesOf_readable (by simpa using readable), List.flatMap_singleton, cookiePairs,
    Header.asText, String.toList_ofList, List.splitOn_eq_singleton (not_mem_fieldChars plain)]
  cases h : cookiePair? (fieldChars v) <;> simp [h]

theorem cookiesOf_append (us vs : List Bytes) :
    cookiesOf (us ++ vs) = (cookiesOf us).union (cookiesOf vs) := by
  rw [cookiesOf, readCookies, List.filterMap_append, List.flatMap_append, Dict.ofList_append]
  rfl

/-- The cookies of fields are those of each field alone, one over another. -/
theorem cookiesOf_foldl (values : List Bytes) :
    cookiesOf values = (values.map fun v => cookiesOf [v]).foldl Dict.union .empty := by
  induction values using List.reverseRec with
  | nil => rfl
  | append_singleton values v ih =>
    rw [cookiesOf_append, ih, List.map_append, List.foldl_append]
    rfl

/-- A field that holds several ones, with semicolons between them, is readable if
they are. -/
theorem readable_joined (readable : ∀ v ∈ values, v.all Header.isReadable = true) :
    ([59].intercalate values).all Header.isReadable = true := by
  induction values with
  | nil => rfl
  | cons v values ih =>
    rw [List.forall_mem_cons] at readable
    cases values with
    | nil => rw [List.intercalate_singleton]; exact readable.1
    | cons w values =>
      rw [List.intercalate_cons_cons, List.all_append, List.all_append, readable.1,
        ih readable.2]
      rfl

theorem cookiesOf_joined (readable : ∀ v ∈ values, v.all Header.isReadable = true) :
    cookiesOf [[59].intercalate values] = cookiesOf values := by
  rw [cookiesOf_readable readable, cookiesOf_readable (by simpa using readable_joined readable),
    List.flatMap_singleton, cookiePairs_joined]

/-- A field that is cut at a semicolon is two fields. -/
theorem cookiesOf_cut {before behind : List Bytes}
    (readable : ∀ u ∈ before ++ (v ++ 59 :: w) :: behind, u.all Header.isReadable = true) :
    cookiesOf (before ++ v :: w :: behind) = cookiesOf (before ++ (v ++ 59 :: w) :: behind) := by
  have whole : (v ++ 59 :: w).all Header.isReadable = true := readable _ (by simp)
  rw [List.all_append, List.all_cons, Bool.and_eq_true, Bool.and_eq_true] at whole
  have pieces : ∀ u ∈ before ++ v :: w :: behind, u.all Header.isReadable = true := by
    intro u hu
    simp only [List.mem_append, List.mem_cons] at hu readable
    obtain hu | rfl | rfl | hu := hu
    · exact readable u (.inl hu)
    · exact whole.1
    · exact whole.2.2
    · exact readable u (.inr (.inr hu))
  rw [cookiesOf_readable pieces, cookiesOf_readable readable]
  simp only [List.flatMap_append, List.flatMap_cons, cookiePairs_semicolon, List.append_assoc]

theorem get?_cookiesOf_single (readable : v.all Header.isReadable = true) (plain : 59 ∉ v) :
    (cookiesOf [v]).get? name = some value ↔ Says (fieldChars v) name value := by
  rw [cookiesOf_single readable plain, ← cookiePair?_eq_some_iff, Dict.get?_ofList]
  cases cookiePair? (fieldChars v) with
  | none => simp
  | some pair => by_cases same : pair.1 = name <;> simp [same, Prod.ext_iff]

theorem cookiesOf_wellFormed (readable : ∀ v ∈ values, v.all Header.isReadable = true)
    (told : (cookiesOf values).get? name = some value) :
    IsCookieName name ∧ IsCookieValue value := by
  rw [cookiesOf_readable readable] at told
  obtain ⟨v, hv, pair⟩ := List.mem_flatMap.mp (Dict.mem_of_get?_ofList told)
  exact cookiePairs_wellFormed (readable v hv) pair

/-- How cookies are told to a handler. -/
structure TellsCookies (values : List Bytes) : Prop where
  /-- Two lists of fields have the cookies of both, those of the second one over
  those of the first one, -/
  append (us vs : List Bytes) : values = us ++ vs →
    cookiesOf values = (cookiesOf us).union (cookiesOf vs)
  /-- down to the cookies of each field alone. -/
  alone : cookiesOf values = (values.map fun v => cookiesOf [v]).foldl Dict.union .empty
  /-- One field may hold them all, with semicolons between them, -/
  joined : cookiesOf [[59].intercalate values] = cookiesOf values
  /-- and each field may be two fields, cut at any of its semicolons. -/
  cut (before : List Bytes) (v w : Bytes) (behind : List Bytes) :
    values = before ++ (v ++ 59 :: w) :: behind →
      cookiesOf (before ++ v :: w :: behind) = cookiesOf values
  /-- A field without semicolons has the cookie that it says, and no others. -/
  single (v : Bytes) : values = [v] → 59 ∉ v → ∀ name value : String,
    (cookiesOf values).get? name = some value ↔ Says (fieldChars v) name value
  wellFormed (name value : String) : (cookiesOf values).get? name = some value →
    IsCookieName name ∧ IsCookieValue value

theorem tellsCookies (readable : ∀ v ∈ values, v.all Header.isReadable = true) :
    TellsCookies values where
  append us vs parts := by rw [parts, cookiesOf_append]
  alone := cookiesOf_foldl values
  joined := cookiesOf_joined readable
  cut before v w behind parts := by
    subst parts
    exact cookiesOf_cut readable
  single v only plain name value := by
    subst only
    exact get?_cookiesOf_single (readable v List.mem_cons_self) plain
  wellFormed _ _ := cookiesOf_wellFormed readable

/-- The cookies of a request whose cookie fields are readable, well formed or not,
are told field by field, and where fields end and semicolons begin makes no
difference.  Whatever the fields are, names and values are clean. -/
theorem cookies_told (readable : ∀ v ∈ values, v.all Header.isReadable = true) :
    TellsCookies values ∧
    ∀ (p : Parsing) params (q : Request) side, (q.fields "cookie").map (·.value) = values →
      p.requestSide params q = .ok side →
      side.cookies = if p.cookies then cookiesOf values else .empty := by
  refine ⟨tellsCookies readable, ?_⟩
  intro p params q side same taken
  rw [Parsing.requestSide_eq_ok taken, q.cookies_eq, same]

/-- Two fields with an empty pair, a pair without a name, one without an equals
sign, a value with an equals sign in it, and a name that comes twice; and a field
with quotes. -/
theorem cookies_told_malformed :
    let first := Utf8.encode "a=1;;=x; b"
    let second := Utf8.encode " b = c=d\t;a=2"
    let quoted := Utf8.encode " b = \" c=d\"\t"
    let told := cookiesOf [first, second]
    let q : Request := { headers := [⟨"cookie", first⟩, ⟨"accept", [200]⟩, ⟨"cookie", second⟩] }
    told = (cookiesOf [first]).union (cookiesOf [second]) ∧
      cookiesOf [first ++ [59] ++ second] = told ∧
      cookiesOf [Utf8.encode "a=1;", Utf8.encode "=x; b", second] = told ∧
      told.get? "a" = some "2" ∧ IsCookieName "b" ∧ IsCookieValue "c=d" ∧
      Says (fieldChars quoted) "b" " c=d" ∧
      ∃ side, ({} : Parsing).requestSide .empty q = .ok side ∧ side.cookies = told := by
  intro first second quoted told q
  have readable : ∀ v ∈ [first, second], v.all Header.isReadable = true := by decide +kernel
  have quotes : ∀ v ∈ [quoted], v.all Header.isReadable = true := by decide +kernel
  obtain ⟨tells, given⟩ := cookies_told readable
  have b : told.get? "b" = some "c=d" := by decide +kernel
  obtain ⟨name, value⟩ := tells.wellFormed "b" "c=d" b
  exact ⟨tells.append [first] [second] rfl, tells.joined,
    tells.cut [] (Utf8.encode "a=1;") (Utf8.encode "=x; b") [second] (by decide +kernel),
    by decide +kernel, name, value,
    ((cookies_told quotes).1.single quoted rfl (by decide +kernel) "b" " c=d").mp
      (by decide +kernel), _, rfl, given {} .empty q _ rfl rfl⟩

end Http

end Switchboard
