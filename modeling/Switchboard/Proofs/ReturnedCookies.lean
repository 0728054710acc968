import Mathlib.Data.List.Basic
import Switchboard.Http.Intake
import Switchboard.Proofs.SetCookie

/-!
# Switchboard.Proofs.ReturnedCookies

Cookies that a server sets come back unchanged.  A client keeps what stands in
front of the first semicolon of a `Set-Cookie` value and sends such pairs back,
several to a header or not, in any order.  The texts that cookies are written
from hold nothing that the reading side would cut, trim or unquote.
-/

namespace Switchboard

/-! ## Maps from distinct keys -/

namespace Dict

variable {α : Type}

/-- Pairs with distinct keys are all kept. -/
theorem get?_insertAll_of_nodup {pairs : List (String × α)} (h : (pairs.map (·.1)).Nodup)
    (d : Dict α) (key : String) (value : α) :
    (d.insertAll pairs).get? key = some value ↔
      (key, value) ∈ pairs ∨ key ∉ pairs.map (·.1) ∧ d.get? key = some value := by
  induction pairs generalizing d with
  | nil => simp
  | cons p pairs ih =>
    obtain ⟨k, v⟩ := p
    rw [List.map_cons, List.nodup_cons] at h
    rw [insertAll_cons, ih h.2, get?_insert, List.mem_cons, Prod.mk.injEq, List.map_cons,
      List.mem_cons]
    by_cases hk : key = k
    · cases hk
      have fresh : (key, value) ∉ pairs := fun hm => h.1 (List.mem_map.mpr ⟨_, hm, rfl⟩)
      simp [h.1, fresh, eq_comm]
    · simp [hk]

theorem get?_ofList_of_nodup {pairs : List (String × α)} (h : (pairs.map (·.1)).Nodup)
    (key : String) (value : α) :
    (ofList pairs).get? key = some value ↔ (key, value) ∈ pairs := by
  rw [ofList, get?_insertAll_of_nodup h]
  simp

end Dict

namespace Http

/-! ## Reading one pair -/

/-- Where nothing is left out, a text stays as it is. -/
theorem trimBy_eq_self {p : Char → Bool} {cs : List Char} (h : ∀ c ∈ cs, p c = false) :
    trimBy p cs = cs := by
  have keep : ∀ ds : List Char, (∀ c ∈ ds, p c = false) → ds.dropWhile p = ds := by
    intro ds hd
    cases ds with
    | nil => rfl
    | cons d ds => rw [List.dropWhile_cons_of_neg (by simp [hd d List.mem_cons_self])]
  rw [trimBy, keep cs h, keep cs.reverse (fun c hc => h c (List.mem_reverse.mp hc)),
    List.reverse_reverse]

/-- A blank in front of a pair makes no difference. -/
theorem cookiePair?_blank (cs : List Char) : cookiePair? (' ' :: cs) = cookiePair? cs := rfl

/-- The two sides of an equals sign, neither of which has a blank. -/
theorem cookiePair?_pair {name value : String} (hne : name ≠ "")
    (hname : ∀ c ∈ name.toList, isBlank c = false ∧ c ≠ '=')
    (hvalue : ∀ c ∈ value.toList, isBlank c = false ∧ isQuote c = false) :
    cookiePair? (name.toList ++ '=' :: value.toList) = some (name, value) := by
  have blank : ∀ c ∈ name.toList ++ '=' :: value.toList, isBlank c = false := by
    intro c hc
    rw [List.mem_append, List.mem_cons] at hc
    obtain hc | rfl | hc := hc
    · exact (hname c hc).1
    · decide
    · exact (hvalue c hc).1
  have equals : '=' ∉ name.toList := fun h => (hname _ h).2 rfl
  have nonempty : name.toList.isEmpty = false := by
    cases h : name.toList with
    | nil => exact absurd (String.toList_eq_nil_iff.mp h) hne
    | cons => rfl
  rw [cookiePair?, trim, trimBy_eq_self blank, dropWhile_until equals (by simp),
    takeWhile_until equals (by simp)]
  simp only [trim, trimBy_eq_self fun c hc => (hname c hc).1, nonempty,
    trimBy_eq_self fun c hc => (hvalue c hc).1, trimBy_eq_self fun c hc => (hvalue c hc).2,
    String.ofList_toList, Bool.false_eq_true, if_false]

/-! ## Reading the headers -/

/-- Texts without semicolons that are joined in one header are read one by one. -/
theorem cookiePairs_join {texts : List String} (h : ∀ t ∈ texts, ';' ∉ t.toList) :
    cookiePairs ("; ".intercalate texts) = texts.filterMap fun t => cookiePair? t.toList := by
  rw [cookiePairs, String.toList_intercalate]
  cases texts with
  | nil => rfl
  | cons t ts =>
    have parts : ∀ u ∈ t.toList :: ts.map String.toList, ';' ∉ u := by
      intro u hu
      obtain ⟨s, hs, hu⟩ := List.mem_map.mp (List.map_cons ▸ hu : u ∈ (t :: ts).map String.toList)
      exact hu ▸ h s hs
    rw [List.map_cons, show "; ".toList = [';', ' '] from rfl, Cookie.splitOn_join _ _ parts]
    simp only [List.filterMap_cons, List.filterMap_map, Function.comp_def, cookiePair?_blank]

/-- Headers that bring texts back hold these texts' pairs, in some order. -/
theorem flatMap_cookiePairs {groups : List (List String)} {texts : List String}
    (hp : groups.flatten.Perm texts) (h : ∀ t ∈ texts, ';' ∉ t.toList) :
    ((groups.map ("; ".intercalate ·)).flatMap cookiePairs).Perm
      (texts.filterMap fun t => cookiePair? t.toList) := by
  have each : ∀ g ∈ groups, cookiePairs ("; ".intercalate g) =
      g.filterMap fun t => cookiePair? t.toList := by
    intro g hg
    exact cookiePairs_join fun t ht => h t (hp.mem_iff.mp (List.mem_flatten.mpr ⟨g, hg, ht⟩))
  have all : (groups.map ("; ".intercalate ·)).flatMap cookiePairs =
      groups.flatten.filterMap fun t => cookiePair? t.toList := by
    rw [List.flatMap_map, List.flatMap_def, List.map_congr_left each, List.filterMap_flatten]
  rw [all]
  exact hp.filterMap _

/-- A request brings texts back in its cookie headers: each header has some of
them, and all headers together have each text as often as it was given. -/
def Request.Returns (q : Request) (texts : List String) : Prop :=
  ∃ groups : List (List String), groups.flatten.Perm texts ∧
    (q.fields "cookie").map (·.value) = groups.map fun g => Utf8.encode ("; ".intercalate g)

/-- Printable texts without semicolons that a request brings back are read one
by one, in some order. -/
theorem Request.Returns.cookies {q : Request} {texts : List String} (hr : q.Returns texts)
    (h : ∀ t ∈ texts, ∀ x ∈ t.toList, Cookie.attributeRanges.Contains x) :
    ∃ pairs, pairs.Perm (texts.filterMap fun t => cookiePair? t.toList) ∧
      q.cookies = .ofList pairs := by
  obtain ⟨groups, hp, hg⟩ := hr
  have line : ∀ g ∈ groups, Header.text? ⟨"cookie", Utf8.encode ("; ".intercalate g)⟩ =
      some ("; ".intercalate g) := by
    intro g hg
    apply Header.text?_encode
    apply Cookie.printable_join
    intro t ht
    exact h t (hp.mem_iff.mp (List.mem_flatten.mpr ⟨g, hg, ht⟩))
  have lines : (q.fields "cookie").filterMap Header.text? = groups.map ("; ".intercalate ·) := by
    calc (q.fields "cookie").filterMap Header.text?
        = ((q.fields "cookie").map (·.value)).filterMap fun v => Header.text? ⟨"cookie", v⟩ := by
          rw [List.filterMap_map]
          rfl
      _ = groups.filterMap fun g => some ("; ".intercalate g) := by
          rw [hg, List.filterMap_map]
          exact List.filterMap_congr line
      _ = groups.map ("; ".intercalate ·) := congrFun List.filterMap_eq_map' groups
  have plain : ∀ t ∈ texts, ';' ∉ t.toList := by
    intro t ht hx
    exact absurd (h t ht _ hx) (by decide)
  refine ⟨_, flatMap_cookiePairs hp plain, ?_⟩
  rw [Request.cookies, readCookies, lines]

end Http

namespace Cookie

/-! ## There and back -/

/-- What a client keeps of a header value: the part in front of the first
semicolon. -/
def kept (value : String) : String := String.ofList (value.toList.takeWhile (· ≠ ';'))

theorem takeWhile_join {t : List Char} (h : ';' ∉ t) (ts : List (List Char)) :
    ([';', ' '].intercalate (t :: ts)).takeWhile (· ≠ ';') = t := by
  cases ts with
  | nil =>
    have front : ∀ c ∈ ([] : List Char).head?, c = ';' := by simp
    simpa using takeWhile_until h front
  | cons u us =>
    rw [List.intercalate_cons_cons, List.append_assoc]
    exact takeWhile_until h (by simp)

/-- The pair of a cookie as it is written. -/
def pair (c : Cookie) : String := c.name ++ "=" ++ c.value

theorem kept_headerValue {c : Cookie} {v : String} (h : c.headerValue = .ok v) :
    kept v = c.pair := by
  obtain ⟨fits, rfl⟩ := (headerValue_eq_ok c v).mp h
  have clean : (Part.mk c.name (some c.value)).Clean := pair_clean fits
  rw [kept, said, String.toList_intercalate, List.map_cons, List.map_cons]
  rw [show "; ".toList = [';', ' '] from rfl, takeWhile_join clean.semicolon,
    String.ofList_toList]
  rfl

/-- The characters of an accepted name are no blanks and no equals signs. -/
theorem isBlank_token {c : Char} (h : tokenRanges.Contains c) :
    Http.isBlank c = false ∧ c ≠ '=' := by
  have ascii : c.toNat < 128 := by
    have := (Ranges.Contains.attribute (.inl h)).printable
    omega
  revert h
  exact Utf8.forall_ascii (p := fun c => tokenRanges.Contains c → Http.isBlank c = false ∧ c ≠ '=')
    (by decide) ascii

/-- The characters of an accepted value are no blanks and no quotes. -/
theorem isBlank_octet {c : Char} (h : octetRanges.Contains c) :
    Http.isBlank c = false ∧ Http.isQuote c = false := by
  have ascii : c.toNat < 128 := by
    have := (Ranges.Contains.attribute (.inr h)).printable
    omega
  revert h
  exact Utf8.forall_ascii
    (p := fun c => octetRanges.Contains c → Http.isBlank c = false ∧ Http.isQuote c = false)
    (by decide) ascii

/-- The pair of an accepted cookie is read as its name and its value. -/
theorem cookiePair?_pair {c : Cookie} {v : String} (h : c.headerValue = .ok v) :
    Http.cookiePair? c.pair.toList = some (c.name, c.value) := by
  obtain ⟨fits, -⟩ := (headerValue_eq_ok c v).mp h
  have name : c.nameSlot.Fits := fits _ List.mem_cons_self
  have value : c.valueSlot.Fits := fits _ (List.mem_cons_of_mem _ List.mem_cons_self)
  have chars : c.pair.toList = c.name.toList ++ '=' :: c.value.toList := by simp [pair]
  rw [chars]
  exact Http.cookiePair?_pair (name.1 rfl) (fun x hx => isBlank_token (name.2 x hx))
    fun x hx => isBlank_octet (value.2 x hx)

/-- The pair of an accepted cookie is a clean part. -/
theorem pair_attribute {c : Cookie} {v : String} (h : c.headerValue = .ok v) :
    ∀ x ∈ c.pair.toList, attributeRanges.Contains x := by
  obtain ⟨fits, -⟩ := (headerValue_eq_ok c v).mp h
  exact (pair_clean fits).chars

/-- What a client keeps of the values of accepted cookies are their pairs. -/
theorem kept_headerValues {cs : List Cookie} {values : List String}
    (h : cs.map headerValue = values.map .ok) :
    values.map kept = cs.map pair ∧ ∀ c ∈ cs, ∃ v, c.headerValue = .ok v := by
  induction cs generalizing values with
  | nil =>
    rw [List.map_nil, eq_comm, List.map_eq_nil_iff] at h
    simp [h]
  | cons c cs ih =>
    cases values with
    | nil => cases h
    | cons v values =>
      rw [List.map_cons, List.map_cons, List.cons.injEq] at h
      obtain ⟨rest, each⟩ := ih h.2
      rw [List.map_cons, List.map_cons, kept_headerValue h.1, rest, List.forall_mem_cons]
      exact ⟨rfl, ⟨v, h.1⟩, each⟩

/-- Cookies of distinct names that are set and sent back, in one header or in
several and in any order, are what the request has: each name with its value and
no others. -/
theorem cookies_come_back {cs : List Cookie} {values : List String} {q : Http.Request}
    (names : (cs.map (·.name)).Nodup)
    (accepted : cs.map headerValue = values.map .ok)
    (returned : q.Returns (values.map kept)) (name value : String) :
    q.cookies.get? name = some value ↔ ∃ c ∈ cs, c.name = name ∧ c.value = value := by
  obtain ⟨kept_eq, ok⟩ := kept_headerValues accepted
  rw [kept_eq] at returned
  have chars : ∀ t ∈ cs.map pair, ∀ x ∈ t.toList, attributeRanges.Contains x := by
    intro t ht
    obtain ⟨c, hc, rfl⟩ := List.mem_map.mp ht
    obtain ⟨v, hv⟩ := ok c hc
    exact pair_attribute hv
  have pairs_eq : (cs.map pair).filterMap (fun t => Http.cookiePair? t.toList) =
      cs.map fun c => (c.name, c.value) := by
    rw [List.filterMap_map, List.filterMap_eq_map_iff_forall_eq_some]
    intro c hc
    obtain ⟨v, hv⟩ := ok c hc
    exact cookiePair?_pair hv
  obtain ⟨pairs, perm, read⟩ := returned.cookies chars
  rw [pairs_eq] at perm
  have nodup : (pairs.map (·.1)).Nodup := by
    rw [(perm.map (·.1)).nodup_iff, List.map_map]
    exact names
  rw [read, Dict.get?_ofList_of_nodup nodup, perm.mem_iff, List.mem_map]
  simp only [Prod.mk.injEq]

/-- Three cookies in two headers, one of them with a blank in its path. -/
theorem cookies_come_back_apart :
    let cs : List Cookie := [⟨"a", "1=2", .empty⟩, ⟨"b", "", .ofList [("path", .string "/x y")]⟩,
      ⟨"c", "z", .empty⟩]
    let q : Http.Request := { headers := [⟨"cookie", Utf8.encode "c=z; b="⟩,
      ⟨"accept", []⟩, ⟨"cookie", Utf8.encode "a=1=2"⟩] }
    ∀ name value, q.cookies.get? name = some value ↔ ∃ c ∈ cs, c.name = name ∧ c.value = value := by
  intro cs q
  have names : (cs.map (·.name)).Nodup := by decide
  have accepted : cs.map headerValue = ["a=1=2; Path=/; HttpOnly", "b=; Path=/x y; HttpOnly",
      "c=z; Path=/; HttpOnly"].map .ok := by decide +kernel
  have returned : q.Returns (["a=1=2; Path=/; HttpOnly", "b=; Path=/x y; HttpOnly",
      "c=z; Path=/; HttpOnly"].map kept) := by
    refine ⟨[["c=z", "b="], ["a=1=2"]], ?_, rfl⟩
    decide +kernel
  exact cookies_come_back names accepted returned

end Cookie

end Switchboard
