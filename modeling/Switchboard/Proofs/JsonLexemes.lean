import Switchboard.Json.Printer
import Switchboard.Json.Reader
import Switchboard.Proofs.Octets

/-!
# Switchboard.Proofs.JsonLexemes

The lexical parts of JSON text, written and read back: the digits of integers,
the characters of strings, and the frame of numbers of any kind, which are read
in the middle of a text as they are read alone.
-/

namespace Switchboard.Json

open Utf8

/-! ## Digits -/

theorem isDigit_octet {c : Char} (h : c.isDigit = true) :
    c.toNat < 128 ∧ isDigit (UInt8.ofNat c.toNat) = true ∧
      digitValue (UInt8.ofNat c.toNat) = c.toNat - '0'.toNat := by
  have range : 48 ≤ c.toNat ∧ c.toNat ≤ 57 := by
    simp [Char.isDigit, UInt32.le_iff_toNat_le] at h
    exact h
  have val : (UInt8.ofNat c.toNat).toNat = c.toNat := toNat_ofNat (by omega)
  refine ⟨by omega, ?_, ?_⟩
  · simp [isDigit, UInt8.le_iff_toNat_le, val]
    omega
  · rw [digitValue, val]
    rfl

theorem natChars_digits (n : Nat) : ∀ c ∈ natChars n, c.isDigit = true :=
  fun _ hc => Nat.isDigit_of_mem_toDigits (by decide) (by decide) hc

/-- Only zero is written with a zero in front. -/
theorem head_natChars {n : Nat} (h : 0 < n) : (natChars n).head? ≠ some '0' := by
  induction n using Nat.strongRecOn with
  | _ n ih =>
    by_cases small : n < 10
    · rw [natChars, Nat.toDigits_of_lt_base small]
      have : ∀ m < 10, 0 < m → [Nat.digitChar m].head? ≠ some '0' := by decide
      exact this n small h
    · have front := ih (n / 10) (by omega) (by omega)
      rw [natChars, Nat.toDigits_of_base_le (by decide) (by omega)]
      rw [natChars] at front
      cases hd : Nat.toDigits 10 (n / 10) with
      | nil => exact absurd hd Nat.toDigits_ne_nil
      | cons c cs =>
        rw [hd] at front
        exact front

theorem ofDigitChars_ge (cs : List Char) (s : Nat) : s ≤ Nat.ofDigitChars 10 cs s := by
  induction cs generalizing s with
  | nil => exact Nat.le_refl s
  | cons c cs ih =>
    rw [Nat.ofDigitChars_cons]
    exact Nat.le_trans (by omega) (ih _)

/-- Digits whose number fits a word are all absorbed. -/
theorem absorb_octets {cs : List Char} (hc : ∀ c ∈ cs, c.isDigit = true) {s : Nat}
    (h : Nat.ofDigitChars 10 cs s < UInt64.size) :
    absorb s (octets cs) = (Nat.ofDigitChars 10 cs s, []) := by
  induction cs generalizing s with
  | nil => rfl
  | cons c cs ih =>
    obtain ⟨hd, hcs⟩ := List.forall_mem_cons.mp hc
    obtain ⟨ascii, -, value⟩ := isDigit_octet hd
    rw [Nat.ofDigitChars_cons, Nat.mul_comm] at h ⊢
    have fits : s * 10 + (c.toNat - '0'.toNat) < UInt64.size :=
      Nat.lt_of_le_of_lt (ofDigitChars_ge cs _) h
    rw [octets_cons_ascii ascii, absorb]
    simp only [value, fits, if_true]
    exact ih hcs h

/-- What may follow a value inside of a text: nothing, a comma, or a closing
bracket or brace. -/
def Delimited (rest : Bytes) : Prop := ∀ b ∈ rest.head?, b = 44 ∨ b = 93 ∨ b = 125

theorem Delimited.not_digit {rest : Bytes} (h : Delimited rest) :
    ∀ b ∈ rest.head?, isDigit b = false := by
  intro b hb
  obtain rfl | rfl | rfl := h b hb <;> rfl

theorem digits_append (ds : Bytes) {rest : Bytes} (h : Delimited rest) :
    digits (ds ++ rest) = digits ds := by
  induction ds with
  | nil =>
    cases rest with
    | nil => rfl
    | cons b rest => simp [digits, h.not_digit b rfl]
  | cons d ds ih =>
    rw [List.cons_append, digits, digits, List.takeWhile_cons, List.takeWhile_cons]
    rw [digits, digits] at ih
    rw [ih]

theorem behindDigits_append (ds : Bytes) {rest : Bytes} (h : Delimited rest) :
    behindDigits (ds ++ rest) = behindDigits ds ++ rest := by
  induction ds with
  | nil =>
    cases rest with
    | nil => rfl
    | cons b rest => simp [behindDigits, h.not_digit b rfl]
  | cons d ds ih =>
    rw [List.cons_append, behindDigits, behindDigits, List.dropWhile_cons, List.dropWhile_cons]
    rw [behindDigits, behindDigits] at ih
    rw [ih]
    split <;> rfl

/-! ## Numbers inside of a text -/

/-- A reader that takes no notice of what follows a value. -/
def Framed {α : Type} (f : Bytes → Read α) : Prop :=
  ∀ bs left v, f bs = .ok (v, left) →
    left <:+ bs ∧ ∀ rest, Delimited rest → f (bs ++ rest) = .ok (v, left ++ rest)

theorem realFrom_framed (neg : Bool) (s : Nat) (e : Int) : Framed (realFrom neg s e) := by
  intro bs left v h
  unfold realFrom at h ⊢
  cases hm : Magnitude.ofParts? s e with
  | none =>
    rw [hm] at h
    cases h
  | some m =>
    rw [hm] at h
    cases h
    exact ⟨List.suffix_refl _, fun rest _ => rfl⟩

theorem behindDigits_suffix (bs : Bytes) : behindDigits bs <:+ bs := List.dropWhile_suffix _

/-- An exponent behind its sign. -/
def exponentDigits (neg : Bool) (s : Nat) (start : Int) (minus : Bool) : Bytes → Read Json
  | [] => faultAt .unfinishedValue []
  | d :: rest =>
    if isDigit d then
      match exponentValue (digitValue d) (digits rest) with
      | .ok value =>
        realFrom neg s (if minus then start - value else start + value) (behindDigits rest)
      | .error left =>
        if s ≠ 0 ∧ minus = false then faultAt .numberOutOfRange (left ++ behindDigits rest)
        else .ok (.real ⟨neg, .zero⟩, behindDigits rest)
    else faultAt .invalidNumber rest

theorem readExponent_cons (neg : Bool) (s : Nat) (start : Int) (b : UInt8) (rest : Bytes) :
    readExponent neg s start (b :: rest) =
      if b = 43 then exponentDigits neg s start false rest
      else if b = 45 then exponentDigits neg s start true rest
      else exponentDigits neg s start false (b :: rest) := by
  have sign : readExponent neg s start (b :: rest) =
      match (if b = 43 then (false, rest) else if b = 45 then (true, rest) else (false, b :: rest) :
        Bool × Bytes) with
      | (minus, input) => exponentDigits neg s start minus input := rfl
  rw [sign]
  by_cases plus : b = 43
  · simp only [if_pos plus]
  · by_cases minus : b = 45
    · simp only [if_neg plus, if_pos minus]
    · simp only [if_neg plus, if_neg minus]

theorem exponentDigits_framed (neg : Bool) (s : Nat) (start : Int) (minus : Bool) :
    Framed (exponentDigits neg s start minus) := by
  intro bs left v h
  cases bs with
  | nil => cases h
  | cons d bs =>
    have behind : behindDigits bs <:+ d :: bs :=
      (behindDigits_suffix bs).trans (List.suffix_cons d bs)
    simp only [exponentDigits, List.cons_append] at h ⊢
    by_cases hd : isDigit d = true
    · simp only [hd, if_true] at h ⊢
      have same (rest : Bytes) (hr : Delimited rest) := digits_append bs hr
      have after (rest : Bytes) (hr : Delimited rest) := behindDigits_append bs hr
      cases hv : exponentValue (digitValue d) (digits bs) with
      | ok value =>
        rw [hv] at h
        obtain ⟨suffix, goes⟩ := realFrom_framed neg s _ _ left v h
        refine ⟨suffix.trans behind, ?_⟩
        intro rest hr
        rw [same rest hr, after rest hr, hv]
        exact goes rest hr
      | error rem =>
        simp only [hv] at h
        by_cases large : s ≠ 0 ∧ minus = false
        · rw [if_pos large] at h
          cases h
        · rw [if_neg large] at h
          cases h
          refine ⟨behind, ?_⟩
          intro rest hr
          rw [same rest hr, after rest hr, hv]
          exact if_neg large
    · simp only [hd] at h
      cases h

theorem readExponent_framed (neg : Bool) (s : Nat) (start : Int) :
    Framed (readExponent neg s start) := by
  intro bs left v h
  cases bs with
  | nil => cases h
  | cons b bs =>
    rw [readExponent_cons] at h
    have skip {left : Bytes} (hs : left <:+ bs) : left <:+ b :: bs :=
      hs.trans (List.suffix_cons b bs)
    simp only [List.cons_append, readExponent_cons]
    by_cases plus : b = 43
    · simp only [if_pos plus] at h ⊢
      obtain ⟨suffix, goes⟩ := exponentDigits_framed neg s start false bs left v h
      exact ⟨skip suffix, goes⟩
    · simp only [if_neg plus] at h ⊢
      by_cases minus : b = 45
      · simp only [if_pos minus] at h ⊢
        obtain ⟨suffix, goes⟩ := exponentDigits_framed neg s start true bs left v h
        exact ⟨skip suffix, goes⟩
      · simp only [if_neg minus] at h ⊢
        exact exponentDigits_framed neg s start false (b :: bs) left v h

theorem readAfterDigits_framed (neg : Bool) (s : Nat) (e : Int) :
    Framed (readAfterDigits neg s e) := by
  intro bs left v h
  cases bs with
  | nil =>
    obtain ⟨suffix, goes⟩ := realFrom_framed neg s e [] left v h
    refine ⟨suffix, ?_⟩
    intro rest hr
    rw [← goes rest hr]
    cases rest with
    | nil => rfl
    | cons b rest =>
      have : (b = 101 || b = 69) = false := by
        obtain rfl | rfl | rfl := hr b rfl <;> rfl
      simp [readAfterDigits, this]
  | cons b bs =>
    simp only [readAfterDigits, List.cons_append] at h ⊢
    by_cases he : (b = 101 || b = 69) = true
    · simp only [he, if_true] at h ⊢
      obtain ⟨suffix, goes⟩ := readExponent_framed neg s e bs left v h
      exact ⟨suffix.trans (List.suffix_cons b bs), goes⟩
    · simp only [he] at h ⊢
      exact realFrom_framed neg s e (b :: bs) left v h

theorem readFraction_framed (neg : Bool) (s : Nat) (e : Int) : Framed (readFraction neg s e) := by
  intro bs left v h
  unfold readFraction at h ⊢
  cases hd : digits bs with
  | nil =>
    rw [hd] at h
    cases hb : behindDigits bs <;> simp only [hb] at h <;> cases h
  | cons d ds =>
    simp only [hd] at h
    obtain ⟨suffix, goes⟩ := readAfterDigits_framed neg _ _ _ left v h
    refine ⟨suffix.trans (behindDigits_suffix bs), ?_⟩
    intro rest hr
    rw [digits_append bs hr, behindDigits_append bs hr, hd]
    exact goes rest hr

/-- What follows the whole digits of a number. -/
def afterWhole (neg : Bool) (significand : Nat) (left : Bytes) (behind : Bytes) : Read Json :=
  match behind with
  | b :: behind' =>
    if b = 46 then readFraction neg significand left.length behind'
    else if b = 101 || b = 69 || !left.isEmpty then
      readAfterDigits neg significand left.length behind
    else .ok (integer neg significand, behind)
  | [] =>
    if left.isEmpty then .ok (integer neg significand, [])
    else readAfterDigits neg significand left.length []

theorem afterWhole_framed (neg : Bool) (s : Nat) (unread : Bytes) :
    Framed (afterWhole neg s unread) := by
  intro bs left v h
  cases bs with
  | nil =>
    -- A delimiter is neither a point nor the sign of an exponent.
    have stops (rest : Bytes) (hr : Delimited rest) : afterWhole neg s unread rest =
        if unread.isEmpty then .ok (integer neg s, rest)
        else readAfterDigits neg s unread.length rest := by
      cases rest with
      | nil => rfl
      | cons b rest =>
        obtain rfl | rfl | rfl := hr b rfl <;> cases unread <;> rfl
    simp only [afterWhole] at h
    by_cases empty : unread.isEmpty = true
    · rw [if_pos empty] at h
      cases h
      refine ⟨List.suffix_refl _, ?_⟩
      intro rest hr
      rw [List.nil_append, stops rest hr, if_pos empty]
    · rw [if_neg empty] at h
      obtain ⟨suffix, goes⟩ := readAfterDigits_framed neg s _ [] left v h
      refine ⟨suffix, ?_⟩
      intro rest hr
      rw [List.nil_append, stops rest hr, if_neg empty]
      exact goes rest hr
  | cons b bs =>
    simp only [afterWhole, List.cons_append] at h ⊢
    by_cases point : b = 46
    · simp only [if_pos point] at h ⊢
      obtain ⟨suffix, goes⟩ := readFraction_framed neg s _ bs left v h
      exact ⟨suffix.trans (List.suffix_cons b bs), goes⟩
    · simp only [if_neg point] at h ⊢
      by_cases more : (b = 101 || b = 69 || !unread.isEmpty) = true
      · simp only [more, if_true] at h ⊢
        exact readAfterDigits_framed neg s _ (b :: bs) left v h
      · simp only [more] at h ⊢
        cases h
        exact ⟨List.suffix_refl _, fun rest _ => rfl⟩

theorem readNumber_eq (neg : Bool) (d : UInt8) (rest : Bytes) :
    readNumber neg (d :: rest) =
      if !isDigit d then faultAt .invalidNumber rest
      else if d = 48 && rest.head?.any isDigit then faultOn .invalidNumber rest
      else
        let whole := absorb 0 (if d = 48 then [d] else d :: digits rest)
        afterWhole neg whole.1 whole.2 (if d = 48 then rest else behindDigits rest) := by
  rfl

theorem readNumber_framed (neg : Bool) : Framed (readNumber neg) := by
  intro bs left v h
  cases bs with
  | nil => cases h
  | cons d bs =>
    have zeros (rest : Bytes) (hr : Delimited rest) :
        (bs ++ rest).head?.any isDigit = bs.head?.any isDigit := by
      cases bs with
      | nil =>
        cases rest with
        | nil => rfl
        | cons b rest => exact hr.not_digit b rfl
      | cons => rfl
    simp only [readNumber_eq, List.cons_append] at h ⊢
    by_cases hd : (!isDigit d) = true
    · rw [if_pos hd] at h
      cases h
    · rw [if_neg hd] at h
      by_cases hz : (d = 48 && bs.head?.any isDigit) = true
      · rw [if_pos hz] at h
        cases h
      · rw [if_neg hz] at h
        obtain ⟨suffix, goes⟩ := afterWhole_framed neg _ _ _ left v h
        constructor
        · refine suffix.trans ?_
          split
          · exact List.suffix_cons d bs
          · exact (behindDigits_suffix bs).trans (List.suffix_cons d bs)
        · intro rest hr
          rw [if_neg hd, zeros rest hr, if_neg hz, digits_append bs hr, behindDigits_append bs hr]
          rw [← goes rest hr]
          split <;> rfl

/-! ## Integers -/

theorem digits_octets {cs : List Char} (h : ∀ c ∈ cs, c.isDigit = true) :
    digits (octets cs) = octets cs ∧ behindDigits (octets cs) = [] := by
  have all : ∀ b ∈ octets cs, isDigit b = true := by
    rw [octets_ascii fun c hc => (isDigit_octet (h c hc)).1]
    intro b hb
    obtain ⟨c, hc, rfl⟩ := List.mem_map.mp hb
    exact (isDigit_octet (h c hc)).2.1
  rw [digits, behindDigits, ← List.append_nil (octets cs), List.takeWhile_append_of_pos all,
    List.dropWhile_append_of_pos all]
  exact ⟨rfl, rfl⟩

/-- Digits that are written are read, and all of them. -/
theorem readNumber_natChars (neg : Bool) {n : Nat} (h : n < UInt64.size) :
    readNumber neg (octets (natChars n)) = .ok (integer neg n, []) := by
  by_cases zero : n = 0
  · rw [zero]
    rfl
  · have all := natChars_digits n
    have front := head_natChars (Nat.pos_of_ne_zero zero)
    have value : Nat.ofDigitChars 10 (natChars n) 0 = n := Nat.ofDigitChars_ten_toDigits
    cases hn : natChars n with
    | nil => exact absurd hn Nat.toDigits_ne_nil
    | cons c cs =>
      rw [hn] at all front value
      obtain ⟨hc, hcs⟩ := List.forall_mem_cons.mp all
      obtain ⟨ascii, digit, -⟩ := isDigit_octet hc
      have nonzero : UInt8.ofNat c.toNat ≠ 48 := by
        rw [Ne, ofNat_eq (by omega)]
        intro e
        apply front
        rw [List.head?_cons, ← Char.ofNat_toNat c, e]
        rfl
      have absorbed := absorb_octets all (by rw [value]; exact h)
      rw [value, octets_cons_ascii ascii] at absorbed
      obtain ⟨front_digits, behind⟩ := digits_octets hcs
      rw [octets_cons_ascii ascii, readNumber_eq]
      simp only [digit, nonzero, front_digits, behind, absorbed, if_false, decide_false,
        Bool.false_and, Bool.not_true, Bool.false_eq_true]
      rfl

/-! ## Doubles -/

/-- The text of a number without its sign: a digit first, and no characters
but those of numbers. -/
structure Numeral (cs : List Char) : Prop where
  head : ∃ c ∈ cs.head?, c.isDigit = true
  chars : ∀ c ∈ cs, c.isDigit = true ∨ c ∈ ['.', 'e', '+', '-']

theorem positionalChars_numeral {d : Char} {ds : List Char}
    (h : ∀ c ∈ d :: ds, c.isDigit = true) (e : Int) : Numeral (positionalChars (d :: ds) e) := by
  have zeros (n : Nat) : ∀ c ∈ List.replicate n '0', c.isDigit = true := by
    intro c hc
    rw [List.eq_of_mem_replicate hc]
    rfl
  have first : d.isDigit = true := h d List.mem_cons_self
  unfold positionalChars
  split
  · refine ⟨⟨'0', rfl, rfl⟩, ?_⟩
    intro c hc
    simp only [List.mem_cons, List.mem_append] at hc
    obtain rfl | rfl | hc | hc := hc
    · exact .inl rfl
    · exact .inr (by decide)
    · exact .inl (zeros _ c hc)
    · exact .inl (h c (List.mem_cons.mpr hc))
  · dsimp only
    split
    · refine ⟨⟨d, rfl, first⟩, ?_⟩
      intro c hc
      rw [List.mem_append, List.mem_append] at hc
      obtain (hc | hc) | hc := hc
      · exact .inl (h c hc)
      · exact .inl (zeros _ c hc)
      · have last : ∀ x ∈ ['.', '0'], x.isDigit = true ∨ x ∈ ['.', 'e', '+', '-'] :=
          forall_of_all (by decide)
        exact last c hc
    · refine ⟨⟨d, rfl, first⟩, ?_⟩
      intro c hc
      rw [List.mem_append, List.mem_cons] at hc
      obtain hc | rfl | hc := hc
      · exact .inl (h c (List.mem_of_mem_take hc))
      · exact .inr (by decide)
      · exact .inl (h c (List.mem_of_mem_drop hc))

theorem scientificChars_numeral {d : Char} {ds : List Char}
    (h : ∀ c ∈ d :: ds, c.isDigit = true) (e : Int) : Numeral (scientificChars (d :: ds) e) := by
  have tail : ∀ c ∈ 'e' :: (if e < 0 then '-' else '+') :: natChars e.natAbs,
      c.isDigit = true ∨ c ∈ ['.', 'e', '+', '-'] := by
    intro c hc
    rw [List.mem_cons, List.mem_cons] at hc
    obtain rfl | rfl | hc := hc
    · exact .inr (by decide)
    · right
      split <;> decide
    · exact .inl (natChars_digits _ c hc)
  have first : d.isDigit = true := h d List.mem_cons_self
  cases ds with
  | nil =>
    refine ⟨⟨d, rfl, first⟩, ?_⟩
    intro c hc
    obtain rfl | hc := List.mem_cons.mp (show c ∈ d :: 'e' :: _ from hc)
    · exact .inl first
    · exact tail c hc
  | cons d' ds =>
    refine ⟨⟨d, rfl, first⟩, ?_⟩
    intro c hc
    obtain hc | hc := List.mem_append.mp (show c ∈ (d :: '.' :: d' :: ds) ++ 'e' :: _ from hc)
    · obtain rfl | hc := List.mem_cons.mp hc
      · exact .inl first
      · obtain rfl | hc := List.mem_cons.mp hc
        · exact .inr (by decide)
        · exact .inl (h c (List.mem_cons_of_mem _ hc))
    · exact tail c hc

theorem magnitudeChars_numeral (m : Magnitude) : Numeral (Binary64.magnitudeChars m) := by
  have digits := natChars_digits m.shortest.digits
  unfold Binary64.magnitudeChars
  split
  · exact ⟨⟨'0', rfl, rfl⟩, forall_of_all (by decide)⟩
  · dsimp only
    cases hd : natChars m.shortest.digits with
    | nil => exact absurd hd Nat.toDigits_ne_nil
    | cons d ds =>
      rw [hd] at digits
      split
      · exact positionalChars_numeral digits _
      · exact scientificChars_numeral digits _

/-! ## Strings -/

/-- An octet that stands for itself between quotes. -/
def IsPlain (b : UInt8) : Prop := 32 ≤ b ∧ b ≠ 34 ∧ b ≠ 92

theorem readOctets_plain (acc : Bytes) {bs : Bytes} (h : ∀ b ∈ bs, IsPlain b) (rest : Bytes) :
    readOctets acc (bs ++ rest) = readOctets (bs.reverse ++ acc) rest := by
  induction bs generalizing acc with
  | nil => rfl
  | cons b bs ih =>
    obtain ⟨⟨printable, quote, backslash⟩, hbs⟩ := List.forall_mem_cons.mp h
    rw [List.cons_append, readOctets]
    simp only [quote, backslash, UInt8.not_lt.mpr printable, if_false]
    rw [ih _ hbs, List.reverse_cons, List.append_assoc, List.singleton_append]

theorem readOctets_escape (acc : Bytes) {rest left o : Bytes}
    (h : readEscape rest = .ok (o, left)) :
    readOctets acc (92 :: rest) = readOctets (o.reverse ++ acc) left := by
  rw [readOctets]
  simp
  split
  · next f hf =>
    rw [h] at hf
    cases hf
  · next o' left' ho =>
    rw [h] at ho
    cases ho
    rfl

/-- The octets of a character beyond ASCII. -/
theorem encodeChar_high {c : Char} (h : 128 ≤ c.toNat) :
    ∀ b ∈ String.utf8EncodeChar c, 128 ≤ b.toNat := by
  have beyond : ¬ c.val.toNat ≤ 127 := Nat.not_le.mpr h
  have low {n : Nat} (k : Nat) (hk : 128 ≤ k ∧ k < 256) (hn : n < 256 - k) :
      128 ≤ (UInt8.ofNat (n + k)).toNat := by
    rw [toNat_ofNat (by omega)]
    omega
  have valid : c.val.toNat < 0x110000 := by
    obtain h | h := c.valid
    · exact Nat.lt_trans h (by decide)
    · exact h.2
  rw [String.utf8EncodeChar, if_neg beyond]
  split
  · simp only [List.forall_mem_cons, List.not_mem_nil, false_implies, implies_true, and_true]
    exact ⟨low 192 (by omega) (by omega), low 128 (by omega) (by omega)⟩
  · split
    · simp only [List.forall_mem_cons, List.not_mem_nil, false_implies, implies_true, and_true]
      exact ⟨low 224 (by omega) (by omega), low 128 (by omega) (by omega),
        low 128 (by omega) (by omega)⟩
    · simp only [List.forall_mem_cons, List.not_mem_nil, false_implies, implies_true, and_true]
      exact ⟨low 240 (by omega) (by omega), low 128 (by omega) (by omega),
        low 128 (by omega) (by omega), low 128 (by omega) (by omega)⟩

/-- The octets of a character that is not escaped stand for themselves. -/
theorem isPlain_encodeChar {c : Char} (printable : 32 ≤ c.toNat) (quote : c ≠ Char.ofNat 34)
    (backslash : c ≠ Char.ofNat 92) : ∀ b ∈ String.utf8EncodeChar c, IsPlain b := by
  have ne {n : Nat} (h : c ≠ Char.ofNat n) : c.toNat ≠ n := by
    intro e
    apply h
    rw [← e, Char.ofNat_toNat]
  by_cases ascii : c.toNat < 128
  · rw [encodeChar_ascii ascii]
    intro b hb
    rw [List.mem_singleton.mp hb]
    refine ⟨?_, ?_, ?_⟩
    · rw [UInt8.le_iff_toNat_le, toNat_ofNat (by omega)]
      exact printable
    · rw [Ne, ofNat_eq (by omega)]
      exact ne quote
    · rw [Ne, ofNat_eq (by omega)]
      exact ne backslash
  · intro b hb
    have high := encodeChar_high (Nat.not_lt.mp ascii) b hb
    refine ⟨?_, ?_, ?_⟩
    · rw [UInt8.le_iff_toNat_le]
      exact Nat.le_trans (by decide) high
    · intro e
      rw [e] at high
      exact absurd high (by decide)
    · intro e
      rw [e] at high
      exact absurd high (by decide)

theorem hexValue?_hexDigit (n : Nat) :
    hexValue? (UInt8.ofNat (hexDigit n).toNat) = some (n % 16) := by
  have all : ∀ m < 16, hexValue? (UInt8.ofNat (Nat.digitChar m).toNat) = some m := by decide
  exact all (n % 16) (Nat.mod_lt _ (by decide))

theorem hexDigit_ascii (n : Nat) : (hexDigit n).toNat < 128 := by
  have all : ∀ m < 16, (Nat.digitChar m).toNat < 128 := by decide
  exact all (n % 16) (Nat.mod_lt _ (by decide))

/-- An escape of a control character by its number. -/
theorem readEscape_control {n : Nat} (h : n < 32) (rest : Bytes) :
    readEscape (117 :: 48 :: 48 :: UInt8.ofNat (hexDigit (n / 16)).toNat ::
      UInt8.ofNat (hexDigit n).toNat :: rest) = .ok ([UInt8.ofNat n], rest) := by
  have value : ((0 * 16 + 0) * 16 + n / 16 % 16) * 16 + n % 16 = n := by omega
  have hex : readHex (48 :: 48 :: UInt8.ofNat (hexDigit (n / 16)).toNat ::
      UInt8.ofNat (hexDigit n).toNat :: rest) = .ok (n, rest) := by
    simp only [readHex, hexValue?_hexDigit]
    rw [show hexValue? 48 = some 0 from rfl]
    simp only [value]
  have code : readCodePoint (48 :: 48 :: UInt8.ofNat (hexDigit (n / 16)).toNat ::
      UInt8.ofNat (hexDigit n).toNat :: rest) = .ok (Char.ofNat n, rest) := by
    simp only [readCodePoint, hex]
    rw [if_neg (by omega), if_neg (by omega)]
  have octet : String.utf8EncodeChar (Char.ofNat n) = [UInt8.ofNat n] := by
    have all : ∀ m < 32, String.utf8EncodeChar (Char.ofNat m) = [UInt8.ofNat m] := by decide
    exact all n h
  have escape : readEscape (117 :: 48 :: 48 :: UInt8.ofNat (hexDigit (n / 16)).toNat ::
      UInt8.ofNat (hexDigit n).toNat :: rest) =
      (readCodePoint (48 :: 48 :: UInt8.ofNat (hexDigit (n / 16)).toNat ::
        UInt8.ofNat (hexDigit n).toNat :: rest)).map fun p =>
          (String.utf8EncodeChar p.1, p.2) := rfl
  rw [escape, code]
  simp only [Except.map, octet]

/-- The octets of an escape that a backslash begins. -/
theorem octets_backslash (cs : List Char) : octets ('\\' :: cs) = 92 :: octets cs := rfl

/-- A control character is read as it was written. -/
theorem readOctets_control {c : Char} (control : c.toNat < 32) (acc rest : Bytes) :
    readOctets acc (octets (escapeChar c) ++ rest) =
      readOctets (UInt8.ofNat c.toNat :: acc) rest := by
  have quote : c ≠ Char.ofNat 34 := by
    intro e
    exact absurd (e ▸ control) (by decide)
  have backslash : c ≠ Char.ofNat 92 := by
    intro e
    exact absurd (e ▸ control) (by decide)
  rw [escapeChar, if_neg quote, if_neg backslash, if_neg (Nat.not_le.mpr control)]
  generalize c.toNat = n at control
  split
  · exact readOctets_escape acc (o := [8]) rfl
  · exact readOctets_escape acc (o := [9]) rfl
  · exact readOctets_escape acc (o := [10]) rfl
  · exact readOctets_escape acc (o := [12]) rfl
  · exact readOctets_escape acc (o := [13]) rfl
  · have letters : octets ['\\', 'u', '0', '0', hexDigit (n / 16), hexDigit n] =
        92 :: 117 :: 48 :: 48 :: UInt8.ofNat (hexDigit (n / 16)).toNat ::
          UInt8.ofNat (hexDigit n).toNat :: [] := by
      rw [octets_backslash]
      repeat rw [octets_cons_ascii (by first | exact hexDigit_ascii _ | decide)]
      rfl
    rw [letters]
    exact readOctets_escape acc (readEscape_control control rest)

/-- A character is read as it was written, escaped or not. -/
theorem readOctets_escapeChar (c : Char) (acc rest : Bytes) :
    readOctets acc (octets (escapeChar c) ++ rest) =
      readOctets ((String.utf8EncodeChar c).reverse ++ acc) rest := by
  by_cases control : c.toNat < 32
  · rw [readOctets_control control, encodeChar_ascii (by omega)]
    rfl
  · have printable : 32 ≤ c.toNat := Nat.not_lt.mp control
    by_cases quote : c = Char.ofNat 34
    · subst quote
      have escape : readEscape (34 :: rest) = .ok ([34], rest) := rfl
      exact readOctets_escape acc escape
    · by_cases backslash : c = Char.ofNat 92
      · subst backslash
        have escape : readEscape (92 :: rest) = .ok ([92], rest) := rfl
        exact readOctets_escape acc escape
      · rw [escapeChar, if_neg quote, if_neg backslash, if_pos printable, octets_cons, octets_nil,
          List.append_nil, readOctets_plain acc (isPlain_encodeChar printable quote backslash)]

theorem readOctets_quoted (cs : List Char) (acc rest : Bytes) :
    readOctets acc (octets (cs.flatMap escapeChar) ++ 34 :: rest) =
      .ok (acc.reverse ++ octets cs, rest) := by
  induction cs generalizing acc with
  | nil => simp [readOctets]
  | cons c cs ih =>
    rw [List.flatMap_cons, octets_append, List.append_assoc, readOctets_escapeChar, ih, octets_cons]
    simp

/-- A string is read as it was written. -/
theorem readString_quoted (s : String) (rest : Bytes) :
    readString (octets (s.toList.flatMap escapeChar) ++ 34 :: rest) = .ok (s, rest) := by
  rw [readString, readOctets_quoted]
  simp only [List.reverse_nil, List.nil_append, ← encode_eq, decode?_encode]

end Switchboard.Json
