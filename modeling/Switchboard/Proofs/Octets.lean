import Switchboard.Http.Request

/-!
# Switchboard.Proofs.Octets

Texts as octets and back.  An ASCII character is one octet; a scan takes one
encoded character off the front of octets, so decoding inverts encoding, and a
header field whose octets encode a printable text reads as that text.  The order
of texts is the order of their octets.
-/

namespace Switchboard

namespace Utf8

/-! ## ASCII -/

/-- What holds of the first 128 code points holds of every ASCII character. -/
theorem forall_ascii {p : Char → Prop} (h : ∀ n < 128, p (Char.ofNat n)) {c : Char}
    (hc : c.toNat < 128) : p c := by
  rw [← Char.ofNat_toNat c]
  exact h _ hc

/-- What is checked of every character of a list holds of all of them. -/
theorem forall_of_all {p : Char → Prop} [DecidablePred p] {cs : List Char}
    (h : (cs.all fun c => decide (p c)) = true) : ∀ c ∈ cs, p c :=
  fun c hc => of_decide_eq_true (List.all_eq_true.mp h c hc)

theorem encodeChar_ascii {c : Char} (h : c.toNat < 128) :
    String.utf8EncodeChar c = [UInt8.ofNat c.toNat] := by
  have le : c.val.toNat ≤ 127 := Nat.le_of_lt_succ h
  rw [String.utf8EncodeChar, if_pos le]
  rfl

/-- The octets of characters. -/
def octets (cs : List Char) : Bytes := cs.flatMap String.utf8EncodeChar

theorem encode_eq (s : String) : encode s = octets s.toList := rfl

@[simp] theorem octets_nil : octets [] = [] := rfl

theorem octets_cons (c : Char) (cs : List Char) :
    octets (c :: cs) = String.utf8EncodeChar c ++ octets cs := List.flatMap_cons

@[simp] theorem octets_append (cs ds : List Char) : octets (cs ++ ds) = octets cs ++ octets ds :=
  List.flatMap_append

theorem octets_cons_ascii {c : Char} (h : c.toNat < 128) (cs : List Char) :
    octets (c :: cs) = UInt8.ofNat c.toNat :: octets cs := by
  rw [octets_cons, encodeChar_ascii h]
  rfl

/-- ASCII characters have one octet each. -/
theorem octets_ascii {cs : List Char} (h : ∀ c ∈ cs, c.toNat < 128) :
    octets cs = cs.map fun c => UInt8.ofNat c.toNat := by
  rw [octets, List.map_eq_flatMap, List.flatMap_def, List.flatMap_def]
  exact congrArg List.flatten (List.map_congr_left fun c hc => encodeChar_ascii (h c hc))

/-! ## Scanning -/

theorem toNat_ofNat {n : Nat} (h : n < 256) : (UInt8.ofNat n).toNat = n := by
  rw [UInt8.toNat_ofNat', Nat.mod_eq_of_lt h]

theorem ofNat_lt {n : Nat} (h : n < 256) (b : UInt8) : UInt8.ofNat n < b ↔ n < b.toNat := by
  rw [UInt8.lt_iff_toNat_lt, toNat_ofNat h]

theorem ofNat_eq {n : Nat} (h : n < 256) (b : UInt8) : UInt8.ofNat n = b ↔ n = b.toNat := by
  rw [← UInt8.toNat_inj, toNat_ofNat h]

theorem scan_ascii {n : Nat} (h : n < 128) (rest : Bytes) :
    scan (UInt8.ofNat n) rest = (some (Char.ofNat n), rest) := by
  have lt : UInt8.ofNat n < 0x80 := (ofNat_lt (by omega) _).mpr h
  rw [scan, if_pos lt, toNat_ofNat (by omega)]

/-- A continuation octet adds six bits. -/
theorem finish_cons (code more : Nat) {n : Nat} (h : n < 64) (rest : Bytes) :
    finish code (more + 1) (UInt8.ofNat (n + 128) :: rest) = finish (code * 64 + n) more rest := by
  have hc : isContinuation (UInt8.ofNat (n + 128)) = true := by
    simp [isContinuation, UInt8.le_iff_toNat_le]
    omega
  rw [finish, if_pos hc, toNat_ofNat (by omega), Nat.add_sub_cancel]

theorem scan_lead {n m : Nat} {l : Lead} (hn : 128 ≤ n ∧ n < 256)
    (hl : lead? (UInt8.ofNat n) = some l) (hm : m < 64) (low : l.low.toNat ≤ m + 128)
    (high : m + 128 ≤ l.high.toNat) (rest : Bytes) :
    scan (UInt8.ofNat n) (UInt8.ofNat (m + 128) :: rest) =
      finish (l.bits * 64 + m) l.more rest := by
  have ge : ¬ UInt8.ofNat n < 0x80 := by
    rw [ofNat_lt hn.2]
    exact Nat.not_lt.mpr hn.1
  have inside : (decide (l.low ≤ UInt8.ofNat (m + 128)) &&
      decide (UInt8.ofNat (m + 128) ≤ l.high)) = true := by
    simp [UInt8.le_iff_toNat_le]
    omega
  rw [scan, if_neg ge, hl]
  simp only [inside, if_true]
  rw [toNat_ofNat (by omega), Nat.add_sub_cancel]

theorem lead?_two {n : Nat} (h : 2 ≤ n ∧ n < 32) :
    lead? (UInt8.ofNat (n + 192)) = some ⟨0, n, 0x80, 0xBF⟩ := by
  have hn : n + 192 < 256 := by omega
  simp only [lead?, ofNat_lt hn, ofNat_eq hn, toNat_ofNat hn, UInt8.reduceToNat]
  rw [if_neg (by omega), if_pos (by omega), Nat.add_sub_cancel]

theorem lead?_three {n : Nat} (h : n < 16) : lead? (UInt8.ofNat (n + 224)) =
    some ⟨1, n, if n = 0 then 0xA0 else 0x80, if n = 13 then 0x9F else 0xBF⟩ := by
  have hn : n + 224 < 256 := by omega
  simp only [lead?, ofNat_lt hn, ofNat_eq hn, toNat_ofNat hn, UInt8.reduceToNat]
  rw [if_neg (by omega), if_neg (by omega)]
  by_cases h0 : n = 0
  · simp [h0]
  · rw [if_neg (by omega), if_neg h0]
    by_cases h1 : n = 13
    · simp [h1]
    · rw [if_neg (by omega), if_pos (by omega), if_neg h1]
      simp

theorem lead?_four {n : Nat} (h : n < 5) : lead? (UInt8.ofNat (n + 240)) =
    some ⟨2, n, if n = 0 then 0x90 else 0x80, if n = 4 then 0x8F else 0xBF⟩ := by
  have hn : n + 240 < 256 := by omega
  simp only [lead?, ofNat_lt hn, ofNat_eq hn, toNat_ofNat hn, UInt8.reduceToNat]
  rw [if_neg (by omega), if_neg (by omega), if_neg (by omega), if_neg (by omega), if_neg (by omega)]
  by_cases h0 : n = 0
  · simp [h0]
  · rw [if_neg (by omega), if_neg h0]
    by_cases h1 : n = 4
    · simp [h1]
    · rw [if_pos (by omega), if_neg h1]
      simp

/-- A scan takes one encoded character off the front. -/
theorem scan_encodeChar (c : Char) (rest : Bytes) :
    ∃ b bs, String.utf8EncodeChar c = b :: bs ∧ scan b (bs ++ rest) = (some c, rest) := by
  have hc : Char.ofNat c.val.toNat = c := Char.ofNat_toNat c
  have valid : c.val.toNat < 0xD800 ∨ 0xDFFF < c.val.toNat ∧ c.val.toNat < 0x110000 := c.valid
  revert hc valid
  unfold String.utf8EncodeChar
  generalize c.val.toNat = v
  intro hc valid
  simp only
  split
  · next h => exact ⟨_, _, rfl, by rw [List.nil_append, scan_ascii (by omega), hc]⟩
  · next h₁ =>
    split
    · refine ⟨_, _, rfl, ?_⟩
      rw [List.singleton_append, scan_lead (by omega) (lead?_two (by omega)) (by omega)
        (by simp) (by simp; omega)]
      simp only [finish]
      rw [show v / 64 % 32 * 64 + v % 64 = v by omega, hc]
    · next h₂ =>
      split
      · refine ⟨_, _, rfl, ?_⟩
        have low :
            (if v / 4096 % 16 = 0 then (0xA0 : UInt8) else 0x80).toNat ≤ v / 64 % 64 + 128 := by
          split <;> simp only [UInt8.reduceToNat] <;> omega
        have high :
            v / 64 % 64 + 128 ≤ (if v / 4096 % 16 = 13 then (0x9F : UInt8) else 0xBF).toNat := by
          split <;> simp only [UInt8.reduceToNat] <;> omega
        rw [List.cons_append, List.singleton_append,
          scan_lead (by omega) (lead?_three (by omega)) (by omega) low high,
          finish_cons _ _ (by omega), finish]
        rw [show (v / 4096 % 16 * 64 + v / 64 % 64) * 64 + v % 64 = v by omega, hc]
      · refine ⟨_, _, rfl, ?_⟩
        have low :
            (if v / 262144 % 8 = 0 then (0x90 : UInt8) else 0x80).toNat ≤ v / 4096 % 64 + 128 := by
          split <;> simp only [UInt8.reduceToNat] <;> omega
        have high : v / 4096 % 64 + 128 ≤
            (if v / 262144 % 8 = 4 then (0x8F : UInt8) else 0xBF).toNat := by
          split <;> simp only [UInt8.reduceToNat] <;> omega
        rw [List.cons_append, List.cons_append, List.singleton_append,
          scan_lead (by omega) (lead?_four (by omega)) (by omega) low high,
          finish_cons _ _ (by omega), finish_cons _ _ (by omega), finish]
        rw [show ((v / 262144 % 8 * 64 + v / 4096 % 64) * 64 + v / 64 % 64) * 64 + v % 64 = v by
          omega, hc]

/-! ## Decoding -/

theorem decodeOnto?_octets (acc cs : List Char) :
    decodeOnto? acc (octets cs) = some (acc.reverse ++ cs) := by
  induction cs generalizing acc with
  | nil => simp [decodeOnto?]
  | cons c cs ih =>
    obtain ⟨b, bs, hb, scanned⟩ := scan_encodeChar c (octets cs)
    rw [octets_cons, hb, List.cons_append, decodeOnto?]
    simp only [scanned, ih, List.reverse_cons, List.append_assoc, List.singleton_append]

/-- Decoding inverts encoding. -/
theorem decode?_encode (s : String) : decode? (encode s) = some s := by
  rw [decode?, encode_eq, decodeOnto?_octets]
  simp

/-! ## Order -/

theorem ofNat_lt_ofNat {n m : Nat} (hn : n < 256) (hm : m < 256) :
    UInt8.ofNat n < UInt8.ofNat m ↔ n < m := by
  rw [ofNat_lt hn, toNat_ofNat hm]

theorem ofNat_eq_ofNat {n m : Nat} (hn : n < 256) (hm : m < 256) :
    UInt8.ofNat n = UInt8.ofNat m ↔ n = m := by
  rw [ofNat_eq hn, toNat_ofNat hm]

/-- The octets of a smaller character come first, whatever follows: a longer
form has a greater first octet, and forms of one length are the digits of their
code points to the base 64. -/
theorem encodeChar_lt {c d : Char} (h : c < d) (xs ys : Bytes) :
    String.utf8EncodeChar c ++ xs < String.utf8EncodeChar d ++ ys := by
  have lt : c.val.toNat < d.val.toNat := h
  have bound : d.val.toNat < 0x110000 := by
    obtain hd | hd := d.valid
    · exact Nat.lt_trans hd (by decide)
    · exact hd.2
  have third (n : Nat) : n / 4096 = n / 64 / 64 := by omega
  have fourth (n : Nat) : n / 262144 = n / 64 / 64 / 64 := by omega
  unfold String.utf8EncodeChar
  generalize c.val.toNat = v at lt
  generalize d.val.toNat = w at lt bound
  simp only [third, fourth]
  repeat' split
  all_goals
    simp (disch := omega) only [List.cons_append, List.nil_append, List.cons_lt_cons_iff,
      ofNat_lt_ofNat, ofNat_eq_ofNat]
    omega

/-- Texts in their order have their octets in order. -/
theorem encode_lt {s t : String} (h : s < t) : encode s < encode t := by
  have lex : s.toList < t.toList := String.lt_iff.mp h
  rw [encode_eq, encode_eq]
  generalize s.toList = cs at lex
  generalize t.toList = ds at lex
  induction lex with
  | @nil d ds =>
    obtain ⟨b, bs, hb, -⟩ := scan_encodeChar d []
    rw [octets_cons, hb]
    exact List.nil_lt_cons _ _
  | rel h => exact encodeChar_lt h _ _
  | cons _ ih => exact List.append_left_lt ih

end Utf8

namespace Http.Header

/-- A field whose octets encode a printable text reads as this text. -/
theorem text?_encode {s : String} (name : String)
    (h : ∀ c ∈ s.toList, 32 ≤ c.toNat ∧ c.toNat ≤ 126) :
    text? ⟨name, Utf8.encode s⟩ = some s := by
  have octets := Utf8.octets_ascii fun c hc => show c.toNat < 128 by have := h c hc; omega
  have readable : (Utf8.encode s).all isReadable = true := by
    rw [Utf8.encode_eq, octets, List.all_map, List.all_eq_true]
    intro c hc
    have := h c hc
    simp [isReadable, UInt8.le_iff_toNat_le, UInt8.lt_iff_toNat_lt]
    omega
  have back : (Utf8.encode s).map (fun b => Char.ofNat b.toNat) = s.toList := by
    rw [Utf8.encode_eq, octets, List.map_map]
    refine (List.map_congr_left fun c hc => ?_).trans (List.map_id _)
    have := h c hc
    rw [Function.comp_apply, Utf8.toNat_ofNat (by omega), Char.ofNat_toNat]
    rfl
  rw [text?]
  simp only [readable, back, if_true, String.ofList_toList]

end Http.Header

end Switchboard
