import Switchboard.Proofs.JsonLexemes

/-!
# Switchboard.Proofs.JsonText

The compact text of a value reads as this value: for values whose nesting has
room and whose doubles, each by itself, read back.  A value is read in the
middle of a text as it is read alone, so lists and objects are read item by
item.
-/

namespace Switchboard.Json

open Utf8

/-! ## Measures of a value -/

mutual

/-- How deep lists and objects are nested in a value. -/
def depth : Json → Nat
  | .array items => itemsDepth items + 1
  | .object members => membersDepth members + 1
  | _ => 0

def itemsDepth : List Json → Nat
  | [] => 0
  | v :: rest => max v.depth (itemsDepth rest)

def membersDepth : List (String × Json) → Nat
  | [] => 0
  | (_, v) :: rest => max v.depth (membersDepth rest)

end

mutual

/-- The doubles in a value. -/
def reals : Json → List Binary64
  | .real x => [x]
  | .array items => itemsReals items
  | .object members => membersReals members
  | _ => []

def itemsReals : List Json → List Binary64
  | [] => []
  | v :: rest => v.reals ++ itemsReals rest

def membersReals : List (String × Json) → List Binary64
  | [] => []
  | (_, v) :: rest => v.reals ++ membersReals rest

end

/-- A double reads back from its own text. -/
def ReadsBack (x : Binary64) : Prop := ofText? x.text = some (.real x)

instance (x : Binary64) : Decidable (ReadsBack x) :=
  match h : ofText? x.text with
  | some (.real y) => decidable_of_iff (y = x) (by simp [ReadsBack, h])
  | some .null | some (.bool _) | some (.int _) | some (.string _) | some (.array _)
  | some (.object _) | none => isFalse (by simp [ReadsBack, h])

/-! ## Numbers -/

theorem skipBlanks_cons {b : UInt8} (h : isBlank b = false) (rest : Bytes) :
    skipBlanks (b :: rest) = b :: rest := by
  simp [skipBlanks, h]

theorem isBlank_of_isDigit {b : UInt8} (h : isDigit b = true) : isBlank b = false := by
  simp [isDigit, isBlank, UInt8.le_iff_toNat_le, ← UInt8.toNat_inj] at h ⊢
  omega

/-- The text of a number with its sign. -/
def signed (neg : Bool) (cs : List Char) : List Char := if neg then '-' :: cs else cs

theorem intChars_eq (i : Int) : intChars i = signed (decide (i < 0)) (natChars i.natAbs) := by
  simp [intChars, signed]

theorem Binary64.chars_eq (x : Binary64) :
    x.chars = signed x.negative (Binary64.magnitudeChars x.magnitude) := rfl

theorem natChars_numeral (n : Nat) : Numeral (natChars n) := by
  have all := natChars_digits n
  refine ⟨?_, fun c hc => .inl (all c hc)⟩
  cases h : natChars n with
  | nil => exact absurd h Nat.toDigits_ne_nil
  | cons c cs => exact ⟨c, rfl, all c (h ▸ List.mem_cons_self)⟩

theorem Numeral.ascii {cs : List Char} (h : Numeral cs) : ∀ c ∈ cs, c.toNat < 128 := by
  intro c hc
  obtain digit | mark := h.chars c hc
  · exact (isDigit_octet digit).1
  · have marks : ∀ c ∈ ['.', 'e', '+', '-'], c.toNat < 128 := forall_of_all (by decide)
    exact marks c mark

/-- The first octet of a number. -/
theorem Numeral.octets_cons {cs : List Char} (h : Numeral cs) :
    ∃ b bs, octets cs = b :: bs ∧ isDigit b = true := by
  have ascii := h.ascii
  obtain ⟨c, front, digit⟩ := h.head
  cases cs with
  | nil => cases front
  | cons d cs =>
    cases front
    rw [octets_cons_ascii (ascii _ List.mem_cons_self)]
    exact ⟨_, _, rfl, (isDigit_octet digit).2.1⟩

theorem Numeral.not_blank {cs : List Char} (h : Numeral cs) :
    ∀ b ∈ octets cs, isBlank b = false := by
  rw [octets_ascii h.ascii]
  intro b hb
  obtain ⟨c, hc, rfl⟩ := List.mem_map.mp hb
  obtain digit | mark := h.chars c hc
  · exact isBlank_of_isDigit (isDigit_octet digit).2.1
  · have marks : ∀ c ∈ ['.', 'e', '+', '-'], isBlank (UInt8.ofNat c.toNat) = false :=
      forall_of_all (by decide)
    exact marks c mark

theorem ne_of_isDigit {b d : UInt8} (h : isDigit b = true) (hd : isDigit d = false) : b ≠ d := by
  intro e
  rw [e, hd] at h
  cases h

theorem readValueWith_signed (list object : Bytes → Read Json) (neg : Bool) {cs : List Char}
    (h : Numeral cs) (rest : Bytes) :
    readValueWith list object (octets (signed neg cs) ++ rest) =
      readNumber neg (octets cs ++ rest) := by
  cases neg with
  | true => rfl
  | false =>
    obtain ⟨b, bs, first, digit⟩ := h.octets_cons
    rw [signed, if_neg (by decide), first, List.cons_append, readValueWith,
      skipBlanks_cons (isBlank_of_isDigit digit)]
    simp only
    rw [if_neg (ne_of_isDigit digit rfl), if_neg (ne_of_isDigit digit rfl),
      if_neg (ne_of_isDigit digit rfl), if_neg (ne_of_isDigit digit rfl), if_pos digit]

/-- An integer of a word is read in the middle of a text. -/
theorem readNumber_int {i : Int} (h : FitsWord i) {rest : Bytes} (hr : Delimited rest) :
    readNumber (decide (i < 0)) (octets (natChars i.natAbs) ++ rest) = .ok (.int i, rest) := by
  have bounds : -(9223372036854775808 : Int) ≤ i ∧ i < 18446744073709551616 := h
  have size : i.natAbs < UInt64.size := by
    rw [UInt64.size]
    omega
  have value : integer (decide (i < 0)) i.natAbs = .int i := by
    by_cases neg : i < 0
    · have inside : ¬ (i.natAbs = 0 ∨ 1 <<< 63 < i.natAbs) := by
        rw [show 1 <<< 63 = 9223372036854775808 from rfl]
        omega
      rw [integer, if_pos (decide_eq_true neg), if_neg inside]
      congr 1
      omega
    · rw [integer, if_neg (by simpa using neg)]
      congr 1
      omega
  obtain ⟨-, framed⟩ := readNumber_framed _ _ _ _ (readNumber_natChars (decide (i < 0)) size)
  rw [framed rest hr, value, List.nil_append]

theorem endInput_eq_ok {left : Bytes} {u : Unit} (h : endInput left = .ok u)
    (visible : ∀ b ∈ left, isBlank b = false) : left = [] := by
  cases left with
  | nil => rfl
  | cons b bs =>
    rw [endInput, skipBlanks_cons (visible b List.mem_cons_self)] at h
    cases h

/-- A double that reads back alone is read in the middle of a text. -/
theorem readNumber_real {x : Binary64} (h : ReadsBack x) {rest : Bytes} (hr : Delimited rest) :
    readNumber x.negative (octets (Binary64.magnitudeChars x.magnitude) ++ rest) =
      .ok (.real x, rest) := by
  have numeral := magnitudeChars_numeral x.magnitude
  have alone := readValueWith_signed
    (fun rest => (readItems (readValue 126) [] true (fuelFor rest) rest).map
      fun p => (.array p.1, p.2))
    (fun rest => (readMembers (readValue 126) .empty true (fuelFor rest) rest).map
      fun p => (.ofDict p.1, p.2))
    x.negative numeral []
  rw [ReadsBack, ofText?, Binary64.text, encode_eq, String.toList_ofList, read] at h
  rw [List.append_nil, List.append_nil, ← Binary64.chars_eq] at alone
  rw [nestingLimit, readValue, alone] at h
  cases hn : readNumber x.negative (octets (Binary64.magnitudeChars x.magnitude)) with
  | error f =>
    rw [hn] at h
    cases h
  | ok p =>
    obtain ⟨v, left⟩ := p
    obtain ⟨suffix, framed⟩ := readNumber_framed _ _ _ _ hn
    rw [hn] at h
    cases he : endInput left with
    | error f =>
      simp only [he] at h
      cases h
    | ok u =>
      have nothing := endInput_eq_ok he fun b hb => numeral.not_blank b (suffix.mem hb)
      simp only [he] at h
      cases h
      rw [framed rest hr, nothing, List.nil_append]

/-! ## Lists and objects -/

/-- An octet that a value begins with. -/
def Opens (b : UInt8) : Prop := isBlank b = false ∧ b ≠ 93

theorem octets_signed {cs : List Char} (h : Numeral cs) (neg : Bool) :
    ∃ b bs, octets (signed neg cs) = b :: bs ∧ Opens b := by
  cases neg with
  | true => exact ⟨45, octets cs, rfl, by decide, by decide⟩
  | false =>
    obtain ⟨b, bs, first, digit⟩ := h.octets_cons
    exact ⟨b, bs, first, isBlank_of_isDigit digit, ne_of_isDigit digit rfl⟩

theorem octets_chars (v : Json) : ∃ b bs, octets v.chars = b :: bs ∧ Opens b := by
  cases v with
  | null => exact ⟨110, _, rfl, by decide, by decide⟩
  | bool b =>
    cases b with
    | false => exact ⟨102, _, rfl, by decide, by decide⟩
    | true => exact ⟨116, _, rfl, by decide, by decide⟩
  | int i =>
    rw [chars, intChars_eq]
    exact octets_signed (natChars_numeral _) _
  | real x =>
    rw [chars]
    exact octets_signed (magnitudeChars_numeral _) _
  | string s => exact ⟨34, _, rfl, by decide, by decide⟩
  | array items =>
    cases items with
    | nil => exact ⟨91, _, rfl, by decide, by decide⟩
    | cons v rest => exact ⟨91, _, rfl, by decide, by decide⟩
  | object members =>
    cases members with
    | nil => exact ⟨123, _, rfl, by decide, by decide⟩
    | cons m rest => exact ⟨123, _, rfl, by decide, by decide⟩

/-- The text of an item or a member, behind a comma unless it is the first. -/
def separated (first : Bool) (text : Bytes) : Bytes := if first then text else 44 :: text

theorem nextItem_separated (first : Bool) {b : UInt8} (h : Opens b) (bs : Bytes) :
    nextItem first (separated first (b :: bs)) = .ok (some (b :: bs)) := by
  obtain ⟨blank, close⟩ := h
  cases first with
  | true => simp [separated, nextItem, skipBlanks_cons blank, close]
  | false =>
    have comma : skipBlanks (44 :: b :: bs) = 44 :: b :: bs := skipBlanks_cons rfl _
    simp [separated, nextItem, comma, skipBlanks_cons blank, close]

theorem nextMember_separated (first : Bool) (bs : Bytes) :
    nextMember first (separated first (34 :: bs)) = .ok (some bs) := by
  cases first <;> rfl

theorem octets_quotedChars (k : String) (rest : Bytes) :
    octets (quotedChars k.toList) ++ rest =
      34 :: (octets (k.toList.flatMap escapeChar) ++ 34 :: rest) := by
  rw [quotedChars, octets_cons_ascii (by decide), octets_append, octets_cons_ascii (by decide),
    octets_nil, List.cons_append, List.append_assoc, List.singleton_append]
  rfl

theorem octets_member (key : String) (v : Json) (ms : List (String × Json)) (rest : Bytes) :
    octets (quotedChars key.toList ++ ':' :: (v.chars ++ membersChars ms)) ++ rest =
      octets (quotedChars key.toList) ++
        58 :: (octets v.chars ++ (octets (membersChars ms) ++ rest)) := by
  rw [octets_append, octets_cons_ascii (by decide), octets_append, List.append_assoc,
    List.cons_append, List.append_assoc]
  rfl

/-- One item of a list. -/
theorem readItems_item {item : Bytes → Read Json} {v : Json} {rest : Bytes}
    (reads : item (octets v.chars ++ rest) = .ok (v, rest)) (acc : List Json) (first : Bool)
    (t : UInt8) (fuel : Bytes) :
    readItems item acc first (t :: fuel) (separated first (octets v.chars ++ rest)) =
      readItems item (v :: acc) false fuel rest := by
  obtain ⟨b, bs, front, opens⟩ := octets_chars v
  rw [front, List.cons_append] at reads ⊢
  rw [readItems, nextItem_separated first opens]
  simp only [reads]

/-- One member of an object. -/
theorem readMembers_member {value : Bytes → Read Json} {v : Json} {rest : Bytes}
    (reads : value (octets v.chars ++ rest) = .ok (v, rest)) (acc : Dict Json) (first : Bool)
    (key : String) (t : UInt8) (fuel : Bytes) :
    readMembers value acc first (t :: fuel)
        (separated first (octets (quotedChars key.toList) ++ 58 :: (octets v.chars ++ rest))) =
      readMembers value (acc.insert key v) false fuel rest := by
  have colon : readColon (58 :: (octets v.chars ++ rest)) = .ok (octets v.chars ++ rest) := rfl
  rw [octets_quotedChars, readMembers, nextMember_separated]
  simp only [readString_quoted, colon, reads]

theorem itemsChars_delimited (vs : List Json) (rest : Bytes) :
    Delimited (octets (itemsChars vs) ++ rest) := by
  intro b hb
  cases vs with
  | nil =>
    cases hb
    decide
  | cons v vs =>
    cases hb
    decide

theorem membersChars_delimited (ms : List (String × Json)) (rest : Bytes) :
    Delimited (octets (membersChars ms) ++ rest) := by
  intro b hb
  cases ms with
  | nil =>
    cases hb
    decide
  | cons m ms =>
    cases hb
    decide

theorem length_itemsChars (vs : List Json) : vs.length < (octets (itemsChars vs)).length := by
  induction vs with
  | nil => decide
  | cons v vs ih =>
    rw [itemsChars, octets_cons_ascii (by decide), octets_append]
    simp only [List.length_cons, List.length_append]
    omega

theorem length_membersChars (ms : List (String × Json)) :
    ms.length < (octets (membersChars ms)).length := by
  induction ms with
  | nil => decide
  | cons m ms ih =>
    rw [membersChars, octets_cons_ascii (by decide), octets_append, octets_cons_ascii (by decide),
      octets_append]
    simp only [List.length_cons, List.length_append]
    omega

/-! ## Values -/

/-- There are levels enough for a value, and its doubles read back. -/
structure Readable (d : Nat) (v : Json) : Prop where
  well : v.WellFormed
  deep : v.depth ≤ d
  back : ∀ x ∈ v.reals, ReadsBack x

theorem readable_items {d : Nat} {vs : List Json} (well : WellFormedItems vs)
    (deep : itemsDepth vs ≤ d) (back : ∀ x ∈ itemsReals vs, ReadsBack x) :
    ∀ v ∈ vs, Readable d v := by
  induction vs with
  | nil => simp
  | cons v vs ih =>
    obtain ⟨v_deep, vs_deep⟩ := Nat.max_le.mp deep
    obtain ⟨v_back, vs_back⟩ := List.forall_mem_append.mp back
    exact List.forall_mem_cons.mpr ⟨⟨well.1, v_deep, v_back⟩, ih well.2 vs_deep vs_back⟩

theorem readable_members {d : Nat} {ms : List (String × Json)} (well : WellFormedMembers ms)
    (deep : membersDepth ms ≤ d) (back : ∀ x ∈ membersReals ms, ReadsBack x) :
    ∀ m ∈ ms, Readable d m.2 := by
  induction ms with
  | nil => simp
  | cons m ms ih =>
    obtain ⟨m_deep, ms_deep⟩ := Nat.max_le.mp deep
    obtain ⟨m_back, ms_back⟩ := List.forall_mem_append.mp back
    exact List.forall_mem_cons.mpr ⟨⟨well.1, m_deep, m_back⟩, ih well.2 ms_deep ms_back⟩

mutual

/-- The text of a value is read in the middle of a text. -/
theorem readValue_chars : ∀ (v : Json) (d : Nat) (rest : Bytes), Readable d v → Delimited rest →
    readValue d (octets v.chars ++ rest) = .ok (v, rest)
  | .null, d, rest, _, _ => by cases d <;> rfl
  | .bool true, d, rest, _, _ => by cases d <;> rfl
  | .bool false, d, rest, _, _ => by cases d <;> rfl
  | .int i, d, rest, h, hr => by
    rw [chars, intChars_eq]
    cases d <;> rw [readValue, readValueWith_signed _ _ _ (natChars_numeral _),
      readNumber_int h.well hr]
  | .real x, d, rest, h, hr => by
    have back : ReadsBack x := h.back x (by simp [reals])
    rw [chars, Binary64.chars_eq]
    cases d <;> rw [readValue, readValueWith_signed _ _ _ (magnitudeChars_numeral _),
      readNumber_real back hr]
  | .string s, d, rest, _, _ => by
    have string (list object : Bytes → Read Json) :
        readValueWith list object (34 :: (octets (s.toList.flatMap escapeChar) ++ 34 :: rest)) =
          (readString (octets (s.toList.flatMap escapeChar) ++ 34 :: rest)).map
            fun p => (.string p.1, p.2) := rfl
    rw [chars, octets_quotedChars]
    cases d <;> rw [readValue, string, readString_quoted] <;> rfl
  | .array vs, 0, _, h, _ => absurd h.deep (Nat.not_succ_le_zero _)
  | .array [], _ + 1, _, _, _ => rfl
  | .array (v :: vs), d + 1, rest, h, _ => by
    have items := readable_items h.well (Nat.le_of_succ_le_succ h.deep) h.back
    obtain ⟨first, others⟩ := List.forall_mem_cons.mp items
    -- The whole text behind the bracket is fuel, and every item takes some of it.
    have enough : vs.length < (octets v.chars ++ (octets (itemsChars vs) ++ rest)).length := by
      have := length_itemsChars vs
      simp only [List.length_append]
      omega
    have v_reads := readValue_chars v d _ first (itemsChars_delimited vs rest)
    have all :=
      readItems_item v_reads [] true 0 (octets v.chars ++ (octets (itemsChars vs) ++ rest))
    rw [separated, if_pos rfl, readItems_chars vs d [v] _ rest others enough] at all
    rw [chars, octets_cons_ascii (by decide), octets_append, List.cons_append, List.append_assoc,
      readValue]
    show Except.map _ (readItems _ _ _ _ _) = _
    rw [fuelFor, all]
    rfl
  | .object ms, 0, _, h, _ => absurd h.deep (Nat.not_succ_le_zero _)
  | .object [], _ + 1, _, _, _ => rfl
  | .object ((k, v) :: ms), d + 1, rest, h, _ => by
    have members := readable_members h.well.2 (Nat.le_of_succ_le_succ h.deep) h.back
    obtain ⟨first, others⟩ := List.forall_mem_cons.mp members
    let text := octets (quotedChars k.toList) ++
      58 :: (octets v.chars ++ (octets (membersChars ms) ++ rest))
    have enough : ms.length < text.length := by
      have := length_membersChars ms
      simp only [text, List.length_append, List.length_cons]
      omega
    have v_reads := readValue_chars v d _ first (membersChars_delimited ms rest)
    have all := readMembers_member v_reads .empty true k 0 text
    rw [separated, if_pos rfl, readMembers_chars ms d _ text rest others enough] at all
    have sorted := Dict.entries_insertAll Dict.empty ((k, v) :: ms) h.well.1
    rw [chars, octets_cons_ascii (by decide), List.cons_append, octets_member, readValue]
    show Except.map _ (readMembers _ _ _ _ _) = _
    rw [fuelFor]
    refine (congrArg _ all).trans ?_
    exact congrArg (fun e => Except.ok (Json.object e, rest)) sorted

theorem readItems_chars : ∀ (vs : List Json) (d : Nat) (acc : List Json) (fuel rest : Bytes),
    (∀ v ∈ vs, Readable d v) → vs.length < fuel.length →
    readItems (readValue d) acc false fuel (octets (itemsChars vs) ++ rest) =
      .ok (acc.reverse ++ vs, rest)
  | [], d, acc, t :: fuel, rest, _, _ => by
    rw [List.append_nil]
    rfl
  | v :: vs, d, acc, t :: fuel, rest, h, enough => by
    obtain ⟨first, others⟩ := List.forall_mem_cons.mp h
    have text : octets (itemsChars (v :: vs)) ++ rest =
        separated false (octets v.chars ++ (octets (itemsChars vs) ++ rest)) := by
      rw [itemsChars, octets_cons_ascii (by decide), octets_append, List.cons_append,
        List.append_assoc]
      rfl
    rw [text, readItems_item (readValue_chars v d _ first (itemsChars_delimited vs rest)),
      readItems_chars vs d (v :: acc) fuel rest others (Nat.lt_of_succ_lt_succ enough),
      List.reverse_cons, List.append_assoc, List.singleton_append]

theorem readMembers_chars : ∀ (ms : List (String × Json)) (d : Nat) (acc : Dict Json)
    (fuel rest : Bytes), (∀ m ∈ ms, Readable d m.2) → ms.length < fuel.length →
    readMembers (readValue d) acc false fuel (octets (membersChars ms) ++ rest) =
      .ok (acc.insertAll ms, rest)
  | [], d, acc, t :: fuel, rest, _, _ => rfl
  | (k, v) :: ms, d, acc, t :: fuel, rest, h, enough => by
    obtain ⟨first, others⟩ := List.forall_mem_cons.mp h
    have text : octets (membersChars ((k, v) :: ms)) ++ rest =
        separated false (octets (quotedChars k.toList) ++
          58 :: (octets v.chars ++ (octets (membersChars ms) ++ rest))) := by
      rw [membersChars, octets_cons_ascii (by decide), List.cons_append, octets_member]
      rfl
    rw [text, readMembers_member (readValue_chars v d _ first (membersChars_delimited ms rest)),
      readMembers_chars ms d (acc.insert k v) fuel rest others (Nat.lt_of_succ_lt_succ enough),
      Dict.insertAll_cons]

end

/-- The compact text of a value reads as this value. -/
theorem read_text {v : Json} (h : Readable nestingLimit v) : read (encode v.text) = .ok v := by
  have reads := readValue_chars v nestingLimit [] h (by intro b hb; cases hb)
  rw [List.append_nil] at reads
  rw [text, encode_eq, String.toList_ofList, read, reads]
  rfl

end Switchboard.Json
