import Switchboard.Scheduler.FanIn

/-!
# Switchboard.Proofs.FanIn

When a group is decided, and how.  A group succeeds when all its members have,
with their values in order.  It fails with the first failure in the order of
the members that has nothing in its way: in a small group another failure, in
a large group anything but a value.
-/

namespace Switchboard.FanIn

variable {slots rest : List (Option Answer)} {a x : Option Answer} {f : Failure}
  {P : Option Answer → Prop} {vs : List Json}

/-- An entry that can be reached past others that let it through. -/
def Reaches (P : Option Answer → Prop) (x : Option Answer) (slots : List (Option Answer)) : Prop :=
  ∃ i : Nat, slots[i]? = some x ∧ ∀ j < i, ∀ a, slots[j]? = some a → P a

theorem reaches_nil : ¬ Reaches P x [] := by
  rintro ⟨i, hi, -⟩
  simp at hi

theorem reaches_cons : Reaches P x (a :: rest) ↔ a = x ∨ P a ∧ Reaches P x rest := by
  constructor
  · rintro ⟨_ | i, hi, hlt⟩
    · exact .inl (by simpa using hi)
    · exact .inr ⟨hlt 0 (Nat.succ_pos i) a rfl, i, by simpa using hi,
        fun j hj b hb => hlt (j + 1) (Nat.succ_lt_succ hj) b (by simpa using hb)⟩
  · rintro (rfl | ⟨ha, i, hi, hlt⟩)
    · exact ⟨0, rfl, fun j hj => absurd hj (Nat.not_lt_zero j)⟩
    · refine ⟨i + 1, by simpa using hi, fun j hj b hb => ?_⟩
      cases j with
      | zero => cases hb; exact ha
      | succ j => exact hlt j (Nat.lt_of_succ_lt_succ hj) b (by simpa using hb)

/-- What lets a failure through in a group whose answers are looked at
together, or in order. -/
def LetsBy (size : Nat) (a : Option Answer) : Prop :=
  if size ≤ togetherLimit then ∀ g, a ≠ some (.error g) else ∃ v, a = some (.ok v)

theorem firstFailure?_eq_some :
    firstFailure? slots = some f ↔
      Reaches (fun a => ∀ g, a ≠ some (.error g)) (some (.error f)) slots := by
  induction slots with
  | nil => simp [firstFailure?, reaches_nil]
  | cons a rest ih =>
      rw [reaches_cons]
      rcases a with _ | (g | v) <;> simp [firstFailure?, ih]

theorem values?_eq_some : values? slots = some vs ↔ slots = vs.map fun v => some (.ok v) := by
  induction slots generalizing vs with
  | nil => cases vs <;> simp [values?]
  | cons a rest ih =>
      rcases a with _ | (g | v)
      · cases vs <;> simp [values?]
      · cases vs <;> simp [values?]
      · simp only [values?, Option.map_eq_some_iff, ih]
        cases vs with
        | nil => simp
        | cons w vs => simp only [List.map_cons, List.cons.injEq]; grind

theorem inOrder?_eq_ok : inOrder? slots = some (.ok vs) ↔ slots = vs.map fun v => some (.ok v) := by
  induction slots generalizing vs with
  | nil => cases vs <;> simp [inOrder?]
  | cons a rest ih =>
      rcases a with _ | (g | v)
      · cases vs <;> simp [inOrder?]
      · cases vs <;> simp [inOrder?]
      · have hmap (r : Except Failure (List Json)) :
            r.map (v :: ·) = .ok vs ↔ ∃ ws, r = .ok ws ∧ v :: ws = vs := by
          cases r <;> simp [Except.map]
        simp only [inOrder?, Option.map_eq_some_iff, hmap]
        cases vs with
        | nil => simp
        | cons w vs => simp only [List.map_cons, List.cons.injEq]; grind

theorem inOrder?_eq_error :
    inOrder? slots = some (.error f) ↔
      Reaches (fun a => ∃ v, a = some (.ok v)) (some (.error f)) slots := by
  induction slots with
  | nil => simp [inOrder?, reaches_nil]
  | cons a rest ih =>
      rw [reaches_cons, ← ih]
      rcases a with _ | (g | v)
      · simp [inOrder?]
      · simp [inOrder?]
      · have hmap (r : Except Failure (List Json)) : r.map (v :: ·) = .error f ↔ r = .error f := by
          cases r <;> simp [Except.map]
        simp [inOrder?, hmap]

/-- A group succeeds when all its members have. -/
theorem outcome?_eq_ok : outcome? slots = some (.ok vs) ↔ slots = vs.map fun v => some (.ok v) := by
  unfold outcome?
  split
  · unfold together?
    split
    · next f hf =>
      obtain ⟨i, hi, -⟩ := firstFailure?_eq_some.1 hf
      refine ⟨fun h => (by cases h), ?_⟩
      rintro rfl
      simp at hi
    · simp [values?_eq_some]
  · exact inOrder?_eq_ok

/-- A group fails with the first failure that is let through. -/
theorem outcome?_eq_error :
    outcome? slots = some (.error f) ↔ Reaches (LetsBy slots.length) (some (.error f)) slots := by
  unfold outcome? LetsBy
  split
  · simp only [← firstFailure?_eq_some]
    unfold together?
    split <;> simp [*]
  · exact inOrder?_eq_error

/-- A group in which every member has answered is decided. -/
theorem exists_none_of_outcome?_eq_none (h : outcome? slots = none) : none ∈ slots := by
  have inOrder {slots : List (Option Answer)} (h : inOrder? slots = none) : none ∈ slots := by
    induction slots with
    | nil => cases h
    | cons a rest ih =>
        rcases a with _ | (g | v)
        · exact List.mem_cons_self
        · cases h
        · exact List.mem_cons_of_mem _ (ih (by simpa [inOrder?] using h))
  have values {slots : List (Option Answer)} (hf : firstFailure? slots = none)
      (h : values? slots = none) : none ∈ slots := by
    induction slots with
    | nil => cases h
    | cons a rest ih =>
        rcases a with _ | (g | v)
        · exact List.mem_cons_self
        · cases hf
        · exact List.mem_cons_of_mem _
            (ih (by simpa [firstFailure?] using hf) (by simpa [values?] using h))
  unfold outcome? together? at h
  split at h
  · split at h
    · cases h
    · next hf => exact values hf (by simpa using h)
  · exact inOrder h

theorem exists_firstFailure? (h : some (.error f) ∈ slots) : ∃ g, firstFailure? slots = some g := by
  induction slots with
  | nil => cases h
  | cons a rest ih =>
      rcases a with _ | (g | v)
      · exact (ih (by simpa using h)).imp fun g hg => by simpa [firstFailure?] using hg
      · exact ⟨g, rfl⟩
      · exact (ih (by simpa using h)).imp fun g hg => by simpa [firstFailure?] using hg

/-- What is decided stays decided when more members answer. -/
theorem outcome?_ne_none_of_le {slots' : List (Option Answer)} (hlen : slots'.length = slots.length)
    (hle : ∀ (i : Nat) b, slots[i]? = some (some b) → slots'[i]? = some (some b))
    (h : outcome? slots ≠ none) : outcome? slots' ≠ none := by
  obtain ⟨r, hr⟩ := Option.ne_none_iff_exists'.1 h
  cases r with
  | ok vs =>
      have hsame : slots' = slots := by
        refine List.ext_getElem? fun i => ?_
        rw [outcome?_eq_ok] at hr
        by_cases hi : i < slots.length
        · obtain ⟨v, hv⟩ : ∃ v, slots[i]? = some (some (.ok v)) := by simp_all
          rw [hv, hle i _ hv]
        · rw [List.getElem?_eq_none (by omega), List.getElem?_eq_none (by omega)]
      rw [hsame]
      exact h
  | error f =>
      obtain ⟨i, hi, before⟩ := outcome?_eq_error.1 hr
      by_cases hsize : slots.length ≤ togetherLimit
      · obtain ⟨g, hg⟩ := exists_firstFailure? (List.mem_of_getElem? (hle i _ hi))
        simp [outcome?, hlen, hsize, together?, hg]
      · have : outcome? slots' = some (.error f) := by
          refine outcome?_eq_error.2 ⟨i, hle i _ hi, fun j hj a ha => ?_⟩
          have hjlen : j < slots.length := by
            have := (List.getElem?_eq_some_iff.1 hi).1
            omega
          obtain ⟨b, hb⟩ : ∃ b, slots[j]? = some b := ⟨_, List.getElem?_eq_getElem hjlen⟩
          have letsBy := before j hj b hb
          rw [LetsBy, if_neg hsize] at letsBy
          obtain ⟨v, rfl⟩ := letsBy
          rw [hle j _ hb] at ha
          rw [LetsBy, hlen, if_neg hsize]
          exact ⟨v, (Option.some.inj ha).symm⟩
        rw [this]
        simp

theorem outcome?_replicate_none {k : Nat} (hk : k ≠ 0) :
    outcome? (List.replicate k none) = none := by
  cases h : outcome? (List.replicate k none) with
  | none => rfl
  | some r =>
      cases r with
      | error f =>
          obtain ⟨i, hi, -⟩ := outcome?_eq_error.1 h
          simp [List.getElem?_replicate] at hi
      | ok vs =>
          have hn : (none : Option Answer) ∈ List.replicate k none := List.mem_replicate.2 ⟨hk, rfl⟩
          rw [outcome?_eq_ok.1 h] at hn
          simp at hn

end Switchboard.FanIn
