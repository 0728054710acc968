import Switchboard.Proofs.Octets
import Switchboard.Registry

/-!
# Switchboard.Proofs.Registration

What a registry makes of the registrations that have led to it.  Two lists that
are merged are one history, in which the overrides stand behind the base.  Of
the registrations of a name the last one counts, and those of other names make
no difference to it.

* `Interpreters.Latest` — the last registration of a name in a history;
* `Registry.Reflects` — a registry that is what a history has come to;
* `reflects_extend` — registering one after another;
* `last_registration_wins` — every two lists that are merged.
-/

namespace Switchboard

variable {σ : Type}

/-! ## Histories -/

namespace Interpreters

variable {history : Interpreters σ} {name : String} {resolver : Resolver σ}

/-- A resolver is the last one that was registered under a name. -/
def Latest (history : Interpreters σ) (name : String) (resolver : Resolver σ) : Prop :=
  ∃ before behind : Interpreters σ,
    history = before ++ (name, resolver) :: behind ∧ name ∉ behind.names

theorem not_mem_names_iff : name ∉ history.names ↔ ∀ p ∈ history, p.1 ≠ name := by
  simp only [names, List.mem_map, not_exists, not_and, ne_eq]

/-- The last one of the registrations of a name. -/
theorem latest_iff :
    history.Latest name resolver ↔
      (history.filter (·.1 = name)).getLast? = some (name, resolver) := by
  rw [List.getLast?_filter, List.find?_eq_some_iff_append]
  constructor
  · rintro ⟨before, behind, rfl, absent⟩
    refine ⟨decide_eq_true rfl, behind.reverse, before.reverse, by simp, fun p hp => ?_⟩
    simpa using not_mem_names_iff.mp absent p (List.mem_reverse.mp hp)
  · rintro ⟨-, behind, before, reversed, absent⟩
    refine ⟨before.reverse, behind.reverse, ?_, not_mem_names_iff.mpr fun p hp => ?_⟩
    · rw [← history.reverse_reverse, reversed]
      simp
    · simpa using absent p (List.mem_reverse.mp hp)

/-- A name that occurs has a last registration. -/
theorem exists_latest (occurs : name ∈ history.names) :
    ∃ resolver, history.Latest name resolver := by
  obtain ⟨p, hp, rfl⟩ := List.mem_map.mp occurs
  have found : p ∈ history.filter (·.1 = p.1) := List.mem_filter.mpr ⟨hp, decide_eq_true rfl⟩
  obtain ⟨q, hq⟩ := Option.isSome_iff_exists.mp
    (List.getLast?_isSome.mpr (List.ne_nil_of_mem found))
  have same : q.1 = p.1 := of_decide_eq_true (List.mem_filter.mp (List.mem_of_getLast? hq)).2
  exact ⟨q.2, latest_iff.mpr (by rw [hq, ← same])⟩

theorem Latest.mem_names (h : history.Latest name resolver) : name ∈ history.names := by
  obtain ⟨before, behind, rfl, -⟩ := h
  simp [names]

end Interpreters

/-! ## Registries -/

namespace Registry

variable {r : Registry σ} {history more : Interpreters σ} {name : String} {resolver : Resolver σ}
  {ambient : Context} {c : Command}

/-- A registry is what a history of registrations has come to. -/
structure Reflects (r : Registry σ) (history : Interpreters σ) : Prop where
  /-- A name stands for the resolver that was registered under it last, -/
  found (name : String) (resolver : Resolver σ) :
    r.get? name = some resolver ↔ history.Latest name resolver
  /-- and it is this resolver that answers commands of the name. -/
  answered (ambient : Context) (c : Command) (resolver : Resolver σ) :
    history.Latest c.name resolver → r.resolve ambient c = resolver c.payload ambient
  /-- For all other names, and for no others, there is nobody to answer. -/
  unanswered (ambient : Context) (c : Command) :
    r.job? ambient c = none ↔ c.name ∉ history.names
  /-- A command fails as unknown if its name does not occur, and at once.  It does
  not if the name occurs, unless this is what the resolver itself answers. -/
  unknown (ambient : Context) (c : Command) :
    r.resolve ambient c = .done (.error (.unknownCommand c.name)) ↔
      c.name ∉ history.names ∨ ∃ resolver, history.Latest c.name resolver ∧
        resolver c.payload ambient = .done (.error (.unknownCommand c.name))
  contains (name : String) : r.contains name = true ↔ name ∈ history.names
  listed (name : String) : name ∈ r.names ↔ name ∈ history.names
  /-- Every name is listed once, in the order of the octets. -/
  increasing : (r.names.map Utf8.encode).Pairwise (· < ·)
  size : r.size = r.names.length

theorem contains_iff : r.contains name = true ↔ ∃ resolver, r.get? name = some resolver :=
  Option.isSome_iff_exists

theorem mem_names : name ∈ r.names ↔ r.contains name = true := by
  rw [contains_iff, names, Dict.keys, List.mem_map]
  constructor
  · rintro ⟨e, he, rfl⟩
    exact ⟨e.2, r.resolvers.get?_eq_some_iff.mpr he⟩
  · rintro ⟨resolver, found⟩
    exact ⟨_, r.resolvers.get?_eq_some_iff.mp found, rfl⟩

theorem increasing_names (r : Registry σ) : (r.names.map Utf8.encode).Pairwise (· < ·) := by
  rw [names, Dict.keys, List.pairwise_map, List.pairwise_map]
  exact r.resolvers.sorted.imp Utf8.encode_lt

theorem resolve_of_get? (found : r.get? c.name = some resolver) :
    r.resolve ambient c = resolver c.payload ambient := by
  rw [resolve, job?, found]
  rfl

theorem resolve_of_job? (nobody : r.job? ambient c = none) :
    r.resolve ambient c = .done (.error (.unknownCommand c.name)) := by
  rw [resolve, nobody]
  rfl

/-- What the names stand for tells all the rest. -/
theorem Reflects.of_found
    (found : ∀ name resolver, r.get? name = some resolver ↔ history.Latest name resolver) :
    r.Reflects history := by
  have contains (name : String) : r.contains name = true ↔ name ∈ history.names := by
    rw [contains_iff]
    constructor
    · rintro ⟨resolver, h⟩
      exact ((found name resolver).mp h).mem_names
    · intro occurs
      obtain ⟨resolver, latest⟩ := Interpreters.exists_latest occurs
      exact ⟨resolver, (found name resolver).mpr latest⟩
  have unanswered (ambient : Context) (c : Command) :
      r.job? ambient c = none ↔ c.name ∉ history.names := by
    rw [← contains c.name, ← r.isSome_job? ambient c, Option.not_isSome_iff_eq_none]
  have answered (ambient : Context) (c : Command) (resolver : Resolver σ)
      (latest : history.Latest c.name resolver) :
      r.resolve ambient c = resolver c.payload ambient :=
    resolve_of_get? ((found c.name resolver).mpr latest)
  refine ⟨found, answered, unanswered, fun ambient c => ?_, contains,
    fun name => mem_names.trans (contains name), r.increasing_names, ?_⟩
  · constructor
    · intro failed
      by_cases occurs : c.name ∈ history.names
      · obtain ⟨resolver, latest⟩ := Interpreters.exists_latest occurs
        exact .inr ⟨resolver, latest, (answered ambient c resolver latest).symm.trans failed⟩
      · exact .inl occurs
    · rintro (absent | ⟨resolver, latest, failed⟩)
      · exact resolve_of_job? ((unanswered ambient c).mpr absent)
      · exact (answered ambient c resolver latest).trans failed
  · exact (List.length_map _).symm

/-! ## Registering one after another -/

theorem extend_append (r : Registry σ) (history more : Interpreters σ) :
    r.extend (history ++ more) = (r.extend history).extend more :=
  congrArg Registry.mk (Dict.insertAll_append _ _ _)

/-- Two lists that are merged are one history. -/
theorem merge_eq (base overrides : Interpreters σ) :
    merge base overrides = empty.extend (base ++ overrides) := (extend_append _ _ _).symm

/-- Registering a list is registering one resolver after another. -/
theorem extend_eq_foldl (r : Registry σ) (more : Interpreters σ) :
    r.extend more = more.foldl (fun r p => r.register p.1 p.2) r := by
  induction more generalizing r with
  | nil => rfl
  | cons p more ih => exact ih (r.register p.1 p.2)

theorem get?_extend (history : Interpreters σ) (name : String) :
    (empty.extend history).get? name = (history.filter (·.1 = name)).getLast?.map (·.2) :=
  Dict.get?_ofList history name

theorem reflects_extend (history : Interpreters σ) : (empty.extend history).Reflects history := by
  refine .of_found fun name resolver => ?_
  rw [get?_extend, Option.map_eq_some_iff, Interpreters.latest_iff]
  constructor
  · rintro ⟨p, last, rfl⟩
    have same : p.1 = name := of_decide_eq_true (List.mem_filter.mp (List.mem_of_getLast? last)).2
    rw [last, ← same]
  · intro last
    exact ⟨_, last, rfl⟩

/-- Merging lists of registrations, in which names may be repeated, is registering
one after another: each name stands for the resolver that was registered under it
last.  Where the first list ends and the second one begins makes no difference,
and what a name stands for depends on the registrations of this name alone. -/
theorem last_registration_wins (base overrides : Interpreters σ) :
    (merge base overrides).Reflects (base ++ overrides) ∧
    merge base overrides = (base ++ overrides).foldl (fun r p => r.register p.1 p.2) empty ∧
    (∀ base' overrides', base' ++ overrides' = base ++ overrides →
      merge base' overrides' = merge base overrides) ∧
    ∀ base' overrides' name,
      (base' ++ overrides').filter (·.1 = name) = (base ++ overrides).filter (·.1 = name) →
      (merge base' overrides').get? name = (merge base overrides).get? name ∧
      ∀ ambient payload, (merge base' overrides').resolve ambient ⟨name, payload⟩ =
        (merge base overrides).resolve ambient ⟨name, payload⟩ := by
  refine ⟨?_, ?_, ?_, ?_⟩
  · rw [merge_eq]
    exact reflects_extend _
  · rw [merge_eq, extend_eq_foldl]
  · intro base' overrides' same
    rw [merge_eq, merge_eq, same]
  · intro base' overrides' name same
    have found : (merge base' overrides').get? name = (merge base overrides).get? name := by
      rw [merge_eq, merge_eq, get?_extend, get?_extend, same]
    refine ⟨found, fun ambient payload => ?_⟩
    rw [resolve, resolve, job?, job?, found]

/-- A name that is repeated in both lists, and the same registrations of it among
others. -/
theorem last_registration_wins_repeated :
    let answer (n : Int) : Resolver Unit := fun _ _ => .done (.ok (.int n))
    let base : Interpreters Unit := [("echo", answer 1), ("keep", answer 2), ("echo", answer 3)]
    let overrides : Interpreters Unit := [("x", answer 4), ("echo", answer 5), ("x", answer 6)]
    let r := merge base overrides
    let others : Interpreters Unit := [("keep", answer 7), ("echo", answer 1), ("echo", answer 3)]
    r.resolve .empty ⟨"echo", .null⟩ = .done (.ok (.int 5)) ∧
      r.resolve .empty ⟨"none", .null⟩ = .done (.error (.unknownCommand "none")) ∧
      (∀ name, name ∈ r.names ↔ name ∈ ["echo", "keep", "echo", "x", "echo", "x"]) ∧
      merge (base ++ [("x", answer 4)]) [("echo", answer 5), ("x", answer 6)] = r ∧
      (merge others [("echo", answer 5)]).get? "echo" = r.get? "echo" := by
  intro answer base overrides r others
  obtain ⟨reflects, -, split, alone⟩ := last_registration_wins base overrides
  have latest : Interpreters.Latest (base ++ overrides) "echo" (answer 5) :=
    ⟨base ++ [("x", answer 4)], [("x", answer 6)], rfl, by decide⟩
  exact ⟨reflects.answered .empty ⟨"echo", .null⟩ _ latest,
    (reflects.unknown .empty ⟨"none", .null⟩).mpr (.inl (by decide)), reflects.listed,
    split _ _ rfl, (alone others [("echo", answer 5)] "echo" rfl).1⟩

end Registry

end Switchboard
