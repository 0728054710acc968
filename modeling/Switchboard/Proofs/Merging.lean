import Switchboard.Proofs.Declaring
import Switchboard.Proofs.Octets

/-!
# Switchboard.Proofs.Merging

What synthesis makes of an exchange and a reply.  It skips a response that is
owned, it refuses a reply without a body, and in both cases it leaves all as it
was: nothing is written before the last refusal.  Otherwise the reply is merged
into what has been written before.

Headers are merged under folded names.  A reply lists its headers in the order
of their octets, so among several spellings of one name the greatest is written
last, and it counts.

* `SortedEntries.last` — the last one of entries in order;
* `Exchange.Merges` — an exchange with a reply merged into it;
* `synthesis_merges` — the three ways of synthesis, alone and in a run.
-/

namespace Switchboard

/-- The last one of entries in order has the greatest key. -/
theorem SortedEntries.last {α : Type} {entries : List (String × α)} (h : SortedEntries entries)
    {e : String × α} (he : entries.getLast? = some e) : ∀ f ∈ entries, f.1 < e.1 ∨ f = e := by
  obtain ⟨front, rfl⟩ := List.getLast?_eq_some_iff.mp he
  intro f hf
  rw [List.mem_append, List.mem_singleton] at hf
  cases hf with
  | inl hf => exact .inl ((List.pairwise_append.mp h).2.2 f hf e (List.mem_singleton_self e))
  | inr hf => exact .inr hf

namespace Exchange

variable {σ : Type}

/-! ## Merging -/

/-- A value is given under a name, in the greatest one of its spellings. -/
structure Gives (given : Dict String) (name spelling value : String) : Prop where
  bound : given.get? spelling = some value
  folded : foldName spelling = name
  greatest {other : String} (there : given.contains other = true) (same : foldName other = name) :
    Utf8.encode other ≤ Utf8.encode spelling

/-- A reply with a given body is merged into an exchange. -/
structure Merges (r : Reply) (body : Json) (x x' : Exchange) : Prop where
  status : x'.response.status = r.status.getD 200
  body : x'.response.body = some body
  cookies : x'.response.cookies = x.response.cookies ++ r.cookies
  request : x'.request = x.request
  /-- Where the reply has a name in some letters, the greatest spelling counts. -/
  given {spelling : String} (there : (r.headers.getD .empty).contains spelling = true) :
    ∃ greatest value, Gives (r.headers.getD .empty) (foldName spelling) greatest value ∧
      x'.response.headers.get? (foldName spelling) = some value
  /-- Where it has the name in no letters, what was there stays. -/
  kept {name : String}
    (absent : ∀ spelling, (r.headers.getD .empty).contains spelling = true →
      foldName spelling ≠ name) :
    x'.response.headers.get? name = x.response.headers.get? name

/-- The last one of the spellings of a name is the greatest. -/
theorem gives_of_getLast? {given : Dict String} {name : String} {e : String × String}
    (h : (given.entries.filter fun h => foldName h.1 = name).getLast? = some e) :
    Gives given name e.1 e.2 := by
  have last := SortedEntries.last (given.sorted.filter _) h
  have he := List.mem_filter.mp (List.mem_of_getLast? h)
  refine ⟨given.get?_eq_some_iff.mpr he.1, of_decide_eq_true he.2, ?_⟩
  intro other there same
  obtain ⟨value, bound⟩ := Option.isSome_iff_exists.mp there
  have spelled : (other, value) ∈ given.entries.filter fun h => foldName h.1 = name :=
    List.mem_filter.mpr ⟨given.get?_eq_some_iff.mp bound, decide_eq_true same⟩
  cases last _ spelled with
  | inl lt => exact List.le_of_lt (Utf8.encode_lt lt)
  | inr eq => exact eq ▸ List.le_refl _

theorem merges_writes (r : Reply) (body : Json) (x : Exchange) :
    Merges r body x (x.writeAll (r.writes body)) := by
  have spells := r.spells_writes body
  have header (name : String) : (x.writeAll (r.writes body)).response.headers.get? name =
      ((((r.headers.getD .empty).entries.filter fun h => foldName h.1 = name).getLast?.map
        (·.2)).or (x.response.headers.get? name)) := by
    rw [header_writeAll, spells.headers]
  refine ⟨?_, ?_, ?_, request_writeAll _ _, ?_, ?_⟩
  · rw [status_writeAll, spells.status]
    rfl
  · rw [body_writeAll, spells.body]
    rfl
  · rw [cookies_writeAll, spells.cookies]
  · intro spelling there
    obtain ⟨value, bound⟩ := Option.isSome_iff_exists.mp there
    have spelled : (spelling, value) ∈
        (r.headers.getD .empty).entries.filter fun h => foldName h.1 = foldName spelling :=
      List.mem_filter.mpr ⟨(Dict.get?_eq_some_iff _).mp bound, by simp⟩
    obtain ⟨e, he⟩ := Option.isSome_iff_exists.mp
      (List.getLast?_isSome.mpr (List.ne_nil_of_mem spelled))
    exact ⟨e.1, e.2, gives_of_getLast? he, by rw [header, he]; rfl⟩
  · intro name absent
    have none_there :
        ((r.headers.getD .empty).entries.filter fun h => foldName h.1 = name) = [] := by
      rw [List.filter_eq_nil_iff]
      intro h hh same
      have bound := (Dict.get?_eq_some_iff _).mpr hh
      exact absent h.1 (Option.isSome_iff_exists.mpr ⟨_, bound⟩) (of_decide_eq_true same)
    rw [header, none_there]
    rfl

/-! ## Synthesis -/

open Scheduler in
/-- A response that is owned is skipped, and a reply that is missing or has no
body is refused; otherwise the reply is merged into the exchange, and whatever
is synthesized then is skipped.  In a run, the exchange is changed by no other
outcome than the last one. -/
theorem synthesis_merges (x : Exchange) (reply : Option Reply) :
    (x.response.body.isSome ∨ x.response.status ≠ 404 →
      x.synthesize reply = .ok (.skipped, x)) ∧
    (x.response.body = none ∧ x.response.status = 404 → reply.bind (·.body) = none →
      x.synthesize reply = .error .missingBody) ∧
    (x.response.body = none ∧ x.response.status = 404 →
      ∀ r body, reply = some r → r.body = some body →
        ∃ x', x.synthesize reply = .ok (.written, x') ∧ Merges r body x x' ∧
          ∀ again, x'.synthesize again = .ok (.skipped, x')) ∧
    ∀ s : Scheduler Exchange σ, s.state = x → ∃ r s', Ends (Lifecycle.respond reply) s r s' ∧
      match x.synthesize reply with
      | .ok (outcome, x') => r = .ok outcome ∧ s' = { s with state := x' }
      | .error f => r = .error { failure := f } ∧ s' = s := by
  refine ⟨?_, ?_, ?_, ?_⟩
  · intro owned
    exact synthesize_owned (x.hasResponse_iff.mpr owned)
  · intro free bodiless
    exact synthesize_bodiless (x.hasResponse_eq_false_iff.mpr free) bodiless
  · intro free r body hr hb
    subst hr
    exact ⟨_, synthesize_written (x.hasResponse_eq_false_iff.mpr free) hb, merges_writes r body x,
      fun again => synthesize_owned (x.hasResponse_writes r body)⟩
  · intro s hs
    subst hs
    cases hx : s.state.synthesize reply with
    | ok p => exact ⟨_, _, Lifecycle.ends_respond.mpr (.inl ⟨p.1, p.2, hx, rfl, rfl⟩), rfl, rfl⟩
    | error f => exact ⟨_, _, Lifecycle.ends_respond.mpr (.inr ⟨f, hx, rfl, rfl⟩), rfl, rfl⟩

/-- A header and a cookie have been written; the reply has two spellings of the
header, and its body is `null`. -/
theorem synthesis_merges_spellings :
    let cookie (name : String) : Cookie := { name, value := "", settings := .empty }
    let x := (({} : Exchange).setHeader "X-Id" "0").setCookie (cookie "a")
    let r := (((Reply.send .null).withHeader "x-Id" "2").withHeader "X-ID" "1").withCookie
      (cookie "b")
    ∃ x', x.synthesize (some r) = .ok (.written, x') ∧ x'.response.status = 200 ∧
      x'.response.body = some .null ∧ x'.response.cookies = [cookie "a", cookie "b"] ∧
      x'.response.headers.get? "x-id" = some "2" ∧ x'.synthesize none = .ok (.skipped, x') := by
  intro cookie x r
  obtain ⟨x', written, merges, again⟩ :=
    (synthesis_merges (σ := Unit) x (some r)).2.2.1 ⟨rfl, rfl⟩ r .null rfl rfl
  have upper_given : (r.headers.getD .empty).contains "X-ID" = true := by decide +kernel
  have lower_given : (r.headers.getD .empty).contains "x-Id" = true := by decide +kernel
  obtain ⟨greatest, value, gives, there⟩ := merges.given upper_given
  have two : value = "2" := by
    have spelled : (greatest, value) ∈ [("X-ID", "1"), ("x-Id", "2")] :=
      (Dict.get?_eq_some_iff _).mp gives.bound
    simp only [List.mem_cons, Prod.mk.injEq, List.not_mem_nil, or_false] at spelled
    obtain ⟨upper, -⟩ | ⟨-, two⟩ := spelled
    · have le := gives.greatest lower_given (by decide +kernel)
      rw [upper] at le
      exact absurd le (by decide +kernel)
    · exact two
  have folded : foldName "X-ID" = "x-id" := by decide +kernel
  rw [folded, two] at there
  exact ⟨x', written, merges.status, merges.body, merges.cookies, there, again none⟩

end Exchange

end Switchboard
