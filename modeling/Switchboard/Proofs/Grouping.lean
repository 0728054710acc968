import Switchboard.Route.Table

/-!
# Switchboard.Proofs.Grouping

What a check of routes ensures, and how checked routes are grouped.  A check
compares every route with all before it; it is passed exactly when every path
is well formed and any two routes are compatible.  The table of such routes has
one entry for each path, in order of first appearance, and under a path every
route of it with its own handler.
-/

namespace Switchboard.Route

open Http

/-! ## What a check ensures -/

/-- Two routes, the first one before the second, can be served together: they
differ, and their paths do not part at two parameters. -/
structure Compatible (a b : Method × String) : Prop where
  ne : a ≠ b
  clash : clash? (segments a.2) (segments b.2) = none

theorem checkAgainstAll_eq_ok (path : String) (existing : List String) :
    checkAgainstAll path existing = .ok () ↔
      ∀ p ∈ existing, clash? (segments p) (segments path) = none := by
  induction existing with
  | nil => simp [checkAgainstAll]
  | cons p rest ih =>
    rw [List.forall_mem_cons, ← ih, checkAgainstAll, checkAgainst]
    cases clash? (segments p) (segments path) <;> simp [Except.bind]

theorem checkNext_eq_ok (before : List (Method × String)) (m : Method) (path : String) :
    checkNext before m path = .ok () ↔
      checkPath path = .ok () ∧ ∀ e ∈ before, Compatible e (m, path) := by
  have clashes := checkAgainstAll_eq_ok path (before.map (·.2))
  rw [List.forall_mem_map] at clashes
  have apart : (∀ e ∈ before, Compatible e (m, path)) ↔
      (m, path) ∉ before ∧ checkAgainstAll path (before.map (·.2)) = .ok () := by
    rw [clashes]
    constructor
    · intro h
      exact ⟨fun hm => (h _ hm).ne rfl, fun e he => (h e he).clash⟩
    · intro ⟨hm, hc⟩ e he
      exact ⟨fun eq => hm (eq ▸ he), hc e he⟩
  rw [apart, checkNext]
  simp only [List.contains_iff_mem]
  by_cases hm : (m, path) ∈ before
  · simp [hm]
  · rw [if_neg hm]
    cases checkPath path with
    | error e => simp [Except.bind]
    | ok =>
      cases checkAgainstAll path (before.map (·.2)) with
      | error e => simp [Except.bind]
      | ok => simp [Except.bind, hm]

/-- A check is passed when every path is well formed and every route is
compatible with all before it. -/
theorem checkFrom_eq_ok (before rest : List (Method × String)) :
    checkFrom before rest = .ok () ↔ (∀ e ∈ rest, checkPath e.2 = .ok ()) ∧
      rest.Pairwise Compatible ∧ ∀ e ∈ before, ∀ f ∈ rest, Compatible e f := by
  induction rest generalizing before with
  | nil => simp [checkFrom]
  | cons f rest ih =>
    obtain ⟨m, path⟩ := f
    have step : checkFrom before ((m, path) :: rest) = .ok () ↔
        checkNext before m path = .ok () ∧ checkFrom (before ++ [(m, path)]) rest = .ok () := by
      rw [checkFrom]
      cases checkNext before m path <;> simp [Except.bind]
    rw [step, checkNext_eq_ok, ih, List.forall_mem_cons, List.pairwise_cons]
    simp only [List.forall_mem_append, List.forall_mem_cons, List.not_mem_nil, false_implies,
      implies_true, and_true]
    constructor
    · intro ⟨⟨hp, hb⟩, hps, hr, hbr, hf⟩
      exact ⟨⟨hp, hps⟩, ⟨hf, hr⟩, fun e he => ⟨hb e he, hbr e he⟩⟩
    · intro ⟨⟨hp, hps⟩, ⟨hf, hr⟩, hb⟩
      exact ⟨⟨hp, fun e he => (hb e he).1⟩, hps, hr, fun e he => (hb e he).2, hf⟩

variable {σ : Type}

/-- Routes that passed a check. -/
structure Served (routes : List (Route σ)) : Prop where
  wellFormed : ∀ r ∈ routes, checkPath r.path = .ok ()
  compatible : routes.Pairwise fun a b => Compatible (a.method, a.path) (b.method, b.path)

theorem checkAll_eq_ok (routes : List (Route σ)) : checkAll routes = .ok () ↔ Served routes := by
  rw [checkAll, checkFrom_eq_ok, List.forall_mem_map, List.pairwise_map]
  constructor
  · intro ⟨wellFormed, compatible, _⟩
    exact ⟨wellFormed, compatible⟩
  · intro ⟨wellFormed, compatible⟩
    exact ⟨wellFormed, compatible, by simp⟩

/-! ## Grouping -/

/-- The routes of one path, in order. -/
def boundTo (routes : List (Route σ)) (path : String) : MethodTable σ :=
  (routes.filter (·.path = path)).map fun r => (r.method, r.handler)

/-- Routes grouped by their paths. -/
def grouped (routes : List (Route σ)) : List (String × MethodTable σ) :=
  (routes.map (·.path)).eraseDups.map fun path => (path, boundTo routes path)

/-- Each path has one entry, in order of first appearance. -/
theorem paths_grouped (routes : List (Route σ)) :
    (grouped routes).map (·.1) = (routes.map (·.path)).eraseDups := by
  rw [grouped, List.map_map]
  exact List.map_id _

theorem lookup_map_mk {β : Type} (keys : List String) (f : String → β) (key : String) :
    (keys.map fun k => (k, f k)).lookup key = if key ∈ keys then some (f key) else none := by
  induction keys with
  | nil => rfl
  | cons k keys ih =>
    rw [List.map_cons, List.lookup_cons, ih]
    by_cases h : key = k
    · simp [h]
    · simp [h, beq_eq_false_iff_ne.mpr h]

/-- What is bound to a path, whether the path is there or not. -/
theorem lookup_grouped (routes : List (Route σ)) (path : String) :
    ((grouped routes).lookup path).getD [] = boundTo routes path := by
  rw [grouped, lookup_map_mk]
  simp only [List.mem_eraseDups]
  split
  · rfl
  · next absent =>
    rw [boundTo, List.filter_eq_nil_iff.mpr]
    · rfl
    · intro r hr e
      exact absent (List.mem_map.mpr ⟨r, hr, of_decide_eq_true e⟩)

theorem eraseDups_concat (xs : List String) (x : String) :
    (xs ++ [x]).eraseDups = if x ∈ xs then xs.eraseDups else xs.eraseDups ++ [x] := by
  rw [List.eraseDups_append]
  by_cases h : x ∈ xs <;> simp [List.removeAll, h, List.eraseDups_cons]

theorem eraseDups_nodup (xs : List String) : xs.eraseDups.Nodup := by
  cases xs with
  | nil => simp
  | cons x xs =>
    rw [List.eraseDups_cons, List.nodup_cons, List.mem_eraseDups]
    exact ⟨by simp, eraseDups_nodup (xs.filter fun y => !y == x)⟩
termination_by xs.length
decreasing_by simpa using Nat.lt_succ_of_le (List.length_filter_le _ _)

theorem eraseDups_sublist (xs : List String) : xs.eraseDups.Sublist xs := by
  cases xs with
  | nil => simp
  | cons x xs =>
    rw [List.eraseDups_cons]
    exact ((eraseDups_sublist (xs.filter fun y => !y == x)).trans List.filter_sublist).cons_cons x
termination_by xs.length
decreasing_by simpa using Nat.lt_succ_of_le (List.length_filter_le _ _)

theorem placeEntry_map_mk {β : Type} (keys : List String) (f g : String → β) (key : String)
    (hn : keys.Nodup) (h : ∀ k, k ≠ key → f k = g k) :
    placeEntry key (g key) (keys.map fun k => (k, f k)) =
      (if key ∈ keys then keys else keys ++ [key]).map fun k => (k, g k) := by
  induction keys with
  | nil => rfl
  | cons k keys ih =>
    rw [List.nodup_cons] at hn
    rw [List.map_cons, placeEntry]
    by_cases hk : k = key
    · cases hk
      have others : ∀ k' ∈ keys, f k' = g k' := by
        intro k' hk'
        apply h
        intro e
        exact hn.1 (e ▸ hk')
      simp only [if_true, List.mem_cons, true_or, List.map_cons]
      exact congrArg _ (List.map_congr_left fun k' hk' => by rw [others k' hk'])
    · rw [if_neg hk, ih hn.2, h k hk]
      simp only [List.mem_cons, Ne.symm hk, false_or]
      split <;> rfl

theorem on_eq_ok {t : MethodTable σ} {m : Method} (h : Handler σ) (fresh : ∀ e ∈ t, e.1 ≠ m) :
    t.on m h = .ok (t ++ [(m, h)]) := by
  have absent : t.any (·.1 = m) = false := by simpa using fresh
  rw [MethodTable.on, absent]
  rfl

/-- Binding a route that differs from all before it. -/
theorem bind_grouped {t : Table σ} {before : List (Route σ)} {r : Route σ}
    (ht : t.entries = grouped before)
    (fresh : ∀ b ∈ before, (b.method, b.path) ≠ (r.method, r.path)) :
    ∃ t', t.bind r = .ok t' ∧ t'.entries = grouped (before ++ [r]) := by
  have slot : (t.get? r.path).getD [] = boundTo before r.path := by
    rw [Labelled.get?, ht, lookup_grouped]
  have free : ∀ e ∈ boundTo before r.path, e.1 ≠ r.method := by
    intro e he
    obtain ⟨b, hb, rfl⟩ := List.mem_map.mp he
    obtain ⟨hb, path⟩ := List.mem_filter.mp hb
    intro method
    exact fresh b hb (Prod.ext method (of_decide_eq_true path))
  have own : boundTo (before ++ [r]) r.path = boundTo before r.path ++ [(r.method, r.handler)] := by
    simp [boundTo]
  have others : ∀ path, path ≠ r.path → boundTo before path = boundTo (before ++ [r]) path := by
    intro path hp
    simp [boundTo, hp.symm]
  refine ⟨t.place r.path (boundTo (before ++ [r]) r.path), ?_, ?_⟩
  · rw [Table.bind, slot, on_eq_ok _ free, own]
    rfl
  · show placeEntry _ _ t.entries = _
    rw [ht, grouped, placeEntry_map_mk _ _ _ _ (eraseDups_nodup _) others, grouped,
      List.map_append, List.map_singleton, eraseDups_concat]
    simp only [List.mem_eraseDups]

/-- Binding routes each of which differs from all before it. -/
theorem bindAll_grouped {t : Table σ} {before rest : List (Route σ)}
    (ht : t.entries = grouped before)
    (distinct : (before ++ rest).Pairwise fun a b => (a.method, a.path) ≠ (b.method, b.path)) :
    ∃ t', Table.bindAll t rest = .ok t' ∧ t'.entries = grouped (before ++ rest) := by
  induction rest generalizing t before with
  | nil => exact ⟨t, rfl, by rw [ht, List.append_nil]⟩
  | cons r rest ih =>
    have fresh : ∀ b ∈ before, (b.method, b.path) ≠ (r.method, r.path) := fun b hb =>
      (List.pairwise_append.mp distinct).2.2 b hb r List.mem_cons_self
    obtain ⟨t', bound, entries⟩ := bind_grouped ht fresh
    rw [List.append_cons] at distinct ⊢
    obtain ⟨t'', rest_bound, all⟩ := ih entries distinct
    exact ⟨t'', by rw [Table.bindAll, bound]; exact rest_bound, all⟩

/-- Checked routes are grouped. -/
theorem ofRoutes_grouped {routes : List (Route σ)} (h : Served routes) :
    ∃ t, Table.ofRoutes routes = .ok t ∧ t.entries = grouped routes := by
  have start : (Labelled.empty : Table σ).entries = grouped [] := rfl
  exact bindAll_grouped start (h.compatible.imp fun c => c.ne)

/-! ## Looking handlers up -/

theorem lookup_eq_some_iff_mem {α β : Type} [BEq α] [LawfulBEq α] {entries : List (α × β)}
    (h : entries.Pairwise fun a b => a.1 ≠ b.1) (key : α) (value : β) :
    entries.lookup key = some value ↔ (key, value) ∈ entries := by
  induction entries with
  | nil => simp
  | cons e rest ih =>
    obtain ⟨k, v⟩ := e
    rw [List.pairwise_cons] at h
    rw [List.lookup_cons, List.mem_cons, Prod.mk.injEq]
    by_cases hk : key = k
    · cases hk
      have absent : (key, value) ∉ rest := fun hm => h.1 _ hm rfl
      simp [absent, eq_comm]
    · simp [hk, beq_eq_false_iff_ne.mpr hk, ih h.2]

theorem boundTo_distinct {routes : List (Route σ)} (h : Served routes) (path : String) :
    (boundTo routes path).Pairwise fun a b => a.1 ≠ b.1 := by
  rw [boundTo, List.pairwise_map, List.pairwise_filter]
  refine h.compatible.imp ?_
  intro a b compatible ha hb method
  have pa : a.path = path := of_decide_eq_true ha
  have pb : b.path = path := of_decide_eq_true hb
  exact compatible.ne (Prod.ext method (pa.trans pb.symm))

/-- A handler stands under a path and a method exactly when there is such a
route with this handler. -/
theorem get?_grouped {t : Table σ} {routes : List (Route σ)} (h : Served routes)
    (ht : t.entries = grouped routes) (path : String) (m : Method) (handler : Handler σ) :
    (t.get? path).bind (·.get? m) = some handler ↔
      ∃ r ∈ routes, r.path = path ∧ r.method = m ∧ r.handler = handler := by
  have slot : (t.get? path).bind (·.get? m) = (boundTo routes path).lookup m := by
    rw [← lookup_grouped, Labelled.get?, ht]
    cases (grouped routes).lookup path <;> rfl
  rw [slot, lookup_eq_some_iff_mem (boundTo_distinct h path), boundTo]
  simp only [List.mem_map, List.mem_filter, decide_eq_true_eq, Prod.mk.injEq, and_assoc]

end Switchboard.Route
