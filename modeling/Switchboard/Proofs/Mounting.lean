import Switchboard.Proofs.Grouping
import Switchboard.Server.Router

/-!
# Switchboard.Proofs.Mounting

Mounting the routes of an accepted configuration.  What a check of routes
demands excludes every reason for which a router refuses a path, but one: that
a path has more parameters than it has room for.  Nothing else is lost: the
router has one entry for each path, in order of first appearance, and the
handlers of all routes.
-/

namespace Switchboard.Route

open Http

variable {σ : Type}

/-! ## Segments -/

theorem segments_of_rooted {path : String} {rest : List Char} (h : path.toList = '/' :: rest) :
    segments path = [] :: rest.splitOn '/' := by
  rw [segments, h, List.splitOn_cons_eq_if_modifyHead]
  simp

/-- A segment that passed the check can be mounted. -/
theorem mountSegment_of_check {isLast : Bool} {s : List Char}
    (h : checkSegment isLast s = .ok ()) : mountSegment isLast s = .ok () := by
  cases s with
  | nil => rfl
  | cons c name =>
    simp only [checkSegment] at h
    by_cases hc : isMarker c = true
    · have marked : markedPart (c :: name) = c :: name := by simp [markedPart, hc]
      simp only [mountSegment, marked, isParameter, hc]
      rw [if_pos hc] at h
      by_cases empty : name.isEmpty = true
      · rw [if_pos empty] at h
        cases h
      · rw [if_neg empty] at h ⊢
        by_cases several : name.any isMarker = true
        · rw [if_pos several] at h
          cases h
        · rw [if_neg several] at h ⊢
          by_cases inner : (decide (c = '*') && !isLast) = true
          · rw [if_pos inner] at h
            cases h
          · rw [if_neg (by simpa using inner)]
    · rw [if_neg hc] at h
      have unmarked : markedPart (c :: name) = [] := by
        by_cases later : name.any isMarker = true
        · rw [if_pos later] at h
          cases h
        · have plain : ∀ x ∈ c :: name, (!isMarker x) = true := by
            simpa [hc] using later
          rw [markedPart, ← List.append_nil (c :: name), List.dropWhile_append_of_pos plain]
          rfl
      rw [mountSegment, unmarked]

theorem mountSegments_of_check {segs : List (List Char)} (h : checkSegments segs = .ok ()) :
    mountSegments segs = .ok () := by
  induction segs with
  | nil => rfl
  | cons s rest ih =>
    rw [checkSegments] at h
    cases hs : checkSegment rest.isEmpty s with
    | error e =>
      rw [hs] at h
      cases h
    | ok =>
      rw [hs] at h
      rw [mountSegments, mountSegment_of_check hs]
      exact ih h

/-- A path that passed the check begins with a slash, and its segments can be
mounted. -/
theorem mountSegments_of_checkPath {path : String} (h : checkPath path = .ok ()) :
    path.toList.head? = some '/' ∧ mountSegments (segments path) = .ok () := by
  rw [checkPath] at h
  split at h
  · next rest hp =>
    rw [segments_of_rooted hp, hp]
    have checked : checkSegments ([] :: rest.splitOn '/') = .ok () := h
    exact ⟨rfl, mountSegments_of_check checked⟩
  · cases h

/-! ## Places -/

/-- The places of a path: behind every beginning of it that a parameter
follows. -/
theorem mem_placesFrom {before : Place} {segs : List (List Char)} {p : Place × List Char}
    (h : p ∈ placesFrom before segs) :
    ∃ xs ys, segs = xs ++ p.2 :: ys ∧ p.1 = xs.reverse ++ before ∧ isParameter p.2 = true := by
  induction segs generalizing before with
  | nil => simp [placesFrom] at h
  | cons s rest ih =>
    have further : p ∈ placesFrom (s :: before) rest → ∃ xs ys, s :: rest = xs ++ p.2 :: ys ∧
        p.1 = xs.reverse ++ before ∧ isParameter p.2 = true := by
      intro hp
      obtain ⟨xs, ys, hseg, hplace, hparam⟩ := ih hp
      exact ⟨s :: xs, ys, by rw [hseg]; rfl, by simp [hplace], hparam⟩
    rw [placesFrom] at h
    by_cases hs : isParameter s = true
    · simp only [hs, if_true, List.mem_cons] at h
      obtain rfl | h := h
      · exact ⟨[], rest, rfl, rfl, hs⟩
      · exact further h
    · simp only [hs] at h
      exact further h

theorem clash?_append (xs as bs : List (List Char)) :
    clash? (xs ++ as) (xs ++ bs) = clash? as bs := by
  induction xs with
  | nil => rfl
  | cons x xs ih => rw [List.cons_append, List.cons_append, clash?, if_pos rfl, ih]

/-- Paths that do not clash have the same parameter wherever both have one. -/
theorem same_parameter {a b : String} (h : clash? (segments a) (segments b) = none)
    {p q : Place × List Char} (hp : p ∈ places a) (hq : q ∈ places b) (place : p.1 = q.1) :
    p.2 = q.2 := by
  obtain ⟨xs, as, ha, hpx, hpp⟩ := mem_placesFrom hp
  obtain ⟨ys, bs, hb, hqy, hqp⟩ := mem_placesFrom hq
  have same : xs = ys := by simpa [hpx, hqy] using place
  rw [ha, hb, same, clash?_append, clash?] at h
  by_cases eq : p.2 = q.2
  · exact eq
  · simp [eq, hpp, hqp] at h

theorem parameterFault?_eq_none {standing new : List (Place × List Char)}
    (h : ∀ q ∈ standing, ∀ p ∈ new, q.1 = p.1 → q.2 = p.2) :
    parameterFault? standing new = none := by
  rw [parameterFault?, List.findSome?_eq_none_iff]
  intro p hp
  rw [Option.map_eq_none_iff, List.find?_eq_none]
  intro q hq both
  simp at both
  exact both.2 (h q hq p hp both.1)

/-! ## Mounting -/

/-- Paths that can be mounted one after another: well formed, distinct, and no
two of them with different parameters at one place. -/
structure Mountable (paths : List String) : Prop where
  wellFormed : ∀ p ∈ paths, checkPath p = .ok ()
  compatible : paths.Pairwise fun a b => a ≠ b ∧ clash? (segments a) (segments b) = none

theorem Mountable.sublist {ps qs : List String} (h : Mountable qs) (s : ps.Sublist qs) :
    Mountable ps :=
  ⟨fun p hp => h.wellFormed p (s.subset hp), h.compatible.sublist s⟩

/-- One more path is mounted unless it has too many parameters. -/
theorem mount_eq {m : Mounted σ} {path : String} (h : Mountable (m.paths ++ [path]))
    (methods : MethodTable σ) : m.mount path methods =
      if parameterLimit < parameterCount path then .error (.tooManyParameters path)
      else .ok ⟨m.entries ++ [(path, methods)]⟩ := by
  have apart : ∀ p ∈ m.paths, p ≠ path ∧ clash? (segments p) (segments path) = none :=
    fun p hp => (List.pairwise_append.mp h.compatible).2.2 p hp path (List.mem_singleton_self path)
  obtain ⟨rooted, segs⟩ := mountSegments_of_checkPath (h.wellFormed path (by simp))
  have free : m.paths.contains path = false := by
    rw [← Bool.not_eq_true, List.contains_iff_mem]
    exact fun hp => (apart path hp).1 rfl
  have faultless : parameterFault? (m.paths.flatMap places) (places path) = none := by
    apply parameterFault?_eq_none
    intro q hq p hp place
    obtain ⟨other, ho, hq⟩ := List.mem_flatMap.mp hq
    exact same_parameter (apart other ho).2 hq hp place
  rw [Mounted.mount]
  simp only [rooted, segs, free, faultless]
  by_cases crowded : parameterLimit < parameterCount path
  · simp only [crowded, if_true]
    rfl
  · simp only [crowded, if_false]
    rfl

/-- Paths are mounted in order, up to the first one that has too many
parameters. -/
theorem mountAll_eq {m : Mounted σ} {entries : List (String × MethodTable σ)}
    (h : Mountable (m.paths ++ entries.map (·.1))) : m.mountAll entries =
      match entries.find? fun e => parameterLimit < parameterCount e.1 with
      | some e => .error (.tooManyParameters e.1)
      | none => .ok ⟨m.entries ++ entries⟩ := by
  induction entries generalizing m with
  | nil => simp [Mounted.mountAll]
  | cons e rest ih =>
    obtain ⟨path, methods⟩ := e
    rw [List.map_cons, List.append_cons] at h
    rw [Mounted.mountAll, mount_eq (h.sublist (List.sublist_append_left _ _)), List.find?_cons]
    by_cases crowded : parameterLimit < parameterCount path
    · simp [crowded, Except.bind]
    · simp only [crowded, if_false, decide_false]
      have next :
          Mountable ((⟨m.entries ++ [(path, methods)]⟩ : Mounted σ).paths ++ rest.map (·.1)) := by
        simpa [Mounted.paths] using h
      show Mounted.mountAll _ rest = _
      rw [ih next]
      simp

/-- The paths of checked routes can be mounted. -/
theorem Served.mountable {routes : List (Route σ)} (h : Served routes) :
    Mountable ((grouped routes).map (·.1)) := by
  have sub := eraseDups_sublist (routes.map (·.path))
  have clashes :
      (routes.map (·.path)).Pairwise fun a b => clash? (segments a) (segments b) = none :=
    List.pairwise_map.mpr (h.compatible.imp fun c => c.clash)
  rw [paths_grouped]
  constructor
  · intro p hp
    obtain ⟨r, hr, rfl⟩ := List.mem_map.mp (sub.subset hp)
    exact h.wellFormed r hr
  · exact (eraseDups_nodup _).and (clashes.sublist sub)

end Switchboard.Route

namespace Switchboard.Server

open Route Http

variable {σ : Type}

theorem build_eq_ok {c d : Config σ} : c.build = .ok d ↔ d = c ∧ Served c.routes := by
  rw [Config.build, ← checkAll_eq_ok]
  cases checkAll c.routes <;> simp [Except.map, eq_comm]

/-- The routes of a configuration are mounted as they are grouped, up to the
first path that has too many parameters. -/
theorem ofConfig_eq {c : Config σ} {t : Table σ} (h : Served c.routes)
    (grouping : Table.ofRoutes c.routes = .ok t) (entries : t.entries = grouped c.routes) :
    Router.ofConfig c = match t.entries.find? fun e => parameterLimit < parameterCount e.1 with
      | some e => .error (.tooManyParameters e.1)
      | none => .ok ⟨⟨t.entries⟩, c.lifecycle, c.parsing, c.layers⟩ := by
  have mountable : Mountable (({} : Mounted σ).paths ++ t.entries.map (·.1)) := by
    rw [entries]
    exact h.mountable
  rw [Router.ofConfig, Mounted.ofRoutes, grouping]
  show (Mounted.mountAll {} t.entries).map _ = _
  rw [mountAll_eq mountable]
  split <;> rfl

/-- The routes of an accepted configuration are grouped without a fault: each
path has one entry, in order of first appearance, and under it exactly the
routes of this path with their own handlers.  The paths are mounted as they are
grouped, unless one of them has more parameters than a router has room for;
this is the only fault that can come of it. -/
theorem accepted_mounts_or_crowded {c d : Config σ} (accepted : c.build = .ok d) :
    ∃ t, Table.ofRoutes d.routes = .ok t ∧
      t.labels = (d.routes.map (·.path)).eraseDups ∧
      (∀ path m h, (t.get? path).bind (·.get? m) = some h ↔
        ∃ r ∈ d.routes, r.path = path ∧ r.method = m ∧ r.handler = h) ∧
      ((∀ r ∈ d.routes, parameterCount r.path ≤ parameterLimit) ∧
          Router.ofConfig d = .ok ⟨⟨t.entries⟩, d.lifecycle, d.parsing, d.layers⟩ ∨
        ∃ r ∈ d.routes, parameterLimit < parameterCount r.path ∧
          Router.ofConfig d = .error (.tooManyParameters r.path)) := by
  obtain ⟨rfl, served⟩ := build_eq_ok.mp accepted
  obtain ⟨t, grouping, entries⟩ := ofRoutes_grouped served
  have labels : t.labels = (d.routes.map (·.path)).eraseDups := by
    rw [Labelled.labels, entries, paths_grouped]
  have mem_labels (path : String) : path ∈ t.labels ↔ ∃ r ∈ d.routes, r.path = path := by
    rw [labels, List.mem_eraseDups, List.mem_map]
  have mounting := ofConfig_eq served grouping entries
  refine ⟨t, grouping, labels, get?_grouped served entries, ?_⟩
  cases crowded : t.entries.find? fun e => parameterLimit < parameterCount e.1 with
  | none =>
    rw [crowded] at mounting
    refine .inl ⟨?_, mounting⟩
    intro r hr
    obtain ⟨e, he, path⟩ := List.mem_map.mp ((mem_labels r.path).mpr ⟨r, hr, rfl⟩)
    have roomy := List.find?_eq_none.mp crowded e he
    rw [← path]
    simpa using roomy
  | some e =>
    rw [crowded] at mounting
    have limit : parameterLimit < parameterCount e.1 := by simpa using List.find?_some crowded
    obtain ⟨r, hr, path⟩ :=
      (mem_labels e.1).mp (List.mem_map_of_mem (List.mem_of_find?_eq_some crowded))
    refine .inr ⟨r, hr, ?_⟩
    rw [path]
    exact ⟨limit, mounting⟩

/-- A path with twenty-six parameters is accepted, and it is not mounted. -/
theorem accepted_mounts_or_crowded_twenty_six :
    let path := "/:a/:b/:c/:d/:e/:f/:g/:h/:i/:j/:k/:l/:m/:n/:o/:p/:q/:r/:s/:t/:u/:v/:w/:x/:y/:z"
    let c : Config Unit := { routes := [⟨.get, path, .plain fun _ => .done (.ok none)⟩] }
    c.build = .ok c ∧ Router.ofConfig c = .error (.tooManyParameters path) := by
  intro path c
  have passed : (checkFrom [] [(.get, path)]).toBool = true := by decide +kernel
  have accepted : c.build = .ok c := by
    rw [build_eq_ok, ← checkAll_eq_ok]
    refine ⟨rfl, ?_⟩
    show checkFrom [] [(.get, path)] = _
    cases checked : checkFrom [] [(.get, path)] with
    | ok => rfl
    | error e =>
      rw [checked] at passed
      cases passed
  have crowded : parameterLimit < parameterCount path := by decide +kernel
  obtain ⟨t, -, -, -, ⟨roomy, -⟩ | ⟨r, hr, -, fault⟩⟩ := accepted_mounts_or_crowded accepted
  · exact absurd (roomy _ List.mem_cons_self) (Nat.not_le.mpr crowded)
  · rw [List.mem_singleton.mp hr] at fault
    exact ⟨accepted, fault⟩

end Switchboard.Server
