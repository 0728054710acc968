import Mathlib.Control.Monad.Basic
import Mathlib.Data.List.Pairwise
import Switchboard.Proofs.Mounting

/-!
# Switchboard.Proofs.Consistency

Which lists of routes are accepted.  A check goes through the routes in order
and compares each with those before it, and it stops at the first fault; yet
what it accepts does not depend on any order.  No route comes twice, every path
is well formed, and in the tree of all segments no two parameters stand below
one node.

* **walks** — checks that go through a list and stop at the first fault;
* **segments**, **paths** — what a path must look like, and what is wrong with
  one that does not;
* **parting** — two paths that put different parameters at one place;
* `Consistent` — accepted lists of routes, without an order;
* `Offends` — what is wrong with a route behind others;
* `build_accepts_consistent` — every configuration.
-/

namespace Switchboard

/-! ## Walks -/

section Walk

variable {α ε : Type} {check : List α → α → List α → Except ε Unit}

/-- Check the items of a list in order, each between those before it and those
behind it. -/
def walk (check : List α → α → List α → Except ε Unit) (before : List α) :
    List α → Except ε Unit
  | [] => .ok ()
  | x :: rest => (check before x rest).bind fun () => walk check (before ++ [x]) rest

theorem walk_eq_ok {before xs : List α} : walk check before xs = .ok () ↔
    ∀ front x behind, xs = front ++ x :: behind → check (before ++ front) x behind = .ok () := by
  induction xs generalizing before with
  | nil => simp [walk]
  | cons y ys ih =>
      have step : walk check before (y :: ys) = .ok () ↔
          check before y ys = .ok () ∧ walk check (before ++ [y]) ys = .ok () := by
        rw [walk]
        cases check before y ys <;> simp [Except.bind]
      rw [step, ih]
      constructor
      · intro ⟨first, later⟩ front x behind split
        obtain ⟨rfl, eq⟩ | ⟨front, rfl, eq⟩ := List.cons_eq_append_iff.mp split
        · obtain ⟨rfl, rfl⟩ := List.cons.inj eq
          rwa [List.append_nil]
        · rw [List.append_cons]
          exact later front x behind eq
      · intro all
        refine ⟨?_, ?_⟩
        · have first := all [] y ys rfl
          rwa [List.append_nil] at first
        · intro front x behind split
          rw [← List.append_cons]
          exact all (y :: front) x behind (by rw [split]; rfl)

/-- A walk stops at the first item that does not pass. -/
theorem walk_eq_error {before xs : List α} {e : ε} : walk check before xs = .error e ↔
    ∃ front x behind, xs = front ++ x :: behind ∧ check (before ++ front) x behind = .error e ∧
      ∀ b y a, front = b ++ y :: a → check (before ++ b) y (a ++ x :: behind) = .ok () := by
  induction xs generalizing before with
  | nil => simp [walk]
  | cons z zs ih =>
      rw [walk]
      constructor
      · intro fault
        cases first : check before z zs with
        | error f =>
            rw [first] at fault
            cases fault
            refine ⟨[], z, zs, rfl, by rwa [List.append_nil], ?_⟩
            intro b y a split
            simp at split
        | ok =>
            rw [first] at fault
            obtain ⟨front, x, behind, rfl, stops, passed⟩ := ih.mp fault
            refine ⟨z :: front, x, behind, rfl, by rwa [← List.append_cons] at stops, ?_⟩
            intro b y a split
            obtain ⟨rfl, eq⟩ | ⟨b, rfl, eq⟩ := List.cons_eq_append_iff.mp split
            · obtain ⟨rfl, rfl⟩ := List.cons.inj eq
              rwa [List.append_nil]
            · rw [List.append_cons]
              exact passed b y a eq
      · intro ⟨front, x, behind, split, stops, passed⟩
        obtain ⟨rfl, eq⟩ | ⟨front, rfl, rfl⟩ := List.cons_eq_append_iff.mp split
        · obtain ⟨rfl, rfl⟩ := List.cons.inj eq
          rw [List.append_nil] at stops
          rw [stops]
          rfl
        · have first := passed [] z front rfl
          rw [List.append_nil] at first
          rw [first]
          refine ih.mpr ⟨front, x, behind, rfl, by rwa [← List.append_cons], ?_⟩
          intro b y a eq
          rw [← List.append_cons]
          exact passed (z :: b) y a (by rw [eq]; rfl)

/-- A check passes or something is wrong; then it gives what is wrong. -/
theorem eq_error_iff_of_total {result : Except ε Unit} {flawed : ε → Prop}
    (total : result = .ok () ∨ ∃ e, flawed e) (stops : ∀ e, flawed e → result = .error e) (e : ε) :
    result = .error e ↔ flawed e := by
  refine ⟨fun fault => ?_, stops e⟩
  obtain passed | ⟨f, flaw⟩ := total
  · rw [passed] at fault
    cases fault
  · rw [stops f flaw] at fault
    cases fault
    exact flaw

end Walk

namespace Route

open Http

variable {σ : Type}

/-! ## Segments -/

/-- The characters that begin a parameter. -/
def Marker (c : Char) : Prop := c = ':' ∨ c = '*'

/-- A segment that begins as a parameter does. -/
def Parameter (s : List Char) : Prop := ∃ m name, s = m :: name ∧ Marker m

/-- A segment is literal and without markers, or it is one named parameter; a
wildcard is the last segment. -/
def WellFormed (isLast : Bool) (s : List Char) : Prop :=
  (∀ c ∈ s, ¬ Marker c) ∨ ∃ m name, s = m :: name ∧ Marker m ∧ name ≠ [] ∧
    (∀ c ∈ name, ¬ Marker c) ∧ (m = '*' → isLast = true)

/-- What is wrong with a segment that is not well formed. -/
inductive Flawed (isLast : Bool) : List Char → PathFault → Prop
  | unnamed {m : Char} (marker : Marker m) :
      Flawed isLast [m] (.unnamedParameter (String.ofList [m]))
  | several {m : Char} {name : List Char} (marker : Marker m) (again : ∃ c ∈ name, Marker c) :
      Flawed isLast (m :: name) (.severalParameters (String.ofList (m :: name)))
  | inner {name : List Char} (named : name ≠ []) (free : ∀ c ∈ name, ¬ Marker c)
      (early : isLast = false) :
      Flawed isLast ('*' :: name) (.wildcardNotLast (String.ofList ('*' :: name)))
  | part {c : Char} {rest : List Char} (literal : ¬ Marker c) (later : ∃ d ∈ rest, Marker d) :
      Flawed isLast (c :: rest) (.partialParameter (String.ofList (c :: rest)))

theorem isMarker_iff (c : Char) : isMarker c = true ↔ Marker c := by
  simp [isMarker, Marker]

theorem any_isMarker_eq_false {cs : List Char} (free : ∀ c ∈ cs, ¬ Marker c) :
    cs.any isMarker = false := by
  rw [List.any_eq_false]
  exact fun c hc => mt (isMarker_iff c).mp (free c hc)

theorem isParameter_iff (s : List Char) : isParameter s = true ↔ Parameter s := by
  cases s with
  | nil => simp [isParameter, Parameter]
  | cons c name => simp [isParameter, Parameter, isMarker_iff]

/-- A segment is well formed, or one thing is wrong with it. -/
theorem wellFormed_or_flawed (isLast : Bool) (s : List Char) :
    WellFormed isLast s ∨ ∃ f, Flawed isLast s f := by
  cases s with
  | nil => exact .inl (.inl (by simp))
  | cons c name =>
      by_cases marker : Marker c
      · by_cases empty : name = []
        · subst empty
          exact .inr ⟨_, .unnamed marker⟩
        · by_cases again : ∃ d ∈ name, Marker d
          · exact .inr ⟨_, .several marker again⟩
          · have free : ∀ d ∈ name, ¬ Marker d := by simpa using again
            by_cases early : c = '*' ∧ isLast = false
            · obtain ⟨rfl, early⟩ := early
              exact .inr ⟨_, .inner empty free early⟩
            · exact .inl (.inr ⟨c, name, rfl, marker, empty, free, by simpa using early⟩)
      · by_cases later : ∃ d ∈ name, Marker d
        · exact .inr ⟨_, .part marker later⟩
        · have free : ∀ d ∈ name, ¬ Marker d := by simpa using later
          exact .inl (.inl (List.forall_mem_cons.mpr ⟨marker, free⟩))

theorem checkSegment_of_wellFormed {isLast : Bool} {s : List Char} (h : WellFormed isLast s) :
    checkSegment isLast s = .ok () := by
  obtain free | ⟨m, name, rfl, marker, named, free, last⟩ := h
  · cases s with
    | nil => rfl
    | cons c name =>
        obtain ⟨literal, free⟩ := List.forall_mem_cons.mp free
        simp [checkSegment, isMarker_iff, literal, any_isMarker_eq_false free]
  · have inside : ¬ (m = '*' ∧ isLast = false) := by simpa using last
    simp [checkSegment, isMarker_iff, marker, named, any_isMarker_eq_false free, inside]

theorem checkSegment_of_flawed {isLast : Bool} {s : List Char} {f : PathFault}
    (h : Flawed isLast s f) : checkSegment isLast s = .error f := by
  cases h with
  | unnamed marker => simp [checkSegment, isMarker_iff, marker]
  | several marker again =>
      have named := List.ne_nil_of_mem again.choose_spec.1
      simp [checkSegment, isMarker_iff, marker, again, named]
  | inner named free early =>
      have marker : isMarker '*' = true := rfl
      simp [checkSegment, marker, named, any_isMarker_eq_false free, early]
  | part literal later => simp [checkSegment, isMarker_iff, literal, later]

theorem checkSegment_eq_ok {isLast : Bool} {s : List Char} :
    checkSegment isLast s = .ok () ↔ WellFormed isLast s := by
  refine ⟨fun passed => ?_, checkSegment_of_wellFormed⟩
  obtain fine | ⟨f, flawed⟩ := wellFormed_or_flawed isLast s
  · exact fine
  · rw [checkSegment_of_flawed flawed] at passed
    cases passed

theorem checkSegment_eq_error {isLast : Bool} {s : List Char} {f : PathFault} :
    checkSegment isLast s = .error f ↔ Flawed isLast s f :=
  eq_error_iff_of_total ((wellFormed_or_flawed isLast s).imp_left checkSegment_of_wellFormed)
    (fun _ => checkSegment_of_flawed) f

/-! ## Paths -/

/-- A path begins with a slash, and the segments behind it are well formed. -/
def Shaped (path : String) : Prop :=
  ∃ rest, path.toList = '/' :: rest ∧ ∀ before s behind,
    rest.splitOn '/' = before ++ s :: behind → WellFormed behind.isEmpty s

/-- What is wrong with a path that is not well formed: its first segment that is
not. -/
inductive Misshapen (path : String) : PathFault → Prop
  | rootless (h : path.toList.head? ≠ some '/') : Misshapen path .noLeadingSlash
  | segment {rest : List Char} {before behind : List (List Char)} {s : List Char} {f : PathFault}
      (rooted : path.toList = '/' :: rest) (split : rest.splitOn '/' = before ++ s :: behind)
      (flawed : Flawed behind.isEmpty s f)
      (first : ∀ b t a, before = b ++ t :: a → WellFormed false t) : Misshapen path f

theorem isEmpty_append_cons {α : Type} (xs : List α) (x : α) (ys : List α) :
    (xs ++ x :: ys).isEmpty = false := by
  cases xs <;> rfl

theorem checkSegments_eq (before segs : List (List Char)) :
    checkSegments segs = walk (fun _ s rest => checkSegment rest.isEmpty s) before segs := by
  induction segs generalizing before with
  | nil => rfl
  | cons s rest ih => rw [checkSegments, walk, ih]

theorem checkPath_cases (path : String) :
    (∃ rest, path.toList = '/' :: rest ∧ checkPath path = checkSegments (rest.splitOn '/')) ∨
      path.toList.head? ≠ some '/' ∧ checkPath path = .error .noLeadingSlash := by
  rw [checkPath]
  split
  · next rest rooted => exact .inl ⟨rest, rooted, rfl⟩
  · next rootless =>
    refine .inr ⟨fun h => ?_, rfl⟩
    obtain ⟨rest, rooted⟩ := List.head?_eq_some_iff.mp h
    exact rootless rest rooted

theorem checkPath_eq_ok {path : String} : checkPath path = .ok () ↔ Shaped path := by
  obtain ⟨rest, rooted, eq⟩ | ⟨rootless, eq⟩ := checkPath_cases path
  · rw [eq, checkSegments_eq [], walk_eq_ok]
    simp only [checkSegment_eq_ok, Shaped, rooted]
    simp
  · rw [eq]
    constructor
    · intro passed
      cases passed
    · intro ⟨rest, rooted, _⟩
      exact absurd (by rw [rooted]; rfl) rootless

theorem checkPath_eq_error {path : String} {f : PathFault} :
    checkPath path = .error f ↔ Misshapen path f := by
  obtain ⟨rest, rooted, eq⟩ | ⟨rootless, eq⟩ := checkPath_cases path
  · rw [eq, checkSegments_eq [], walk_eq_error]
    simp only [checkSegment_eq_ok, checkSegment_eq_error, isEmpty_append_cons]
    constructor
    · intro ⟨before, s, behind, split, flawed, passed⟩
      exact .segment rooted split flawed passed
    · intro fault
      cases fault with
      | rootless h => exact absurd (by rw [rooted]; rfl) h
      | @segment rest' before behind s _ rooted' split flawed first =>
          rw [rooted] at rooted'
          cases rooted'
          exact ⟨before, s, behind, split, flawed, first⟩
  · rw [eq]
    constructor
    · intro fault
      cases fault
      exact .rootless rootless
    · intro fault
      cases fault with
      | rootless => rfl
      | segment rooted => exact absurd (by rw [rooted]; rfl) rootless

/-! ## Parting -/

/-- Two paths part at parameters: behind the same segments, the one has one
parameter and the other one has another. -/
def Parts (a b : String) (s t : List Char) : Prop :=
  ∃ node, node ++ [s] <+: segments a ∧ node ++ [t] <+: segments b ∧
    s ≠ t ∧ Parameter s ∧ Parameter t

theorem Parts.symm {a b : String} {s t : List Char} (h : Parts a b s t) : Parts b a t s := by
  obtain ⟨node, ha, hb, ne, hs, ht⟩ := h
  exact ⟨node, hb, ha, ne.symm, ht, hs⟩

/-- A path does not part from itself. -/
theorem not_parts_self (a : String) (s t : List Char) : ¬ Parts a a s t := by
  intro ⟨node, hs, ht, ne, _⟩
  have lengths : (node ++ [s]).length = (node ++ [t]).length := by simp
  have same := (List.prefix_of_prefix_length_le hs ht (Nat.le_of_eq lengths)).eq_of_length lengths
  exact ne (by simpa using same)

theorem clash?_eq_some {as bs : List (List Char)} {s t : List Char} :
    clash? as bs = some (s, t) ↔ ∃ node, node ++ [s] <+: as ∧ node ++ [t] <+: bs ∧
      s ≠ t ∧ Parameter s ∧ Parameter t := by
  induction as generalizing bs with
  | nil => simp [clash?]
  | cons a as ih =>
      cases bs with
      | nil => simp [clash?]
      | cons b bs =>
          rw [clash?]
          by_cases eq : a = b
          · rw [if_pos eq, ih]
            constructor
            · rintro ⟨node, ha, hb, rest⟩
              exact ⟨a :: node, List.cons_prefix_cons.mpr ⟨rfl, ha⟩,
                List.cons_prefix_cons.mpr ⟨eq, hb⟩, rest⟩
            · rintro ⟨node, ha, hb, ne, rest⟩
              cases node with
              | nil =>
                  have hs := (List.cons_prefix_cons.mp ha).1
                  have ht := (List.cons_prefix_cons.mp hb).1
                  exact absurd (hs.trans (eq.trans ht.symm)) ne
              | cons c node =>
                  exact ⟨node, (List.cons_prefix_cons.mp ha).2, (List.cons_prefix_cons.mp hb).2,
                    ne, rest⟩
          · have both : (isParameter a && isParameter b) = true ↔ Parameter a ∧ Parameter b := by
              rw [Bool.and_eq_true, isParameter_iff, isParameter_iff]
            rw [if_neg eq]
            -- Nothing behind the first difference is looked at.
            constructor
            · intro found
              split at found
              · next parameters =>
                cases found
                exact ⟨[], by simp, by simp, eq, both.mp parameters⟩
              · cases found
            · rintro ⟨node, ha, hb, ne, parameters⟩
              cases node with
              | nil =>
                  obtain rfl := (List.cons_prefix_cons.mp ha).1
                  obtain rfl := (List.cons_prefix_cons.mp hb).1
                  rw [if_pos (both.mpr parameters)]
              | cons c node =>
                  have hs := (List.cons_prefix_cons.mp ha).1
                  have ht := (List.cons_prefix_cons.mp hb).1
                  exact absurd (hs.symm.trans ht) eq

theorem clash?_eq_none {a b : String} :
    clash? (segments a) (segments b) = none ↔ ∀ s t, ¬ Parts a b s t := by
  rw [Option.eq_none_iff_forall_ne_some]
  constructor
  · intro none_found s t parts
    exact none_found (s, t) (clash?_eq_some.mpr parts)
  · intro never p found
    exact never p.1 p.2 (clash?_eq_some.mp found)

theorem checkAgainst_eq_error {existing path : String} {f : PathFault} :
    checkAgainst existing path = .error f ↔ ∃ s t, Parts existing path s t ∧
      f = .conflict (String.ofList t) (String.ofList s) existing := by
  rw [checkAgainst]
  cases found : clash? (segments existing) (segments path) with
  | none =>
      have never := clash?_eq_none.mp found
      simp [never]
  | some p =>
      obtain ⟨s, t⟩ := p
      have unique : ∀ s' t', Parts existing path s' t' → s' = s ∧ t' = t := by
        intro s' t' parts
        have same : some (s', t') = some (s, t) := (clash?_eq_some.mpr parts).symm.trans found
        simpa using same
      constructor
      · intro fault
        cases fault
        exact ⟨s, t, clash?_eq_some.mp found, rfl⟩
      · rintro ⟨s', t', parts, hf⟩
        obtain ⟨rfl, rfl⟩ := unique s' t' parts
        rw [hf]

theorem checkAgainst_eq_ok {existing path : String} :
    checkAgainst existing path = .ok () ↔ ∀ s t, ¬ Parts existing path s t := by
  rw [← clash?_eq_none, checkAgainst]
  cases clash? (segments existing) (segments path) <;> simp

/-! ## Consistent routes -/

/-- A segment hangs below a node in the tree of all segments; the segments that
lead there stand for the node. -/
def Hangs (routes : List (Route σ)) (node : List (List Char)) (s : List Char) : Prop :=
  ∃ r ∈ routes, node ++ [s] <+: segments r.path

/-- Routes that can be served, in whatever order they come. -/
structure Consistent (routes : List (Route σ)) : Prop where
  distinct : (routes.map fun r => (r.method, r.path)).Nodup
  shaped : ∀ r ∈ routes, Shaped r.path
  /-- Below a node there is one parameter at most. -/
  single {node : List (List Char)} {s t : List Char} (hs : Hangs routes node s)
    (ht : Hangs routes node t) (ps : Parameter s) (pt : Parameter t) : s = t

theorem Consistent.perm {routes routes' : List (Route σ)} (h : Consistent routes)
    (perm : routes.Perm routes') : Consistent routes' where
  distinct := (perm.map _).nodup_iff.mp h.distinct
  shaped r hr := h.shaped r (perm.mem_iff.mpr hr)
  single := by
    intro node s t ⟨r, hr, hs⟩ ⟨r', hr', ht⟩
    exact h.single ⟨r, perm.mem_iff.mpr hr, hs⟩ ⟨r', perm.mem_iff.mpr hr', ht⟩

/-- Comparing each route with those before it tells whether the whole tree is
right. -/
theorem served_iff_consistent (routes : List (Route σ)) : Served routes ↔ Consistent routes := by
  constructor
  · intro served
    -- A route is compared with those before it only, but parting is symmetric,
    -- and no path parts from itself.
    have apart : ∀ r ∈ routes, ∀ r' ∈ routes, ∀ s t, ¬ Parts r.path r'.path s t := by
      let Apart (r r' : Route σ) : Prop := ∀ s t, ¬ Parts r.path r'.path s t
      have symmetric : Std.Symm Apart := ⟨fun _ _ apart s t parts => apart t s parts.symm⟩
      have pairwise : routes.Pairwise Apart :=
        served.compatible.imp fun c => clash?_eq_none.mp c.clash
      intro r hr r' hr'
      exact pairwise.forall_of_forall (fun r _ => not_parts_self r.path) hr hr'
    refine ⟨?_, fun r hr => checkPath_eq_ok.mp (served.wellFormed r hr), ?_⟩
    · exact List.pairwise_map.mpr (served.compatible.imp fun c => c.ne)
    · intro node s t ⟨r, hr, hs⟩ ⟨r', hr', ht⟩ ps pt
      by_cases same : s = t
      · exact same
      · exact absurd ⟨node, hs, ht, same, ps, pt⟩ (apart r hr r' hr' s t)
  · intro h
    refine ⟨fun r hr => checkPath_eq_ok.mpr (h.shaped r hr), ?_⟩
    refine (List.pairwise_map.mp h.distinct).imp_of_mem ?_
    intro r r' hr hr' ne
    refine ⟨ne, clash?_eq_none.mpr ?_⟩
    intro s t ⟨node, hs, ht, differ, ps, pt⟩
    exact differ (h.single ⟨r, hr, hs⟩ ⟨r', hr', ht⟩ ps pt)

/-! ## Faults -/

/-- A route comes again. -/
def Bound (before : List (Route σ)) (r : Route σ) : Prop :=
  ∃ b ∈ before, b.method = r.method ∧ b.path = r.path

/-- What is wrong with a route behind others.  Of several things, the first one
of these counts: it is there already, its path is not well formed, its path
parts from another one; of several other ones, the earliest counts. -/
inductive Offends (before : List (Route σ)) (r : Route σ) : RouteFault → Prop
  | duplicate (again : Bound before r) : Offends before r (.duplicate r.method r.path)
  | malformed {f : PathFault} (new : ¬ Bound before r) (shape : Misshapen r.path f) :
      Offends before r (.invalid r.method r.path f)
  | conflict {front behind : List (Route σ)} {other : Route σ} {s t : List Char}
      (new : ¬ Bound before r) (shaped : Shaped r.path) (split : before = front ++ other :: behind)
      (parts : Parts other.path r.path s t)
      (earliest : ∀ b ∈ front, ∀ s t, ¬ Parts b.path r.path s t) :
      Offends before r (.invalid r.method r.path
        (.conflict (String.ofList t) (String.ofList s) other.path))

theorem checkAgainstAll_eq (path : String) (seen before : List (Route σ)) :
    checkAgainstAll path (before.map (·.path)) =
      walk (fun _ other _ => checkAgainst other.path path) seen before := by
  induction before generalizing seen with
  | nil => rfl
  | cons other rest ih => rw [List.map_cons, checkAgainstAll, walk, ih]

theorem checkAgainstAll_eq_error {path : String} {before : List (Route σ)} {f : PathFault} :
    checkAgainstAll path (before.map (·.path)) = .error f ↔
      ∃ front other behind s t, before = front ++ other :: behind ∧ Parts other.path path s t ∧
        (∀ b ∈ front, ∀ s t, ¬ Parts b.path path s t) ∧
        f = .conflict (String.ofList t) (String.ofList s) other.path := by
  rw [checkAgainstAll_eq path [], walk_eq_error]
  simp only [checkAgainst_eq_error, checkAgainst_eq_ok]
  constructor
  · intro ⟨front, other, behind, split, ⟨s, t, parts, hf⟩, passed⟩
    refine ⟨front, other, behind, s, t, split, parts, ?_, hf⟩
    intro b hb
    obtain ⟨before, after, rfl⟩ := List.append_of_mem hb
    exact passed before b after rfl
  · intro ⟨front, other, behind, s, t, split, parts, earliest, hf⟩
    refine ⟨front, other, behind, split, ⟨s, t, parts, hf⟩, ?_⟩
    intro before b after eq
    exact earliest b (by rw [eq]; simp)

section Next

variable {before : List (Route σ)} {r : Route σ} {e : RouteFault}

theorem bound_iff :
    (before.map fun b => (b.method, b.path)).contains (r.method, r.path) = true ↔
      Bound before r := by
  simp [Bound]

theorem map_snd_bindings :
    (before.map fun b => (b.method, b.path)).map (·.2) = before.map (·.path) := by
  simp

theorem checkNext_of_offends (h : Offends before r e) :
    checkNext (before.map fun b => (b.method, b.path)) r.method r.path = .error e := by
  rw [checkNext, map_snd_bindings]
  cases h with
  | duplicate again => rw [if_pos (bound_iff.mpr again)]
  | malformed new shape =>
      rw [if_neg (mt bound_iff.mp new), checkPath_eq_error.mpr shape]
      rfl
  | conflict new shaped split parts earliest =>
      have against := checkAgainstAll_eq_error.mpr ⟨_, _, _, _, _, split, parts, earliest, rfl⟩
      rw [if_neg (mt bound_iff.mp new), checkPath_eq_ok.mpr shaped]
      simp only [Except.bind, against]

theorem checkNext_ok_or_offends (before : List (Route σ)) (r : Route σ) :
    checkNext (before.map fun b => (b.method, b.path)) r.method r.path = .ok () ∨
      ∃ e, Offends before r e := by
  by_cases again : Bound before r
  · exact .inr ⟨_, .duplicate again⟩
  · rw [checkNext, map_snd_bindings, if_neg (mt bound_iff.mp again)]
    cases shape : checkPath r.path with
    | error f => exact .inr ⟨_, .malformed again (checkPath_eq_error.mp shape)⟩
    | ok =>
        cases against : checkAgainstAll r.path (before.map (·.path)) with
        | error f =>
            obtain ⟨_, _, _, _, _, split, parts, earliest, -⟩ := checkAgainstAll_eq_error.mp against
            exact .inr ⟨_, .conflict again (checkPath_eq_ok.mp shape) split parts earliest⟩
        | ok => exact .inl (by simp only [Except.bind])

/-- A route is refused for what is wrong with it. -/
theorem checkNext_eq_error :
    checkNext (before.map fun b => (b.method, b.path)) r.method r.path = .error e ↔
      Offends before r e :=
  eq_error_iff_of_total (checkNext_ok_or_offends before r) (fun _ => checkNext_of_offends) e

theorem checkNext_eq_ok_iff :
    checkNext (before.map fun b => (b.method, b.path)) r.method r.path = .ok () ↔
      ∀ e, ¬ Offends before r e := by
  constructor
  · intro passed e offends
    rw [checkNext_of_offends offends] at passed
    cases passed
  · intro innocent
    obtain passed | ⟨e, offends⟩ := checkNext_ok_or_offends before r
    · exact passed
    · exact absurd offends (innocent e)

end Next

theorem checkFrom_eq (before routes : List (Route σ)) :
    checkFrom (before.map fun b => (b.method, b.path)) (routes.map fun r => (r.method, r.path)) =
      walk (fun before r _ => checkNext (before.map fun b => (b.method, b.path)) r.method r.path)
        before routes := by
  induction routes generalizing before with
  | nil => rfl
  | cons r rest ih =>
      rw [List.map_cons, checkFrom, walk, ← ih]
      simp

/-- A list of routes is refused for the first one of them that offends. -/
theorem checkAll_eq_error {routes : List (Route σ)} {e : RouteFault} :
    checkAll routes = .error e ↔ ∃ before r behind, routes = before ++ r :: behind ∧
      Offends before r e ∧
      ∀ b r' a, before = b ++ r' :: a → ∀ e', ¬ Offends b r' e' := by
  have all := checkFrom_eq [] routes
  rw [List.map_nil] at all
  rw [checkAll, all, walk_eq_error]
  simp only [List.nil_append, checkNext_eq_error, checkNext_eq_ok_iff]

end Route

/-! ## Configurations -/

namespace Server.Config

open Route

variable {σ : Type}

theorem routes_addRoutes (c : Config σ) (groups : List (List (Route σ))) :
    (groups.foldl addRoutes c).routes = c.routes ++ groups.flatten := by
  induction groups generalizing c with
  | nil => simp
  | cons g groups ih => rw [List.foldl_cons, ih, addRoutes, List.flatten_cons, List.append_assoc]

theorem build_eq_error {c : Config σ} {e : RouteFault} :
    c.build = .error e ↔ checkAll c.routes = .error e := by
  rw [build]
  cases checkAll c.routes <;> simp [Except.map]

/-- A configuration is accepted as it is when its routes are consistent, however
they are ordered and in whatever groups they have been added.  Otherwise it is
refused for the first route that offends: one that comes again, else one whose
path is not well formed, else one whose path parts from an earlier one. -/
theorem build_accepts_consistent (c : Config σ) :
    (∀ d, c.build = .ok d ↔ d = c ∧ Consistent c.routes) ∧
    (∀ groups groups' : List (List (Route σ)), groups.flatten.Perm groups'.flatten →
      ((∃ d, (groups.foldl addRoutes c).build = .ok d) ↔
        ∃ d, (groups'.foldl addRoutes c).build = .ok d)) ∧
    ∀ e, c.build = .error e ↔ ∃ before r behind, c.routes = before ++ r :: behind ∧
      Offends before r e ∧
      ∀ b r' a, before = b ++ r' :: a → ∀ e', ¬ Offends b r' e' := by
  have accepts (c : Config σ) : (∃ d, c.build = .ok d) ↔ Consistent c.routes := by
    simp [build_eq_ok, served_iff_consistent]
  refine ⟨?_, ?_, ?_⟩
  · intro d
    rw [build_eq_ok, served_iff_consistent]
  · intro groups groups' perm
    rw [accepts, accepts, routes_addRoutes, routes_addRoutes]
    have perm := perm.append_left c.routes
    exact ⟨fun h => h.perm perm, fun h => h.perm perm.symm⟩
  · intro e
    rw [build_eq_error, checkAll_eq_error]

/-- Three routes in two groups are accepted, and so they are in another order,
one at a time.  With another parameter in the place of theirs there is a route
that offends. -/
theorem build_accepts_consistent_regrouped :
    let handler : Handler Unit := .plain fun _ => .done (.ok none)
    let get : Route Unit := ⟨.get, "/a/:id", handler⟩
    let post : Route Unit := ⟨.post, "/a/:id", handler⟩
    let files : Route Unit := ⟨.get, "/a/b/*path", handler⟩
    let other : Route Unit := ⟨.post, "/a/:name", handler⟩
    let fault : RouteFault := .invalid .post "/a/:name" (.conflict ":name" ":id" "/a/:id")
    let c : Config Unit := {}
    [[get, post], [files]].flatten.Perm [[files], [post], [], [get]].flatten ∧
    (∃ d, ([[get, post], [files]].foldl addRoutes c).build = .ok d) ∧
    (∃ d, ([[files], [post], [], [get]].foldl addRoutes c).build = .ok d) ∧
    (addRoutes c [get, files, other]).build = .error fault ∧
    ∃ before r behind, [get, files, other] = before ++ r :: behind ∧ Offends before r fault := by
  intro handler get post files other fault c
  have perm : [[get, post], [files]].flatten.Perm [[files], [post], [], [get]].flatten :=
    List.reverse_perm [files, post, get]
  have accepted : ([[get, post], [files]].foldl addRoutes c).build = .ok _ :=
    build_eq_ok.mpr ⟨rfl, (checkAll_eq_ok _).mp (show checkFrom [] _ = _ by decide +kernel)⟩
  have regrouped := ((build_accepts_consistent c).2.1 _ _ perm).mp ⟨_, accepted⟩
  have refused : (addRoutes c [get, files, other]).build = .error fault :=
    build_eq_error.mpr (show checkFrom [] _ = _ by decide +kernel)
  obtain ⟨before, r, behind, split, offends, -⟩ :=
    ((build_accepts_consistent (addRoutes c [get, files, other])).2.2 fault).mp refused
  exact ⟨perm, ⟨_, accepted⟩, regrouped, refused, before, r, behind, split, offends⟩

end Server.Config

end Switchboard
