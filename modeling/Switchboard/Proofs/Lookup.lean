import Switchboard.Route.Mount

/-!
# Switchboard.Proofs.Lookup

Whatever a request finds has been mounted: a tree hands out what was put into it
and nothing else, so the handler that answers a request is the handler of one of
the routes.

* `Node.holds_of_insert`, `Node.holds_of_walk` — nodes, one lemma a function;
* `mem_of_look` — the handler that a request finds.
-/

namespace Switchboard.Route

open Http

/-! ## Trees -/

section Tree

variable {α : Type} {v w : α}

/-- A value stands at a node or below it. -/
inductive Node.Holds (w : α) : Node α → Prop
  | text {label : List Char} {branches : List (Node α)} : Holds w (.text label (some w) branches)
  | belowText {label : List Char} {value : Option α} {branches : List (Node α)} {n : Node α}
      (hn : n ∈ branches) (h : Holds w n) : Holds w (.text label value branches)
  | parameter {branches : List (Node α)} : Holds w (.parameter (some w) branches)
  | belowParameter {value : Option α} {branches : List (Node α)} {n : Node α} (hn : n ∈ branches)
      (h : Holds w n) : Holds w (.parameter value branches)
  | wildcard : Holds w (.wildcard w)

/-- A value stands in a tree. -/
def Tree.Holds (w : α) (t : List (Node α)) : Prop := ∃ n ∈ t, n.Holds w

theorem Tree.holds_cons {n : Node α} {rest : List (Node α)} :
    Tree.Holds w (n :: rest) ↔ n.Holds w ∨ Tree.Holds w rest := by
  simp [Tree.Holds]

theorem Node.holds_text {label : List Char} {value : Option α} {branches : List (Node α)} :
    (Node.text label value branches).Holds w ↔ value = some w ∨ Tree.Holds w branches := by
  constructor
  · intro h
    cases h with
    | text => exact .inl rfl
    | belowText hn h => exact .inr ⟨_, hn, h⟩
  · rintro (rfl | ⟨n, hn, h⟩)
    · exact .text
    · exact .belowText hn h

theorem Node.holds_parameter {value : Option α} {branches : List (Node α)} :
    (Node.parameter value branches).Holds w ↔ value = some w ∨ Tree.Holds w branches := by
  constructor
  · intro h
    cases h with
    | parameter => exact .inl rfl
    | belowParameter hn h => exact .inr ⟨_, hn, h⟩
  · rintro (rfl | ⟨n, hn, h⟩)
    · exact .parameter
    · exact .belowParameter hn h

theorem Node.holds_wildcard : (Node.wildcard v).Holds w ↔ w = v := by
  constructor
  · intro h
    cases h
    rfl
  · rintro rfl
    exact .wildcard

theorem Tree.not_holds_nil : ¬ Tree.Holds w ([] : List (Node α)) := by
  rintro ⟨n, hn, -⟩
  cases hn

theorem Node.holds_ofPieces (pieces : List Piece) (h : (Node.ofPieces v pieces).Holds w) :
    w = v := by
  induction pieces using Node.ofPieces.induct with
  | case1 | case2 | case4 =>
      simpa [ofPieces, holds_text, holds_parameter, Tree.not_holds_nil, eq_comm] using h
  | case3 cs rest _ ih | case5 rest _ ih =>
      simp only [ofPieces, holds_text, holds_parameter, Tree.holds_cons, Tree.not_holds_nil,
        or_false, reduceCtorEq, false_or] at h
      exact ih h
  | case6 rest => exact holds_wildcard.1 h

mutual

/-- Putting a value into a tree puts in nothing else. -/
theorem Node.holds_of_insert (n : Node α) (pieces : List Piece)
    (h : (n.insert v pieces).Holds w) : w = v ∨ n.Holds w := by
  unfold Node.insert at h
  split at h
  · next label value branches cs rest =>
    dsimp only at h
    split at h
    · split at h
      · rw [Node.holds_text] at h ⊢
        exact h.imp (fun eq => (Option.some.inj eq).symm) .inr
      · rw [Node.holds_text] at h ⊢
        rcases h with here | below
        · exact .inr (.inl here)
        · exact (holds_of_insertBelow branches _ below).imp_right .inr
    · next lower _ =>
      split at h
      · rw [Node.holds_text, Tree.holds_cons, Node.holds_text] at h
        rw [Node.holds_text]
        rcases h with here | below | none
        · exact .inl (Option.some.inj here).symm
        · exact .inr below
        · exact absurd none Tree.not_holds_nil
      · rw [Node.holds_text, Tree.holds_cons, Tree.holds_cons, Node.holds_text] at h
        rw [Node.holds_text]
        rcases h with here | below | new | none
        · cases here
        · exact .inr below
        · exact .inl (Node.holds_ofPieces _ new)
        · exact absurd none Tree.not_holds_nil
  · next value branches first rest =>
    split at h
    · rw [Node.holds_parameter] at h ⊢
      exact h.imp (fun eq => (Option.some.inj eq).symm) .inr
    · rw [Node.holds_parameter] at h ⊢
      rcases h with here | below
      · exact .inr (.inl here)
      · exact (holds_of_insertBelow branches _ below).imp_right .inr
  · exact .inr h

theorem holds_of_insertBelow (ns : List (Node α)) (pieces : List Piece)
    (h : Tree.Holds w (insertBelow v ns pieces)) : w = v ∨ Tree.Holds w ns := by
  unfold insertBelow at h
  split at h
  · rw [Tree.holds_cons] at h
    exact .inl (h.elim (Node.holds_ofPieces _) fun none => absurd none Tree.not_holds_nil)
  · next n rest =>
    rw [Tree.holds_cons]
    split at h
    · rw [Tree.holds_cons] at h
      rcases h with first | others
      · exact (Node.holds_of_insert n pieces first).imp_right .inl
      · exact .inr (.inr others)
    · rw [Tree.holds_cons] at h
      rcases h with first | others
      · exact .inr (.inl first)
      · exact (holds_of_insertBelow rest pieces others).imp_right .inr

end

/-! ## Searching -/

namespace Outcome

theorem endingAt_found {value : Option α} {o : Outcome α} {taken : List (List Char)}
    (h : endingAt value o = .found w taken) (ho : o ≠ .found w taken) : value = some w := by
  cases value with
  | none => exact absurd h ho
  | some v =>
      cases h
      rfl

theorem leftWith_ne_found {cs : List Char} {taken : List (List Char)} :
    (leftWith cs : Outcome α) ≠ .found w taken := by
  unfold leftWith
  split <;> nofun

theorem taking_found {cs : List Char} {o : Outcome α} {taken : List (List Char)}
    (h : taking cs o = .found w taken) : ∃ taken', o = .found w taken' := by
  cases o with
  | found v taken' =>
      cases h
      exact ⟨taken', rfl⟩
  | missed | refused => cases h

theorem orElse_found {o : Outcome α} {other : Option (Outcome α)} {taken : List (List Char)}
    (h : o.orElse other = .found w taken) :
    o = .found w taken ∨ other = some (.found w taken) := by
  cases o with
  | found v taken' => exact .inl h
  | refused => cases h
  | missed =>
      cases other with
      | none => cases h
      | some o => exact .inr (congrArg some h)

theorem getD_found {o : Option (Outcome α)} {cs : List Char} {taken : List (List Char)}
    (h : o.getD (leftWith cs) = .found w taken) : o = some (.found w taken) := by
  cases o with
  | none => exact absurd h leftWith_ne_found
  | some o => exact congrArg some h

end Outcome

mutual

/-- A path that is found in a tree leads to a value of the tree. -/
theorem Node.holds_of_walk (n : Node α) (path : List Char) {taken : List (List Char)}
    (h : n.walk path = .found w taken) : n.Holds w := by
  unfold Node.walk at h
  split at h
  · next label value branches =>
    rw [Node.holds_text]
    split at h
    · split at h
      · cases h
      · exact absurd h Outcome.leftWith_ne_found
    · exact .inl (Outcome.endingAt_found h Outcome.leftWith_ne_found)
    · next left _ _ =>
      split at h
      · next o literal =>
        rcases Outcome.orElse_found h with rfl | h
        · exact .inr (holds_of_walkLiteral branches left literal)
        · exact .inr (holds_of_walkOpen branches left h)
      · exact .inr (holds_of_walkOpen branches left (Outcome.getD_found h))
  · exact absurd h Outcome.leftWith_ne_found

theorem holds_of_walkLiteral (ns : List (Node α)) (path : List Char) {taken : List (List Char)}
    (h : walkLiteral ns path = some (.found w taken)) : Tree.Holds w ns := by
  unfold walkLiteral at h
  split at h
  · cases h
  · next n rest =>
    rw [Tree.holds_cons]
    split at h
    · exact .inl (Node.holds_of_walk n path (Option.some.inj h))
    · exact .inr (holds_of_walkLiteral rest path h)

theorem holds_of_walkOpen (ns : List (Node α)) (path : List Char) {taken : List (List Char)}
    (h : walkOpen ns path = some (.found w taken)) : Tree.Holds w ns := by
  unfold walkOpen at h
  split at h
  · cases h
  · next value branches rest =>
    rw [Tree.holds_cons, Node.holds_parameter]
    obtain ⟨taken', h⟩ := Outcome.taking_found (Option.some.inj h)
    split at h
    · refine .inl (.inl (Outcome.endingAt_found h ?_))
      split <;> nofun
    · exact .inl (.inr (holds_of_walkLiteral branches _ (Outcome.getD_found h)))
  · cases h
    rw [Tree.holds_cons, Node.holds_wildcard]
    exact .inl rfl
  · next rest =>
    rw [Tree.holds_cons]
    exact .inr (holds_of_walkOpen rest path h)

end

end Tree

/-! ## Routes -/

variable {σ : Type} {m : Mounted σ}

theorem holds_tree {e : String × MethodTable σ} (h : Tree.Holds e m.tree) : e ∈ m.entries := by
  have inserted (entries : List (String × MethodTable σ)) (t : Tree (String × MethodTable σ))
      (h : Tree.Holds e (entries.foldl (fun t e => Tree.insert t (Piece.ofPath e.1) e) t)) :
      e ∈ entries ∨ Tree.Holds e t := by
    induction entries generalizing t with
    | nil => exact .inr h
    | cons first rest ih =>
        rcases ih _ h with hm | h
        · exact .inl (List.mem_cons_of_mem _ hm)
        · rcases holds_of_insertBelow t _ h with rfl | h
          · exact .inl List.mem_cons_self
          · exact .inr h
  exact (inserted m.entries [] h).resolve_right Tree.not_holds_nil

theorem mem_of_handler? {t : MethodTable σ} {name : String} {h : Handler σ}
    (ht : t.handler? name = some h) : ∃ method, (method, h) ∈ t := by
  have found {method : Method} (hm : t.get? method = some h) : ∃ method, (method, h) ∈ t := by
    obtain ⟨before, after, rfl, -⟩ := List.lookup_eq_some_iff.1 hm
    exact ⟨method, by simp⟩
  unfold MethodTable.handler? at ht
  split at ht
  · cases ht
  · rcases Option.or_eq_some_iff.1 ht with hm | ⟨-, hm⟩
    · exact found hm
    · exact found hm
  · exact found ht

/-- The handler that a request finds stands in a table that has been mounted. -/
theorem mem_of_look {method path : String} {h : Handler σ} {params : Dict String}
    (hl : m.look method path = .handler h params) :
    ∃ e ∈ m.entries, ∃ method, (method, h) ∈ e.2 := by
  unfold Mounted.look at hl
  split at hl
  · cases hl
  · next mountedPath methods taken hfound =>
    split at hl
    · next h' hh =>
      cases hl
      refine ⟨(mountedPath, methods), holds_tree ?_, mem_of_handler? hh⟩
      unfold Tree.find? at hfound
      split at hfound
      · next hw =>
        cases hfound
        exact holds_of_walkLiteral _ _ hw
      · cases hfound
    · cases hl

theorem entries_of_mount {m m' : Mounted σ} {path : String} {methods : MethodTable σ}
    (h : m.mount path methods = .ok m') : m'.entries = m.entries ++ [(path, methods)] := by
  simp only [Mounted.mount, bind, Except.bind, pure, Except.pure, throw, throwThe,
    MonadExceptOf.throw] at h
  -- Every check but the last one can only refuse.
  split at h
  · cases h
  split at h
  · cases h
  split at h
  · cases h
  split at h
  · cases h
  split at h
  · cases h
  · cases h
    rfl

/-- Mounting adds the paths of a table. -/
theorem entries_of_mountAll {m m' : Mounted σ} {entries : List (String × MethodTable σ)}
    (h : m.mountAll entries = .ok m') : m'.entries = m.entries ++ entries := by
  induction entries generalizing m with
  | nil =>
      cases h
      rw [List.append_nil]
  | cons e rest ih =>
      obtain ⟨path, methods⟩ := e
      unfold Mounted.mountAll at h
      cases hm : m.mount path methods with
      | error fault => rw [hm] at h; cases h
      | ok m₁ =>
          rw [hm] at h
          rw [ih h, entries_of_mount hm, List.append_assoc]
          rfl

theorem mem_placeEntry {α : Type} {label : String} {value : α} {entries : List (String × α)}
    {e : String × α} (h : e ∈ placeEntry label value entries) :
    e = (label, value) ∨ e ∈ entries := by
  induction entries with
  | nil => exact .inl (List.mem_singleton.1 h)
  | cons first rest ih =>
      obtain ⟨k, v⟩ := first
      unfold placeEntry at h
      split at h
      · next eq =>
        cases eq
        exact (List.mem_cons.1 h).imp_right (List.mem_cons_of_mem _)
      · rcases List.mem_cons.1 h with rfl | h
        · exact .inr List.mem_cons_self
        · exact (ih h).imp_right (List.mem_cons_of_mem _)

/-- The handlers of a table are those that have been bound. -/
theorem handler_of_bind {t t' : Table σ} {r : Route σ} (h : t.bind r = .ok t')
    {e : String × MethodTable σ} (he : e ∈ t'.entries) {b : Method × Handler σ} (hb : b ∈ e.2) :
    b.2 = r.handler ∨ ∃ e ∈ t.entries, b ∈ e.2 := by
  unfold Table.bind MethodTable.on at h
  split at h
  · cases h
  · cases h
    rcases mem_placeEntry he with rfl | he
    · rcases List.mem_append.1 hb with hb | hb
      · cases hg : t.get? r.path with
        | none => rw [hg] at hb; cases hb
        | some methods =>
            rw [hg] at hb
            obtain ⟨before, after, eq, -⟩ := List.lookup_eq_some_iff.1 hg
            exact .inr ⟨(r.path, methods), by rw [eq]; simp, hb⟩
      · exact .inl (congrArg Prod.snd (List.mem_singleton.1 hb))
    · exact .inr ⟨e, he, hb⟩

theorem handler_of_bindAll {t t' : Table σ} {routes : List (Route σ)}
    (h : Table.bindAll t routes = .ok t') {e : String × MethodTable σ} (he : e ∈ t'.entries)
    {b : Method × Handler σ} (hb : b ∈ e.2) :
    (∃ r ∈ routes, r.handler = b.2) ∨ ∃ e ∈ t.entries, b ∈ e.2 := by
  induction routes generalizing t with
  | nil =>
      cases h
      exact .inr ⟨e, he, hb⟩
  | cons r rest ih =>
      unfold Table.bindAll at h
      cases ht : t.bind r with
      | error fault => rw [ht] at h; cases h
      | ok t₁ =>
          rw [ht] at h
          rcases ih h with ⟨r', hr', eq⟩ | ⟨e', he', hb'⟩
          · exact .inl ⟨r', List.mem_cons_of_mem _ hr', eq⟩
          · rcases handler_of_bind ht he' hb' with eq | h
            · exact .inl ⟨r, List.mem_cons_self, eq.symm⟩
            · exact .inr h

/-- A request is answered by the handler of a route. -/
theorem route_of_look {routes : List (Route σ)} (hm : Mounted.ofRoutes routes = .ok m)
    {method path : String} {h : Handler σ} {params : Dict String}
    (hl : m.look method path = .handler h params) : ∃ r ∈ routes, r.handler = h := by
  unfold Mounted.ofRoutes at hm
  cases ht : Table.ofRoutes routes with
  | error fault => rw [ht] at hm; cases hm
  | ok t =>
      rw [ht] at hm
      have entries : m.entries = t.entries := entries_of_mountAll hm
      obtain ⟨e, he, method', hb⟩ := mem_of_look hl
      rcases handler_of_bindAll ht (entries ▸ he) hb with h | ⟨e', he', -⟩
      · exact h
      · cases he'

end Switchboard.Route
