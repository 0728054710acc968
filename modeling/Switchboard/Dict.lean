/-!
# Switchboard.Dict

Maps from text keys, kept as their entries in strictly increasing key order.
The order is part of the type, so two maps with the same bindings are equal
and every listing of a map is in key order without sorting.

`Labelled` is the other kind of keyed collection: its labels are distinct as
well, but they stay in the order in which they first appeared.
-/

namespace Switchboard

/-! ## Ordered entries -/

/-- Put a binding into entries that are in increasing key order, replacing
the binding of the same key if there is one. -/
def insertEntry {α : Type} (key : String) (value : α) :
    List (String × α) → List (String × α)
  | [] => [(key, value)]
  | (k, v) :: rest =>
    if key < k then (key, value) :: (k, v) :: rest
    else if key = k then (key, value) :: rest
    else (k, v) :: insertEntry key value rest

/-- The value bound to a key. -/
def lookupEntry {α : Type} (key : String) : List (String × α) → Option α
  | [] => none
  | (k, v) :: rest => if key = k then some v else lookupEntry key rest

/-- Entries in strictly increasing key order. -/
def SortedEntries {α : Type} (entries : List (String × α)) : Prop :=
  entries.Pairwise (fun a b => a.1 < b.1)

theorem mem_insertEntry {α : Type} {key : String} {value : α} {e : String × α}
    {entries : List (String × α)} (h : e ∈ insertEntry key value entries) :
    e = (key, value) ∨ e ∈ entries := by
  induction entries with
  | nil => simpa [insertEntry] using h
  | cons head rest ih =>
    obtain ⟨k, v⟩ := head
    simp only [insertEntry] at h
    split at h
    · simpa using h
    · split at h
      · rcases List.mem_cons.1 h with h | h
        · exact .inl h
        · exact .inr (List.mem_cons_of_mem _ h)
      · rcases List.mem_cons.1 h with h | h
        · exact .inr (h ▸ List.mem_cons_self)
        · exact (ih h).imp id (List.mem_cons_of_mem _)

theorem SortedEntries.insertEntry {α : Type} (key : String) (value : α)
    {entries : List (String × α)} (h : SortedEntries entries) :
    SortedEntries (insertEntry key value entries) := by
  induction entries with
  | nil => simp [SortedEntries, Switchboard.insertEntry]
  | cons head rest ih =>
    obtain ⟨k, v⟩ := head
    have hd := (List.pairwise_cons.1 h).1
    have tl := (List.pairwise_cons.1 h).2
    simp only [Switchboard.insertEntry]
    split
    · next lt =>
      refine List.pairwise_cons.2 ⟨fun e he => ?_, h⟩
      rcases List.mem_cons.1 he with rfl | he
      · exact lt
      · exact String.lt_trans lt (hd e he)
    · next ge =>
      split
      · next eq => exact List.pairwise_cons.2 ⟨fun e he => eq ▸ hd e he, tl⟩
      · next ne =>
        have lt : k < key := by
          rcases String.le_total key k with le | le
          · exact absurd (String.le_antisymm le (String.not_lt.1 ge)) ne
          · exact String.not_le.1 fun le' => ne (String.le_antisymm le' le)
        refine List.pairwise_cons.2 ⟨fun e he => ?_, ih tl⟩
        rcases mem_insertEntry he with rfl | he
        · exact lt
        · exact hd e he

theorem lookupEntry_insertEntry_self {α : Type} (key : String) (value : α)
    (entries : List (String × α)) :
    lookupEntry key (insertEntry key value entries) = some value := by
  induction entries with
  | nil => simp [insertEntry, lookupEntry]
  | cons head rest ih =>
    obtain ⟨k, v⟩ := head
    simp only [insertEntry]
    split
    · simp [lookupEntry]
    · split
      · simp [lookupEntry]
      · next ne => simp [lookupEntry, ne, ih]

theorem lookupEntry_insertEntry_of_ne {α : Type} {key other : String} (value : α)
    (entries : List (String × α)) (h : other ≠ key) :
    lookupEntry other (insertEntry key value entries) = lookupEntry other entries := by
  induction entries with
  | nil => simp [insertEntry, lookupEntry, h]
  | cons head rest ih =>
    obtain ⟨k, v⟩ := head
    simp only [insertEntry]
    split
    · simp [lookupEntry, h]
    · split
      · next eq => subst eq; simp [lookupEntry, h]
      · simp [lookupEntry, ih]

/-- A key that comes before all others is bound to nothing. -/
theorem lookupEntry_eq_none_of_lt {α : Type} {key : String} {entries : List (String × α)}
    (h : ∀ e ∈ entries, key < e.1) : lookupEntry key entries = none := by
  induction entries with
  | nil => rfl
  | cons head rest ih =>
    have ne : key ≠ head.1 := fun eq => String.lt_irrefl _ (eq ▸ h head List.mem_cons_self)
    rw [lookupEntry, if_neg ne]
    exact ih fun e he => h e (List.mem_cons_of_mem _ he)

theorem lookupEntry_eq_some_iff {α : Type} {key : String} {value : α}
    {entries : List (String × α)} (h : SortedEntries entries) :
    lookupEntry key entries = some value ↔ (key, value) ∈ entries := by
  induction entries with
  | nil => simp [lookupEntry]
  | cons head rest ih =>
    obtain ⟨k, v⟩ := head
    obtain ⟨first, h⟩ := List.pairwise_cons.1 h
    rw [lookupEntry, List.mem_cons, Prod.mk.injEq]
    by_cases eq : key = k
    · subst eq
      have fresh : (key, value) ∉ rest := fun hm => String.lt_irrefl key (first (key, value) hm)
      simp [fresh, eq_comm]
    · simp [eq, ih h]

/-- A key that comes behind all others is put at the end. -/
theorem insertEntry_of_lt {α : Type} {key : String} (value : α) {entries : List (String × α)}
    (h : ∀ e ∈ entries, e.1 < key) : insertEntry key value entries = entries ++ [(key, value)] := by
  induction entries with
  | nil => rfl
  | cons head rest ih =>
    have lt := h head List.mem_cons_self
    have ne : key ≠ head.1 := fun eq => String.lt_irrefl _ (eq ▸ lt)
    rw [insertEntry, if_neg (String.lt_asymm lt), if_neg ne,
      ih fun e he => h e (List.mem_cons_of_mem _ he), List.cons_append]

/-! ## Dictionaries -/

/-- A map from text keys, listed in increasing key order. -/
structure Dict (α : Type) where
  entries : List (String × α)
  sorted : SortedEntries entries
  deriving DecidableEq

namespace Dict

variable {α β : Type}

@[ext] theorem ext {d e : Dict α} (h : d.entries = e.entries) : d = e := by
  cases d; cases e; simp_all

def empty : Dict α := ⟨[], .nil⟩

instance : EmptyCollection (Dict α) := ⟨empty⟩

instance : Inhabited (Dict α) := ⟨empty⟩

/-- Bind a key, replacing an earlier binding of it. -/
def insert (d : Dict α) (key : String) (value : α) : Dict α :=
  ⟨insertEntry key value d.entries, d.sorted.insertEntry key value⟩

def get? (d : Dict α) (key : String) : Option α := lookupEntry key d.entries

def contains (d : Dict α) (key : String) : Bool := (d.get? key).isSome

def keys (d : Dict α) : List String := d.entries.map (·.1)

def size (d : Dict α) : Nat := d.entries.length

/-- Bind the pairs one after another: a later pair wins. -/
def insertAll (d : Dict α) (pairs : List (String × α)) : Dict α :=
  pairs.foldl (fun acc p => acc.insert p.1 p.2) d

def ofList (pairs : List (String × α)) : Dict α := empty.insertAll pairs

/-- Change every value in place. -/
def map (f : α → β) (d : Dict α) : Dict β :=
  ⟨d.entries.map fun e => (e.1, f e.2), by
    simpa [SortedEntries, List.pairwise_map] using d.sorted⟩

@[simp] theorem get?_empty (key : String) : (empty : Dict α).get? key = none := rfl

@[simp] theorem get?_insert_self (d : Dict α) (key : String) (value : α) :
    (d.insert key value).get? key = some value :=
  lookupEntry_insertEntry_self key value d.entries

theorem get?_eq_some_iff (d : Dict α) {key : String} {value : α} :
    d.get? key = some value ↔ (key, value) ∈ d.entries := lookupEntry_eq_some_iff d.sorted

theorem get?_insert_of_ne (d : Dict α) {key other : String} (value : α) (h : other ≠ key) :
    (d.insert key value).get? other = d.get? other :=
  lookupEntry_insertEntry_of_ne value d.entries h

theorem get?_insert (d : Dict α) (key other : String) (value : α) :
    (d.insert key value).get? other = if other = key then some value else d.get? other := by
  by_cases h : other = key
  · subst h; simp
  · simp [h, get?_insert_of_ne]

@[simp] theorem insertAll_nil (d : Dict α) : d.insertAll [] = d := rfl

@[simp] theorem insertAll_cons (d : Dict α) (p : String × α) (pairs : List (String × α)) :
    d.insertAll (p :: pairs) = (d.insert p.1 p.2).insertAll pairs := rfl

theorem insertAll_append (d : Dict α) (xs ys : List (String × α)) :
    d.insertAll (xs ++ ys) = (d.insertAll xs).insertAll ys := by
  simp [insertAll, List.foldl_append]

/-- Of several pairs with one key the last one counts. -/
theorem get?_insertAll (d : Dict α) (pairs : List (String × α)) (key : String) :
    (d.insertAll pairs).get? key =
      ((pairs.filter (·.1 = key)).getLast?.map (·.2)).or (d.get? key) := by
  induction pairs generalizing d with
  | nil => rfl
  | cons p pairs ih =>
    rw [insertAll_cons, ih, get?_insert]
    by_cases h : p.1 = key
    · rw [List.filter_cons_of_pos (by simpa using h), List.getLast?_cons, if_pos h.symm]
      cases (pairs.filter (·.1 = key)).getLast? <;> rfl
    · rw [List.filter_cons_of_neg (by simpa using h), if_neg (Ne.symm h)]

theorem get?_ofList (pairs : List (String × α)) (key : String) :
    (ofList pairs).get? key = (pairs.filter (·.1 = key)).getLast?.map (·.2) := by
  rw [ofList, get?_insertAll]
  exact Option.or_none

/-- Keys that are not bound anew keep their values. -/
theorem get?_insertAll_of_not_mem {pairs : List (String × α)} {key : String}
    (h : key ∉ pairs.map (·.1)) (d : Dict α) : (d.insertAll pairs).get? key = d.get? key := by
  have absent : pairs.filter (·.1 = key) = [] := by
    rw [List.filter_eq_nil_iff]
    intro p hp eq
    exact h (List.mem_map.mpr ⟨p, hp, of_decide_eq_true eq⟩)
  rw [get?_insertAll, absent]
  rfl

/-- Pairs that follow a map in order are added behind it. -/
theorem entries_insertAll (d : Dict α) (pairs : List (String × α))
    (h : SortedEntries (d.entries ++ pairs)) :
    (d.insertAll pairs).entries = d.entries ++ pairs := by
  induction pairs generalizing d with
  | nil => simp
  | cons p pairs ih =>
    have last : (d.insert p.1 p.2).entries = d.entries ++ [p] :=
      insertEntry_of_lt p.2 fun e he => (List.pairwise_append.1 h).2.2 e he p List.mem_cons_self
    rw [insertAll_cons, ih _ (by simpa [last] using h), last, List.append_assoc,
      List.singleton_append]

/-- The entries of a map give it back. -/
@[simp] theorem ofList_entries (d : Dict α) : ofList d.entries = d :=
  ext (entries_insertAll empty d.entries d.sorted)

/-- A pair that may be there changes at most the binding of its own key. -/
theorem get?_insertAll_option (d : Dict α) (f : β → α) (o : Option β) (key other : String) :
    (d.insertAll (o.map fun b => (key, f b)).toList).get? other =
      if other = key then (o.map f).or (d.get? other) else d.get? other := by
  cases o with
  | none => simp
  | some b => simp [get?_insert]

end Dict

/-! ## Labelled sequences -/

/-- Replace the value of a label where it stands, or append the pair. -/
def placeEntry {α : Type} (label : String) (value : α) :
    List (String × α) → List (String × α)
  | [] => [(label, value)]
  | (k, v) :: rest =>
    if k = label then (k, value) :: rest else (k, v) :: placeEntry label value rest

theorem placeEntry_labels {α : Type} (label : String) (value : α)
    (entries : List (String × α)) :
    (placeEntry label value entries).map (·.1) =
      if label ∈ entries.map (·.1) then entries.map (·.1)
      else entries.map (·.1) ++ [label] := by
  induction entries with
  | nil => simp [placeEntry]
  | cons head rest ih =>
    obtain ⟨k, v⟩ := head
    by_cases h : k = label
    · subst h; simp [placeEntry]
    · have h' : ¬ label = k := fun e => h e.symm
      simp only [placeEntry, h, if_false, List.map_cons, ih, List.mem_cons, h', false_or]
      split <;> simp

/-- Values under distinct labels, in the order in which the labels first
appeared. -/
structure Labelled (α : Type) where
  entries : List (String × α)
  distinct : (entries.map (·.1)).Nodup

namespace Labelled

variable {α β : Type}

@[ext] theorem ext {d e : Labelled α} (h : d.entries = e.entries) : d = e := by
  cases d; cases e; simp_all

def empty : Labelled α := ⟨[], List.nodup_nil⟩

instance : Inhabited (Labelled α) := ⟨empty⟩

/-- Bind a label: a known label keeps its place and takes the new value. -/
def place (d : Labelled α) (label : String) (value : α) : Labelled α :=
  ⟨placeEntry label value d.entries, by
    rw [placeEntry_labels]
    split
    · exact d.distinct
    · next h =>
      rw [List.nodup_append]
      exact ⟨d.distinct, by simp, by
        intro a ha b hb
        rw [List.mem_singleton] at hb
        subst hb
        exact fun eq => h (eq ▸ ha)⟩⟩

def ofList (pairs : List (String × α)) : Labelled α :=
  pairs.foldl (fun acc p => acc.place p.1 p.2) empty

def get? (d : Labelled α) (label : String) : Option α := d.entries.lookup label

def labels (d : Labelled α) : List String := d.entries.map (·.1)

def values (d : Labelled α) : List α := d.entries.map (·.2)

def size (d : Labelled α) : Nat := d.entries.length

/-- Put new values under the same labels, in the same order; labels without
a value are left out. -/
def relabel (d : Labelled α) (values : List β) : Labelled β :=
  ⟨d.labels.zip values, by
    have h : (d.labels.zip values).map (·.1) = d.labels.take values.length := by
      generalize d.labels = ls
      induction ls generalizing values with
      | nil => simp
      | cons l ls ih => cases values with
        | nil => simp
        | cons v vs => simp [ih]
    rw [h]
    exact d.distinct.sublist (List.take_sublist _ _)⟩

theorem relabel_labels (d : Labelled α) {vs : List β} (h : vs.length = d.size) :
    (d.relabel vs).labels = d.labels := by
  simp only [relabel, labels]
  rw [List.map_fst_zip]
  simp [h, size]

theorem relabel_values (d : Labelled α) {vs : List β} (h : vs.length = d.size) :
    (d.relabel vs).values = vs := by
  simp only [relabel, labels, values]
  rw [List.map_snd_zip]
  simp [h, size]

end Labelled

end Switchboard
