import PkgInfo.Text.Basic

/-! Finite maps from texts, kept in the order of their keys by code point. Two tables with the same
look-ups are the same table, since the order leaves one way to write a map down. -/
namespace PkgInfo

structure Table (α : Type) where
  entries : List (Text × α)
  ordered : (entries.map Prod.fst).Pairwise (· < ·)
  deriving DecidableEq, Repr

namespace Table
variable {α : Type}

def find?In (key : Text) : List (Text × α) → Option α
  | [] => none
  | (k, v) :: rest => if k = key then some v else find?In key rest

def insertIn (key : Text) (value : α) : List (Text × α) → List (Text × α)
  | [] => [(key, value)]
  | (k, v) :: rest =>
    if key < k then (key, value) :: (k, v) :: rest
    else if key = k then (key, value) :: rest
    else (k, v) :: insertIn key value rest

theorem textOrder {left right : Text} (notLess : ¬ left < right) : right = left ∨ right < left := by
  have order : left < right ∨ left = right ∨ right < left :=
    Std.Trichotomous.rel_or_eq_or_rel_swap
  rcases order with less | same | greater
  · exact absurd less notLess
  · exact .inl same.symm
  · exact .inr greater

theorem memInsertIn {key k : Text} {value : α} {entries : List (Text × α)}
    (h : k ∈ (insertIn key value entries).map Prod.fst) :
    k = key ∨ k ∈ entries.map Prod.fst := by
  induction entries with
  | nil => simpa [insertIn] using h
  | cons head rest ih =>
    obtain ⟨k', v'⟩ := head
    simp only [insertIn] at h
    split at h
    · simpa using h
    · split at h
      · simp only [List.map_cons, List.mem_cons] at h ⊢
        exact h.imp_right .inr
      · simp only [List.map_cons, List.mem_cons] at h ⊢
        rcases h with h | h
        · exact .inr (.inl h)
        · exact (ih h).imp_right .inr

theorem orderedInsertIn (key : Text) (value : α) (entries : List (Text × α))
    (h : (entries.map Prod.fst).Pairwise (· < ·)) :
    ((insertIn key value entries).map Prod.fst).Pairwise (· < ·) := by
  induction entries with
  | nil => simp [insertIn]
  | cons head rest ih =>
    obtain ⟨k, v⟩ := head
    simp only [List.map_cons, List.pairwise_cons] at h
    obtain ⟨first, tail⟩ := h
    simp only [insertIn]
    split
    · next less =>
      simp only [List.map_cons, List.pairwise_cons, List.mem_cons]
      refine ⟨?_, first, tail⟩
      rintro k' (rfl | later)
      · exact less
      · exact List.lt_trans less (first k' later)
    · next notLess =>
      split
      · next same => subst same; simpa using ⟨fun k' a h' => first k' (by simpa using ⟨a, h'⟩), tail⟩
      · next other =>
        simp only [List.map_cons, List.pairwise_cons]
        refine ⟨fun k' member => ?_, ih tail⟩
        rcases memInsertIn member with rfl | later
        · exact (textOrder notLess).resolve_left (Ne.symm other)
        · exact first k' later

def empty : Table α := ⟨[], .nil⟩

instance : EmptyCollection (Table α) := ⟨empty⟩
instance : Inhabited (Table α) := ⟨empty⟩

def keys (t : Table α) : List Text := t.entries.map Prod.fst

def find? (t : Table α) (key : Text) : Option α := find?In key t.entries

def contains (t : Table α) (key : Text) : Bool := (t.find? key).isSome

def insert (t : Table α) (key : Text) (value : α) : Table α :=
  ⟨insertIn key value t.entries, orderedInsertIn key value t.entries t.ordered⟩

def erase (t : Table α) (key : Text) : Table α :=
  ⟨t.entries.filter fun entry => entry.1 ≠ key,
    t.ordered.sublist (List.filter_sublist.map _)⟩

theorem findInNone {key : Text} {entries : List (Text × α)} :
    find?In key entries = none ↔ key ∉ entries.map Prod.fst := by
  induction entries with
  | nil => simp [find?In]
  | cons head rest ih =>
    obtain ⟨k, v⟩ := head
    by_cases same : k = key
    · simp [find?In, same]
    · simp [find?In, same, ih, Ne.symm same]

theorem findInInsertIn (key other : Text) (value : α) (entries : List (Text × α)) :
    find?In other (insertIn key value entries) =
      if key = other then some value else find?In other entries := by
  induction entries with
  | nil => simp [insertIn, find?In]
  | cons head rest ih =>
    obtain ⟨k, v⟩ := head
    simp only [insertIn]
    split
    · simp only [find?In]
    · split
      · next same => subst same; by_cases here : key = other <;> simp [find?In, here]
      · next apart =>
        by_cases here : key = other
        · subst here; simp [find?In, ih, Ne.symm apart]
        · simp [find?In, here, ih]

theorem findInFilter (key other : Text) (entries : List (Text × α)) :
    find?In other (entries.filter fun entry => entry.1 ≠ key) =
      if key = other then none else find?In other entries := by
  induction entries with
  | nil => simp [find?In]
  | cons head rest ih =>
    obtain ⟨k, v⟩ := head
    by_cases gone : k = key
    · subst gone
      by_cases here : k = other
      · subst here; simpa using ih
      · simpa [find?In, here] using ih
    · by_cases here : key = other
      · subst here; simpa [find?In, gone] using ih
      · by_cases found : k = other <;> simp_all [find?In]

theorem findInsert (t : Table α) (key other : Text) (value : α) :
    (t.insert key value).find? other = if key = other then some value else t.find? other :=
  findInInsertIn key other value t.entries

theorem findErase (t : Table α) (key other : Text) :
    (t.erase key).find? other = if key = other then none else t.find? other :=
  findInFilter key other t.entries

theorem memKeys {t : Table α} {key : Text} : key ∈ t.keys ↔ t.contains key := by
  have absent : find?In key t.entries = none ↔ key ∉ t.entries.map Prod.fst := findInNone
  simp only [keys, contains, find?, ← Option.not_isSome_iff_eq_none] at absent ⊢
  constructor
  · intro here
    exact Decidable.byContradiction fun none => absent.1 none here
  · intro some
    exact Decidable.byContradiction fun away => absent.2 away some

theorem memKeysInsert {t : Table α} {key other : Text} {value : α} :
    other ∈ (t.insert key value).keys ↔ other = key ∨ other ∈ t.keys := by
  simp only [memKeys, contains, findInsert]
  by_cases same : key = other
  · simp [same]
  · simp [same, Ne.symm same]

theorem memKeysErase {t : Table α} {key other : Text} :
    other ∈ (t.erase key).keys ↔ other ≠ key ∧ other ∈ t.keys := by
  simp only [memKeys, contains, findErase]
  by_cases same : key = other
  · simp [same]
  · simp [same, Ne.symm same]

theorem entriesEqOfFind {left right : List (Text × α)}
    (orderedLeft : (left.map Prod.fst).Pairwise (· < ·))
    (orderedRight : (right.map Prod.fst).Pairwise (· < ·))
    (same : ∀ key, find?In key left = find?In key right) : left = right := by
  induction left generalizing right with
  | nil =>
    cases right with
    | nil => rfl
    | cons head rest => have found := same head.1; simp [find?In] at found
  | cons first rest ih =>
    obtain ⟨k, v⟩ := first
    cases right with
    | nil => have found := same k; simp [find?In] at found
    | cons first' rest' =>
      obtain ⟨k', v'⟩ := first'
      simp only [List.map_cons, List.pairwise_cons] at orderedLeft orderedRight
      have absent : ∀ {key}, ¬ k < key → find?In key rest = none := fun {key} low =>
        findInNone.2 fun inside => low (orderedLeft.1 key inside)
      have absent' : ∀ {key}, ¬ k' < key → find?In key rest' = none := fun {key} low =>
        findInNone.2 fun inside => low (orderedRight.1 key inside)
      have heads : k = k' := by
        by_cases less : k < k'
        · have found := same k
          have away : k' ≠ k := fun back => List.lt_irrefl k (back ▸ less)
          simp [find?In, away, absent' (List.lt_asymm less)] at found
        · rcases textOrder less with back | more
          · exact back.symm
          · have found := same k'
            have away : k ≠ k' := fun back => List.lt_irrefl k' (back ▸ more)
            simp [find?In, away, absent (List.lt_asymm more)] at found
      subst heads
      have values := same k
      simp only [find?In, if_true, Option.some.injEq] at values
      subst values
      have tails : rest = rest' := by
        refine ih orderedLeft.2 orderedRight.2 fun key => ?_
        by_cases here : k = key
        · subst here; rw [absent (List.lt_irrefl k), absent' (List.lt_irrefl k)]
        · simpa [find?In, here] using same key
      rw [tails]

theorem eqOfFind {left right : Table α} (same : ∀ key, left.find? key = right.find? key) :
    left = right := by
  obtain ⟨l, ordered⟩ := left
  obtain ⟨r, ordered'⟩ := right
  have entries : l = r := entriesEqOfFind ordered ordered' same
  subst entries
  rfl

theorem eraseAbsent {t : Table α} {key : Text} (absent : t.find? key = none) :
    t.erase key = t := by
  refine eqOfFind fun other => ?_
  rw [findErase]
  split
  · next same => rw [← same, absent]
  · rfl

theorem eraseInserted {t : Table α} {key : Text} (absent : t.find? key = none) (value : α) :
    (t.insert key value).erase key = t := by
  refine eqOfFind fun other => ?_
  rw [findErase, findInsert]
  split
  · next same => rw [← same, absent]
  · rfl

theorem insertFound {t : Table α} {key : Text} {value : α} (found : t.find? key = some value) :
    t.insert key value = t := by
  refine eqOfFind fun other => ?_
  rw [findInsert]
  split
  · next same => rw [← same, found]
  · rfl

def ofList (pairs : List (Text × α)) : Table α :=
  pairs.foldl (fun t pair => t.insert pair.1 pair.2) empty

end Table
end PkgInfo
