/-!
# Finite tables

A table maps finitely many keys to values. It keeps its keys in the order in which they were first
set. Each operation is described by what a look-up finds after it.
-/

namespace ChatRelay

/-- A finite map from `κ` to `ν`. -/
structure Table (κ ν : Type) where
  entries : List (κ × ν)
  deriving Repr, DecidableEq

namespace Table

variable {κ ν : Type} [DecidableEq κ]

/-- The table without keys. -/
def empty : Table κ ν := ⟨[]⟩

instance : Inhabited (Table κ ν) := ⟨empty⟩

/-- The value of a key. -/
def get? (table : Table κ ν) (key : κ) : Option ν := table.entries.lookup key

/-- Whether a key has a value. -/
def contains (table : Table κ ν) (key : κ) : Bool := (table.get? key).isSome

/-- The keys, in the order in which they were first set. -/
def keys (table : Table κ ν) : List κ := table.entries.map (·.1)

/-- The number of keys. -/
def size (table : Table κ ν) : Nat := table.entries.length

/-- Gives `key` the value `value`, in its old place if it has one. -/
def setEntry (key : κ) (value : ν) : List (κ × ν) → List (κ × ν)
  | [] => [(key, value)]
  | entry :: rest =>
    if entry.1 = key then (key, value) :: rest else entry :: setEntry key value rest

/-- Gives `key` the value `value`. -/
def insert (table : Table κ ν) (key : κ) (value : ν) : Table κ ν :=
  ⟨setEntry key value table.entries⟩

/-- Removes a key. -/
def erase (table : Table κ ν) (key : κ) : Table κ ν :=
  ⟨table.entries.filter fun entry => entry.1 ≠ key⟩

/-- Keeps the entries whose key satisfies `keep`. -/
def filterKeys (table : Table κ ν) (keep : κ → Bool) : Table κ ν :=
  ⟨table.entries.filter fun entry => keep entry.1⟩

/-- A table from entries, of which later ones replace earlier ones. -/
def ofList (entries : List (κ × ν)) : Table κ ν :=
  entries.foldl (fun table entry => table.insert entry.1 entry.2) empty

@[simp] theorem get?_empty (key : κ) : (empty : Table κ ν).get? key = none := rfl

theorem lookup_setEntry (key other : κ) (value : ν) (entries : List (κ × ν)) :
    (setEntry key value entries).lookup other =
      if other = key then some value else entries.lookup other := by
  induction entries with
  | nil =>
    by_cases h : other = key
    · simp [setEntry, h]
    · have hb : (other == key) = false := by simpa using h
      simp [setEntry, List.lookup_cons, h, hb]
  | cons entry rest ih =>
    obtain ⟨first, old⟩ := entry
    by_cases he : first = key
    · by_cases h : other = key
      · simp [setEntry, he, h]
      · have hb : (other == key) = false := by simpa using h
        simp [setEntry, he, List.lookup_cons, h, hb]
    · by_cases h : other = first
      · subst h
        simp [setEntry, he]
      · have hb : (other == first) = false := by simpa using h
        simp [setEntry, he, List.lookup_cons, hb, ih]

/-- After setting a key, it has the new value and every other key its old one. -/
theorem get?_insert (table : Table κ ν) (key other : κ) (value : ν) :
    (table.insert key value).get? other =
      if other = key then some value else table.get? other :=
  lookup_setEntry key other value table.entries

theorem lookup_filter_ne (key other : κ) (entries : List (κ × ν)) :
    (entries.filter fun entry => entry.1 ≠ key).lookup other =
      if other = key then none else entries.lookup other := by
  induction entries with
  | nil => simp
  | cons entry rest ih =>
    obtain ⟨first, old⟩ := entry
    by_cases he : first = key
    · by_cases h : other = key
      · simpa [he, h] using ih
      · have hb : (other == key) = false := by simpa using h
        simpa [he, h, List.lookup_cons, hb] using ih
    · by_cases h : other = first
      · subst h
        simp [he]
      · have hb : (other == first) = false := by simpa using h
        simpa [he, h, List.lookup_cons, hb] using ih

/-- After removing a key, it has no value and every other key its old one. -/
theorem get?_erase (table : Table κ ν) (key other : κ) :
    (table.erase key).get? other = if other = key then none else table.get? other :=
  lookup_filter_ne key other table.entries

theorem lookup_filter_key (keep : κ → Bool) (other : κ) (entries : List (κ × ν)) :
    (entries.filter fun entry => keep entry.1).lookup other =
      if keep other then entries.lookup other else none := by
  induction entries with
  | nil => simp
  | cons entry rest ih =>
    obtain ⟨first, old⟩ := entry
    by_cases h : other = first
    · subst h
      by_cases hk : keep other
      · simp [hk]
      · simpa [hk] using ih
    · have hb : (other == first) = false := by simpa using h
      by_cases hk : keep first
      · simp [hk, List.lookup_cons, hb, ih]
      · simp [hk, List.lookup_cons, hb, ih]

/-- After keeping some keys, they have their old values and no other key has one. -/
theorem get?_filterKeys (table : Table κ ν) (keep : κ → Bool) (other : κ) :
    (table.filterKeys keep).get? other = if keep other then table.get? other else none :=
  lookup_filter_key keep other table.entries

theorem contains_insert (table : Table κ ν) (key other : κ) (value : ν) :
    (table.insert key value).contains other = (other = key || table.contains other) := by
  by_cases h : other = key <;> simp [contains, get?_insert, h]

theorem contains_erase (table : Table κ ν) (key other : κ) :
    (table.erase key).contains other = (other ≠ key && table.contains other) := by
  by_cases h : other = key <;> simp [contains, get?_erase, h]

/-- The keys are those that have a value. -/
theorem mem_keys {table : Table κ ν} {key : κ} : key ∈ table.keys ↔ table.contains key := by
  unfold keys contains get?
  rw [List.lookup_isSome_iff, List.mem_map]
  exact ⟨fun ⟨entry, hmem, heq⟩ => ⟨entry, hmem, by simp [heq]⟩,
    fun ⟨entry, hmem, heq⟩ => ⟨entry, hmem, (eq_of_beq heq).symm⟩⟩

theorem keys_setEntry (key : κ) (value : ν) (entries : List (κ × ν)) :
    (setEntry key value entries).map (·.1) =
      if key ∈ entries.map (·.1) then entries.map (·.1) else entries.map (·.1) ++ [key] := by
  induction entries with
  | nil => rfl
  | cons entry rest ih =>
    by_cases h : entry.1 = key
    · simp [setEntry, h]
    · have hne : key ≠ entry.1 := Ne.symm h
      simp only [setEntry, h, if_false, List.map_cons, ih, List.mem_cons, hne, false_or]
      split <;> simp

theorem nodup_keys_insert {table : Table κ ν} (h : table.keys.Nodup) (key : κ) (value : ν) :
    (table.insert key value).keys.Nodup := by
  have hkeys := keys_setEntry key value table.entries
  unfold keys insert at *
  rw [hkeys]
  split
  · exact h
  · next hkey =>
    rw [List.nodup_append]
    refine ⟨h, by simp, ?_⟩
    rintro a ha b hb rfl
    exact hkey (List.mem_singleton.mp hb ▸ ha)

theorem nodup_keys_erase {table : Table κ ν} (h : table.keys.Nodup) (key : κ) :
    (table.erase key).keys.Nodup :=
  h.sublist (List.filter_sublist.map _)

end Table

end ChatRelay
