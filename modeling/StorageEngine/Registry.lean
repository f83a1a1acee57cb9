/-!
# Registries

A registry keeps a value for each of finitely many keys, in the order in which the keys were
first entered.  What a registry holds is given by `get?`, and the main statements say how
entering and striking a key change it (`get?_insert`, `get?_erase`).
-/

namespace StorageEngine

/-- Values by key, in the order of first entry. -/
structure Registry (κ υ : Type) where
  entries : List (κ × υ)

namespace Registry

variable {κ υ : Type}

/-- The registry without keys. -/
def empty : Registry κ υ := ⟨[]⟩

instance : EmptyCollection (Registry κ υ) := ⟨empty⟩

instance : Inhabited (Registry κ υ) := ⟨empty⟩

/-- The keys, in the order of first entry. -/
def keys (registry : Registry κ υ) : List κ := registry.entries.map Prod.fst

variable [DecidableEq κ]

/-- The first value that a list of entries has for a key. -/
def lookup (key : κ) : List (κ × υ) → Option υ
  | [] => none
  | entry :: entries => if entry.1 = key then some entry.2 else lookup key entries

/-- A list of entries with the value for a key replaced, or else added at the end. -/
def enter (key : κ) (value : υ) : List (κ × υ) → List (κ × υ)
  | [] => [(key, value)]
  | entry :: entries =>
    if entry.1 = key then (key, value) :: entries else entry :: enter key value entries

/-- The value of a key. -/
def get? (registry : Registry κ υ) (key : κ) : Option υ := lookup key registry.entries

/-- Whether a key has a value. -/
def contains (registry : Registry κ υ) (key : κ) : Bool := (registry.get? key).isSome

/-- The registry with a value for a key, in the place of the one before. -/
def insert (registry : Registry κ υ) (key : κ) (value : υ) : Registry κ υ :=
  ⟨enter key value registry.entries⟩

/-- The registry without a key. -/
def erase (registry : Registry κ υ) (key : κ) : Registry κ υ :=
  ⟨registry.entries.filter fun entry => !decide (entry.1 = key)⟩

/-! ## What a registry holds -/

@[simp]
theorem get?_empty (key : κ) :
  (empty : Registry κ υ).get? key = none
  := rfl

theorem lookup_enter (key other : κ) (value : υ) (entries : List (κ × υ)) :
  lookup other (enter key value entries) = if other = key then some value else lookup other entries
  := by
  induction entries with
  | nil => simp [enter, lookup, eq_comm]
  | cons entry entries ih =>
    by_cases h : entry.1 = key
    · subst h
      by_cases g : other = entry.1
      · simp [enter, lookup, g]
      · simp [enter, lookup, g, Ne.symm g]
    · by_cases g : other = key
      · subst g
        simp [enter, lookup, h, ih]
      · simp [enter, lookup, h, g, ih]

/-- Entering a value for a key changes what the registry holds at that key alone. -/
theorem get?_insert (registry : Registry κ υ) (key other : κ) (value : υ) :
  (registry.insert key value).get? other = if other = key then some value else registry.get? other
  := lookup_enter key other value registry.entries

@[simp]
theorem get?_insert_self (registry : Registry κ υ) (key : κ) (value : υ) :
  (registry.insert key value).get? key = some value
  := by
  simp [get?_insert]

theorem get?_insert_of_ne (registry : Registry κ υ) {key other : κ} (h : other ≠ key) (value : υ) :
  (registry.insert key value).get? other = registry.get? other
  := by
  simp [get?_insert, h]

theorem lookup_filter (key other : κ) (entries : List (κ × υ)) :
  lookup other (entries.filter fun entry => !decide (entry.1 = key))
    = if other = key then none else lookup other entries
  := by
  induction entries with
  | nil => simp [lookup]
  | cons entry entries ih =>
    by_cases h : entry.1 = key
    · subst h
      by_cases g : other = entry.1
      · subst g
        simp [ih]
      · simp [lookup, ih, g, Ne.symm g]
    · by_cases g : other = key
      · subst g
        simp [lookup, h, ih]
      · simp [lookup, h, g, ih]

/-- Striking a key changes what the registry holds at that key alone. -/
theorem get?_erase (registry : Registry κ υ) (key other : κ) :
  (registry.erase key).get? other = if other = key then none else registry.get? other
  := lookup_filter key other registry.entries

@[simp]
theorem get?_erase_self (registry : Registry κ υ) (key : κ) :
  (registry.erase key).get? key = none
  := by
  simp [get?_erase]

theorem get?_erase_of_ne (registry : Registry κ υ) {key other : κ} (h : other ≠ key) :
  (registry.erase key).get? other = registry.get? other
  := by
  simp [get?_erase, h]

/-- What a registry holds is among its entries. -/
theorem mem_entries_of_get? {registry : Registry κ υ} {key : κ} {value : υ}
    (held : registry.get? key = some value) :
  (key, value) ∈ registry.entries
  := by
  obtain ⟨entries⟩ := registry
  simp only [get?] at held
  induction entries with
  | nil => simp [lookup] at held
  | cons entry entries ih =>
    by_cases h : entry.1 = key
    · simp [lookup, h] at held
      simp [← h, ← held]
    · simp only [lookup, h, if_false] at held
      apply List.mem_cons_of_mem _ (ih held)

/-- Striking a key that was just entered is striking it before. -/
theorem erase_insert_self (registry : Registry κ υ) (key : κ) (value : υ) :
  (registry.insert key value).erase key = registry.erase key
  := by
  obtain ⟨entries⟩ := registry
  simp only [erase, insert, mk.injEq]
  induction entries with
  | nil => simp [enter]
  | cons entry entries ih =>
    by_cases h : entry.1 = key
    · simp [enter, h]
    · simp [enter, h, ih]

end Registry

end StorageEngine
