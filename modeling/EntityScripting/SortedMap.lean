/-!
# Finite maps in key order

A map is the list of its entries, in ascending order of keys. Reading, writing and erasing one key
are characterised by `get?_insert` and `get?_erase`, whatever the order of the entries is.
-/

namespace EntityScripting

/-- A finite map, kept as the list of its entries in ascending key order. -/
structure SortedMap (κ : Type) (ν : Type) where
  entries : List (κ × ν) := []
deriving Repr, DecidableEq, Inhabited

namespace SortedMap

variable {κ ν : Type}

def size (m : SortedMap κ ν) : Nat := m.entries.length

def isEmpty (m : SortedMap κ ν) : Bool := m.entries.isEmpty

def keys (m : SortedMap κ ν) : List κ := m.entries.map (·.1)

/-- The same keys, each with the image of its value. -/
def mapValues {μ : Type} (f : ν → μ) (m : SortedMap κ ν) : SortedMap κ μ :=
  ⟨m.entries.map fun entry => (entry.1, f entry.2)⟩

variable [DecidableEq κ]

/-- The value of the first entry with this key. -/
def lookup (key : κ) : List (κ × ν) → Option ν
  | [] => none
  | (other, value) :: rest => if key = other then some value else lookup key rest

def get? (m : SortedMap κ ν) (key : κ) : Option ν := lookup key m.entries

def contains (m : SortedMap κ ν) (key : κ) : Bool := (m.get? key).isSome

/-- The entries without those of this key. -/
def without (key : κ) : List (κ × ν) → List (κ × ν)
  | [] => []
  | entry :: rest => if key = entry.1 then without key rest else entry :: without key rest

def erase (m : SortedMap κ ν) (key : κ) : SortedMap κ ν := ⟨without key m.entries⟩

section Ordered

variable [LT κ] [DecidableLT κ]

/-- The entries with this one replaced, or put in front of the first greater key. -/
def place (key : κ) (value : ν) : List (κ × ν) → List (κ × ν)
  | [] => [(key, value)]
  | (other, previous) :: rest =>
    if key = other then (key, value) :: rest
    else if key < other then (key, value) :: (other, previous) :: rest
    else (other, previous) :: place key value rest

def insert (m : SortedMap κ ν) (key : κ) (value : ν) : SortedMap κ ν := ⟨place key value m.entries⟩

/-- The map of a list of entries; of two entries with one key the later counts. -/
def ofList (entries : List (κ × ν)) : SortedMap κ ν :=
  entries.foldl (fun (m : SortedMap κ ν) entry => m.insert entry.1 entry.2) {}

/-- Every entry of `other`, and those of `m` whose keys `other` does not have. -/
def union (m other : SortedMap κ ν) : SortedMap κ ν :=
  other.entries.foldl (fun m entry => m.insert entry.1 entry.2) m

/-- The first entry with a greater key. -/
def next? (m : SortedMap κ ν) (key : κ) : Option (κ × ν) :=
  m.entries.find? fun entry => decide (key < entry.1)

end Ordered

/-! ### Reading after a write -/

@[simp] theorem get?_empty (key : κ) : ({} : SortedMap κ ν).get? key = none := rfl

theorem lookup_place [LT κ] [DecidableLT κ] (key other : κ) (value : ν) (entries : List (κ × ν)) :
    lookup other (place key value entries) =
      if other = key then some value else lookup other entries := by
  induction entries with
  | nil => by_cases h : other = key <;> simp [place, lookup, h]
  | cons entry rest ih =>
    obtain ⟨head, previous⟩ := entry
    by_cases same : key = head
    · subst same; by_cases h : other = key <;> simp [place, lookup, h]
    · by_cases less : key < head
      · by_cases h : other = key <;> simp [place, lookup, same, less, h]
      · by_cases h : other = key
        · subst h; simp [place, lookup, same, less, ih]
        · simp [place, lookup, same, less, ih, h]

theorem get?_insert [LT κ] [DecidableLT κ] (m : SortedMap κ ν) (key other : κ) (value : ν) :
    (m.insert key value).get? other = if other = key then some value else m.get? other :=
  lookup_place key other value m.entries

theorem lookup_without (key other : κ) (entries : List (κ × ν)) :
    lookup other (without key entries) = if other = key then none else lookup other entries := by
  induction entries with
  | nil => by_cases h : other = key <;> simp [without, lookup, h]
  | cons entry rest ih =>
    obtain ⟨head, previous⟩ := entry
    by_cases same : key = head
    · subst same
      by_cases h : other = key
      · subst h; simp [without, ih]
      · simp [without, lookup, h, ih]
    · by_cases h : other = key
      · subst h; simp [without, lookup, same, ih]
      · simp [without, lookup, same, ih, h]

theorem get?_erase (m : SortedMap κ ν) (key other : κ) :
    (m.erase key).get? other = if other = key then none else m.get? other :=
  lookup_without key other m.entries

end SortedMap

end EntityScripting
