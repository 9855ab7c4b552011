import EntityScripting.SortedMap
import Mathlib.Data.String.Basic

/-!
# Entries of maps

Which entries a map has after a write, whatever the order of the entries is, and that the entries
stay in the order of their keys.
-/

namespace EntityScripting.SortedMap

variable {κ ν : Type} [DecidableEq κ]

theorem mem_of_get? {m : SortedMap κ ν} {key : κ} {value : ν} (found : m.get? key = some value) :
    (key, value) ∈ m.entries := by
  obtain ⟨entries⟩ := m
  induction entries with
  | nil => cases found
  | cons entry rest ih =>
    obtain ⟨other, previous⟩ := entry
    simp only [get?, lookup] at found
    split at found
    · rename_i same
      cases found
      exact same ▸ List.mem_cons_self
    · exact List.mem_cons_of_mem _ (ih found)

theorem mem_of_mem_erase {m : SortedMap κ ν} {key : κ} {entry : κ × ν}
    (member : entry ∈ (m.erase key).entries) : entry ∈ m.entries := by
  obtain ⟨entries⟩ := m
  simp only [erase] at member
  induction entries with
  | nil => cases member
  | cons head rest ih =>
    unfold without at member
    split at member
    · exact List.mem_cons_of_mem _ (ih member)
    · rcases List.mem_cons.mp member with rfl | later
      · exact List.mem_cons_self
      · exact List.mem_cons_of_mem _ (ih later)

theorem mem_of_mem_insert [LT κ] [DecidableLT κ] {m : SortedMap κ ν} {key : κ} {value : ν}
    {entry : κ × ν} (member : entry ∈ (m.insert key value).entries) :
    entry = (key, value) ∨ entry ∈ m.entries := by
  obtain ⟨entries⟩ := m
  simp only [insert] at member
  induction entries with
  | nil => exact .inl (List.mem_singleton.mp member)
  | cons head rest ih =>
    obtain ⟨other, previous⟩ := head
    unfold place at member
    split at member
    · exact (List.mem_cons.mp member).imp_right (List.mem_cons_of_mem _)
    split at member
    · exact List.mem_cons.mp member
    · rcases List.mem_cons.mp member with rfl | later
      · exact .inr List.mem_cons_self
      · exact (ih later).imp_right (List.mem_cons_of_mem _)

theorem mem_of_mem_union [LT κ] [DecidableLT κ] {m other : SortedMap κ ν} {entry : κ × ν}
    (member : entry ∈ (m.union other).entries) : entry ∈ m.entries ∨ entry ∈ other.entries := by
  obtain ⟨entries⟩ := other
  unfold SortedMap.union at member
  induction entries generalizing m with
  | nil => exact .inl member
  | cons head rest ih =>
    rcases ih member with before | later
    · rcases mem_of_mem_insert before with rfl | held
      · exact .inr List.mem_cons_self
      · exact .inl held
    · exact .inr (List.mem_cons_of_mem _ later)

theorem mem_of_mem_ofList [LT κ] [DecidableLT κ] {list : List (κ × ν)} {entry : κ × ν}
    (member : entry ∈ (ofList list).entries) : entry ∈ list := by
  have united : entry ∈ (({} : SortedMap κ ν).union ⟨list⟩).entries := member
  exact (mem_of_mem_union united).resolve_left List.not_mem_nil

theorem mem_of_get?_ofList [LT κ] [DecidableLT κ] {entries : List (κ × ν)} {key : κ} {value : ν}
    (found : (ofList entries).get? key = some value) : (key, value) ∈ entries :=
  mem_of_mem_ofList (mem_of_get? found)

/-- The first entry of a list counts if no other one has its key. -/
theorem get?_ofList_cons [LT κ] [DecidableLT κ] {key : κ} (value : ν) {rest : List (κ × ν)}
    (others : ∀ entry ∈ rest, entry.1 ≠ key) :
    (ofList ((key, value) :: rest)).get? key = some value := by
  have folded (m : SortedMap κ ν) (found : m.get? key = some value) :
      (rest.foldl (fun (m : SortedMap κ ν) entry => m.insert entry.1 entry.2) m).get? key =
        some value := by
    induction rest generalizing m with
    | nil => exact found
    | cons entry rest ih =>
      refine ih (fun entry member => others entry (List.mem_cons_of_mem _ member)) _ ?_
      rw [get?_insert, if_neg (others entry List.mem_cons_self).symm, found]
  exact folded _ (by rw [get?_insert, if_pos rfl])

theorem lookup_mapValues {μ : Type} (f : ν → μ) (key : κ) (entries : List (κ × ν)) :
    lookup key (entries.map fun entry => (entry.1, f entry.2)) = (lookup key entries).map f := by
  induction entries with
  | nil => rfl
  | cons entry rest ih =>
    simp only [List.map_cons, lookup, ih]
    split <;> rfl

theorem lookup_eq_none {key : κ} {entries : List (κ × ν)} (other : ∀ entry ∈ entries, key ≠ entry.1) :
    lookup key entries = none := by
  induction entries with
  | nil => rfl
  | cons entry rest ih =>
    rw [lookup, if_neg (other entry List.mem_cons_self)]
    exact ih fun entry member => other entry (List.mem_cons_of_mem _ member)

theorem lookup_eq_some_iff {key : κ} {value : ν} {entries : List (κ × ν)}
    (distinct : entries.Pairwise fun a b => a.1 ≠ b.1) :
    lookup key entries = some value ↔ (key, value) ∈ entries := by
  refine ⟨fun found => mem_of_get? (m := ⟨entries⟩) found, fun member => ?_⟩
  induction entries with
  | nil => cases member
  | cons entry rest ih =>
    obtain ⟨others, distinct⟩ := List.pairwise_cons.mp distinct
    rw [lookup]
    rcases List.mem_cons.mp member with rfl | later
    · rw [if_pos rfl]
    · rw [if_neg (others _ later).symm]
      exact ih distinct later

/-! ### Order -/

section Ordered

variable {κ ν : Type} [LinearOrder κ]

def Sorted (m : SortedMap κ ν) : Prop := m.entries.Pairwise fun a b => a.1 < b.1

theorem sorted_empty : ({} : SortedMap κ ν).Sorted := .nil

theorem Sorted.insert {m : SortedMap κ ν} (sorted : m.Sorted) (key : κ) (value : ν) :
    (m.insert key value).Sorted := by
  obtain ⟨entries⟩ := m
  simp only [Sorted, SortedMap.insert] at sorted ⊢
  induction entries with
  | nil => exact List.pairwise_singleton _ _
  | cons head rest ih =>
    obtain ⟨other, previous⟩ := head
    obtain ⟨first, rest'⟩ := List.pairwise_cons.mp sorted
    unfold place
    split_ifs with same less
    · exact List.pairwise_cons.mpr ⟨same ▸ first, rest'⟩
    · refine List.pairwise_cons.mpr ⟨fun entry member => ?_, sorted⟩
      rcases List.mem_cons.mp member with rfl | later
      · exact less
      · exact less.trans (first entry later)
    · refine List.pairwise_cons.mpr ⟨fun entry member => ?_, ih rest'⟩
      rcases mem_of_mem_insert (m := ⟨rest⟩) member with rfl | later
      · exact lt_of_le_of_ne (not_lt.mp less) (Ne.symm same)
      · exact first entry later

theorem Sorted.erase {m : SortedMap κ ν} (sorted : m.Sorted) (key : κ) : (m.erase key).Sorted := by
  obtain ⟨entries⟩ := m
  simp only [Sorted, SortedMap.erase] at sorted ⊢
  induction entries with
  | nil => exact .nil
  | cons head rest ih =>
    obtain ⟨first, rest'⟩ := List.pairwise_cons.mp sorted
    unfold without
    split
    · exact ih rest'
    · exact List.pairwise_cons.mpr
        ⟨fun entry member => first entry (mem_of_mem_erase (m := ⟨rest⟩) member), ih rest'⟩

theorem Sorted.union {m : SortedMap κ ν} (sorted : m.Sorted) (other : SortedMap κ ν) :
    (m.union other).Sorted := by
  obtain ⟨entries⟩ := other
  unfold SortedMap.union
  induction entries generalizing m with
  | nil => exact sorted
  | cons entry rest ih => exact ih (sorted.insert entry.1 entry.2)

theorem sorted_ofList (entries : List (κ × ν)) : (ofList entries).Sorted :=
  sorted_empty.union ⟨entries⟩

theorem Sorted.distinct {m : SortedMap κ ν} (sorted : m.Sorted) :
    m.entries.Pairwise fun a b => a.1 ≠ b.1 :=
  List.Pairwise.imp (fun less => less.ne) sorted

theorem Sorted.nodup_keys {m : SortedMap κ ν} (sorted : m.Sorted) : m.keys.Nodup :=
  List.pairwise_map.mpr sorted.distinct

theorem Sorted.get?_eq_some_iff {m : SortedMap κ ν} (sorted : m.Sorted) {key : κ} {value : ν} :
    m.get? key = some value ↔ (key, value) ∈ m.entries :=
  lookup_eq_some_iff sorted.distinct

theorem erase_of_get?_eq_none {m : SortedMap κ ν} {key : κ} (missing : m.get? key = none) :
    m.erase key = m := by
  obtain ⟨entries⟩ := m
  rw [erase, mk.injEq]
  induction entries with
  | nil => rfl
  | cons entry rest ih =>
    obtain ⟨other, value⟩ := entry
    simp only [get?, lookup] at missing ih
    by_cases same : key = other
    · rw [if_pos same] at missing
      cases missing
    · rw [if_neg same] at missing
      rw [without, if_neg same, ih missing]

theorem without_of_forall_ne {key : κ} {entries : List (κ × ν)}
    (others : ∀ entry ∈ entries, key ≠ entry.1) : without key entries = entries := by
  have missing : (⟨entries⟩ : SortedMap κ ν).get? key = none := lookup_eq_none others
  exact congrArg SortedMap.entries (erase_of_get?_eq_none missing)

theorem Sorted.perm_erase {m : SortedMap κ ν} (sorted : m.Sorted) {key : κ} {value : ν}
    (found : m.get? key = some value) : m.entries.Perm ((key, value) :: (m.erase key).entries) := by
  obtain ⟨entries⟩ := m
  simp only [SortedMap.erase]
  induction entries with
  | nil => cases found
  | cons entry rest ih =>
    obtain ⟨first, rest'⟩ := List.pairwise_cons.mp sorted
    obtain ⟨other, previous⟩ := entry
    simp only [get?, lookup] at found ih
    by_cases same : key = other
    · subst same
      rw [if_pos rfl] at found
      obtain rfl := Option.some.inj found
      rw [without, if_pos rfl, without_of_forall_ne fun later member => (first later member).ne]
    · rw [if_neg same] at found
      rw [without, if_neg same]
      exact ((ih rest' found).cons _).trans (List.Perm.swap _ _ _)

theorem Sorted.perm_insert {m : SortedMap κ ν} (sorted : m.Sorted) (key : κ) (value : ν) :
    (m.insert key value).entries.Perm ((key, value) :: (m.erase key).entries) := by
  have found : (m.insert key value).get? key = some value := by rw [get?_insert, if_pos rfl]
  have same : (m.insert key value).erase key = m.erase key := by
    obtain ⟨entries⟩ := m
    simp only [SortedMap.insert, SortedMap.erase, mk.injEq]
    clear sorted found
    induction entries with
    | nil => simp [place, without]
    | cons entry rest ih =>
      obtain ⟨other, previous⟩ := entry
      by_cases same : key = other
      · simp [place, without, same]
      · by_cases less : key < other <;> simp [place, without, same, less, ih]
  rw [← same]
  exact (sorted.insert key value).perm_erase found

/-- The first entry of some property is the one with the least key of those that have it. -/
theorem Sorted.findSome?_eq_some_iff {β : Type} {m : SortedMap κ ν} (sorted : m.Sorted)
    {f : κ × ν → Option β} {b : β} :
    m.entries.findSome? f = some b ↔
      ∃ key value, m.get? key = some value ∧ f (key, value) = some b ∧
        ∀ earlier < key, ∀ value, m.get? earlier = some value → f (earlier, value) = none := by
  rw [List.findSome?_eq_some_iff]
  constructor
  · rintro ⟨before, ⟨key, value⟩, after, split, found, clear⟩
    refine ⟨key, value, sorted.get?_eq_some_iff.mpr (by simp [split]), found,
      fun earlier less value held => ?_⟩
    have member := sorted.get?_eq_some_iff.mp held
    rw [split, List.mem_append] at member
    rcases member with front | later
    · exact clear _ front
    · -- What comes at or after the entry has no lesser key.
      rw [Sorted, split] at sorted
      have ordered := (List.pairwise_append.mp sorted).2.1
      rcases List.mem_cons.mp later with same | later
      · exact absurd less (by simp [(Prod.mk.inj same).1])
      · exact absurd less ((List.pairwise_cons.mp ordered).1 _ later).not_gt
  · rintro ⟨key, value, held, found, clear⟩
    obtain ⟨before, after, split⟩ := List.append_of_mem (sorted.get?_eq_some_iff.mp held)
    refine ⟨before, (key, value), after, split, found, fun entry member => ?_⟩
    have there : m.get? entry.1 = some entry.2 :=
      sorted.get?_eq_some_iff.mpr (by simp [split, member])
    rw [Sorted, split] at sorted
    have less := (List.pairwise_append.mp sorted).2.2 entry member _ List.mem_cons_self
    exact clear entry.1 less entry.2 there

/-- An entry of the other map counts. -/
theorem get?_union (m : SortedMap κ ν) {other : SortedMap κ ν} (sorted : other.Sorted) (key : κ) :
    (m.union other).get? key = (other.get? key).or (m.get? key) := by
  have distinct := sorted.distinct
  obtain ⟨entries⟩ := other
  simp only [union, get?] at distinct ⊢
  clear sorted
  induction entries generalizing m with
  | nil => rfl
  | cons entry rest ih =>
    obtain ⟨others, distinct⟩ := List.pairwise_cons.mp distinct
    have inserted := get?_insert m entry.1 key entry.2
    simp only [get?] at inserted
    rw [List.foldl_cons, ih _ distinct, inserted, lookup]
    split_ifs with same
    · rw [lookup_eq_none fun later member => same ▸ others later member]
      rfl
    · rfl

end Ordered

end EntityScripting.SortedMap
