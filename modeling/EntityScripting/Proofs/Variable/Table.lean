import EntityScripting.Proofs.SortedMap
import EntityScripting.Proofs.Variable.Codec

/-!
# Tables that read back

A table is fit for its kind if it holds nothing that the kind does not take, and every way of
changing tables keeps it so. The saved texts of a fit table make a table of the same names again.
-/

namespace EntityScripting

namespace VariableTable

structure Fit (kind : VariableKind) (t : VariableTable) : Prop where
  kind_eq : t.kind = kind
  sorted : t.entries.Sorted
  allowed : ∀ entry ∈ t.entries.entries, kind.allows entry.2 = true

namespace Fit

variable {kind : VariableKind} {t t' : VariableTable}

theorem empty (kind : VariableKind) : Fit kind { kind } := ⟨rfl, SortedMap.sorted_empty, by simp⟩

theorem clear (fit : t.Fit kind) : t.clear.Fit kind :=
  ⟨fit.kind_eq, SortedMap.sorted_empty, by simp [VariableTable.clear]⟩

theorem set (fit : t.Fit kind) {key : String} {value : Option ScriptValue}
    (written : t.set key value = .ok t') : t'.Fit kind := by
  cases value with
  | none =>
    cases written
    exact ⟨fit.kind_eq, fit.sorted.erase key, fun entry member =>
      fit.allowed entry (SortedMap.mem_of_mem_erase member)⟩
  | some value =>
    simp only [VariableTable.set] at written
    split at written
    · rename_i allowed
      cases written
      refine ⟨fit.kind_eq, fit.sorted.insert key value, fun entry member => ?_⟩
      rcases SortedMap.mem_of_mem_insert member with rfl | held
      · exact fit.kind_eq ▸ allowed
      · exact fit.allowed entry held
    · cases written

theorem absorb (fit : t.Fit kind) (fit' : t'.Fit kind) : (t.absorb t').Fit kind where
  kind_eq := fit.kind_eq
  sorted := fit.sorted.union t'.entries
  allowed entry member :=
    (SortedMap.mem_of_mem_union member).elim (fit.allowed entry) (fit'.allowed entry)

theorem decodeEntries (fit : t.Fit kind) {p : Pool} {saved : List (String × String)}
    (read : VariableTable.decodeEntries p t saved = .ok t') : t'.Fit kind := by
  induction saved generalizing t with
  | nil =>
    cases read
    exact fit
  | cons entry rest ih =>
    unfold VariableTable.decodeEntries at read
    split at read
    · cases read
    · split at read
      · cases read
      · rename_i written
        exact ih (fit.set written) read

theorem decode {p : Pool} {saved : SortedMap String String}
    (read : VariableTable.decode kind p saved = .ok t') : t'.Fit kind :=
  (empty kind).decodeEntries read

theorem restore (fit : t.Fit kind) {p : Pool} {saved : SortedMap String String}
    (read : t.restore p saved = .ok t') : t'.Fit kind := by
  unfold VariableTable.restore at read
  cases decoded : VariableTable.decode t.kind p saved with
  | error e =>
    rw [decoded] at read
    cases read
  | ok other =>
    rw [decoded] at read
    cases read
    exact fit.absorb (fit.kind_eq ▸ decode decoded)

end Fit

theorem decodeEntries_spec {p : Pool} {t : VariableTable} {saved : List (String × String)}
    (distinct : saved.Pairwise fun a b => a.1 ≠ b.1)
    (reads : ∀ entry ∈ saved, ∃ w, ScriptValue.decode entry.1 p entry.2 = .ok w ∧
      t.kind.allows w = true) :
    ∃ t', decodeEntries p t saved = .ok t' ∧ ∀ key,
      match SortedMap.lookup key saved with
      | none => t'.get? key = t.get? key
      | some text => ∃ w, ScriptValue.decode key p text = .ok w ∧ t'.get? key = some w := by
  induction saved generalizing t with
  | nil => exact ⟨t, rfl, fun key => rfl⟩
  | cons entry rest ih =>
    obtain ⟨name, text⟩ := entry
    obtain ⟨others, distinct⟩ := List.pairwise_cons.mp distinct
    obtain ⟨w, decoded, allowed⟩ := reads _ List.mem_cons_self
    obtain ⟨t₁, written⟩ : ∃ t₁, t.set name (some w) = .ok t₁ := ⟨_, if_pos allowed⟩
    have kind : t₁.kind = t.kind := by
      simp only [VariableTable.set, allowed, if_true] at written
      cases written
      rfl
    obtain ⟨t', ended, values⟩ := ih distinct fun entry member =>
      kind ▸ reads entry (List.mem_cons_of_mem _ member)
    refine ⟨t', ?_, fun key => ?_⟩
    · simp only [VariableTable.decodeEntries, decoded, written, ended]
    · have value := values key
      rw [SortedMap.lookup]
      split_ifs with same
      · rw [SortedMap.lookup_eq_none fun entry member => same ▸ others entry member] at value
        exact ⟨w, same ▸ decoded, by rw [value, get?_set_some written, if_pos same]⟩
      · cases later : SortedMap.lookup key rest with
        | none =>
          rw [later] at value
          dsimp only at value ⊢
          rw [value, get?_set_some written, if_neg same]
        | some text =>
          rw [later] at value
          exact value

theorem allows_of_agrees {kind : VariableKind} {p q : Pool} {v w : ScriptValue}
    (allowed : kind.allows v = true) (same : (v.carry p q).Agrees w) : kind.allows w = true := by
  -- Values that agree are of one type, which is all that a kind looks at.
  cases v <;> cases w <;> first | exact allowed | cases same

/-- The saved texts of a fit table are read in another pool as a table of the same names, whose
values mean there what they meant. -/
theorem decode_snapshot {kind : VariableKind} {t : VariableTable} (fit : t.Fit kind) {p q : Pool}
    (room : p.size ≤ q.capacity) (fits : q.capacity ≤ UInt64.size) :
    ∃ t', decode kind q (t.snapshot p) = .ok t' ∧ ∀ key,
      match t.get? key with
      | none => t'.get? key = none
      | some v => ∃ w, t'.get? key = some w ∧ (v.carry p q).Agrees w := by
  have distinct : (t.snapshot p).entries.Pairwise fun a b => a.1 ≠ b.1 := by
    refine List.pairwise_map.mpr (fit.sorted.imp fun less => ?_)
    exact less.ne
  obtain ⟨t', read, values⟩ := decodeEntries_spec (t := { kind }) (p := q) distinct (by
    intro entry member
    obtain ⟨⟨key, v⟩, held, rfl⟩ := List.mem_map.mp member
    obtain ⟨w, decoded, same⟩ := ScriptValue.decode_encode_carry key room fits v
    exact ⟨w, decoded, allows_of_agrees (fit.allowed _ held) same⟩)
  refine ⟨t', read, fun key => ?_⟩
  have value := values key
  rw [snapshot, SortedMap.mapValues, SortedMap.lookup_mapValues] at value
  cases held : t.get? key with
  | none =>
    have none : SortedMap.lookup key t.entries.entries = none := held
    rw [none] at value
    exact value
  | some v =>
    have some : SortedMap.lookup key t.entries.entries = some v := held
    rw [some] at value
    obtain ⟨w, decoded, found⟩ := value
    obtain ⟨w', decoded', same⟩ := ScriptValue.decode_encode_carry key room fits v
    obtain rfl : w = w' := Except.ok.inj (decoded.symm.trans decoded')
    exact ⟨w, found, same⟩

end VariableTable

end EntityScripting
