import EntityScripting.Proofs.Variable.Table

/-!
# Saved entries read as a whole

A saved entry is one that tables of a kind take, or it has a fault. Reading ends with the fault of the
first entry that has one, in the order of the names (`restore_eq_error_iff`), and otherwise the table has
every entry (`absorbs_of_restore`).
-/

namespace EntityScripting

namespace VariableTable

def fault? (kind : VariableKind) (p : Pool) (entry : String × String) : Option CodecError :=
  match ScriptValue.decode entry.1 p entry.2 with
  | .error e => some e
  | .ok value =>
    if kind.allows value then none else some (.disallowed entry.1 (.variableType kind))

/-- Whether an error is the fault of the first saved entry that has one. -/
def FirstFault (kind : VariableKind) (p : Pool) (saved : SortedMap String String)
    (e : CodecError) : Prop :=
  ∃ key text, saved.get? key = some text ∧ fault? kind p (key, text) = some e ∧
    ∀ earlier < key, ∀ text, saved.get? earlier = some text → fault? kind p (earlier, text) = none

def Readable (kind : VariableKind) (p : Pool) (saved : SortedMap String String) : Prop :=
  ∀ key text, saved.get? key = some text → ∃ value,
    ScriptValue.decode key p text = .ok value ∧ kind.allows value = true

structure Absorbs (p : Pool) (saved : SortedMap String String) (t t' : VariableTable) : Prop where
  kind : t'.kind = t.kind
  read : ∀ key text, saved.get? key = some text → ∃ value,
    ScriptValue.decode key p text = .ok value ∧ t.kind.allows value = true ∧
      t'.get? key = some value
  others : ∀ key, saved.get? key = none → t'.get? key = t.get? key

variable {kind : VariableKind} {p : Pool} {t t' : VariableTable} {saved : SortedMap String String}
  {e : CodecError}

theorem fault?_eq_none_iff {entry : String × String} : fault? kind p entry = none ↔
    ∃ value, ScriptValue.decode entry.1 p entry.2 = .ok value ∧ kind.allows value = true := by
  unfold fault?
  cases decoded : ScriptValue.decode entry.1 p entry.2 with
  | error e => simp
  | ok value => simp

/-- An entry that the table takes is put into it. -/
theorem decodeEntries_of_taken {entry : String × String} (taken : fault? t.kind p entry = none)
    (rest : List (String × String)) : ∃ t₁, t₁.kind = t.kind ∧
      decodeEntries p t (entry :: rest) = decodeEntries p t₁ rest := by
  obtain ⟨value, decoded, allowed⟩ := fault?_eq_none_iff.mp taken
  refine ⟨{ t with entries := t.entries.insert entry.1 value }, rfl, ?_⟩
  rw [decodeEntries]
  simp only [decoded, VariableTable.set, allowed, if_true]

/-- Reading ends with the first fault. -/
theorem decodeEntries_eq_error_iff {entries : List (String × String)} :
    decodeEntries p t entries = .error e ↔ entries.findSome? (fault? t.kind p) = some e := by
  induction entries generalizing t with
  | nil => simp [decodeEntries]
  | cons entry rest ih =>
    rw [List.findSome?_cons]
    cases fault : fault? t.kind p entry with
    | none =>
      obtain ⟨t₁, kind, same⟩ := decodeEntries_of_taken fault rest
      rw [same, ih, kind]
    | some e' =>
      have refused : decodeEntries p t (entry :: rest) = .error e' := by
        unfold fault? at fault
        rw [decodeEntries]
        cases decoded : ScriptValue.decode entry.1 p entry.2 with
        | error reason =>
          rw [decoded] at fault
          exact congrArg _ (Option.some.inj fault)
        | ok value =>
          simp only [decoded] at fault
          split at fault
          · cases fault
          · rename_i unfit
            cases fault
            simp only [VariableTable.set, if_neg unfit]
      simp [refused]

theorem not_readable_of_firstFault (first : FirstFault kind p saved e) :
    ¬ Readable kind p saved := by
  obtain ⟨key, text, held, fault, -⟩ := first
  intro readable
  rw [fault?_eq_none_iff.mpr (readable _ _ held)] at fault
  cases fault

theorem decode_eq_error_iff (sorted : saved.Sorted) :
    decode kind p saved = .error e ↔ FirstFault kind p saved e := by
  exact decodeEntries_eq_error_iff.trans sorted.findSome?_eq_some_iff

/-- A table of nothing but saved entries. -/
theorem absorbs_of_decode (sorted : saved.Sorted) (read : decode kind p saved = .ok t') :
    Absorbs p saved { kind } t' := by
  have clear : ∀ entry ∈ saved.entries, fault? kind p entry = none := by
    have none : saved.entries.findSome? (fault? kind p) = none := by
      cases found : saved.entries.findSome? (fault? kind p) with
      | none => rfl
      | some e =>
        rw [decode, decodeEntries_eq_error_iff.mpr found] at read
        cases read
    exact List.findSome?_eq_none_iff.mp none
  obtain ⟨table, ended, values⟩ := decodeEntries_spec (t := { kind }) sorted.distinct
    fun entry member => fault?_eq_none_iff.mp (clear entry member)
  obtain rfl : table = t' := Except.ok.inj (ended.symm.trans read)
  refine ⟨(Fit.decode read).kind_eq, fun key text held => ?_, fun key absent => ?_⟩
  · have member := sorted.get?_eq_some_iff.mp held
    obtain ⟨value, decoded, allowed⟩ := fault?_eq_none_iff.mp (clear _ member)
    have found := values key
    rw [show SortedMap.lookup key saved.entries = some text from held] at found
    obtain ⟨value', decoded', bound⟩ := found
    obtain rfl : value = value' := Except.ok.inj (decoded.symm.trans decoded')
    exact ⟨value, decoded, allowed, bound⟩
  · have found := values key
    rwa [show SortedMap.lookup key saved.entries = none from absent] at found

theorem exists_decode_iff (sorted : saved.Sorted) :
    (∃ t', decode kind p saved = .ok t') ↔ Readable kind p saved := by
  constructor
  · rintro ⟨t', read⟩ key text held
    obtain ⟨value, decoded, allowed, -⟩ := (absorbs_of_decode sorted read).read key text held
    exact ⟨value, decoded, allowed⟩
  · intro readable
    cases read : decode kind p saved with
    | ok t' => exact ⟨t', rfl⟩
    | error e =>
      exact absurd readable (not_readable_of_firstFault ((decode_eq_error_iff sorted).mp read))

theorem restore_eq_error_iff (sorted : saved.Sorted) :
    t.restore p saved = .error e ↔ FirstFault t.kind p saved e := by
  rw [← decode_eq_error_iff sorted]
  exact Except.map_eq_error_iff

theorem exists_restore_iff (sorted : saved.Sorted) :
    (∃ t', t.restore p saved = .ok t') ↔ Readable t.kind p saved := by
  simp only [← exists_decode_iff sorted, Except.exists_ok_iff, restore, ne_eq, Except.map_eq_error_iff]

/-- What is read is put into the table whole. -/
theorem absorbs_of_restore (sorted : saved.Sorted) (read : t.restore p saved = .ok t') :
    Absorbs p saved t t' := by
  obtain ⟨table, decoded, rfl⟩ := Except.map_eq_ok_iff.mp read
  have absorbs := absorbs_of_decode sorted decoded
  have values (key : String) : (t.absorb table).get? key = (table.get? key).or (t.get? key) :=
    SortedMap.get?_union _ (Fit.decode decoded).sorted key
  refine ⟨rfl, fun key text held => ?_, fun key absent => ?_⟩
  · obtain ⟨value, decoded, allowed, bound⟩ := absorbs.read key text held
    exact ⟨value, decoded, allowed, by rw [values, bound, Option.some_or]⟩
  · rw [values, absorbs.others key absent]
    rfl

end VariableTable

end EntityScripting
