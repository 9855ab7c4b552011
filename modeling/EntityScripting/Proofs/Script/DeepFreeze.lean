import EntityScripting.Proofs.Script.Allocation

/-!
# What a freeze protects

A frozen table and all that it leads to stay as they are, whatever a script does from the view of it
alone, as long as it looks behind no view. Going through a view with `pairs` does look behind it and
gives the frozen table itself, which can be written to (`freeze_protects`). The heaps are closed ones,
as an engine begins with and scripts leave behind.
-/

namespace EntityScripting.Script.Heap

/-- Whether views and environments show no table that takes writes. It is so until a script puts a
table into one that it had frozen, by a reference that it kept. -/
def Shielded (heap : Heap) : Prop :=
  ∀ u, (∀ entries, heap.table? u ≠ some (.plain entries)) →
    ∀ key w, heap.get u key = .table w → ¬ heap.Writable w

/-- From a table that takes no writes none that does is read, unless views are looked behind. -/
theorem Shielded.not_writable {heap : Heap} (shielded : heap.Shielded) {root u : TableId}
    (refuses : ¬ heap.Writable root) (reads : Reads false heap root u) : ¬ heap.Writable u := by
  induction reads with
  | root => exact refuses
  | get _ _ read ih =>
    refine shielded _ (fun entries plain => ih ?_) _ _ read
    simp [Writable, plain]
  | source behind => cases behind

theorem shielded_of_all {heap : Heap}
    (all : heap.tables.all (isPlainBelow heap.tables.size) = true) : heap.Shielded := by
  intro u notPlain key w read
  obtain ⟨object, found⟩ := exists_table? (lt_size_of_get read)
  obtain ⟨entries, rfl, -⟩ := exists_plain_of_all all found
  exact absurd found (notPlain entries)

namespace Frozen

variable {heap after : Heap} {views : SortedMap TableId TableId} {t u view : TableId}

theorem not_writable_new (frozen : heap.Frozen t view after views) (new : heap.tables.size ≤ u)
    (young : u < after.tables.size) : ¬ after.Writable u := by
  obtain ⟨source, -, -, shows⟩ := frozen.table?_new new young
  simp [Writable, shows]

theorem writable_old (frozen : heap.Frozen t view after views) (old : u < heap.tables.size) :
    after.Writable u ↔ heap.Writable u := by
  obtain ⟨object, found⟩ := exists_table? old
  cases object with
  | plain => simp [Writable, found, frozen.table?_plain found]
  | frozen => simp [Writable, found, frozen.table?_frozen found]
  | environment => simp [Writable, found, frozen.table?_environment found, frozen.stores]

/-- A table that is read from an old one that is not plain takes no writes. -/
theorem not_writable_of_get (frozen : heap.Frozen t view after views) (closed : heap.Closed)
    (shielded : heap.Shielded) (old : u < heap.tables.size)
    (notPlain : ∀ entries, heap.table? u ≠ some (.plain entries)) {key : Value} {w : TableId}
    (read : after.get u key = .table w) : ¬ after.Writable w := by
  have young := ((frozen.closed closed).lt_of_get read).1
  rcases frozen.get_old closed old read with new | before
  · exact frozen.not_writable_new new young
  · rw [frozen.writable_old (closed.lt_of_get before).1]
    exact shielded u notPlain key w before

/-- Freezing keeps what views show from writes, and the new views do so too. -/
theorem shielded (frozen : heap.Frozen t view after views) (closed : heap.Closed)
    (before : heap.Shielded) : after.Shielded := by
  intro u notPlain key w read
  have young := ((frozen.closed closed).lt_of_get read).1
  rcases Nat.lt_or_ge u heap.tables.size with old | new
  · refine frozen.not_writable_of_get closed before old (fun entries plain => ?_) read
    exact notPlain _ (frozen.table?_plain plain)
  · -- A new table is a view, and reads as the table that it shows.
    obtain ⟨source, older, viewed, shows⟩ := frozen.table?_new new (lt_size_of_get read)
    rw [get_frozen (frozen.closed closed) shows] at read
    obtain ⟨object, found⟩ := exists_table? older
    cases object with
    | plain entries =>
      have new := frozen.get_plain_seen found (Option.isSome_of_eq_some viewed) read
      exact frozen.not_writable_new new young
    | frozen | environment =>
      refine frozen.not_writable_of_get closed before older (fun entries plain => ?_) read
      rw [found] at plain
      cases plain

end Frozen

/-- Going through a view with `pairs` looks behind it. -/
theorem run_pairs {σ : Type} (turns steps : Nat) (perform : Performer σ) (t : TableId)
    (trace : Trace) (world : World σ) :
    ((Value.builtin (.base .pairs)).invoke turns [.table t] trace).runWith turns perform (steps + 2)
        [] world =
      some (.ok [.builtin (.base .next), .table (world.heap.source t), .nil], world) :=
  rfl

/-- What the view that a freeze gives protects. It does exactly if no table that takes writes is read
from it. So it does as long as no view is looked behind, if views shield what they show; but the table
behind the view of a plain one takes writes itself. -/
theorem freeze_protects {heap : Heap} (closed : heap.Closed) {t : TableId}
    (allocated : t < heap.tables.size) :
    (∀ pairs, Protected pairs (heap.freeze t).2 (heap.freeze t).1 ↔
      ∀ u, Reads pairs (heap.freeze t).2 (heap.freeze t).1 u → ¬ (heap.freeze t).2.Writable u) ∧
    (heap.Shielded → Protected false (heap.freeze t).2 (heap.freeze t).1) ∧
    ∀ entries, heap.table? t = some (.plain entries) →
      ¬ Protected true (heap.freeze t).2 (heap.freeze t).1 := by
  obtain ⟨views, frozen⟩ := freeze_spec closed allocated
  obtain ⟨-, -, shows⟩ := frozen.shown frozen.root
  have iff (pairs : Bool) := protected_iff pairs (frozen.closed closed) (lt_size_of_table? shows)
  have refuses : ¬ (heap.freeze t).2.Writable (heap.freeze t).1 := by simp [Writable, shows]
  refine ⟨iff, fun shielded => (iff false).mpr fun u =>
    (frozen.shielded closed shielded).not_writable refuses, fun entries plain unchanged => ?_⟩
  have behind : Reads true (heap.freeze t).2 (heap.freeze t).1
      ((heap.freeze t).2.source (heap.freeze t).1) := .source rfl .root
  rw [show (heap.freeze t).2.source (heap.freeze t).1 = t by simp only [source, shows]] at behind
  refine (iff true).mp unchanged t behind ?_
  simp [Writable, frozen.table?_plain plain]

/-- The view of the engine's own table protects it from scripts that look behind no view, and from no
others. -/
theorem freeze_protects_openApi :
    Protected false (Engine.openApi.2.freeze Engine.openApi.1).2
        (Engine.openApi.2.freeze Engine.openApi.1).1 ∧
      ¬ Protected true (Engine.openApi.2.freeze Engine.openApi.1).2
        (Engine.openApi.2.freeze Engine.openApi.1).1 := by
  have closed : Engine.openApi.2.Closed := closed_of_all Engine.openApi_below rfl
  have allocated : Engine.openApi.1 < Engine.openApi.2.tables.size := by decide +kernel
  obtain ⟨-, protects, exposes⟩ := freeze_protects closed allocated
  obtain ⟨object, found⟩ := exists_table? allocated
  obtain ⟨entries, rfl, -⟩ := exists_plain_of_all Engine.openApi_below found
  exact ⟨protects (shielded_of_all Engine.openApi_below), exposes entries found⟩

def emptyTable : Heap := { tables := #[.plain {}] }

/-- A script that goes through the view of an empty table can write to the table. -/
theorem freeze_exposed_by_pairs :
    ¬ ∀ (heap : Heap) (t : TableId), heap.Closed → heap.Shielded → t < heap.tables.size →
      Protected true (heap.freeze t).2 (heap.freeze t).1 := by
  intro always
  have all : emptyTable.tables.all (isPlainBelow emptyTable.tables.size) = true := by
    decide +kernel
  have begun : Explores true (emptyTable.freeze 0).2 [.table 1] (emptyTable.freeze 0).2
      [.table 1] := .start
  have behind := begun.access (.source 1) rfl (fun _ operand _ _ => operand) (.inl rfl)
  have exposed : (emptyTable.freeze 0).2.source 1 = 0 := by decide
  have changed := behind.access (.set 0 (.boolean true) (.boolean true)) rfl (by
    rintro value operand t rfl
    obtain rfl : t = 0 := by simpa using operand
    exact List.mem_append_left _ (List.mem_singleton.mpr (congrArg Value.table exposed.symm)))
    (.inr id)
  have unchanged := always emptyTable 0 (closed_of_all all rfl) (shielded_of_all all) (by decide) _ _
    changed
  have same := unchanged.tables 0 (by decide)
  exact absurd (congrArg (Entries.at · (.boolean true)) (entries_congr same)) (by decide +kernel)

end EntityScripting.Script.Heap
