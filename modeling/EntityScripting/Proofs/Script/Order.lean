import EntityScripting.Game.Level
import EntityScripting.Proofs.Script.Freeze
import Mathlib.Data.List.Nodup

/-!
# The order of entries

A table is gone through in the order of its keys. Keys of one kind that are told apart by identity
alone have no order of their own, so what writes keep is only that no entry stands after one with the
same key or a greater one (`Entries.Ordered`). Then a write at a key that is there changes one value
and leaves every entry where it stands. Every heap that scripts work on is made of such tables.
-/

namespace EntityScripting

open Number Text

namespace Script

namespace Value

variable {u v w : Value}

inductive Precedes : Value → Value → Prop where
  | integer {m n : Int64} (less : m < n) : Precedes (.integer m) (.integer n)
  | number {x y : Double} (less : x.bits < y.bits) : Precedes (.number x) (.number y)
  | text {s t : Bytes} (less : s < t) : Precedes (.text s) (.text t)
  | boolean : Precedes (.boolean false) (.boolean true)
  | table {t u : TableId} (less : t < u) : Precedes (.table t) (.table u)
  | closure {f g : ClosureId} (less : f < g) :
      Precedes (.function (.closure f)) (.function (.closure g))
  | cursor {f g : CursorId} (less : f < g) :
      Precedes (.function (.cursor f)) (.function (.cursor g))
  | builtin {f g : Builtin} (less : f.label < g.label) :
      Precedes (.function (.builtin f)) (.function (.builtin g))
  | userdata {data other : UserData} {i j : Nat} (less : i < j) :
      Precedes (.userdata data i) (.userdata other j)

theorem lt_iff : v < w ↔ v.rank < w.rank ∨ v.Precedes w := by
  show v.before w = true ↔ _
  constructor
  · intro less
    unfold before at less
    split at less
    case h_4 b c => cases b <;> cases c <;> first | exact .inr .boolean | cases less
    case h_10 => exact .inl (of_decide_eq_true less)
    all_goals
      right
      constructor
      exact of_decide_eq_true less
  · rintro (less | precedes)
    · unfold before
      split <;> first | exact absurd less (Nat.lt_irrefl _) | exact decide_eq_true less
    · cases precedes <;> first | rfl | exact decide_eq_true ‹_›

theorem Precedes.rank_eq (precedes : v.Precedes w) : v.rank = w.rank := by
  cases precedes <;> rfl

theorem Precedes.trans (first : u.Precedes v) (second : v.Precedes w) : u.Precedes w := by
  cases first with
  | integer less => cases second with | integer later => exact .integer (Int64.lt_trans less later)
  | number less => cases second with | number later => exact .number (UInt64.lt_trans less later)
  | text less => cases second with | text later => exact .text (List.lt_trans less later)
  | boolean => cases second
  | table less => cases second with | table later => exact .table (Nat.lt_trans less later)
  | closure less => cases second with | closure later => exact .closure (Nat.lt_trans less later)
  | cursor less => cases second with | cursor later => exact .cursor (Nat.lt_trans less later)
  | builtin less => cases second with | builtin later => exact .builtin (lt_trans less later)
  | userdata less => cases second with | userdata later => exact .userdata (Nat.lt_trans less later)

theorem Precedes.ne (precedes : v.Precedes w) : v ≠ w := by
  rintro rfl
  cases precedes with
  | integer less => exact absurd less Int64.lt_irrefl
  | number less => exact UInt64.lt_irrefl _ less
  | text less => exact List.lt_irrefl _ less
  | builtin less => exact lt_irrefl _ less
  | table less | closure less | cursor less | userdata less => exact Nat.lt_irrefl _ less

theorem before_trans (first : u < v) (second : v < w) : u < w := by
  rw [lt_iff] at *
  rcases first with lower | precedes <;> rcases second with lower' | precedes'
  · exact .inl (Nat.lt_trans lower lower')
  · exact .inl (precedes'.rank_eq ▸ lower)
  · exact .inl (precedes.rank_eq ▸ lower')
  · exact .inr (precedes.trans precedes')

theorem not_before_self (v : Value) : ¬ v < v := by
  rw [lt_iff]
  rintro (lower | precedes)
  · exact Nat.lt_irrefl _ lower
  · exact precedes.ne rfl

theorem before_asymm (less : v < w) : ¬ w < v :=
  fun greater => not_before_self v (before_trans less greater)

end Value

/-! ### Entries -/

namespace Entries

open SortedMap

/-- Whether no entry stands after one with the same key or a greater one. -/
def Ordered (entries : Entries) : Prop :=
  entries.entries.Pairwise fun a b => a.1 ≠ b.1 ∧ ¬ b.1 < a.1

instance (entries : Entries) : Decidable entries.Ordered :=
  inferInstanceAs (Decidable (List.Pairwise _ _))

variable {entries : Entries} {key value : Value}

theorem ordered_empty : Ordered {} := .nil

theorem Ordered.insert (ordered : entries.Ordered) (key value : Value) :
    Ordered (entries.insert key value) := by
  obtain ⟨entries⟩ := entries
  simp only [Ordered, SortedMap.insert] at ordered ⊢
  induction entries with
  | nil => exact List.pairwise_singleton _ _
  | cons head rest ih =>
    obtain ⟨other, previous⟩ := head
    obtain ⟨first, later⟩ := List.pairwise_cons.mp ordered
    unfold place
    split_ifs with same less
    · exact List.pairwise_cons.mpr ⟨same ▸ first, later⟩
    · -- A key behind the first greater one is greater too, or has no order with the new one.
      refine List.pairwise_cons.mpr ⟨fun entry member => ?_, ordered⟩
      rcases List.mem_cons.mp member with rfl | behind
      · exact ⟨same, Value.before_asymm less⟩
      · obtain ⟨-, notBefore⟩ := first entry behind
        refine ⟨?_, fun before => notBefore (Value.before_trans before less)⟩
        rintro rfl
        exact notBefore less
    · refine List.pairwise_cons.mpr ⟨fun entry member => ?_, ih later⟩
      rcases mem_of_mem_insert (m := ⟨rest⟩) member with rfl | behind
      · exact ⟨Ne.symm same, less⟩
      · exact first entry behind

theorem Ordered.erase (ordered : entries.Ordered) (key : Value) : Ordered (entries.erase key) := by
  obtain ⟨entries⟩ := entries
  simp only [Ordered, SortedMap.erase] at ordered ⊢
  induction entries with
  | nil => exact .nil
  | cons head rest ih =>
    obtain ⟨first, later⟩ := List.pairwise_cons.mp ordered
    unfold without
    split
    · exact ih later
    · exact List.pairwise_cons.mpr
        ⟨fun entry member => first entry (mem_of_mem_erase (m := ⟨rest⟩) member), ih later⟩

theorem Ordered.set (ordered : entries.Ordered) (key value : Value) :
    (entries.set key value).Ordered := by
  unfold Entries.set
  split
  · exact ordered.erase key
  · exact ordered.insert key value

theorem ordered_ofList (list : List (Value × Value)) : Ordered (ofList list) := by
  have folded (entries : Entries) (ordered : entries.Ordered) :
      Ordered (list.foldl (fun m entry => m.insert entry.1 entry.2) entries) := by
    induction list generalizing entries with
    | nil => exact ordered
    | cons entry rest ih => exact ih _ (ordered.insert entry.1 entry.2)
  exact folded {} ordered_empty

/-- The items of a new table are put in one by one. -/
theorem Ordered.withItems (ordered : entries.Ordered) (items : List Value) :
    (entries.withItems items).Ordered := by
  unfold Entries.withItems
  induction items.zipIdx with
  | nil => exact ordered
  | cons item rest ih => exact ih.set _ _

theorem Ordered.eq_of_key (ordered : entries.Ordered) {first second : Value × Value}
    (member : first ∈ entries.entries) (member' : second ∈ entries.entries)
    (same : first.1 = second.1) : first = second := by
  have distinct : entries.keys.Nodup := List.pairwise_map.mpr (ordered.imp And.left)
  exact List.inj_on_of_nodup_map distinct member member' same

/-- A write at a key that is there leaves every entry where it stands. -/
theorem Ordered.insert_of_mem (ordered : entries.Ordered) (member : key ∈ entries.keys) :
    entries.insert key value =
      ⟨entries.entries.map fun entry => if entry.1 = key then (key, value) else entry⟩ := by
  obtain ⟨entries⟩ := entries
  simp only [Ordered, SortedMap.insert, keys, SortedMap.mk.injEq] at ordered member ⊢
  induction entries with
  | nil => cases member
  | cons head rest ih =>
    obtain ⟨other, previous⟩ := head
    obtain ⟨first, later⟩ := List.pairwise_cons.mp ordered
    unfold place
    split_ifs with same less
    · subst same
      rw [List.map_cons, if_pos rfl, List.map_congr_left (g := id), List.map_id]
      exact fun entry behind => if_neg (first entry behind).1.symm
    · rcases List.mem_cons.mp member with here | behind
      · exact absurd here same
      · obtain ⟨entry, listed, rfl⟩ := List.mem_map.mp behind
        exact absurd less (first entry listed).2
    · rw [List.map_cons, if_neg (Ne.symm same)]
      refine congrArg _ (ih later ?_)
      exact (List.mem_cons.mp member).resolve_left same

end Entries

/-! ### Heaps -/

def Access.newEntries? {α : Type} : Access α → Option Entries
  | .newTable entries => some entries
  | _ => none

namespace Heap

def Ordered (heap : Heap) : Prop := ∀ t, (heap.entries t).Ordered

variable {heap later : Heap}

theorem ordered_iff :
    heap.Ordered ↔ ∀ t entries, heap.table? t = some (.plain entries) → entries.Ordered := by
  constructor
  · intro ordered t entries plain
    exact entries_of_table? plain ▸ ordered t
  · intro ordered t
    unfold Heap.entries
    split
    · exact ordered t _ ‹_›
    · exact Entries.ordered_empty

theorem Ordered.of_same (ordered : heap.Ordered) (same : later.tables = heap.tables) :
    later.Ordered :=
  fun t => entries_congr (show later.table? t = heap.table? t by simp only [table?, same]) ▸ ordered t

theorem Ordered.newTable (ordered : heap.Ordered) {object : TableObject}
    (fits : ∀ entries, object = .plain entries → entries.Ordered) :
    (heap.newTable object).2.Ordered := by
  rw [ordered_iff] at ordered ⊢
  intro t entries plain
  rw [table?_newTable] at plain
  split at plain
  · exact fits entries (Option.some.inj plain)
  · exact ordered t entries plain

theorem Ordered.rawSet (ordered : heap.Ordered) (t : TableId) (key value : Value) :
    (heap.rawSet t key value).Ordered := by
  rw [ordered_iff] at ordered ⊢
  intro u entries plain
  rw [table?_rawSet] at plain
  split at plain
  · obtain ⟨object, was, put⟩ := Option.map_eq_some_iff.mp plain
    cases object with
    | plain before =>
      cases put
      exact (ordered u before was).set key value
    | frozen | environment => cases put
  · exact ordered u entries plain

theorem Ordered.visits {fuel : Nat}
    (visit : ∀ t state, Ordered (Freezing.heap state) → (freezeWith fuel t state).2.heap.Ordered)
    (t : TableId) (nested : List (Value × TableId)) {state : Freezing}
    (ordered : state.heap.Ordered) :
    (Freezing.visitEach fuel t nested state).heap.Ordered := by
  induction nested generalizing state with
  | nil => exact ordered
  | cons entry rest ih =>
    obtain ⟨key, inner⟩ := entry
    rw [Freezing.visitEach_cons]
    exact ih ((visit inner state ordered).rawSet t key _)

theorem Ordered.freezeWith (fuel : Nat) (t : TableId) (state : Freezing)
    (ordered : state.heap.Ordered) : (freezeWith fuel t state).2.heap.Ordered := by
  induction fuel generalizing t state with
  | zero => exact ordered
  | succ fuel ih =>
    cases seen : state.views.get? t with
    | some view =>
      rw [Freezing.freezeWith_of_seen fuel seen]
      exact ordered
    | none =>
      rw [Freezing.freezeWith_of_unseen fuel seen]
      have made : (state.heap.newTable (.frozen t)).2.Ordered := ordered.newTable nofun
      exact .visits ih t _ made

theorem Ordered.freeze (ordered : heap.Ordered) (t : TableId) : (heap.freeze t).2.Ordered := by
  have visited := Ordered.freezeWith (heap.tables.size + 1) t ⟨heap, {}⟩ ordered
  unfold Heap.freeze
  exact visited

theorem Ordered.write (ordered : heap.Ordered) (t : TableId) (key value : Value) :
    (heap.write t key value).Ordered := by
  unfold Heap.write
  split
  · unfold define
    split
    · exact (ordered.freeze _).of_same rfl
    · exact ordered.of_same rfl
  · exact ordered.rawSet t _ value

/-- Whatever a script does to the heap, the entries of every table stay in order. -/
theorem Ordered.access (ordered : heap.Ordered) {α : Type} (access : Access α)
    (fits : ∀ entries, access.newEntries? = some entries → entries.Ordered) :
    (access.run heap).2.Ordered := by
  cases access with
  | newTable entries =>
    refine ordered.newTable fun _ is => ?_
    cases is
    exact fits entries rfl
  | set t key value =>
    unfold Access.run
    dsimp only
    split
    · exact ordered
    · exact ordered.write t key value
  | advance id =>
    show (heap.advance id).2.Ordered
    unfold Heap.advance
    split
    · exact ordered
    · exact ordered.of_same rfl
  | _ => exact ordered.of_same rfl

end Heap

end Script

namespace Engine

open Script

theorem ordered_openApi : openApi.2.Ordered := by
  have nothing : ({} : Heap).Ordered := fun t => Entries.ordered_empty
  refine (((nothing.newTable ?_).newTable ?_).newTable ?_).newTable ?_
  all_goals
    rintro _ ⟨⟩
    exact Entries.ordered_ofList _

end Engine

end EntityScripting
