import EntityScripting.Proofs.Game.FieldWrite
import EntityScripting.Proofs.Game.Placement

/-!
# Integers that are given to a key

A script gives a key an integer as such or as a float, a map as a number or as a text. What is taken is
kept as it is, and of the integers of 32 bits all are taken from a script as such; in every other way the
least of them is not (`integer_entries`).
-/

namespace EntityScripting

open Number Script

def JsonNumber.exactInt? : JsonNumber → Option Int
  | .natural n => some n
  | .negative n => some n
  | .float x => x.exactInt?
  | .huge => none

def Json.Gives (value : Json) (n : Int) : Prop :=
  (∃ number, value = .number number ∧ number.exactInt? = some n) ∨ value = .string (intText n)

def IsInt32 (n : Int) : Prop := -0x80000000 ≤ n ∧ n < 0x80000000

def IsBalancedInt32 (n : Int) : Prop := -0x80000000 < n ∧ n < 0x80000000

theorem exists_int32_iff {n : Int} : (∃ k : Int32, k.toInt = n) ↔ IsInt32 n := by
  constructor
  · rintro ⟨k, rfl⟩
    exact ⟨k.le_toInt, k.toInt_lt⟩
  · rintro ⟨low, high⟩
    exact ⟨Int32.ofInt n, Int32.toInt_ofInt_of_le (by omega) (by omega)⟩

theorem trimBlanks_intText (n : Int) :
    Text.trimBlanks (intText n).toList = (intText n).toList := by
  refine Text.trimBlanks_of_clear fun c member => PlainChar.not_blank ?_
  rcases isDigit_or_minus_of_mem_intText member with rfl | digit
  · exact .inr (by simp)
  · exact .inl digit

/-- However a map gives an integer, it is read as a float that is equal to it. -/
theorem Json.Gives.exists_double {value : Json} {n : Int} (gives : value.Gives n)
    (small : n.natAbs ≤ 2 ^ 53) : ∃ x, value.toDouble? = some x ∧ x.exactInt? = some n := by
  rcases gives with ⟨number, rfl, same⟩ | rfl
  · cases number with
    | natural k | negative k =>
      obtain rfl := Option.some.inj same
      exact ⟨_, rfl, Double.exactInt?_ofInt small⟩
    | float x => exact ⟨x, rfl, same⟩
    | huge => cases same
  · refine ⟨Double.ofInt n, ?_, Double.exactInt?_ofInt small⟩
    rw [Json.toDouble?, trimBlanks_intText, Double.ofText?_intText small]

namespace FieldKind

theorem exists_takes_integer {n : Int} (word : IsInt32 n) (small : n.natAbs ≤ 2 ^ 53) :
    ∃ k : Int32, k.toInt = n ∧ FieldKind.integer.Takes (.integer (Int64.ofInt n)) (.integer k) := by
  obtain ⟨k, same⟩ := exists_int32_iff.mpr word
  have long : (Int64.ofInt n).toInt = n := Int64.toInt_ofInt_of_le (by omega) (by omega)
  exact ⟨k, same, .integer _ k (same.trans long.symm)⟩

theorem isInt32_of_takes {n : Int} (small : n.natAbs ≤ 2 ^ 53) {held : FieldValue}
    (takes : FieldKind.integer.Takes (.integer (Int64.ofInt n)) held) : IsInt32 n := by
  have long : (Int64.ofInt n).toInt = n := Int64.toInt_ofInt_of_le (by omega) (by omega)
  cases takes with
  | integer _ k same => exact exists_int32_iff.mp ⟨k, same.trans long⟩

theorem isBalancedInt32_iff {n : Int} :
    IsBalancedInt32 n ↔ ∃ k : Int32, k.toInt = n ∧ k.toInt ≠ -0x80000000 := by
  constructor
  · rintro ⟨low, high⟩
    obtain ⟨k, rfl⟩ := exists_int32_iff.mpr ⟨low.le, high⟩
    exact ⟨k, rfl, low.ne'⟩
  · rintro ⟨k, rfl, other⟩
    exact ⟨lt_of_le_of_ne k.le_toInt other.symm, k.toInt_lt⟩

theorem exists_takes_number {x : Double} {n : Int} (exact : x.exactInt? = some n)
    (balanced : IsBalancedInt32 n) :
    ∃ k : Int32, k.toInt = n ∧ FieldKind.integer.Takes (.number x) (.integer k) := by
  obtain ⟨k, rfl, other⟩ := isBalancedInt32_iff.mp balanced
  exact ⟨k, rfl, .whole x k exact other⟩

theorem isBalancedInt32_of_takes {x : Double} {n : Int} (exact : x.exactInt? = some n)
    {held : FieldValue} (takes : FieldKind.integer.Takes (.number x) held) : IsBalancedInt32 n := by
  cases takes with
  | whole _ k same other =>
    exact isBalancedInt32_iff.mpr ⟨k, Option.some.inj (same.symm.trans exact), other⟩

theorem exists_reads {value : Json} {n : Int} (gives : value.Gives n) (small : n.natAbs ≤ 2 ^ 53)
    (balanced : IsBalancedInt32 n) :
    ∃ k : Int32, k.toInt = n ∧ FieldKind.integer.Reads value (.integer k) := by
  obtain ⟨x, read, exact⟩ := gives.exists_double small
  obtain ⟨k, rfl, other⟩ := isBalancedInt32_iff.mp balanced
  exact ⟨k, rfl, .integer value x k read exact other⟩

theorem isBalancedInt32_of_reads {value : Json} {n : Int} (gives : value.Gives n)
    (small : n.natAbs ≤ 2 ^ 53) {held : FieldValue}
    (reads : FieldKind.integer.Reads value held) :
    IsBalancedInt32 n ∧ ∃ k : Int32, k.toInt = n ∧ held = .integer k := by
  obtain ⟨x, read, exact⟩ := gives.exists_double small
  cases reads with
  | integer _ y k read' exact' other =>
    obtain rfl := Option.some.inj (read.symm.trans read')
    obtain rfl := Option.some.inj (exact.symm.trans exact')
    exact ⟨isBalancedInt32_iff.mpr ⟨k, rfl, other⟩, k, rfl, rfl⟩

end FieldKind

/-! ### Giving a key an integer -/

/-- Whether the call of a script that writes an integer to a key of an entity is as it should if it is
to be heard under some condition only: then the key holds the integer, and else the script is told of an
error and the game is as it was. -/
def Engine.WritesIf (heard : Prop) (g : Game) (h : Handle) (key : IntegerKey) (n : Int)
    (ended : Option (Routine.Outcome × Engine)) : Prop :=
  (heard → ∃ g' heap k, ended = some (.ok [], ⟨g', heap⟩) ∧
    g.Writes h (.integer key) (.integer k) g' ∧ k.toInt = n) ∧
  (¬ heard → ∃ error heap, ended = some (.error error, ⟨g, heap⟩))

/-- The same of an entity of a map: if it is to be heard, its class is given a body whose key holds the
integer, and else the key is at fault. -/
def Game.PlacesIf (heard : Prop) (g : Game) (spec : EntitySpec) (key : IntegerKey) (value : Json)
    (n : Int) : Prop :=
  (heard → ∃ id left body k, g.Places spec id left body ∧
    body.fields.get (.integer key) = .integer k ∧ k.toInt = n) ∧
  (¬ heard → (g.placeEntity spec).1 =
    .error (.fieldType (.integer key) "integer" value.kindName))

namespace Engine

variable {n : Int} {key : IntegerKey} {heard : Prop}

theorem writesIf_set {g : Game} {h : Handle} {heap : Heap} {usage : Usage} {limits : Limits}
    {name v : Value} (enough : 3 ≤ limits.steps) (live : h.isValid g.pool = true)
    (writable : (Field.integer key).isWritable = true)
    (named : Conversion.text name = .ok key.name) (identity : Nat) (more : List Value)
    (trace : Trace)
    (taken : heard → ∃ k : Int32, k.toInt = n ∧ FieldKind.integer.Takes v (.integer k))
    (refused : ∀ held, FieldKind.integer.Takes v held → heard) :
    WritesIf heard g h key n (callBuiltin limits usage (.entity .set)
      (.userdata (.entity h) identity :: name :: v :: more) trace ⟨g, heap⟩) := by
  constructor
  · intro hears
    obtain ⟨k, same, takes⟩ := taken hears
    obtain ⟨g', written, writes⟩ := callBuiltin_set_of_assigns heap usage enough
      identity more trace named ⟨rfl, writable, live, takes⟩
    exact ⟨g', heap, k, written, writes, same⟩
  · intro unheard
    refine callBuiltin_set_of_unfit heap usage enough identity more trace
      fun name' field held converted assigns => ?_
    obtain rfl := Except.ok.inj (named.symm.trans converted)
    obtain rfl : field = .integer key := Field.name_injective assigns.named
    exact unheard (refused held assigns.takes)

theorem placesIf_given (key : IntegerKey) {config : PoolConfig} {g : Game} {spec : EntitySpec}
    {value : Json} (made : (Pool.new config).Reaches g.pool) (room : ¬ g.pool.IsFull)
    (proper : spec.Proper) (given : spec.keys.get? key.name = some value) (gives : value.Gives n)
    (small : n.natAbs ≤ 2 ^ 53)
    (others : ∀ other ≠ key.name, ∀ value, spec.keys.get? other = some value →
      EntitySpec.Sound other value) :
    Game.PlacesIf (IsBalancedInt32 n) g spec key value n := by
  constructor
  · intro balanced
    obtain ⟨k, -, reads⟩ := FieldKind.exists_reads gives small balanced
    have fits : spec.Fits := fun name value' found => by
      by_cases same : name = key.name
      · subst same
        obtain rfl := Option.some.inj (given.symm.trans found)
        exact ⟨.integer key, _, rfl, reads⟩
      · exact others name same value' found
    obtain ⟨id, left, body, places, -⟩ := Game.places_of_fits made proper room fits
    obtain ⟨-, k', same, held⟩ := FieldKind.isBalancedInt32_of_reads gives small
      (places.fills.given (.integer key) value given)
    exact ⟨id, left, body, k', places, held, same⟩
  · intro unheard
    refine Game.placeEntity_of_firstFault made proper room ⟨key.name, value, given,
      .unfit (.integer key) rfl fun held reads =>
        unheard (FieldKind.isBalancedInt32_of_reads gives small reads).1,
      fun earlier less => others earlier less.ne⟩

/-- An integer of at most 53 bits is kept as it is however it is given to an integer key, if it is
taken. From a script as an integer it is taken exactly if it is one of 32 bits. As a float, or from a
map as a number or a text, it is taken exactly if its opposite is one of 32 bits too: the ways differ
for the least integer of 32 bits and for no other. -/
theorem integer_entries {n : Int} (small : n.natAbs ≤ 2 ^ 53) (key : IntegerKey) :
    (∀ (g : Game) (h : Handle) (heap : Heap) (usage : Usage) (limits : Limits) (identity : Nat)
        (name : Value) (more : List Value) (trace : Trace),
      3 ≤ limits.steps → h.isValid g.pool = true → (Field.integer key).isWritable = true →
      Conversion.text name = .ok key.name →
        WritesIf (IsInt32 n) g h key n (callBuiltin limits usage (.entity .set)
          (.userdata (.entity h) identity :: name :: .integer (Int64.ofInt n) :: more) trace
            ⟨g, heap⟩) ∧
        ∀ x : Double, x.exactInt? = some n →
          WritesIf (IsBalancedInt32 n) g h key n (callBuiltin limits usage (.entity .set)
            (.userdata (.entity h) identity :: name :: .number x :: more) trace ⟨g, heap⟩)) ∧
    (∀ (config : PoolConfig) (g : Game) (spec : EntitySpec) (value : Json),
      (Pool.new config).Reaches g.pool → ¬ g.pool.IsFull → spec.Proper →
      spec.keys.get? key.name = some value → value.Gives n →
      (∀ other ≠ key.name, ∀ value, spec.keys.get? other = some value →
        EntitySpec.Sound other value) →
      Game.PlacesIf (IsBalancedInt32 n) g spec key value n) ∧
    (Double.ofInt n).exactInt? = some n ∧
    ((IsInt32 n ↔ IsBalancedInt32 n) ↔ n ≠ -0x80000000) := by
  refine ⟨fun g h heap usage limits identity name more trace enough live writable named =>
      ⟨?integer, fun x exact => ?float⟩,
    fun config g spec value made room proper given gives others =>
      placesIf_given key made room proper given gives small others,
    Double.exactInt?_ofInt small, ?_⟩
  case integer =>
    exact writesIf_set enough live writable named identity more trace
      (fun word => FieldKind.exists_takes_integer word small)
      fun held takes => FieldKind.isInt32_of_takes small takes
  case float =>
    exact writesIf_set enough live writable named identity more trace
      (FieldKind.exists_takes_number exact) fun held takes =>
        FieldKind.isBalancedInt32_of_takes exact takes
  · unfold IsInt32 IsBalancedInt32
    omega

/-- An entity of a map with one key, and a pool with room for it. -/
theorem placeable_single (name : String) (value : Json) (plain : name ≠ "classname") :
    (Pool.new {}).Reaches (Engine.new {} 1).state.pool ∧ ¬ (Engine.new {} 1).state.pool.IsFull ∧
    (EntitySpec.mk "info_notnull" (.ofList [(name, value)])).Proper ∧
    ∀ other ≠ name, ∀ value', (SortedMap.ofList [(name, value)]).get? other = some value' →
      EntitySpec.Sound other value' := by
  refine ⟨.refl _, Game.not_isFull_new, ⟨SortedMap.sorted_ofList _, ?_⟩,
    fun other apart value' found => ?_⟩
  · exact if_neg plain.symm
  · have member := List.mem_singleton.mp (SortedMap.mem_of_get?_ofList found)
    exact absurd (Prod.mk.inj member).1 apart

/-- Twelve is written by a script, and given by a map as a text. -/
theorem integer_entries_twelve :
    (12 : Int).natAbs ≤ 2 ^ 53 ∧
    (∃ g' heap k, callBuiltin ⟨3, 0, 0⟩ (useWithin ⟨3, 0, 0⟩ 0) (.entity .set)
        [.userdata (.entity ⟨2, 0⟩) 0, .ofString "count", .integer 12] [] doorEngine =
          some (.ok [], ⟨g', heap⟩) ∧
      doorEngine.state.Writes ⟨2, 0⟩ (.integer .count) (.integer k) g' ∧ k.toInt = 12) ∧
    ∃ id left body k, (Engine.new {} 1).state.Places
        ⟨"info_notnull", .ofList [("count", .string "12")]⟩ id left body ∧
      body.fields.get (.integer .count) = .integer k ∧ k.toInt = 12 := by
  obtain ⟨scripts, maps, -⟩ := integer_entries (n := 12) (by decide) .count
  obtain ⟨made, room, proper, others⟩ := placeable_single "count" (.string "12") (by decide)
  have written := (scripts doorEngine.state ⟨2, 0⟩ doorEngine.heap (useWithin ⟨3, 0, 0⟩ 0) ⟨3, 0, 0⟩ 0
    (.ofString "count") [] [] (by decide) (by decide) rfl (by decide +kernel)).1
  have placed := maps {} _ _ (.string "12") made room proper rfl
    (.inr (congrArg Json.string (by decide +kernel))) others
  exact ⟨by decide, written.1 ⟨by decide, by decide⟩, placed.1 ⟨by decide, by decide⟩⟩

/-- The least integer of 32 bits is not taken from a map. -/
theorem least_integer_refused :
    ¬ ∀ (n : Int) (key : IntegerKey) (config : PoolConfig) (g : Game) (spec : EntitySpec)
        (value : Json),
      n.natAbs ≤ 2 ^ 53 → (Pool.new config).Reaches g.pool → ¬ g.pool.IsFull → spec.Proper →
      spec.keys = .ofList [(key.name, value)] → value.Gives n →
      ((∃ placed, (g.placeEntity spec).1 = .ok placed) ↔ -0x80000000 ≤ n ∧ n ≤ 0x7FFFFFFF) := by
  intro always
  have gives : (Json.number (.negative (-0x80000000))).Gives (-0x80000000) := .inl ⟨_, rfl, rfl⟩
  obtain ⟨made, room, proper, others⟩ := placeable_single "count"
    (.number (.negative (-0x80000000))) (by decide)
  have refused := (placesIf_given .count made room proper rfl gives (by decide) others).2
    (by unfold IsBalancedInt32; decide)
  obtain ⟨placed, done⟩ := (always (-0x80000000) .count {} _ _ _ (by decide) made room proper rfl
    gives).mpr (by decide)
  rw [refused] at done
  cases done

end Engine

end EntityScripting
