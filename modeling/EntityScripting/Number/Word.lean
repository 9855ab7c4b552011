/-!
# Machine integers

Which integers are the values of signed words of 32 and of 64 bits: a conversion gives the word of
that value, or none if there is none (`int32OfInt?_eq_some_iff`, `int64OfInt?_eq_some_iff`).
-/

namespace EntityScripting.Number

/-- The 32-bit integer of a value, if it has one. -/
def int32OfInt? (n : Int) : Option Int32 :=
  if -0x80000000 ≤ n ∧ n < 0x80000000 then some (Int32.ofInt n) else none

theorem int32OfInt?_eq_some_iff (n : Int) (k : Int32) : int32OfInt? n = some k ↔ k.toInt = n := by
  unfold int32OfInt?
  have lower := k.le_toInt
  have upper := k.toInt_lt
  split
  · rw [Option.some.injEq]
    constructor
    · rintro rfl
      exact Int32.toInt_ofInt_of_le (by omega) (by omega)
    · rintro rfl
      exact Int32.ofInt_toInt k
  · simp only [reduceCtorEq, false_iff]
    intro same
    omega

/-- The 32-bit integer of a value, if the value and its opposite both have one. -/
def balancedInt32? (n : Int) : Option Int32 :=
  if n.natAbs < 0x80000000 then some (Int32.ofInt n) else none

/-- The 64-bit integer of a value, if it has one. -/
def int64OfInt? (n : Int) : Option Int64 :=
  if -0x8000000000000000 ≤ n ∧ n < 0x8000000000000000 then some (Int64.ofInt n) else none

theorem int64OfInt?_eq_some_iff (n : Int) (k : Int64) : int64OfInt? n = some k ↔ k.toInt = n := by
  unfold int64OfInt?
  have lower := k.le_toInt
  have upper := k.toInt_lt
  split
  · rw [Option.some.injEq]
    constructor
    · rintro rfl
      exact Int64.toInt_ofInt_of_le (by omega) (by omega)
    · rintro rfl
      exact Int64.ofInt_toInt k
  · simp only [reduceCtorEq, false_iff]
    intro same
    omega

end EntityScripting.Number
