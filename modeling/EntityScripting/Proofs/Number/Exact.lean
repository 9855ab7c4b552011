import EntityScripting.Proofs.Number.FloatText

/-!
# Integers as floats

Up to `2 ^ 53` every integer is a float, which is found from the integer itself and from its text
(`Double.exactInt?_ofInt`, `Double.ofText?_intText`).
-/

namespace EntityScripting.Number

theorem balancedInt32?_eq_some_iff (n : Int) (k : Int32) :
    balancedInt32? n = some k ↔ k.toInt = n ∧ n ≠ -0x80000000 := by
  have lower := k.le_toInt
  have upper := k.toInt_lt
  unfold balancedInt32?
  split
  · rw [Option.some.injEq]
    constructor
    · rintro rfl
      exact ⟨Int32.toInt_ofInt_of_le (by omega) (by omega), by omega⟩
    · rintro ⟨rfl, -⟩
      exact Int32.ofInt_toInt k
  · simp only [reduceCtorEq, false_iff]
    omega

/-- A value of a format is its own nearest value. -/
theorem Format.nearby_self (f : Format) (m : Nat) (u : Int) : f.Nearby m u (m * 2 ^ u) := by
  have half := zpow_pos (two_pos (α := ℚ)) u
  have gap := f.gapBelow_pos m u
  unfold Nearby
  split_ifs <;> constructor <;> linarith

theorem exists_canonical {n : Nat} (pos : 0 < n) (small : n ≤ 2 ^ 53) :
    ∃ m u, binary64.Canonical m u ∧ (m : ℚ) * 2 ^ u = n := by
  have hidden : binary64.hidden = 2 ^ 52 := by decide
  have leastUnit : binary64.leastUnit = -1074 := by decide
  have greatestUnit : binary64.greatestUnit = 971 := by decide
  by_cases last : n = 2 ^ 53
  · refine ⟨2 ^ 52, 1, ⟨?_, ?_, ?_, ?_⟩, ?_⟩
    · omega
    · omega
    · omega
    · exact .inl (by omega)
    · rw [last]
      norm_num
  · -- The leading digit is moved to its place.
    have order : n.log2 ≤ 52 := by
      have below : n < 2 ^ 53 := by omega
      have := (Nat.log2_lt pos.ne').mpr below
      omega
    have low : 2 ^ n.log2 ≤ n := Nat.log2_self_le pos.ne'
    have high : n < 2 ^ (n.log2 + 1) := Nat.lt_log2_self
    have split (e : Nat) : 2 ^ (n.log2 + e) * 2 ^ (52 - n.log2) = 2 ^ (52 + e) := by
      rw [← pow_add]
      congr 1
      omega
    refine ⟨n * 2 ^ (52 - n.log2), (n.log2 : Int) - 52, ⟨?_, ?_, ?_, ?_⟩, ?_⟩
    · have := Nat.mul_lt_mul_of_pos_right high (show 0 < 2 ^ (52 - n.log2) by positivity)
      rw [split 1] at this
      omega
    · omega
    · omega
    · have := Nat.mul_le_mul_right (2 ^ (52 - n.log2)) low
      have power := split 0
      rw [Nat.add_zero] at power
      exact .inl (by omega)
    · push_cast
      rw [mul_assoc, ← zpow_natCast, ← zpow_add₀ two_ne_zero]
      rw [show ((52 - n.log2 : Nat) : Int) + ((n.log2 : Int) - 52) = 0 by omega, zpow_zero, mul_one]

theorem Reading.exactInt?_finite (negative : Bool) {m n : Nat} {u : Int}
    (value : (m : ℚ) * 2 ^ u = n) :
    (Reading.finite negative m u).exactInt? = some (if negative then -(n : Int) else n) := by
  have den := pow2_pos (-u)
  have den' : (pow2 (-u) : ℚ) ≠ 0 := by exact_mod_cast den.ne'
  have whole : m * pow2 u = n * pow2 (-u) := by
    rw [← ratio_eq, div_eq_iff den'] at value
    exact_mod_cast value
  rw [exactInt?, if_pos ((integral_iff m u).mpr ⟨n, value⟩), whole, Nat.mul_div_cancel _ den]

/-- A decimal without an exponent is the nearest value to its digits. -/
theorem Decimal.toReading_natural {k : Nat} (small : k ≤ 2 ^ 53) (negative : Bool) :
    Decimal.toReading binary64 negative ⟨k, 0⟩ = binary64.nearest negative k 1 := by
  unfold toReading
  split
  · rename_i zero
    obtain rfl : k = 0 := zero
    rfl
  · rename_i some
    have pos : 0 < k := Nat.pos_of_ne_zero some
    have short : (digitsOf k).length ≤ 16 := by
      have below : 10 ^ ((digitsOf k).length - 1) < 10 ^ 16 :=
        (digits_bounds pos).1.trans_lt (small.trans_lt (by decide))
      have := (Nat.pow_lt_pow_iff_right (by decide)).mp below
      omega
    have whole : pow10 0 = 1 := rfl
    simp only [neg_zero, whole, Nat.mul_one]
    rw [if_neg (by omega), if_neg (by omega)]

namespace Double

theorem read_ofInt {n : Int} (small : n.natAbs ≤ 2 ^ 53) : ∃ m u,
    (ofInt n).read = .finite (decide (n < 0)) m u ∧ (m : ℚ) * 2 ^ u = n.natAbs := by
  rcases Nat.eq_zero_or_pos n.natAbs with zero | pos
  · obtain rfl : n = 0 := Int.natAbs_eq_zero.mp zero
    exact ⟨0, _, rfl, by simp⟩
  · obtain ⟨m, u, canonical, value⟩ := exists_canonical pos small
    have near : binary64.Nearby m u ((n.natAbs : ℚ) / (1 : Nat)) := by
      rw [Nat.cast_one, div_one, ← value]
      exact binary64.nearby_self m u
    have nearest := Format.nearest_eq Format.proper_binary64 (decide (n < 0)) canonical pos one_pos near
    refine ⟨m, u, ?_, value⟩
    rw [ofInt, Format.nearestInt, nearest, read_ofReading_finite _ canonical]

/-- The float of an integer is equal to it. -/
theorem exactInt?_ofInt {n : Int} (small : n.natAbs ≤ 2 ^ 53) : (ofInt n).exactInt? = some n := by
  obtain ⟨m, u, read, value⟩ := read_ofInt small
  rw [exactInt?, read, Reading.exactInt?_finite _ value, signed_natAbs]

/-- The text of an integer is read as the float of the integer. -/
theorem ofText?_intText {n : Int} (small : n.natAbs ≤ 2 ^ 53) :
    ofText? (intText n).toList = some (ofInt n) := by
  obtain ⟨c, cs, written, digit, -⟩ := exists_digitsOf n.natAbs
  have signs : (intText n).toList =
      (signed (decide (n < 0)) (Decimal.digitsOf n.natAbs)).toList := by
    simp [toList_intText, toList_signed]
  have read : decimal? (Decimal.digitsOf n.natAbs) = some ⟨n.natAbs, 0⟩ := by
    rw [decimal?_digits (by simp [written]) (digits_digitsOf n.natAbs), digitsValue_digitsOf]
  rw [ofText?, signs, reading?_signed binary64 _ ⟨c, cs, written, digit⟩, read, Option.map_some,
    Option.map_some, Decimal.toReading_natural small]
  rfl

end Double

end EntityScripting.Number
