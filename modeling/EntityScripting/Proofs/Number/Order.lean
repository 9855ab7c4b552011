import EntityScripting.Proofs.Number.Pattern

/-!
# The order of readings

Finite readings compare as the rational numbers that they stand for, and positive ones also as their
patterns do.
-/

namespace EntityScripting.Number

namespace Reading

def value : Reading → ℚ
  | .finite negative m u => if negative then -(m * 2 ^ u) else m * 2 ^ u
  | _ => 0

theorem count_mul {u v : Int} (below : u ≤ v) (negative : Bool) (m : Nat) :
    ((finite negative m v).count u : ℚ) * 2 ^ u = (finite negative m v).value := by
  obtain ⟨n, rfl⟩ : ∃ n : Nat, v = u + n := ⟨(v - u).toNat, by omega⟩
  have power : pow2 (u + n - u) = 2 ^ n := by
    rw [add_sub_cancel_left, pow2, Int.toNat_natCast, Nat.one_shiftLeft]
  have shifted : (2 : ℚ) ^ (u + n) = 2 ^ n * 2 ^ u := by
    rw [add_comm, zpow_add₀ two_ne_zero, zpow_natCast]
  simp only [count, value, power, shifted]
  cases negative <;> simp [mul_assoc]

section Finite

variable {s t : Bool} {m n : Nat} {u v : Int}

theorem lt_finite_iff :
    (finite s m u).lt (finite t n v) = true ↔ (finite s m u).value < (finite t n v).value := by
  have two := zpow_pos (two_pos (α := ℚ)) (min u v)
  rw [← count_mul (min_le_left u v), ← count_mul (min_le_right u v), mul_lt_mul_iff_left₀ two,
    Int.cast_lt]
  simp [lt, compare?, commonUnit, Int.compare_eq_lt]

theorem le_finite_iff :
    (finite s m u).le (finite t n v) = true ↔ (finite s m u).value ≤ (finite t n v).value := by
  have two := zpow_pos (two_pos (α := ℚ)) (min u v)
  rw [← count_mul (min_le_left u v), ← count_mul (min_le_right u v), mul_le_mul_iff_left₀ two,
    Int.cast_le, le_iff_lt_or_eq]
  simp [le, compare?, commonUnit, Int.compare_eq_lt]

end Finite

end Reading

namespace Format

variable {f : Format} {m n : Nat} {u v : Int}

theorem lt_of_unit_lt (hm : f.Canonical m u) (hn : f.Canonical n v) (units : u < v) :
    (m : ℚ) * 2 ^ u < n * 2 ^ v ∧
      f.pack (.finite false m u) < f.pack (.finite false n v) := by
  have least := hm.least
  have leading := hn.leading.resolve_right (by omega)
  have bounded := hm.bounded
  constructor
  · have two := zpow_pos (two_pos (α := ℚ)) u
    have bounded' : (m : ℚ) < 2 * f.hidden := by exact_mod_cast bounded
    calc (m : ℚ) * 2 ^ u < 2 * f.hidden * 2 ^ u := by gcongr
      _ = f.hidden * 2 ^ (u + 1) := by
        rw [zpow_add_one₀ two_ne_zero]
        ring
      _ ≤ n * 2 ^ v := by
        gcongr
        · exact one_le_two
        · exact units
  · obtain ⟨a, ha⟩ : ∃ a, (u - f.leastUnit).toNat = a := ⟨_, rfl⟩
    obtain ⟨b, hb⟩ : ∃ b, (v - f.leastUnit).toNat = b := ⟨_, rfl⟩
    have steps : (a + 1) * f.hidden ≤ b * f.hidden := Nat.mul_le_mul_right _ (by omega)
    rw [pack_finite, pack_finite, ha, hb, signPart]
    rw [Nat.add_mul] at steps
    omega

/-- Positive values are in the order of their patterns. -/
theorem pack_le_iff (hm : f.Canonical m u) (hn : f.Canonical n v) :
    f.pack (.finite false m u) ≤ f.pack (.finite false n v) ↔ (m : ℚ) * 2 ^ u ≤ n * 2 ^ v := by
  rcases lt_trichotomy u v with less | rfl | more
  · obtain ⟨value, pattern⟩ := lt_of_unit_lt hm hn less
    exact iff_of_true pattern.le value.le
  · rw [pack_finite, pack_finite, mul_le_mul_iff_left₀ (zpow_pos two_pos u), Nat.cast_le]
    omega
  · obtain ⟨value, pattern⟩ := lt_of_unit_lt hn hm more
    exact iff_of_false pattern.not_ge value.not_ge

end Format

end EntityScripting.Number
