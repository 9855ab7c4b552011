/-!
# Letters without case

Names of classes, items and targets are compared without regard to the case of ASCII letters; all
other characters count as they are.
-/

namespace EntityScripting.Text

/-- The text with its ASCII capitals made small. -/
def asciiLower (s : String) : String := s.map Char.toLower

/-- Equality up to the case of ASCII letters. -/
def sameIgnoringCase (s t : String) : Bool := asciiLower s == asciiLower t

theorem toLower_toLower (c : Char) : c.toLower.toLower = c.toLower := by
  by_cases upper : c.val ≥ 'A'.val ∧ c.val ≤ 'Z'.val
  · have lowered : c.toLower = ⟨c.val + ('a'.val - 'A'.val), _⟩ := dif_pos upper
    have lower : ¬ (c.toLower.val ≥ 'A'.val ∧ c.toLower.val ≤ 'Z'.val) := by
      have first := upper.1
      have last := upper.2
      rw [lowered]
      simp only [ge_iff_le, UInt32.le_iff_toNat_le, UInt32.toNat_add] at *
      simp at *
      omega
    exact dif_neg lower
  · have same : c.toLower = c := dif_neg upper
    rw [same, same]

@[simp] theorem asciiLower_asciiLower (s : String) : asciiLower (asciiLower s) = asciiLower s := by
  have twice : Char.toLower ∘ Char.toLower = Char.toLower := funext toLower_toLower
  simp only [asciiLower, String.map_map, twice]

end EntityScripting.Text
