import EntityScripting.Proofs.Number.Clock

/-!
# Delays that a clock can tell

Floats lie apart, the farther the greater they are. A delay that is added to a time comes to a later
time if and only if it takes the time more than half of the way to the next float, or just half of it
where the tie goes up (`Single.lt_add_iff`).
-/

namespace EntityScripting.Number

theorem lt_roundHalfEven {num den k : Nat} (hd : 0 < den)
    (above : (2 * k + 1) * den < 2 * num ∨ k % 2 = 1 ∧ (2 * k + 1) * den ≤ 2 * num) :
    k < roundHalfEven num den := by
  have split := Nat.div_add_mod num den
  have small := Nat.mod_lt num hd
  rw [Nat.add_mul, Nat.one_mul, Nat.mul_assoc] at above
  have floor : k ≤ num / den := (Nat.le_div_iff_mul_le hd).mpr (by omega)
  unfold roundHalfEven
  dsimp only
  rcases Nat.lt_or_eq_of_le floor with less | rfl
  · split_ifs <;> omega
  · rw [Nat.mul_comm (num / den)] at above
    split_ifs <;> omega

namespace Format

variable {f : Format} {m num den : Nat} {u : Int}

def Above (m : Nat) (u : Int) (q : ℚ) : Prop :=
  m * 2 ^ u + 2 ^ u / 2 < q ∨ m % 2 = 1 ∧ m * 2 ^ u + 2 ^ u / 2 = q

theorem nearby_of_not_above {q : ℚ} (least : m * 2 ^ u ≤ q) (below : ¬ Above m u q) :
    f.Nearby m u q := by
  obtain ⟨upper, tie⟩ := not_or.mp below
  have upper := not_lt.mp upper
  have lower : m * 2 ^ u < q + f.gapBelow m u := by
    have := f.gapBelow_pos m u
    linarith
  unfold Nearby
  split_ifs with even
  · exact ⟨upper, lower.le⟩
  · have odd : m % 2 = 1 := by omega
    exact ⟨lt_of_le_of_ne upper fun same => tie ⟨odd, same.symm⟩, lower⟩

theorem lt_rounded {k : Nat} (hd : 0 < den) (above : Above k (f.unitOf num den) (num / den)) :
    k < f.rounded num den := by
  have positive : 0 < den * pow2 (f.unitOf num den) := Nat.mul_pos hd (pow2_pos _)
  have hu := zpow_pos (two_pos (α := ℚ)) (f.unitOf num den)
  have scaled := ratio_scaled num den (f.unitOf num den)
  unfold Above at above
  unfold rounded
  generalize num * pow2 (-f.unitOf num den) = num' at *
  generalize den * pow2 (f.unitOf num den) = den' at *
  generalize (2 : ℚ) ^ f.unitOf num den = unit at *
  have den'' : (0 : ℚ) < den' := by exact_mod_cast positive
  rw [eq_div_iff hu.ne'] at scaled
  refine lt_roundHalfEven positive (above.imp (fun above => ?_) fun ⟨odd, above⟩ => ⟨odd, ?_⟩)
  · have half : (k : ℚ) + 1 / 2 < num' / den' := by
      rw [← scaled] at above
      nlinarith
    rw [lt_div_iff₀ den''] at half
    have whole : ((2 * k + 1) * den' : ℚ) < 2 * num' := by linarith
    exact_mod_cast whole
  · have half : (k : ℚ) + 1 / 2 = num' / den' := by
      rw [← scaled] at above
      nlinarith
    rw [eq_div_iff den''.ne'] at half
    have whole : ((2 * k + 1) * den' : ℚ) ≤ 2 * num' := by linarith
    exact_mod_cast whole

/-- What is above all that is rounded down to a value is rounded to a greater one. -/
theorem lt_rounded_of_above (proper : f.Proper) (canonical : f.Canonical m u) (hn : 0 < num)
    (hd : 0 < den) (above : Above m u (num / den)) :
    (m : ℚ) * 2 ^ u < f.rounded num den * 2 ^ f.unitOf num den := by
  obtain ⟨least, below, leading⟩ := unitOf_spec proper hn hd
  have hu := zpow_pos (two_pos (α := ℚ)) u
  have more : (m : ℚ) * 2 ^ u < num / den := by
    rcases above with above | ⟨-, above⟩ <;> linarith
  have bounded : (m : ℚ) + 1 ≤ (2 * f.hidden : Nat) := by exact_mod_cast canonical.bounded
  have units : u ≤ f.unitOf num den := by
    rcases canonical.leading with high | low
    · have high' : (f.hidden : ℚ) ≤ m := by exact_mod_cast high
      by_contra finer
      have finer : f.unitOf num den + 1 ≤ u := by omega
      have step : (2 * f.hidden : Nat) * (2 : ℚ) ^ f.unitOf num den ≤ f.hidden * 2 ^ u := by
        calc (2 * f.hidden : Nat) * (2 : ℚ) ^ f.unitOf num den
            = f.hidden * 2 ^ (f.unitOf num den + 1) := by
              rw [zpow_add_one₀ two_ne_zero]
              push_cast
              ring
          _ ≤ f.hidden * 2 ^ u := by
            gcongr
            exact one_le_two
      nlinarith
    · rwa [low]
  rcases Int.lt_or_eq_of_le units with coarser | same
  · -- The ratio is counted in a greater unit, so all its significands are greater values.
    have full := le_rounded hd (leading (canonical.least.trans_lt coarser))
    have full' : (f.hidden : ℚ) ≤ f.rounded num den := by exact_mod_cast full
    have unit : (2 : ℚ) * 2 ^ u ≤ 2 ^ f.unitOf num den := by
      rw [mul_comm, ← zpow_add_one₀ two_ne_zero]
      exact zpow_le_zpow_right₀ one_le_two coarser
    push_cast at bounded
    have hidden := f.hidden_pos
    have hidden' : (0 : ℚ) < f.hidden := by exact_mod_cast hidden
    calc (m : ℚ) * 2 ^ u < (2 * f.hidden) * 2 ^ u := by gcongr; linarith
      _ = f.hidden * (2 * 2 ^ u) := by ring
      _ ≤ f.rounded num den * 2 ^ f.unitOf num den := by gcongr
  · rw [same] at above ⊢
    have greater : (m : ℚ) < f.rounded num den := by exact_mod_cast lt_rounded hd above
    have := zpow_pos (two_pos (α := ℚ)) (f.unitOf num den)
    gcongr

theorem nearest_value (proper : f.Proper) (negative : Bool) (hn : 0 < num) (hd : 0 < den) :
    f.nearest negative num den = .infinite negative ∨
      ∃ k w, f.nearest negative num den = .finite negative k w ∧ f.Canonical k w ∧
        (k : ℚ) * 2 ^ w = f.rounded num den * 2 ^ f.unitOf num den := by
  refine (nearest_spec proper negative hn hd).imp_right ?_
  rintro ⟨k, w, result, canonical, -⟩
  refine ⟨k, w, result, canonical, ?_⟩
  rw [nearest_of_rounded f negative hn] at result
  split_ifs at result with carry
  · cases result
    rw [carry, zpow_add_one₀ two_ne_zero]
    push_cast
    ring
  · cases result
    rfl

end Format

namespace Single

open Format

/-- Whether a delay is one that a clock can tell: it takes a time more than half of the way to the
next float, or just half of it from a time whose significand is odd. -/
def Tells (time delay : Single) : Prop :=
  match time.read, delay.read with
  | .finite _ m u, .finite _ n v =>
    (2 : ℚ) ^ u / 2 < n * 2 ^ v ∨ m % 2 = 1 ∧ (2 : ℚ) ^ u / 2 = n * 2 ^ v
  | .finite .., .infinite _ => True
  | _, _ => False

variable {time delay : Single}

theorem IsTime.lt_eq_not_le {x y : Single} (hx : x.IsTime) (hy : y.IsTime) :
    x.lt y = !y.le x := by
  rcases hx with ⟨m, u, readX⟩ | readX <;> rcases hy with ⟨n, v, readY⟩ | readY <;>
    rw [lt, le, readX, readY]
  · rw [Bool.eq_not, Ne, Bool.eq_iff_iff, Reading.lt_finite_iff, Reading.le_finite_iff, ← not_le]
    tauto
  · rfl
  · rfl
  · rfl

theorem isTime_of_isFinite (isTime : time.IsTime) (finite : time.isFinite = true) :
    ∃ m u, time.read = .finite false m u := by
  rcases isTime with found | infinite
  · exact found
  · rw [isFinite, infinite] at finite
    cases finite

/-- A positive delay takes the clock on if and only if the clock can tell it. -/
theorem lt_add_iff (isTime : time.IsTime) (finite : time.isFinite = true)
    (positive : zero.lt delay = true) : time.lt (time.add delay) = true ↔ time.Tells delay := by
  obtain ⟨m, u, readTime⟩ := isTime_of_isFinite isTime finite
  have canonical := canonical_of_read readTime
  rcases isTime_of_zero_lt positive with ⟨n, v, readDelay⟩ | readDelay
  · have some : 0 < n := by
      rw [lt, readDelay, show zero.read = .finite false 0 binary32.leastUnit from rfl,
        Reading.lt_finite_iff] at positive
      by_contra none
      obtain rfl : n = 0 := by omega
      simp [Reading.value] at positive
    obtain ⟨num, den, hn, hd, value, sum⟩ := binary32.add_eq_nearest u v (.inr some)
    have delayed : (time.add delay) = ofReading (binary32.nearest false num den) := by
      rw [Single.add, readTime, readDelay, sum]
    have told : time.Tells delay ↔ Above m u (num / den) := by
      simp only [Tells, readTime, readDelay, Above, value, add_lt_add_iff_left, add_right_inj]
    rw [told, delayed]
    constructor
    · -- Below the middle the sum is rounded to the time itself.
      intro later
      by_contra low
      have least : (m : ℚ) * 2 ^ u ≤ num / den := by
        have : (0 : ℚ) ≤ n * 2 ^ v := by positivity
        rw [value]
        linarith
      rw [nearest_eq proper_binary32 false canonical hn hd (nearby_of_not_above least low), lt,
        read_ofReading_finite false canonical, readTime, Reading.lt_finite_iff] at later
      exact lt_irrefl _ later
    · intro above
      have more := lt_rounded_of_above proper_binary32 canonical hn hd above
      rcases nearest_value proper_binary32 false hn hd with out | ⟨k, w, result, kept, same⟩
      · rw [out, lt, read_ofReading_infinite, readTime]
        rfl
      · rw [result, lt, read_ofReading_finite false kept, readTime, Reading.lt_finite_iff]
        simpa only [Reading.value, Bool.false_eq_true, if_false, same] using more
  · have delayed : (time.add delay).read = .infinite false := by
      rw [Single.add, readTime, readDelay]
      exact read_ofReading_infinite false
    rw [lt, delayed, readTime, Tells, readTime, readDelay]
    exact iff_of_true rfl trivial

end Single

end EntityScripting.Number
