import EntityScripting.Proofs.Number.Order
import EntityScripting.Proofs.Number.Shortest

/-!
# Times

A time is a float that is a number and not negative. Times are in the order of their bits, and a sum
of two times is a time that is not before them (`IsTime.add`): rounding does not turn the clock back.
-/

namespace EntityScripting.Number

theorem Format.pack_lt_infinityBits {f : Format} (proper : f.Proper) {m : Nat} {u : Int}
    (canonical : f.Canonical m u) : f.pack (.finite false m u) < f.infinityBits := by
  obtain ⟨bounded, least, greatest, -⟩ := canonical
  have four := four_le_fields proper
  have top : f.infinityBits = (f.fields - 1) * f.hidden := rfl
  rw [greatestUnit_eq proper] at greatest
  have field : ((u - f.leastUnit).toNat + 2) * f.hidden ≤ (f.fields - 1) * f.hidden :=
    Nat.mul_le_mul_right _ (by omega)
  rw [Nat.add_mul] at field
  rw [top, pack_finite, signPart, if_neg Bool.false_ne_true]
  omega

/-- A sum of values that are not negative, and not both zero, is rounded once. -/
theorem Format.add_eq_nearest (f : Format) {m n : Nat} (u v : Int) (positive : 0 < m ∨ 0 < n) :
    ∃ num den : Nat, 0 < num ∧ 0 < den ∧ (num / den : ℚ) = m * 2 ^ u + n * 2 ^ v ∧
      f.add (.finite false m u) (.finite false n v) = f.nearest false num den := by
  obtain ⟨w, unit⟩ : ∃ w, min u v = w := ⟨_, rfl⟩
  obtain ⟨total, count⟩ : ∃ total, m * pow2 (u - w) + n * pow2 (v - w) = total := ⟨_, rfl⟩
  have some : 0 < total := by
    have := pow2_pos (u - w)
    have := pow2_pos (v - w)
    rw [← count]
    rcases positive with first | second
    · exact Nat.add_pos_left (Nat.mul_pos first ‹_›) _
    · exact Nat.add_pos_right _ (Nat.mul_pos second ‹_›)
  refine ⟨total * pow2 w, pow2 (-w), Nat.mul_pos some (pow2_pos w), pow2_pos (-w), ?_, ?_⟩
  · have first : ((m * pow2 (u - w) : Nat) : ℚ) * 2 ^ w = m * 2 ^ u :=
      Reading.count_mul (unit ▸ min_le_left u v) false m
    have second : ((n * pow2 (v - w) : Nat) : ℚ) * 2 ^ w = n * 2 ^ v :=
      Reading.count_mul (unit ▸ min_le_right u v) false n
    rw [ratio_eq, ← count, ← first, ← second]
    push_cast
    ring
  · have whole : (m * pow2 (u - w) : Int) + n * pow2 (v - w) = total := by exact_mod_cast count
    have sign : decide ((total : Int) < 0) = false := by simp
    simp [add, nanOf, Reading.commonUnit, Reading.count, unit, whole, some.ne', nearestScaled, sign]

/-- A sum of values that are not negative is out of range or not below the first. -/
theorem Format.add_finite {f : Format} (proper : f.Proper) {m n : Nat} {u v : Int}
    (canonical : f.Canonical m u) :
    f.add (.finite false m u) (.finite false n v) = .infinite false ∨
      ∃ k w, f.add (.finite false m u) (.finite false n v) = .finite false k w ∧
        f.Canonical k w ∧ (m : ℚ) * 2 ^ u ≤ k * 2 ^ w := by
  by_cases positive : 0 < m ∨ 0 < n
  · obtain ⟨num, den, hn, hd, value, sum⟩ := f.add_eq_nearest u v positive
    rw [sum]
    refine (nearest_spec proper false hn hd).imp_right ?_
    rintro ⟨k, w, nearest, kept, above⟩
    refine ⟨k, w, nearest, kept, above m u canonical ?_⟩
    have second : (0 : ℚ) ≤ n * 2 ^ v := by positivity
    rw [value]
    linarith
  · obtain ⟨rfl, rfl⟩ : m = 0 ∧ n = 0 := by omega
    refine .inr ⟨0, f.leastUnit, ?_, ⟨?_, le_rfl, ?_, .inr rfl⟩, ?_⟩
    · simp [add, nanOf, Reading.count, Reading.isNegative]
    · have := f.hidden_pos
      omega
    · exact canonical.least.trans canonical.greatest
    · simp

namespace Single

def IsTime (x : Single) : Prop := (∃ m u, x.read = .finite false m u) ∨ x.read = .infinite false

variable {x y w : Single}

theorem read_ofReading_infinite (negative : Bool) :
    (ofReading (.infinite negative)).read = .infinite negative := by
  cases negative <;> rfl

theorem isTime_zero : zero.IsTime := .inl ⟨_, _, rfl⟩

theorem IsTime.number (time : x.IsTime) : x.isNaN = false := by
  rcases time with ⟨m, u, read⟩ | read <;> rw [isNaN, read] <;> rfl

theorem IsTime.le_iff (hx : x.IsTime) (hy : y.IsTime) :
    x.le y = true ↔ x.bits.toNat ≤ y.bits.toNat := by
  rw [bits_eq_pack hx.number, bits_eq_pack hy.number, le]
  rcases hx with ⟨m, u, readX⟩ | readX <;> rcases hy with ⟨n, v, readY⟩ | readY <;>
    rw [readX, readY]
  · rw [Reading.le_finite_iff, Format.pack_le_iff (canonical_of_read readX) (canonical_of_read readY)]
    rfl
  · have below := Format.pack_lt_infinityBits Format.proper_binary32 (canonical_of_read readX)
    exact iff_of_true rfl below.le
  · have below := Format.pack_lt_infinityBits Format.proper_binary32 (canonical_of_read readY)
    exact iff_of_false Bool.false_ne_true below.not_ge
  · exact iff_of_true rfl le_rfl

theorem IsTime.rank_eq (time : x.IsTime) : x.rank = x.bits.toNat := by
  have below : x.bits.toNat ≤ binary32.infinityBits := by
    rw [bits_eq_pack time.number]
    rcases time with ⟨m, u, read⟩ | read <;> rw [read]
    · exact (Format.pack_lt_infinityBits Format.proper_binary32 (canonical_of_read read)).le
    · exact le_rfl
  have small : x.bits.toNat < 0x80000000 := below.trans_lt (by decide)
  rw [rank, if_pos small, Nat.mod_eq_of_lt small]

theorem isTime_or_negative (number : x.isNaN = false) :
    x.IsTime ∨ x.read.isNegative = true := by
  cases read : x.read with
  | nan =>
    rw [isNaN, read] at number
    cases number
  | infinite negative =>
    cases negative with
    | false => exact .inl (.inr read)
    | true => exact .inr rfl
  | finite negative m u =>
    cases negative with
    | false => exact .inl (.inl ⟨m, u, read⟩)
    | true => exact .inr rfl

theorem IsTime.le_of_isNegative (hw : w.IsTime) (number : x.isNaN = false)
    (negative : x.read.isNegative = true) : x.le w = true := by
  rw [le]
  cases read : x.read with
  | nan =>
    rw [isNaN, read] at number
    cases number
  | infinite sign =>
    rw [read] at negative
    cases negative
    rcases hw with ⟨n, v, readW⟩ | readW <;> rw [readW] <;> rfl
  | finite sign m u =>
    rw [read] at negative
    cases negative
    rcases hw with ⟨n, v, readW⟩ | readW <;> rw [readW]
    · rw [Reading.le_finite_iff]
      have below : (0 : ℚ) ≤ m * 2 ^ u := by positivity
      have above : (0 : ℚ) ≤ n * 2 ^ v := by positivity
      simp only [Reading.value, if_true, Bool.false_eq_true, if_false]
      linarith
    · rfl

theorem number_of_le (before : x.le y = true) : x.isNaN = false := by
  cases read : x.read with
  | nan =>
    rw [le, read] at before
    cases before
  | infinite | finite => rw [isNaN, read]; rfl

theorem le_trans_time (before : x.le y = true) (hy : y.IsTime) (hw : w.IsTime)
    (later : y.le w = true) : x.le w = true := by
  have number := number_of_le before
  rcases isTime_or_negative number with hx | negative
  · rw [hx.le_iff hy] at before
    rw [hy.le_iff hw] at later
    exact (hx.le_iff hw).mpr (before.trans later)
  · exact hw.le_of_isNegative number negative

/-- The order of the patterns goes before the order of the values. -/
theorem le_of_rank_le (number : x.isNaN = false) (hw : w.IsTime) (rank : x.rank ≤ w.rank) :
    x.le w = true := by
  rcases isTime_or_negative number with hx | negative
  · rw [hx.rank_eq, hw.rank_eq] at rank
    exact (hx.le_iff hw).mpr (by exact_mod_cast rank)
  · exact hw.le_of_isNegative number negative

/-! ### Sums of times -/

theorem isTime_of_zero_lt (positive : zero.lt x = true) : x.IsTime := by
  rw [lt] at positive
  have zero' : zero.read = .finite false 0 binary32.leastUnit := rfl
  rw [zero'] at positive
  cases read : x.read with
  | nan =>
    rw [read] at positive
    cases positive
  | infinite negative =>
    cases negative with
    | false => exact .inr read
    | true =>
      rw [read] at positive
      cases positive
  | finite negative m u =>
    cases negative with
    | false => exact .inl ⟨m, u, read⟩
    | true =>
      rw [read, Reading.lt_finite_iff] at positive
      have below : (0 : ℚ) ≤ m * 2 ^ u := by positivity
      simp only [Reading.value, if_true, Bool.false_eq_true, if_false] at positive
      push_cast at positive
      linarith

theorem isTime_orZero (x : Single) : x.orZero.IsTime := by
  unfold orZero
  split
  · rename_i positive
    exact isTime_of_zero_lt positive
  · exact isTime_zero

/-- A sum of times is a time that is not before the first. -/
theorem IsTime.add (hx : x.IsTime) (hy : y.IsTime) :
    (x.add y).IsTime ∧ x.le (x.add y) = true := by
  have infinite (sum : binary32.add x.read y.read = .infinite false) :
      (x.add y).IsTime ∧ x.le (x.add y) = true := by
    have read : (x.add y).read = .infinite false := by
      rw [Single.add, sum, read_ofReading_infinite]
    refine ⟨.inr read, ?_⟩
    rw [le, read]
    rcases hx with ⟨m, u, readX⟩ | readX <;> rw [readX] <;> rfl
  rcases hx with ⟨m, u, readX⟩ | readX
  · rcases hy with ⟨n, v, readY⟩ | readY
    · have canonical := canonical_of_read readX
      have spec := Format.add_finite Format.proper_binary32 (n := n) (v := v) canonical
      rw [← readX, ← readY] at spec
      rcases spec with sum | ⟨k, w, sum, kept, above⟩
      · exact infinite sum
      · have read : (x.add y).read = .finite false k w := by
          rw [Single.add, sum, read_ofReading_finite false kept]
        refine ⟨.inl ⟨k, w, read⟩, ?_⟩
        rw [le, read, readX, Reading.le_finite_iff]
        exact above
    · exact infinite (by rw [readX, readY]; rfl)
  · rcases hy with ⟨n, v, readY⟩ | readY
    · exact infinite (by rw [readX, readY]; rfl)
    · exact infinite (by rw [readX, readY]; rfl)

end Single

end EntityScripting.Number
