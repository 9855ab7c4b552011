import EntityScripting.Number.Decimal
import Mathlib.Algebra.Order.Field.Power
import Mathlib.Data.Rat.Floor
import Mathlib.Tactic.FieldSimp
import Mathlib.Tactic.Linarith
import Mathlib.Tactic.Positivity
import Mathlib.Tactic.Ring

/-!
# Rounding to a format

What `nearest` does to a ratio, in exact rational arithmetic: it rounds to an integer in the unit of
the ratio's size. `nearest_eq` says which ratios a value of the format is the nearest value of,
`nearest_spec` that rounding keeps a ratio above every value of the format that it is above.
-/

namespace EntityScripting.Number

theorem pow2_pos (e : Int) : 0 < pow2 e := by
  simp [pow2, Nat.one_shiftLeft]

theorem pow10_pos (e : Int) : 0 < pow10 e := Nat.pow_pos (by decide)

theorem pow2_div (e : Int) : (pow2 e : ℚ) / pow2 (-e) = 2 ^ e := by
  rcases Int.le_total 0 e with up | down
  · obtain ⟨n, rfl⟩ := Int.eq_ofNat_of_zero_le up
    simp [pow2, Nat.one_shiftLeft]
  · obtain ⟨n, rfl⟩ := Int.exists_eq_neg_ofNat down
    simp [pow2, Nat.one_shiftLeft]

theorem pow2_cast (e : Int) : (pow2 e : ℚ) = 2 ^ e * pow2 (-e) := by
  have := pow2_pos (-e)
  rw [← pow2_div]
  field_simp

theorem ratio_scaled (num den : Nat) (u : Int) :
    ((num * pow2 (-u) : Nat) : ℚ) / (den * pow2 u : Nat) = num / den / 2 ^ u := by
  have up := pow2_pos u
  have down := pow2_pos (-u)
  push_cast
  rw [pow2_cast u]
  field_simp

theorem ratio_eq (m : Nat) (u : Int) : ((m * pow2 u : Nat) : ℚ) / (pow2 (-u) : Nat) = m * 2 ^ u := by
  push_cast
  rw [mul_div_assoc, pow2_div]

/-! ### Rounding to an integer -/

theorem le_roundHalfEven {num den k : Nat} (hd : 0 < den) (below : k * den ≤ num) :
    k ≤ roundHalfEven num den := by
  have floor : k ≤ num / den := (Nat.le_div_iff_mul_le hd).mpr below
  unfold roundHalfEven
  dsimp only
  split_ifs <;> omega

theorem roundHalfEven_le {num den k : Nat} (hd : 0 < den) (above : num ≤ k * den) :
    roundHalfEven num den ≤ k := by
  have split := Nat.div_add_mod num den
  have small := Nat.mod_lt num hd
  have floor : num / den ≤ k := Nat.div_le_of_le_mul (by rwa [Nat.mul_comm] at above)
  rcases Nat.lt_or_ge (num / den) k with less | more
  · unfold roundHalfEven
    dsimp only
    split_ifs <;> omega
  · have exact : num % den = 0 := by
      have : num / den = k := by omega
      rw [this, Nat.mul_comm] at split
      omega
    unfold roundHalfEven
    simp only [exact, Nat.mul_zero, hd, if_true]
    exact floor

/-- The rounded quotient is the integer that is at most a half away, and even at a half. -/
theorem roundHalfEven_eq {num den n : Nat} (hd : 0 < den)
    (lower : (n : ℚ) ≤ num / den + 1 / 2) (upper : (num / den : ℚ) ≤ n + 1 / 2)
    (tie : n % 2 = 0 ∨ ((n : ℚ) < num / den + 1 / 2 ∧ (num / den : ℚ) < n + 1 / 2)) :
    roundHalfEven num den = n := by
  have hd' : (0 : ℚ) < den := by exact_mod_cast hd
  have ratio : (num : ℚ) = num / den * den := by field_simp
  have lower' : 2 * n * den ≤ 2 * num + den := by
    have : (2 * n * den : ℚ) ≤ 2 * num + den := by nlinarith
    exact_mod_cast this
  have upper' : 2 * num ≤ 2 * n * den + den := by
    have : (2 * num : ℚ) ≤ 2 * n * den + den := by nlinarith
    exact_mod_cast this
  have tie' : n % 2 = 0 ∨ (2 * n * den < 2 * num + den ∧ 2 * num < 2 * n * den + den) := by
    refine tie.imp_right fun ⟨lower, upper⟩ => ⟨?_, ?_⟩
    · have : (2 * n * den : ℚ) < 2 * num + den := by nlinarith
      exact_mod_cast this
    · have : (2 * num : ℚ) < 2 * n * den + den := by nlinarith
      exact_mod_cast this
  have split := Nat.div_add_mod num den
  have small := Nat.mod_lt num hd
  have cases : n = num / den ∨ n = num / den + 1 := by
    have least : num / den ≤ n := by
      by_contra less
      have : (n + 1) * den ≤ num / den * den := Nat.mul_le_mul_right den (by omega)
      rw [Nat.add_mul, Nat.mul_comm (num / den)] at this
      rw [Nat.mul_assoc] at upper'
      omega
    have most : n ≤ num / den + 1 := by
      by_contra more
      have : (num / den + 2) * den ≤ n * den := Nat.mul_le_mul_right den (by omega)
      rw [Nat.add_mul, Nat.mul_comm (num / den)] at this
      rw [Nat.mul_assoc] at lower'
      omega
    omega
  unfold roundHalfEven
  dsimp only
  rw [Nat.mul_assoc] at lower' upper' tie'
  rcases cases with rfl | rfl
  · rw [Nat.mul_comm (num / den)] at lower' upper' tie'
    split_ifs <;> omega
  · rw [Nat.add_mul, Nat.mul_comm (num / den)] at lower' upper' tie'
    split_ifs <;> omega

theorem zpow_log2_le {n : Nat} (pos : 0 < n) : (2 : ℚ) ^ (n.log2 : Int) ≤ n := by
  exact_mod_cast Nat.log2_self_le pos.ne'

theorem lt_zpow_log2 (n : Nat) : (n : ℚ) < 2 ^ ((n.log2 : Int) + 1) := by
  exact_mod_cast Nat.lt_log2_self (n := n)

theorem floorLog2_spec {num den : Nat} (hn : 0 < num) (hd : 0 < den) :
    (2 : ℚ) ^ floorLog2 num den ≤ num / den ∧
      (num / den : ℚ) < 2 ^ (floorLog2 num den + 1) := by
  have hd' : (0 : ℚ) < den := by exact_mod_cast hd
  have reaches (e : Int) : den * pow2 e ≤ num * pow2 (-e) ↔ (2 : ℚ) ^ e ≤ num / den := by
    have scale : (0 : ℚ) < pow2 (-e) := by exact_mod_cast pow2_pos (-e)
    rw [le_div_iff₀ hd', ← mul_le_mul_iff_left₀ scale, ← Nat.cast_le (α := ℚ)]
    push_cast
    rw [pow2_cast e]
    constructor <;> intro h <;> linarith
  -- The logarithms of numerator and denominator leave two candidates.
  have above : (num / den : ℚ) < 2 ^ ((num.log2 : Int) - den.log2 + 1) := by
    rw [div_lt_iff₀ hd']
    calc (num : ℚ) < 2 ^ ((num.log2 : Int) + 1) := lt_zpow_log2 num
      _ = 2 ^ ((num.log2 : Int) - den.log2 + 1) * 2 ^ (den.log2 : Int) := by
        rw [← zpow_add₀ two_ne_zero]; congr 1; ring
      _ ≤ _ := by gcongr; exact zpow_log2_le hd
  have below : (2 : ℚ) ^ ((num.log2 : Int) - den.log2 - 1) ≤ num / den := by
    rw [le_div_iff₀ hd']
    calc (2 : ℚ) ^ ((num.log2 : Int) - den.log2 - 1) * den
        ≤ 2 ^ ((num.log2 : Int) - den.log2 - 1) * 2 ^ ((den.log2 : Int) + 1) := by
          gcongr; exact (lt_zpow_log2 den).le
      _ = 2 ^ (num.log2 : Int) := by rw [← zpow_add₀ two_ne_zero]; congr 1; ring
      _ ≤ num := zpow_log2_le hn
  unfold floorLog2
  dsimp only
  split
  · rename_i h
    exact ⟨(reaches _).mp h, above⟩
  · rename_i h
    exact ⟨below, by rw [sub_add_cancel]; exact not_le.mp (mt (reaches _).mpr h)⟩

theorem floorLog2_eq {num den : Nat} (hn : 0 < num) (hd : 0 < den) {e : Int}
    (lower : (2 : ℚ) ^ e ≤ num / den) (upper : (num / den : ℚ) < 2 ^ (e + 1)) :
    floorLog2 num den = e := by
  obtain ⟨least, greatest⟩ := floorLog2_spec hn hd
  have one : (1 : ℚ) < 2 := one_lt_two
  have := (zpow_lt_zpow_iff_right₀ one).mp (least.trans_lt upper)
  have := (zpow_lt_zpow_iff_right₀ one).mp (lower.trans_lt greatest)
  omega

/-! ### Values of a format -/

namespace Format

/-- A format with more than one kind of exponent, and no larger than the one of 64 bits. -/
structure Proper (f : Format) : Prop where
  two_le_precision : 2 ≤ f.precision
  precision_le : f.precision ≤ 53
  two_le_exponentBits : 2 ≤ f.exponentBits
  exponentBits_le : f.exponentBits ≤ 11

theorem proper_binary32 : binary32.Proper := by constructor <;> decide

theorem proper_binary64 : binary64.Proper := by constructor <;> decide

structure Canonical (f : Format) (m : Nat) (u : Int) : Prop where
  bounded : m < 2 * f.hidden
  least : f.leastUnit ≤ u
  greatest : u ≤ f.greatestUnit
  leading : f.hidden ≤ m ∨ u = f.leastUnit

/-- How far below `m · 2 ^ u` the values reach whose nearest value it is. The values below the least
significand with a leading one lie closer together. -/
def gapBelow (f : Format) (m : Nat) (u : Int) : ℚ :=
  if m = f.hidden ∧ f.leastUnit < u then 2 ^ u / 4 else 2 ^ u / 2

/-- The values whose nearest value in the format is `m · 2 ^ u`; those at an end only if `m` is
even. -/
def Nearby (f : Format) (m : Nat) (u : Int) (q : ℚ) : Prop :=
  if m % 2 = 0 then q ≤ m * 2 ^ u + 2 ^ u / 2 ∧ m * 2 ^ u ≤ q + f.gapBelow m u
  else q < m * 2 ^ u + 2 ^ u / 2 ∧ m * 2 ^ u < q + f.gapBelow m u

theorem hidden_eq (f : Format) : f.hidden = 2 ^ (f.precision - 1) := by
  simp [hidden, Nat.one_shiftLeft]

theorem hidden_pos (f : Format) : 0 < f.hidden := by
  rw [hidden_eq]
  positivity

theorem cast_hidden {f : Format} (proper : f.Proper) :
    (f.hidden : ℚ) = 2 ^ ((f.precision : Int) - 1) := by
  have := proper.two_le_precision
  rw [hidden_eq]
  push_cast
  rw [← zpow_natCast]
  congr 1
  omega

theorem hidden_even {f : Format} (proper : f.Proper) : f.hidden % 2 = 0 := by
  have := proper.two_le_precision
  rw [hidden_eq, show f.precision - 1 = f.precision - 2 + 1 by omega, pow_succ]
  omega

theorem Nearby.upper {f : Format} {m : Nat} {u : Int} {q : ℚ} (near : f.Nearby m u q) :
    q ≤ m * 2 ^ u + 2 ^ u / 2 := by
  unfold Nearby at near
  split_ifs at near
  · exact near.1
  · exact near.1.le

theorem Nearby.lower {f : Format} {m : Nat} {u : Int} {q : ℚ} (near : f.Nearby m u q) :
    m * 2 ^ u ≤ q + f.gapBelow m u := by
  unfold Nearby at near
  split_ifs at near
  · exact near.2
  · exact near.2.le

theorem gapBelow_le (f : Format) (m : Nat) (u : Int) : f.gapBelow m u ≤ 2 ^ u / 2 := by
  have := zpow_pos (two_pos (α := ℚ)) u
  unfold gapBelow
  split_ifs <;> linarith

theorem gapBelow_pos (f : Format) (m : Nat) (u : Int) : 0 < f.gapBelow m u := by
  have two := zpow_pos (two_pos (α := ℚ)) u
  unfold gapBelow
  split_ifs <;> positivity

theorem hidden_mul_zpow {f : Format} (proper : f.Proper) (e : Int) :
    (f.hidden : ℚ) * 2 ^ e = 2 ^ ((f.precision : Int) - 1 + e) := by
  rw [cast_hidden proper, ← zpow_add₀ two_ne_zero]

def rounded (f : Format) (num den : Nat) : Nat :=
  roundHalfEven (num * pow2 (-f.unitOf num den)) (den * pow2 (f.unitOf num den))

theorem nearest_of_rounded (f : Format) (negative : Bool) {num den : Nat} (hn : 0 < num) :
    f.nearest negative num den =
      if f.rounded num den = 2 * f.hidden then
        if f.greatestUnit < f.unitOf num den + 1 then .infinite negative
        else .finite negative f.hidden (f.unitOf num den + 1)
      else if f.greatestUnit < f.unitOf num den then .infinite negative
      else .finite negative (f.rounded num den) (f.unitOf num den) := by
  unfold nearest rounded
  rw [if_neg hn.ne']
  dsimp only
  split <;> rfl

theorem rounded_eq {f : Format} {num den n : Nat} {u : Int} (hd : 0 < den)
    (unit : f.unitOf num den = u) (lower : (n : ℚ) * 2 ^ u ≤ num / den + 2 ^ u / 2)
    (upper : (num / den : ℚ) ≤ n * 2 ^ u + 2 ^ u / 2)
    (tie : n % 2 = 0 ∨
      (n : ℚ) * 2 ^ u < num / den + 2 ^ u / 2 ∧ (num / den : ℚ) < n * 2 ^ u + 2 ^ u / 2) :
    f.rounded num den = n := by
  have hu := zpow_pos (two_pos (α := ℚ)) u
  unfold rounded
  rw [unit]
  refine roundHalfEven_eq (Nat.mul_pos hd (pow2_pos u)) ?_ ?_ (tie.imp_right ?_)
  · rw [ratio_scaled, ← sub_le_iff_le_add, le_div_iff₀ hu]
    linarith
  · rw [ratio_scaled, div_le_iff₀ hu]
    linarith
  · rintro ⟨lower, upper⟩
    rw [ratio_scaled, ← sub_lt_iff_lt_add, lt_div_iff₀ hu, div_lt_iff₀ hu]
    exact ⟨by linarith, by linarith⟩

/-- The unit of a ratio is fine enough for all its digits, and no finer unless it is the least. -/
theorem unitOf_spec {f : Format} (proper : f.Proper) {num den : Nat} (hn : 0 < num) (hd : 0 < den) :
    f.leastUnit ≤ f.unitOf num den ∧
      (num / den : ℚ) < (2 * f.hidden : Nat) * 2 ^ f.unitOf num den ∧
      (f.leastUnit < f.unitOf num den → (f.hidden : ℚ) * 2 ^ f.unitOf num den ≤ num / den) := by
  obtain ⟨low, high⟩ := floorLog2_spec hn hd
  refine ⟨le_max_right _ _, ?_, fun higher => ?_⟩
  · have wide : floorLog2 num den + 1 ≤ f.precision - 1 + (f.unitOf num den + 1) := by
      unfold unitOf
      omega
    calc (num / den : ℚ) < 2 ^ (floorLog2 num den + 1) := high
      _ ≤ 2 ^ ((f.precision : Int) - 1 + (f.unitOf num den + 1)) :=
        zpow_le_zpow_right₀ one_le_two wide
      _ = (2 * f.hidden : Nat) * 2 ^ f.unitOf num den := by
        rw [← hidden_mul_zpow proper, zpow_add_one₀ two_ne_zero]
        push_cast
        ring
  · have order : floorLog2 num den = f.precision - 1 + f.unitOf num den := by
      unfold unitOf at *
      omega
    rwa [order, ← hidden_mul_zpow proper] at low

theorem unitOf_eq {f : Format} (proper : f.Proper) {num den : Nat} {u : Int} (hn : 0 < num)
    (hd : 0 < den) (least : f.leastUnit ≤ u)
    (lower : (f.hidden : ℚ) * 2 ^ u ≤ num / den ∨ u = f.leastUnit)
    (upper : (num / den : ℚ) < (2 * f.hidden : Nat) * 2 ^ u) : f.unitOf num den = u := by
  have double : ((2 * f.hidden : Nat) : ℚ) * 2 ^ u = 2 ^ ((f.precision : Int) - 1 + u + 1) := by
    rw [add_assoc, ← hidden_mul_zpow proper, zpow_add_one₀ two_ne_zero]
    push_cast
    ring
  rw [double] at upper
  unfold unitOf
  rcases lower with high | low
  · rw [hidden_mul_zpow proper] at high
    rw [floorLog2_eq hn hd high upper]
    omega
  · have order := (zpow_lt_zpow_iff_right₀ (one_lt_two (α := ℚ))).mp
      ((floorLog2_spec hn hd).1.trans_lt upper)
    omega

/-! ### The nearest value -/

variable {f : Format} {m num den : Nat} {u : Int}

theorem nearest_of_unitOf (negative : Bool) (canonical : f.Canonical m u) (hn : 0 < num)
    (hd : 0 < den) (near : f.Nearby m u (num / den)) (unit : f.unitOf num den = u) :
    f.nearest negative num den = .finite negative m u := by
  have gap := f.gapBelow_le m u
  have significand : f.rounded num den = m := by
    refine rounded_eq hd unit (near.lower.trans (add_le_add_right gap _)) near.upper ?_
    unfold Nearby at near
    split_ifs at near with even
    · exact .inl even
    · exact .inr ⟨near.2.trans_le (add_le_add_right gap _), near.1⟩
  rw [nearest_of_rounded f negative hn, significand, if_neg canonical.bounded.ne, unit,
    if_neg (not_lt.mpr canonical.greatest)]

/-- Just below a power of two the values lie closer together, and a ratio is rounded in the smaller
unit there. -/
theorem nearest_of_lt (proper : f.Proper) (negative : Bool) (canonical : f.Canonical m u)
    (hn : 0 < num) (hd : 0 < den) (near : f.Nearby m u (num / den)) (least : f.leastUnit < u)
    (small : (num / den : ℚ) < f.hidden * 2 ^ u) :
    f.nearest negative num den = .finite negative m u := by
  have hu := zpow_pos (two_pos (α := ℚ)) u
  have hu' := zpow_pos (two_pos (α := ℚ)) (u - 1)
  have half : (2 : ℚ) ^ u = 2 * 2 ^ (u - 1) := by
    rw [mul_comm, ← zpow_add_one₀ two_ne_zero, sub_add_cancel]
  have two : (2 : ℚ) ≤ f.hidden := by
    have := hidden_even proper
    have := f.hidden_pos
    exact_mod_cast (show 2 ≤ f.hidden by omega)
  have lower := near.lower
  have first : m = f.hidden := by
    have leading := canonical.leading.resolve_right least.ne'
    have gap := f.gapBelow_le m u
    by_contra other
    have : (f.hidden : ℚ) + 1 ≤ m := by exact_mod_cast (show f.hidden + 1 ≤ m by omega)
    nlinarith
  rw [show f.gapBelow m u = 2 ^ u / 4 from if_pos ⟨first, least⟩, first] at lower
  rw [half] at lower small
  have unit : f.unitOf num den = u - 1 := by
    refine unitOf_eq proper hn hd (by omega) (.inl ?_) ?_
    · nlinarith
    · push_cast
      linarith
  have significand : f.rounded num den = 2 * f.hidden := by
    refine rounded_eq hd unit ?_ ?_ (.inl (by omega))
    · push_cast
      linarith
    · push_cast
      linarith
  rw [nearest_of_rounded f negative hn, significand, if_pos rfl, unit, sub_add_cancel,
    if_neg (not_lt.mpr canonical.greatest), first]

/-- A ratio has a value of the format as its nearest if it lies near it. -/
theorem nearest_eq (proper : f.Proper) (negative : Bool) (canonical : f.Canonical m u)
    (hn : 0 < num) (hd : 0 < den) (near : f.Nearby m u (num / den)) :
    f.nearest negative num den = .finite negative m u := by
  by_cases same : (f.hidden : ℚ) * 2 ^ u ≤ num / den ∨ u = f.leastUnit
  · have hu := zpow_pos (two_pos (α := ℚ)) u
    have bounded : (m : ℚ) + 1 ≤ (2 * f.hidden : Nat) := by exact_mod_cast canonical.bounded
    have below : (num / den : ℚ) < (2 * f.hidden : Nat) * 2 ^ u := by
      have upper := near.upper
      nlinarith
    exact nearest_of_unitOf negative canonical hn hd near
      (unitOf_eq proper hn hd canonical.least same below)
  · obtain ⟨small, above⟩ := not_or.mp same
    exact nearest_of_lt proper negative canonical hn hd near
      (lt_of_le_of_ne canonical.least (Ne.symm above)) (not_le.mp small)

theorem le_rounded {k : Nat} (hd : 0 < den)
    (fits : (k : ℚ) * 2 ^ f.unitOf num den ≤ num / den) : k ≤ f.rounded num den := by
  have den' : 0 < den * pow2 (f.unitOf num den) := Nat.mul_pos hd (pow2_pos _)
  have den'' : (0 : ℚ) < (den * pow2 (f.unitOf num den) : Nat) := by exact_mod_cast den'
  have hu := zpow_pos (two_pos (α := ℚ)) (f.unitOf num den)
  refine le_roundHalfEven den' ?_
  rw [← le_div_iff₀ hu, ← ratio_scaled, le_div_iff₀ den''] at fits
  exact_mod_cast fits

theorem rounded_le {k : Nat} (hd : 0 < den)
    (covers : (num / den : ℚ) ≤ k * 2 ^ f.unitOf num den) : f.rounded num den ≤ k := by
  have den' : 0 < den * pow2 (f.unitOf num den) := Nat.mul_pos hd (pow2_pos _)
  have den'' : (0 : ℚ) < (den * pow2 (f.unitOf num den) : Nat) := by exact_mod_cast den'
  have hu := zpow_pos (two_pos (α := ℚ)) (f.unitOf num den)
  refine roundHalfEven_le den' ?_
  rw [← div_le_iff₀ hu, ← ratio_scaled, div_le_iff₀ den''] at covers
  exact_mod_cast covers

/-- Rounding keeps a ratio above every value of the format that it is above. -/
theorem le_rounded_of_canonical (proper : f.Proper) (hn : 0 < num) (hd : 0 < den) {k : Nat} {v : Int}
    (canonical : f.Canonical k v) (fits : (k : ℚ) * 2 ^ v ≤ num / den) :
    (k : ℚ) * 2 ^ v ≤ f.rounded num den * 2 ^ f.unitOf num den := by
  obtain ⟨-, -, leading⟩ := unitOf_spec proper hn hd
  have significand (n : Nat) (fits : (n : ℚ) * 2 ^ f.unitOf num den ≤ num / den) :
      n ≤ f.rounded num den := le_rounded hd fits
  generalize f.unitOf num den = w at *
  generalize f.rounded num den = r at *
  have hw := zpow_pos (two_pos (α := ℚ)) w
  rcases Int.lt_or_le v w with lower | higher
  · -- The ratio has all the leading bits that a significand can have.
    have small : (k : ℚ) ≤ 2 * f.hidden := by exact_mod_cast canonical.bounded.le
    have enough : (f.hidden : ℚ) ≤ r := by
      exact_mod_cast significand _ (leading (canonical.least.trans_lt lower))
    have half : (2 : ℚ) ^ w = 2 * 2 ^ (w - 1) := by
      rw [mul_comm, ← zpow_add_one₀ two_ne_zero, sub_add_cancel]
    calc (k : ℚ) * 2 ^ v ≤ 2 * f.hidden * 2 ^ (w - 1) := by
          gcongr
          · exact one_le_two
          · omega
      _ = f.hidden * 2 ^ w := by rw [half]; ring
      _ ≤ r * 2 ^ w := by gcongr
  · obtain ⟨n, rfl⟩ := Int.le.dest higher
    rw [zpow_add₀ two_ne_zero, zpow_natCast] at fits ⊢
    have whole : k * 2 ^ n ≤ r := significand _ (by push_cast; linarith)
    have whole' : (k : ℚ) * 2 ^ n ≤ r := by exact_mod_cast whole
    nlinarith

/-- The nearest value of a ratio, unless it is out of range, is not below any value of the format
that the ratio is not below. -/
theorem nearest_spec (proper : f.Proper) (negative : Bool) (hn : 0 < num) (hd : 0 < den) :
    f.nearest negative num den = .infinite negative ∨
      ∃ m u, f.nearest negative num den = .finite negative m u ∧ f.Canonical m u ∧
        ∀ k v, f.Canonical k v → (k : ℚ) * 2 ^ v ≤ num / den → (k : ℚ) * 2 ^ v ≤ m * 2 ^ u := by
  obtain ⟨least, below, leading⟩ := unitOf_spec proper hn hd
  have most := rounded_le hd below.le
  have full : f.leastUnit < f.unitOf num den → f.hidden ≤ f.rounded num den :=
    fun higher => le_rounded hd (leading higher)
  have monotone (k : Nat) (v : Int) (canonical : f.Canonical k v) :=
    le_rounded_of_canonical proper hn hd canonical
  rw [nearest_of_rounded f negative hn]
  split_ifs with carry out out
  · exact .inl rfl
  · have canonical : f.Canonical f.hidden (f.unitOf num den + 1) :=
      ⟨by have := f.hidden_pos; omega, by omega, by omega, .inl le_rfl⟩
    refine .inr ⟨_, _, rfl, canonical, fun k v other fits => (monotone k v other fits).trans_eq ?_⟩
    rw [carry, zpow_add_one₀ two_ne_zero]
    push_cast
    ring
  · exact .inl rfl
  · refine .inr ⟨_, _, rfl, ⟨by omega, least, by omega, ?_⟩, monotone⟩
    rcases Int.lt_or_eq_of_le least with higher | same
    · exact .inl (full higher)
    · exact .inr same.symm

end Format

end EntityScripting.Number
