import EntityScripting.Proofs.Number.Rounding

/-!
# Decimals that read back

The shortest decimal of a value lies among the ratios whose nearest value it is, so reading the
decimal gives the value again (`toReading_shortest`). The search for it never runs out: nineteen
digits tell every value from its neighbours.
-/

namespace EntityScripting.Number

theorem pow10_div (e : Int) : (pow10 e : ℚ) / pow10 (-e) = 10 ^ e := by
  rcases Int.le_total 0 e with up | down
  · obtain ⟨n, rfl⟩ := Int.eq_ofNat_of_zero_le up
    simp [pow10]
  · obtain ⟨n, rfl⟩ := Int.exists_eq_neg_ofNat down
    simp [pow10]

theorem pow10_cast (e : Int) : (pow10 e : ℚ) = 10 ^ e * pow10 (-e) := by
  have := pow10_pos (-e)
  rw [← pow10_div]
  field_simp

theorem two_pow_le_ten_pow : 2 ^ 100000 ≤ 10 ^ 30103 := by decide +kernel

theorem ten_pow_le_two_pow : 10 ^ 30103 ≤ 2 ^ 100001 := by decide +kernel

/-- The decimal order that is guessed from a binary one is too great by less than a factor of two. -/
theorem ten_zpow_le {e g : Int} (small : e ≤ 100000) (guess : 100000 * g ≤ 30103 * e) :
    (10 : ℚ) ^ g ≤ 2 ^ (e + 1) := by
  have ten : (1 : ℚ) ≤ 10 := by norm_num
  have scaled : ((10 : ℚ) ^ g) ^ 100000 ≤ ((2 : ℚ) ^ (e + 1)) ^ 100000 := by
    calc ((10 : ℚ) ^ g) ^ 100000 = 10 ^ (g * (100000 : Nat)) := by rw [zpow_mul, zpow_natCast]
      _ ≤ 10 ^ ((30103 : Nat) * e) := zpow_le_zpow_right₀ ten (by push_cast; omega)
      _ = ((10 : ℚ) ^ 30103) ^ e := by rw [zpow_mul, zpow_natCast]
      _ ≤ 2 ^ ((100000 : Nat) * (e + 1)) := ?_
      _ = ((2 : ℚ) ^ (e + 1)) ^ 100000 := by rw [mul_comm, zpow_mul, zpow_natCast]
    rcases Int.le_total 0 e with up | down
    · have power : (10 : ℚ) ^ 30103 ≤ 2 ^ 100001 := by exact_mod_cast ten_pow_le_two_pow
      calc ((10 : ℚ) ^ 30103) ^ e ≤ ((2 : ℚ) ^ 100001) ^ e :=
            zpow_le_zpow_left₀ up (by positivity) power
        _ = 2 ^ ((100001 : Nat) * e) := by rw [zpow_mul, zpow_natCast]
        _ ≤ _ := zpow_le_zpow_right₀ one_le_two (by push_cast; omega)
    · obtain ⟨n, rfl⟩ := Int.exists_eq_neg_ofNat down
      have power : (2 : ℚ) ^ 100000 ≤ 10 ^ 30103 := by exact_mod_cast two_pow_le_ten_pow
      calc ((10 : ℚ) ^ 30103) ^ (-(n : Int)) ≤ ((2 : ℚ) ^ 100000) ^ (-(n : Int)) := by
            rw [zpow_neg, zpow_neg, zpow_natCast, zpow_natCast]
            exact inv_anti₀ (by positivity) (pow_le_pow_left₀ (by positivity) power n)
        _ = 2 ^ ((100000 : Nat) * -(n : Int)) := by rw [zpow_mul, zpow_natCast]
        _ ≤ _ := zpow_le_zpow_right₀ one_le_two (by push_cast; omega)
  exact (pow_le_pow_iff_left₀ (by positivity) (by positivity) (by decide)).mp scaled

namespace Decimal

open Format

variable {f : Format} {tie : Tie} {m : Nat} {u k : Int}

def value (d : Decimal) : ℚ := d.digits * 10 ^ d.exponent

theorem value_eq_div (d : Decimal) :
    d.value = (d.digits * pow10 d.exponent : Nat) / (pow10 (-d.exponent) : Nat) := by
  push_cast
  rw [value, ← pow10_div, mul_div_assoc]

theorem dropZeros_spec (fuel : Nat) (d : Decimal) :
    (dropZeros fuel d).value = d.value ∧ d.exponent ≤ (dropZeros fuel d).exponent := by
  induction fuel generalizing d with
  | zero => exact ⟨rfl, le_rfl⟩
  | succ fuel ih =>
    unfold dropZeros
    split
    · rename_i zero
      obtain ⟨same, more⟩ := ih ⟨d.digits / 10, d.exponent + 1⟩
      refine ⟨same.trans ?_, by dsimp only at more; omega⟩
      have whole : (d.digits : ℚ) = (d.digits / 10 : Nat) * 10 := by
        exact_mod_cast (show d.digits = d.digits / 10 * 10 by omega)
      rw [value, value, zpow_add_one₀ (by norm_num), whole]
      push_cast
      ring
    · exact ⟨rfl, le_rfl⟩

/-! ### The search -/

theorem readsBack_iff (f : Format) (m : Nat) (u : Int) (c : Nat) (k : Int) :
    readsBack f m u c k = true ↔ f.Nearby m u (c * 10 ^ k) := by
  have one := pow2_pos (-u)
  have ten := pow10_pos (-k)
  have scale : (0 : ℚ) < 4 * pow10 (-k) * pow2 (-u) := by positivity
  have candidate : ((c * pow10 k * pow2 (-u) * 4 : Nat) : ℚ) =
      c * 10 ^ k * (4 * pow10 (-k) * pow2 (-u)) := by
    push_cast
    rw [pow10_cast k]
    ring
  have middle : ((m * pow2 u * (pow10 (-k) * 4) : Nat) : ℚ) =
      m * 2 ^ u * (4 * pow10 (-k) * pow2 (-u)) := by
    push_cast
    rw [pow2_cast u]
    ring
  have half : pow2 u * (pow10 (-k) * 4) / 2 = pow2 u * pow10 (-k) * 2 := by
    rw [show pow2 u * (pow10 (-k) * 4) = pow2 u * pow10 (-k) * 2 * 2 by ring]
    omega
  have above : ((pow2 u * (pow10 (-k) * 4) / 2 : Nat) : ℚ) =
      2 ^ u / 2 * (4 * pow10 (-k) * pow2 (-u)) := by
    rw [half]
    push_cast
    rw [pow2_cast u]
    ring
  have below : ((if m = f.hidden ∧ f.leastUnit < u then pow2 u * (pow10 (-k) * 4) / 2 / 2
      else pow2 u * (pow10 (-k) * 4) / 2 : Nat) : ℚ) =
      f.gapBelow m u * (4 * pow10 (-k) * pow2 (-u)) := by
    unfold gapBelow
    split_ifs
    · rw [half, Nat.mul_div_cancel _ (by decide)]
      push_cast
      rw [pow2_cast u]
      ring
    · exact above
  unfold readsBack Nearby
  dsimp only
  by_cases even : m % 2 = 0
  · rw [if_pos even, if_pos even, decide_eq_true_eq, ← Nat.cast_le (α := ℚ),
      ← Nat.cast_le (α := ℚ), Nat.cast_add, Nat.cast_add, candidate, middle, above, below,
      ← add_mul, ← add_mul, mul_le_mul_iff_left₀ scale, mul_le_mul_iff_left₀ scale]
  · rw [if_neg even, if_neg even, decide_eq_true_eq, ← Nat.cast_lt (α := ℚ),
      ← Nat.cast_lt (α := ℚ), Nat.cast_add, Nat.cast_add, candidate, middle, above, below,
      ← add_mul, ← add_mul, mul_lt_mul_iff_left₀ scale, mul_lt_mul_iff_left₀ scale]

theorem readsBack_of_atExponent? {c : Nat} (found : atExponent? f tie m u k = some c) :
    readsBack f m u c k = true := by
  unfold atExponent? at found
  dsimp only at found
  split at found
  · rename_i low high
    cases tie <;> dsimp only at found <;> split_ifs at found <;> cases found <;> assumption
  · cases found
    assumption
  · cases found
    assumption
  · cases found

/-- How many times `10 ^ k` goes into `m · 2 ^ u`. -/
def floorAt (m : Nat) (u k : Int) : Nat := m * pow2 u * pow10 (-k) / (pow2 (-u) * pow10 k)

theorem floorAt_spec (m : Nat) (u k : Int) :
    (floorAt m u k : ℚ) * 10 ^ k ≤ m * 2 ^ u ∧ (m * 2 ^ u : ℚ) < (floorAt m u k + 1 : Nat) * 10 ^ k := by
  have ten := zpow_pos (show (0 : ℚ) < 10 by norm_num) k
  have two' := pow2_pos (-u)
  have ten' := pow10_pos (-k)
  have positive : 0 < pow2 (-u) * pow10 k := Nat.mul_pos two' (pow10_pos k)
  have positive' : (0 : ℚ) < (pow2 (-u) * pow10 k : Nat) := by exact_mod_cast positive
  have ratio : ((m * pow2 u * pow10 (-k) : Nat) : ℚ) / (pow2 (-u) * pow10 k : Nat) =
      m * 2 ^ u / 10 ^ k := by
    push_cast
    rw [pow2_cast u, pow10_cast k]
    field_simp
  rw [← le_div_iff₀ ten, ← div_lt_iff₀ ten, ← ratio, le_div_iff₀ positive', div_lt_iff₀ positive']
  constructor
  · exact_mod_cast Nat.div_mul_le_self _ _
  · exact_mod_cast Nat.lt_mul_of_div_lt (Nat.lt_succ_self _) positive

theorem atExponent?_isSome
    (reads : readsBack f m u (floorAt m u k) k = true ∨
      readsBack f m u (floorAt m u k + 1) k = true) : (atExponent? f tie m u k).isSome := by
  unfold floorAt at reads
  unfold atExponent?
  dsimp only
  split
  · cases tie <;> dsimp only <;> split_ifs <;> rfl
  · rfl
  · rfl
  · simp_all

/-- On a grid that is fine enough the neighbour above the value reads back. -/
theorem atExponent?_isSome_of_fine (fine : (10 : ℚ) ^ k ≤ 2 ^ u / 4) :
    (atExponent? f tie m u k).isSome := by
  obtain ⟨low, high⟩ := floorAt_spec m u k
  have two := zpow_pos (two_pos (α := ℚ)) u
  have gap := f.gapBelow_pos m u
  refine atExponent?_isSome (.inr ?_)
  rw [readsBack_iff]
  unfold Nearby
  push_cast at high ⊢
  split_ifs
  · exact ⟨by linarith, by linarith⟩
  · exact ⟨by linarith, by linarith⟩

theorem atExponent?_isSome_of_eq {n : Nat} (exact : (m : ℚ) * 2 ^ u = n * 10 ^ k) :
    (atExponent? f tie m u k).isSome := by
  obtain ⟨low, high⟩ := floorAt_spec m u k
  have ten := zpow_pos (show (0 : ℚ) < 10 by norm_num) k
  have two := zpow_pos (two_pos (α := ℚ)) u
  have gap := f.gapBelow_pos m u
  have floor : floorAt m u k = n := by
    rw [exact] at low high
    have least : floorAt m u k ≤ n := by exact_mod_cast le_of_mul_le_mul_right low ten
    have greatest : n < floorAt m u k + 1 := by exact_mod_cast lt_of_mul_lt_mul_right high ten.le
    omega
  refine atExponent?_isSome (.inl ?_)
  rw [readsBack_iff, floor, ← exact]
  unfold Nearby
  split_ifs
  · exact ⟨by linarith, by linarith⟩
  · exact ⟨by linarith, by linarith⟩

/-- A search that meets a grid with a decimal that reads back ends there at the latest. -/
theorem search_spec (fuel : Nat) {j : Nat} (some : (atExponent? f tie m u (k - j)).isSome)
    (met : j < fuel) :
    f.Nearby m u (search f tie m u fuel k).value ∧ k - j ≤ (search f tie m u fuel k).exponent := by
  induction fuel generalizing k j with
  | zero => omega
  | succ fuel ih =>
    unfold search
    split
    · rename_i found
      exact ⟨(readsBack_iff f m u _ k).mp (readsBack_of_atExponent? found), by dsimp only; omega⟩
    · rename_i none
      cases j with
      | zero =>
        rw [Nat.cast_zero, sub_zero, none] at some
        cases some
      | succ j =>
        have next : k - (j + 1 : Nat) = k - 1 - j := by omega
        rw [next] at some ⊢
        exact ih some (by omega)

theorem ten_zpow_floorLog10_le {num den : Nat} (hn : 0 < num) (hd : 0 < den)
    (small : floorLog2 num den ≤ 100000) : (10 : ℚ) ^ floorLog10 num den ≤ num / den := by
  obtain ⟨order, -⟩ := floorLog2_spec hn hd
  have hd' : (0 : ℚ) < den := by exact_mod_cast hd
  have reaches (e : Int) : den * pow10 e ≤ num * pow10 (-e) ↔ (10 : ℚ) ^ e ≤ num / den := by
    have scale : (0 : ℚ) < pow10 (-e) := by exact_mod_cast pow10_pos (-e)
    rw [le_div_iff₀ hd', ← mul_le_mul_iff_left₀ scale, ← Nat.cast_le (α := ℚ)]
    push_cast
    rw [pow10_cast e]
    constructor <;> intro h <;> linarith
  have guess : 100000 * Int.fdiv (floorLog2 num den * 30103) 100000 ≤ 30103 * floorLog2 num den := by
    rw [Int.fdiv_eq_ediv_of_nonneg _ (by decide)]
    omega
  unfold floorLog10
  dsimp only
  generalize Int.fdiv (floorLog2 num den * 30103) 100000 = g at *
  split_ifs with less more
  · have high := ten_zpow_le small guess
    rw [zpow_add_one₀ two_ne_zero] at high
    rw [zpow_sub_one₀ (by norm_num)]
    have := zpow_pos (two_pos (α := ℚ)) (floorLog2 num den)
    linarith
  · exact (reaches _).mp more
  · exact (reaches _).mp (not_lt.mp less)

theorem floorLog10_nonneg {num den : Nat} (hn : 0 < num) (hd : 0 < den)
    (one : (1 : ℚ) ≤ num / den) : 0 ≤ floorLog10 num den := by
  obtain ⟨-, order⟩ := floorLog2_spec hn hd
  have nonneg : 0 ≤ floorLog2 num den := by
    have : (2 : ℚ) ^ (0 : Int) < 2 ^ (floorLog2 num den + 1) := by
      rw [zpow_zero]
      exact one.trans_lt order
    have := (zpow_lt_zpow_iff_right₀ (one_lt_two (α := ℚ))).mp this
    omega
  have guess : 0 ≤ Int.fdiv (floorLog2 num den * 30103) 100000 := by
    rw [Int.fdiv_eq_ediv_of_nonneg _ (by decide)]
    omega
  unfold floorLog10
  dsimp only
  split_ifs with less more
  · have positive : Int.fdiv (floorLog2 num den * 30103) 100000 ≠ 0 := by
      intro zero
      rw [zero] at less
      have hd' : (0 : ℚ) < den := by exact_mod_cast hd
      have whole : den ≤ num := by
        rw [le_div_iff₀ hd', one_mul] at one
        exact_mod_cast one
      simp only [pow10, neg_zero, Int.toNat_zero, Nat.pow_eq, pow_zero, mul_one] at less
      omega
    omega
  · omega
  · exact guess

theorem leastUnit_ge (proper : f.Proper) : -1074 ≤ f.leastUnit ∧ f.precision + f.greatestUnit ≤ 1024 := by
  have power : 1 <<< (f.exponentBits - 1) ≤ 1 <<< 10 := by
    rw [Nat.one_shiftLeft, Nat.one_shiftLeft]
    exact Nat.pow_le_pow_right (by decide) (by have := proper.exponentBits_le; omega)
  have := proper.precision_le
  simp only [leastUnit, greatestUnit, bias]
  omega

theorem cast_lt_of_canonical (proper : f.Proper) (canonical : f.Canonical m u) :
    (m : ℚ) * 2 ^ u < 2 ^ (f.precision + u) := by
  have bounded : (m : ℚ) < 2 * f.hidden := by exact_mod_cast canonical.bounded
  have two := zpow_pos (two_pos (α := ℚ)) u
  calc (m : ℚ) * 2 ^ u < 2 * f.hidden * 2 ^ u := by gcongr
    _ = 2 ^ (f.precision + u) := by
      rw [cast_hidden proper, ← zpow_one_add₀ two_ne_zero, ← zpow_add₀ two_ne_zero]
      congr 1
      ring

theorem lt_of_canonical (proper : f.Proper) (canonical : f.Canonical m u) :
    (m : ℚ) * 2 ^ u < 2 ^ (1024 : Int) := by
  refine (cast_lt_of_canonical proper canonical).trans_le (zpow_le_zpow_right₀ one_le_two ?_)
  have := (leastUnit_ge proper).2
  have := canonical.greatest
  omega

theorem floorLog10_spec (proper : f.Proper) (canonical : f.Canonical m u) (pos : 0 < m) :
    (10 : ℚ) ^ floorLog10 (m * pow2 u) (pow2 (-u)) ≤ m * 2 ^ u := by
  have hn : 0 < m * pow2 u := Nat.mul_pos pos (pow2_pos u)
  have hd := pow2_pos (-u)
  rw [← ratio_eq]
  refine ten_zpow_floorLog10_le hn hd ?_
  have order := (floorLog2_spec hn hd).1
  rw [ratio_eq] at order
  have := (zpow_lt_zpow_iff_right₀ (one_lt_two (α := ℚ))).mp
    (order.trans_lt (lt_of_canonical proper canonical))
  omega

/-- The shortest decimal of a value has the value as its nearest. -/
theorem nearby_shortest (tie : Tie) (proper : f.Proper) (canonical : f.Canonical m u) (pos : 0 < m) :
    f.Nearby m u (shortest f tie m u).value := by
  unfold shortest
  rw [if_neg pos.ne', (dropZeros_spec 20 _).1]
  refine (search_spec 20 (j := 19) (atExponent?_isSome_of_fine ?_) (by decide)).1
  have two := zpow_pos (two_pos (α := ℚ)) u
  have bounded : (m : ℚ) ≤ 2 ^ 53 := by
    have : 2 * f.hidden ≤ 2 ^ 53 := by
      have := proper.two_le_precision
      rw [hidden_eq, ← pow_succ']
      exact Nat.pow_le_pow_right (by decide) (by have := proper.precision_le; omega)
    exact_mod_cast canonical.bounded.le.trans this
  calc (10 : ℚ) ^ (floorLog10 (m * pow2 u) (pow2 (-u)) - (19 : Nat))
      = 10 ^ floorLog10 (m * pow2 u) (pow2 (-u)) / 10 ^ 19 := by
        rw [zpow_sub₀ (by norm_num), zpow_natCast]
    _ ≤ m * 2 ^ u / 10 ^ 19 := by
        gcongr
        exact floorLog10_spec proper canonical pos
    _ ≤ 2 ^ 53 * 2 ^ u / 10 ^ 19 := by gcongr
    _ ≤ 2 ^ u / 4 := by linarith

/-- The shortest decimal of an integer below `10 ^ 16` has no places below the units. -/
theorem exponent_shortest_nonneg (tie : Tie) (proper : f.Proper) (canonical : f.Canonical m u) {n : Nat}
    (integral : (m : ℚ) * 2 ^ u = n) (small : n < 10 ^ 16) :
    0 ≤ (shortest f tie m u).exponent := by
  unfold shortest
  split_ifs with zero
  · exact le_rfl
  have pos : 0 < m := Nat.pos_of_ne_zero zero
  have two := zpow_pos (two_pos (α := ℚ)) u
  have nonneg : 0 ≤ floorLog10 (m * pow2 u) (pow2 (-u)) := by
    refine floorLog10_nonneg (Nat.mul_pos pos (pow2_pos u)) (pow2_pos _) ?_
    rw [ratio_eq, integral]
    have positive : (0 : ℚ) < n := by
      rw [← integral]
      positivity
    exact_mod_cast positive
  have below : floorLog10 (m * pow2 u) (pow2 (-u)) < 16 := by
    have order := floorLog10_spec proper canonical pos
    rw [integral] at order
    have : (n : ℚ) < 10 ^ (16 : Int) := by exact_mod_cast small
    exact (zpow_lt_zpow_iff_right₀ (by norm_num)).mp (order.trans_lt this)
  refine le_trans ?_ (dropZeros_spec 20 _).2
  generalize floorLog10 (m * pow2 u) (pow2 (-u)) = k at *
  have units : k - (k.toNat : Nat) = 0 := by omega
  have found : (atExponent? f tie m u (k - k.toNat)).isSome := by
    rw [units]
    exact atExponent?_isSome_of_eq (n := n) (by rw [integral, zpow_zero, mul_one])
  have := (search_spec 20 found (by omega)).2
  omega

/-- An integer lies near a value with binary places only if it is that value. -/
theorem eq_of_nearby {n s : Nat} (near : f.Nearby m (-(s : Int)) n) : n * 2 ^ s = m := by
  have upper := near.upper
  have lower := near.lower.trans (add_le_add_right (f.gapBelow_le m _) _)
  have power : (0 : ℚ) < 2 ^ s := by positivity
  rw [zpow_neg, zpow_natCast] at upper lower
  field_simp at upper lower
  have above : 2 * (n * 2 ^ s) ≤ 2 * m + 1 := by
    have : (2 * (n * 2 ^ s) : ℚ) ≤ 2 * m + 1 := by linarith
    exact_mod_cast this
  have below : 2 * m ≤ 2 * (n * 2 ^ s) + 1 := by
    have : (2 * m : ℚ) ≤ 2 * (n * 2 ^ s) + 1 := by linarith
    exact_mod_cast this
  omega

theorem exponent_shortest_neg (tie : Tie) (proper : f.Proper) (canonical : f.Canonical m u)
    (fraction : ∀ n : Nat, (m : ℚ) * 2 ^ u ≠ n) : (shortest f tie m u).exponent < 0 := by
  by_contra nonneg
  have pos : 0 < m := by
    by_contra zero
    refine fraction 0 ?_
    rw [show m = 0 by omega]
    simp
  have near := nearby_shortest tie proper canonical pos
  generalize shortest f tie m u = d at *
  obtain ⟨n, whole⟩ : ∃ n : Nat, d.value = n := by
    obtain ⟨e, exponent⟩ := Int.eq_ofNat_of_zero_le (not_lt.mp nonneg)
    refine ⟨d.digits * 10 ^ e, ?_⟩
    rw [value, exponent, zpow_natCast]
    push_cast
    rfl
  obtain ⟨s, rfl⟩ : ∃ s : Nat, u = -(s : Int) := by
    refine ⟨(-u).toNat, ?_⟩
    by_contra other
    obtain ⟨v, up⟩ := Int.eq_ofNat_of_zero_le (show 0 ≤ u by omega)
    refine fraction (m * 2 ^ v) ?_
    rw [up, zpow_natCast]
    push_cast
    rfl
  rw [whole] at near
  refine fraction n ?_
  rw [zpow_neg, zpow_natCast, ← eq_of_nearby near]
  push_cast
  field_simp

/-! ### Reading a decimal -/

theorem digits_bounds {n : Nat} (pos : 0 < n) :
    10 ^ ((digitsOf n).length - 1) ≤ n ∧ n < 10 ^ (digitsOf n).length := by
  have some : 0 < (digitsOf n).length := Nat.length_toDigits_pos
  refine ⟨?_, (Nat.length_toDigits_le_iff (by decide) some).mp le_rfl⟩
  rcases Nat.eq_zero_or_pos ((digitsOf n).length - 1) with one | more
  · rw [one]
    exact pos
  · by_contra less
    have := (Nat.length_toDigits_le_iff (by decide) more).mpr (not_le.mp less)
    unfold digitsOf at *
    omega

theorem value_bounds {d : Decimal} (pos : 0 < d.digits) :
    (10 : ℚ) ^ (d.exponent + (digitsOf d.digits).length - 1) ≤ d.value ∧
      d.value < 10 ^ (d.exponent + (digitsOf d.digits).length) := by
  obtain ⟨low, high⟩ := digits_bounds pos
  have some : 0 < (digitsOf d.digits).length := Nat.length_toDigits_pos
  have ten := zpow_pos (show (0 : ℚ) < 10 by norm_num) d.exponent
  have low' : (10 : ℚ) ^ ((digitsOf d.digits).length - 1) ≤ d.digits := by exact_mod_cast low
  have high' : (d.digits : ℚ) < 10 ^ (digitsOf d.digits).length := by exact_mod_cast high
  constructor
  · calc (10 : ℚ) ^ (d.exponent + (digitsOf d.digits).length - 1)
        = 10 ^ ((digitsOf d.digits).length - 1) * 10 ^ d.exponent := by
          rw [← zpow_natCast, ← zpow_add₀ (by norm_num)]
          congr 1
          omega
      _ ≤ d.value := by
        rw [value]
        gcongr
  · calc d.value < 10 ^ (digitsOf d.digits).length * 10 ^ d.exponent := by
          rw [value]
          gcongr
      _ = _ := by
        rw [← zpow_natCast, ← zpow_add₀ (by norm_num), add_comm]

theorem two_zpow_lt_ten_zpow : (2 : ℚ) ^ (1075 : Int) < 10 ^ (400 : Int) := by
  have power : 2 ^ 1075 < 10 ^ 400 := by decide +kernel
  exact_mod_cast power

/-- A decimal near a value of the format is neither as large nor as small as those that are not
looked at. -/
theorem order_of_nearby (proper : f.Proper) (canonical : f.Canonical m u) (pos : 0 < m)
    {d : Decimal} (near : f.Nearby m u d.value) :
    0 < d.digits ∧ -400 ≤ d.exponent + (digitsOf d.digits).length ∧
      d.exponent + (digitsOf d.digits).length ≤ 400 := by
  have two := zpow_pos (two_pos (α := ℚ)) u
  have one : (1 : ℚ) ≤ m := by exact_mod_cast pos
  obtain ⟨least, greatest⟩ := leastUnit_ge proper
  have lower := near.lower.trans (add_le_add_right (f.gapBelow_le m u) _)
  have digits : 0 < d.digits := by
    by_contra none
    rw [value, show d.digits = 0 by omega, Nat.cast_zero, zero_mul] at lower
    nlinarith
  obtain ⟨low, high⟩ := value_bounds digits
  refine ⟨digits, not_lt.mp fun small => ?_, not_lt.mp fun large => ?_⟩
  · have below : (2 : ℚ) ^ (-1075 : Int) ≤ d.value := by
      have unit : (2 : ℚ) ^ (-1074 : Int) ≤ 2 ^ u :=
        zpow_le_zpow_right₀ one_le_two (least.trans canonical.least)
      rw [show (-1075 : Int) = -1074 - 1 from rfl, zpow_sub_one₀ two_ne_zero]
      nlinarith
    have above : d.value < 10 ^ (-400 : Int) :=
      high.trans_le (zpow_le_zpow_right₀ (by norm_num) (by omega))
    have order : (10 : ℚ) ^ (-400 : Int) < 2 ^ (-1075 : Int) := by
      rw [zpow_neg, zpow_neg]
      exact inv_strictAnti₀ (zpow_pos two_pos _) two_zpow_lt_ten_zpow
    exact lt_irrefl _ ((below.trans_lt above).trans order)
  · have above : d.value < 2 ^ (1075 : Int) := by
      calc d.value ≤ m * 2 ^ u + 2 ^ u / 2 := near.upper
        _ < m * 2 ^ u * 2 := by nlinarith
        _ < 2 ^ (1024 : Int) * 2 := by
          gcongr
          exact lt_of_canonical proper canonical
        _ = 2 ^ (1024 + 1 : Int) := (zpow_add_one₀ two_ne_zero 1024).symm
        _ ≤ 2 ^ (1075 : Int) := zpow_le_zpow_right₀ one_le_two (by norm_num)
    have below : (10 : ℚ) ^ (400 : Int) ≤ d.value :=
      (zpow_le_zpow_right₀ (by norm_num) (by omega)).trans low
    exact lt_irrefl _ ((two_zpow_lt_ten_zpow.trans_le below).trans above)

theorem toReading_eq (proper : f.Proper) (negative : Bool) (canonical : f.Canonical m u)
    (pos : 0 < m) {d : Decimal} (near : f.Nearby m u d.value) :
    d.toReading f negative = .finite negative m u := by
  obtain ⟨digits, small, large⟩ := order_of_nearby proper canonical pos near
  unfold toReading
  rw [if_neg digits.ne', if_neg (not_lt.mpr large), if_neg (not_lt.mpr small)]
  refine nearest_eq proper negative canonical (Nat.mul_pos digits (pow10_pos _)) (pow10_pos _) ?_
  rwa [← value_eq_div]

/-- Reading the shortest decimal of a value gives the value again. -/
theorem toReading_shortest (proper : f.Proper) (negative : Bool) (canonical : f.Canonical m u)
    {d : Decimal} (same : d.value = (shortest f tie m u).value) :
    d.toReading f negative = .finite negative m u := by
  rcases Nat.eq_zero_or_pos m with zero | pos
  · have unit : u = f.leastUnit := by
      have := f.hidden_pos
      exact canonical.leading.resolve_left (by omega)
    have none : d.digits = 0 := by
      have ten := zpow_pos (show (0 : ℚ) < 10 by norm_num) d.exponent
      rw [value, shortest, if_pos zero, value] at same
      simpa [ten.ne'] using same
    rw [toReading, if_pos none, zero, unit]
  · exact toReading_eq proper negative canonical pos
      (same ▸ nearby_shortest tie proper canonical pos)

end Decimal

end EntityScripting.Number
