import EntityScripting.Number.Double
import EntityScripting.Proofs.Number.Rounding

/-!
# Bit patterns

Packing a reading and reading the pattern again gives the reading, if the format keeps it so, and
the other way round for every pattern that is a number.
-/

namespace EntityScripting.Number

namespace Format

def fields (f : Format) : Nat := 1 <<< f.exponentBits

theorem signBit_eq {f : Format} (proper : f.Proper) : f.signBit = f.fields * f.hidden := by
  have := proper.two_le_precision
  have := proper.two_le_exponentBits
  rw [signBit, fields, hidden_eq, Nat.one_shiftLeft, Nat.one_shiftLeft, ← pow_add]
  congr 1
  omega

theorem four_le_fields {f : Format} (proper : f.Proper) : 4 ≤ f.fields := by
  rw [fields, Nat.one_shiftLeft]
  exact Nat.pow_le_pow_right (n := 2) (by decide) proper.two_le_exponentBits

theorem greatestUnit_eq {f : Format} (proper : f.Proper) :
    f.greatestUnit = f.leastUnit + (f.fields - 3 : Nat) := by
  have four := four_le_fields proper
  have double : f.fields = 2 * 1 <<< (f.exponentBits - 1) := by
    have := proper.two_le_exponentBits
    rw [fields, Nat.one_shiftLeft, Nat.one_shiftLeft, ← pow_succ']
    congr 1
    omega
  simp only [greatestUnit, leastUnit, bias]
  omega

def signPart (f : Format) (negative : Bool) : Nat := if negative then f.signBit else 0

/-- The parts of a pattern. -/
theorem unpack_eq {f : Format} (proper : f.Proper) (negative : Bool) {field fraction : Nat}
    (hfield : field < f.fields) (hfraction : fraction < f.hidden) :
    f.unpack (f.signPart negative + (field * f.hidden + fraction)) =
      if field = f.fields - 1 then if fraction = 0 then .infinite negative else .nan negative
      else if field = 0 then .finite negative fraction f.leastUnit
      else .finite negative (f.hidden + fraction) (f.leastUnit + (field - 1 : Nat)) := by
  have hidden := f.hidden_pos
  have below : field * f.hidden + fraction < f.signBit := by
    rw [signBit_eq proper]
    calc field * f.hidden + fraction < (field + 1) * f.hidden := by
          rw [Nat.add_mul]
          omega
      _ ≤ f.fields * f.hidden := Nat.mul_le_mul_right _ hfield
  have quotient : (field * f.hidden + fraction) / f.hidden = field := by
    rw [Nat.mul_comm, Nat.mul_add_div hidden, Nat.div_eq_of_lt hfraction, Nat.add_zero]
  have rest : (field * f.hidden + fraction) % f.hidden = fraction := by
    rw [Nat.mul_comm, Nat.mul_add_mod, Nat.mod_eq_of_lt hfraction]
  generalize field * f.hidden + fraction = low at *
  have sign : decide (f.signBit ≤ (f.signPart negative + low) % (2 * f.signBit)) = negative := by
    cases negative with
    | false =>
      simp only [signPart, Bool.false_eq_true, if_false, Nat.zero_add, decide_eq_false_iff_not]
      rw [Nat.mod_eq_of_lt (by omega)]
      omega
    | true =>
      simp only [signPart, if_true, decide_eq_true_eq]
      rw [Nat.mod_eq_of_lt (by omega)]
      omega
  have remainder : (f.signPart negative + low) % f.signBit = low := by
    cases negative <;> simp [signPart, Nat.mod_eq_of_lt below]
  simp only [unpack, remainder, sign, quotient, rest]
  rfl

theorem pack_finite (f : Format) (negative : Bool) (m : Nat) (u : Int) :
    f.pack (.finite negative m u) =
      f.signPart negative + ((u - f.leastUnit).toNat * f.hidden + m) := by
  cases negative <;> simp [pack, signPart]

theorem pack_finite_lt {f : Format} (proper : f.Proper) (negative : Bool) {m : Nat} {u : Int}
    (canonical : f.Canonical m u) : f.pack (.finite negative m u) < 2 * f.signBit := by
  obtain ⟨bounded, least, greatest, -⟩ := canonical
  have four := four_le_fields proper
  rw [greatestUnit_eq proper] at greatest
  have field : ((u - f.leastUnit).toNat + 3) * f.hidden ≤ f.signBit := by
    rw [signBit_eq proper]
    exact Nat.mul_le_mul_right _ (by omega)
  rw [Nat.add_mul] at field
  rw [pack_finite, signPart]
  split_ifs <;> omega

theorem unpack_pack_finite {f : Format} (proper : f.Proper) (negative : Bool) {m : Nat} {u : Int}
    (canonical : f.Canonical m u) :
    f.unpack (f.pack (.finite negative m u)) = .finite negative m u := by
  obtain ⟨bounded, least, greatest, leading⟩ := canonical
  have four := four_le_fields proper
  rw [greatestUnit_eq proper] at greatest
  rw [pack_finite]
  by_cases large : f.hidden ≤ m
  · -- The leading bit carries over into the exponent field.
    have field : (u - f.leastUnit).toNat * f.hidden + m =
        ((u - f.leastUnit).toNat + 1) * f.hidden + (m - f.hidden) := by
      rw [Nat.add_mul]
      omega
    rw [field, unpack_eq proper negative (by omega) (by omega), if_neg (by omega), if_neg (by omega)]
    congr 1 <;> omega
  · have unit := leading.resolve_left large
    rw [unit, sub_self, Int.toNat_zero,
      unpack_eq proper negative (by omega) (by omega), if_neg (by omega), if_pos rfl]

theorem exists_parts {f : Format} (proper : f.Proper) {bits : Nat} (fits : bits < 2 * f.signBit) :
    ∃ (negative : Bool) (field fraction : Nat), field < f.fields ∧ fraction < f.hidden ∧
      bits = f.signPart negative + (field * f.hidden + fraction) := by
  have hidden := f.hidden_pos
  have low : bits % f.signBit < f.fields * f.hidden := by
    rw [← signBit_eq proper]
    exact Nat.mod_lt _ (by rw [signBit_eq proper]; have := four_le_fields proper; positivity)
  refine ⟨decide (f.signBit ≤ bits), bits % f.signBit / f.hidden, bits % f.signBit % f.hidden,
    (Nat.div_lt_iff_lt_mul hidden).mpr low, Nat.mod_lt _ hidden, ?_⟩
  rw [Nat.div_add_mod']
  by_cases high : f.signBit ≤ bits
  · simp only [signPart, high, decide_true, if_true]
    rw [Nat.mod_eq_sub_mod high, Nat.mod_eq_of_lt (by omega)]
    omega
  · simp [signPart, high, Nat.mod_eq_of_lt (not_le.mp high)]

theorem pack_unpack {f : Format} (proper : f.Proper) {bits : Nat} (fits : bits < 2 * f.signBit)
    (number : (f.unpack bits).isNaN = false) : f.pack (f.unpack bits) = bits := by
  obtain ⟨negative, field, fraction, hfield, hfraction, rfl⟩ := exists_parts proper fits
  rw [unpack_eq proper negative hfield hfraction] at number ⊢
  split_ifs at number ⊢ with top zero bottom
  · rw [top, zero]
    cases negative <;> simp [pack, infinityBits, fields, signPart]
  · cases number
  · rw [pack_finite, bottom]
    simp
  · rw [pack_finite]
    have : (f.leastUnit + (field - 1 : Nat) - f.leastUnit).toNat = field - 1 := by omega
    rw [this]
    obtain ⟨n, rfl⟩ : ∃ n, field = n + 1 := ⟨field - 1, by omega⟩
    rw [Nat.add_sub_cancel, Nat.add_mul]
    omega

theorem canonical_of_unpack {f : Format} (proper : f.Proper) {bits : Nat}
    (fits : bits < 2 * f.signBit) {negative : Bool} {m : Nat} {u : Int}
    (read : f.unpack bits = .finite negative m u) : f.Canonical m u := by
  obtain ⟨sign, field, fraction, hfield, hfraction, rfl⟩ := exists_parts proper fits
  have greatest := greatestUnit_eq proper
  have four := four_le_fields proper
  rw [unpack_eq proper sign hfield hfraction] at read
  split_ifs at read with top zero bottom
  · cases read
    exact ⟨by omega, le_rfl, by omega, .inr rfl⟩
  · cases read
    exact ⟨by omega, by omega, by omega, .inl (by omega)⟩

end Format

namespace Double

theorem bits_lt (x : Double) : x.bits.toNat < 2 * binary64.signBit := x.bits.toNat_lt

theorem bits_eq_pack {x : Double} (number : x.isNaN = false) : x.bits.toNat = binary64.pack x.read :=
  (Format.pack_unpack Format.proper_binary64 x.bits_lt number).symm

theorem ofReading_read {x : Double} (number : x.isNaN = false) : ofReading x.read = x := by
  rw [ofReading, ← bits_eq_pack number, Nat.toUInt64_eq, UInt64.ofNat_toNat]

theorem canonical_of_read {x : Double} {negative : Bool} {m : Nat} {u : Int}
    (read : x.read = .finite negative m u) : binary64.Canonical m u :=
  Format.canonical_of_unpack Format.proper_binary64 x.bits_lt read

theorem read_ofReading_finite (negative : Bool) {m : Nat} {u : Int}
    (canonical : binary64.Canonical m u) :
    (ofReading (.finite negative m u)).read = .finite negative m u := by
  have fits := Format.pack_finite_lt Format.proper_binary64 negative canonical
  rw [read, ofReading, Nat.toUInt64_eq, UInt64.toNat_ofNat_of_lt' fits,
    Format.unpack_pack_finite Format.proper_binary64 negative canonical]

end Double

namespace Single

theorem bits_lt (x : Single) : x.bits.toNat < 2 * binary32.signBit := x.bits.toNat_lt

theorem bits_eq_pack {x : Single} (number : x.isNaN = false) : x.bits.toNat = binary32.pack x.read :=
  (Format.pack_unpack Format.proper_binary32 x.bits_lt number).symm

theorem ofReading_read {x : Single} (number : x.isNaN = false) : ofReading x.read = x := by
  rw [ofReading, ← bits_eq_pack number, Nat.toUInt32_eq, UInt32.ofNat_toNat]

theorem canonical_of_read {x : Single} {negative : Bool} {m : Nat} {u : Int}
    (read : x.read = .finite negative m u) : binary32.Canonical m u :=
  Format.canonical_of_unpack Format.proper_binary32 x.bits_lt read

theorem read_ofReading_finite (negative : Bool) {m : Nat} {u : Int}
    (canonical : binary32.Canonical m u) :
    (ofReading (.finite negative m u)).read = .finite negative m u := by
  have fits := Format.pack_finite_lt Format.proper_binary32 negative canonical
  rw [read, ofReading, Nat.toUInt32_eq, UInt32.toNat_ofNat_of_lt' fits,
    Format.unpack_pack_finite Format.proper_binary32 negative canonical]

end Single

end EntityScripting.Number
