import EntityScripting.Number.Notation
import EntityScripting.Number.Numeral
import EntityScripting.Proofs.Number.Pattern
import EntityScripting.Proofs.Number.Shortest

/-!
# Digits that read back

The texts of integers read as these integers. The ways of writing a decimal out, with all its places
or with an exponent, read as a decimal of the same value.
-/

namespace EntityScripting.Number

def Digits (cs : List Char) : Prop := ∀ c ∈ cs, c.isDigit = true

theorem digits_digitsOf (n : Nat) : Digits (Decimal.digitsOf n) :=
  fun _ member => Nat.isDigit_of_mem_toDigits (by decide) le_rfl member

theorem Digits.append {cs ds : List Char} (front : Digits cs) (back : Digits ds) :
    Digits (cs ++ ds) := by
  intro c member
  exact (List.mem_append.mp member).elim (front c) (back c)

theorem Digits.take {cs : List Char} (digits : Digits cs) (n : Nat) : Digits (cs.take n) :=
  fun c member => digits c (List.mem_of_mem_take member)

theorem Digits.drop {cs : List Char} (digits : Digits cs) (n : Nat) : Digits (cs.drop n) :=
  fun c member => digits c (List.mem_of_mem_drop member)

theorem digits_zeros (n : Nat) : Digits (List.replicate n '0') := by
  intro c member
  rw [List.eq_of_mem_replicate member]
  rfl

theorem digitsValue_eq (cs : List Char) : digitsValue cs = Nat.ofDigitChars 10 cs 0 := rfl

theorem digitsValue_digitsOf (n : Nat) : digitsValue (Decimal.digitsOf n) = n :=
  Nat.ofDigitChars_ten_toDigits

theorem digitsValue_append (cs ds : List Char) :
    digitsValue (cs ++ ds) = 10 ^ ds.length * digitsValue cs + digitsValue ds := by
  rw [digitsValue_eq, Nat.ofDigitChars_append, Nat.ofDigitChars_eq_ofDigitChars_zero]
  rfl

theorem digitsValue_zeros (n : Nat) : digitsValue (List.replicate n '0') = 0 := by
  rw [digitsValue_eq, Nat.ofDigitChars_replicate_zero, Nat.mul_zero]

theorem natural?_digitsOf (n : Nat) : natural? (Decimal.digitsOf n) = some n := by
  have some : (Decimal.digitsOf n).isEmpty = false := by
    simp [Decimal.digitsOf, Nat.toDigits_ne_nil]
  have all : (Decimal.digitsOf n).all Char.isDigit = true :=
    List.all_eq_true.mpr (digits_digitsOf n)
  simp [natural?, some, all, digitsValue_digitsOf]

theorem exists_digitsOf (n : Nat) :
    ∃ c cs, Decimal.digitsOf n = c :: cs ∧ c.isDigit = true ∧ Digits cs := by
  have digits := digits_digitsOf n
  cases written : Decimal.digitsOf n with
  | nil => exact absurd written Nat.toDigits_ne_nil
  | cons c cs =>
    rw [written] at digits
    exact ⟨c, cs, rfl, digits c List.mem_cons_self, fun d member =>
      digits d (List.mem_cons_of_mem c member)⟩

theorem takeSign_of_isDigit {c : Char} (digit : c.isDigit = true) (cs : List Char) :
    takeSign (c :: cs) = (false, c :: cs) := by
  unfold takeSign
  split
  · rename_i same
    cases same
    exact absurd digit (by decide)
  · rename_i same
    cases same
    exact absurd digit (by decide)
  · rfl

theorem takeSign_minus (cs : List Char) : takeSign ('-' :: cs) = (true, cs) := rfl

theorem toList_signed (negative : Bool) (cs : List Char) :
    (signed negative cs).toList = if negative then '-' :: cs else cs := by
  rw [signed, String.toList_ofList]

theorem toList_natText (n : Nat) : (natText n).toList = Decimal.digitsOf n := String.toList_ofList

theorem toList_intText (n : Int) :
    (intText n).toList = if n < 0 then '-' :: Decimal.digitsOf n.natAbs
      else Decimal.digitsOf n.natAbs := by
  rw [intText, String.toList_append, toList_natText]
  split <;> rfl

theorem isDigit_or_minus_of_mem_intText {n : Int} {c : Char} (member : c ∈ (intText n).toList) :
    c = '-' ∨ c.isDigit = true := by
  have digits := digits_digitsOf n.natAbs
  rw [toList_intText] at member
  split at member
  · exact (List.mem_cons.mp member).imp_right (digits c)
  · exact .inr (digits c member)

theorem takeSign_intText (n : Int) :
    takeSign (intText n).toList = (decide (n < 0), Decimal.digitsOf n.natAbs) := by
  obtain ⟨c, cs, written, digit, -⟩ := exists_digitsOf n.natAbs
  rw [toList_intText]
  split_ifs with negative
  · simp [takeSign_minus, negative]
  · rw [written, takeSign_of_isDigit digit]
    simp [negative]

theorem signed_natAbs (n : Int) :
    (if decide (n < 0) = true then -(n.natAbs : Int) else n.natAbs) = n := by
  simp only [decide_eq_true_eq]
  omega

theorem int64?_intText (n : Int64) : int64? (intText n.toInt).toList = some n := by
  simp only [int64?, takeSign_intText, natural?_digitsOf, Option.bind_some, signed_natAbs]
  exact (int64OfInt?_eq_some_iff _ n).mpr rfl

theorem unsigned?_natText {limit n : Nat} (small : n < limit) :
    unsigned? limit (natText n).toList = some n := by
  obtain ⟨c, cs, written, digit, -⟩ := exists_digitsOf n
  have read := natural?_digitsOf n
  rw [written] at read
  rw [toList_natText, written]
  unfold unsigned?
  split
  · rename_i same
    cases same
    exact absurd digit (by decide)
  · simp [read, small]

/-! ### Decimals -/

def Stops (cs : List Char) : Prop := ∀ c rest, cs = c :: rest → c.isDigit = false

theorem takeWhile_digits {cs rest : List Char} (digits : Digits cs) (stops : Stops rest) :
    (cs ++ rest).takeWhile Char.isDigit = cs ∧ (cs ++ rest).dropWhile Char.isDigit = rest := by
  rw [List.takeWhile_append_of_pos digits, List.dropWhile_append_of_pos digits]
  cases rest with
  | nil => simp
  | cons c rest => simp [stops c rest rfl]

theorem decimal?_point {whole fraction rest : List Char} (some : whole ≠ []) (hw : Digits whole)
    (hf : Digits fraction) (stops : Stops rest) :
    decimal? (whole ++ '.' :: (fraction ++ rest)) =
      (exponentPart? rest).map fun e => ⟨digitsValue (whole ++ fraction), e - fraction.length⟩ := by
  have point : Stops ('.' :: (fraction ++ rest)) := by
    rintro c rest ⟨⟩
    decide
  obtain ⟨front, back⟩ := takeWhile_digits hw point
  obtain ⟨front', back'⟩ := takeWhile_digits hf stops
  simp [decimal?, front, back, front', back', some]

theorem decimal?_whole {whole rest : List Char} (some : whole ≠ []) (hw : Digits whole)
    (stops : Stops rest) (mark : ∀ tail, rest ≠ '.' :: tail) :
    decimal? (whole ++ rest) =
      (exponentPart? rest).map fun e => ⟨digitsValue whole, e⟩ := by
  obtain ⟨front, back⟩ := takeWhile_digits hw stops
  simp [decimal?, front, back, some]

theorem stops_nil : Stops [] := by
  rintro c rest ⟨⟩

theorem decimal?_places {whole fraction : List Char} (some : whole ≠ []) (hw : Digits whole)
    (hf : Digits fraction) :
    decimal? (whole ++ '.' :: fraction) =
      .some ⟨digitsValue (whole ++ fraction), -fraction.length⟩ := by
  have read := decimal?_point some hw hf stops_nil
  rw [List.append_nil] at read
  rw [read, exponentPart?, Option.map_some, zero_sub]

theorem decimal?_digits {cs : List Char} (some : cs ≠ []) (digits : Digits cs) :
    decimal? cs = .some ⟨digitsValue cs, 0⟩ := by
  have read := decimal?_whole some digits stops_nil fun _ => by simp
  rwa [List.append_nil] at read

namespace Decimal

theorem exists_positional (d : Decimal) :
    ∃ c cs, d.positional = c :: cs ∧ c.isDigit = true := by
  obtain ⟨c, cs, written, digit, -⟩ := exists_digitsOf d.digits
  unfold positional
  dsimp only
  rw [written]
  split_ifs with whole below
  · exact ⟨c, _, rfl, digit⟩
  · obtain ⟨n, length⟩ : ∃ n, (c :: cs).length - (-d.exponent).toNat = n + 1 :=
      ⟨(c :: cs).length - (-d.exponent).toNat - 1, by omega⟩
    rw [length]
    exact ⟨c, _, rfl, digit⟩
  · exact ⟨'0', _, rfl, rfl⟩

theorem exists_scientific (d : Decimal) (power : Int → List Char) :
    ∃ c cs, d.scientific power = c :: cs ∧ c.isDigit = true := by
  obtain ⟨c, cs, written, digit, -⟩ := exists_digitsOf d.digits
  exact ⟨c, _, by rw [scientific, written], digit⟩

/-- All places written out read as the same number. -/
theorem decimal?_positional (d : Decimal) :
    ∃ read, decimal? d.positional = some read ∧ read.value = d.value := by
  have digits := digits_digitsOf d.digits
  have nonempty : digitsOf d.digits ≠ [] := Nat.toDigits_ne_nil
  unfold positional
  dsimp only
  split_ifs with whole below
  · obtain ⟨n, exponent⟩ := Int.eq_ofNat_of_zero_le whole
    have read := decimal?_digits (by simp [nonempty])
      (digits.append (digits_zeros d.exponent.toNat))
    refine ⟨_, read, ?_⟩
    rw [value, value, exponent, digitsValue_append, digitsValue_digitsOf, digitsValue_zeros]
    simp [mul_comm]
  · obtain ⟨above, count⟩ :
        ∃ above, (digitsOf d.digits).length - (-d.exponent).toNat = above := ⟨_, rfl⟩
    have some : (digitsOf d.digits).take above ≠ [] := by
      intro none
      have length := congrArg List.length none
      rw [List.length_take, List.length_nil] at length
      omega
    have read := decimal?_places some (digits.take above) (digits.drop above)
    rw [count]
    refine ⟨_, read, ?_⟩
    rw [List.take_append_drop, digitsValue_digitsOf, value, value, List.length_drop]
    congr 2
    dsimp only
    omega
  · have read := decimal?_places (by simp) (digits_zeros 1)
      ((digits_zeros ((-d.exponent).toNat - (digitsOf d.digits).length)).append digits)
    refine ⟨_, read, ?_⟩
    rw [digitsValue_append, digitsValue_append, digitsValue_zeros, digitsValue_zeros,
      digitsValue_digitsOf, value, value, List.length_append, List.length_replicate]
    simp only [Nat.mul_zero, Nat.zero_add]
    congr 2
    omega

/-- A place of zero tenths after an integer adds nothing. -/
theorem decimal?_positional_tenths {d : Decimal} (whole : 0 ≤ d.exponent) :
    ∃ read, decimal? (d.positional ++ ['.', '0']) = some read ∧ read.value = d.value := by
  have digits := digits_digitsOf d.digits
  have nonempty : digitsOf d.digits ≠ [] := Nat.toDigits_ne_nil
  have read := decimal?_places (by simp [nonempty])
    (digits.append (digits_zeros d.exponent.toNat)) (digits_zeros 1)
  obtain ⟨n, exponent⟩ := Int.eq_ofNat_of_zero_le whole
  unfold positional
  dsimp only
  rw [if_pos whole]
  refine ⟨_, read, ?_⟩
  rw [value, value, exponent, digitsValue_append, digitsValue_append, digitsValue_digitsOf,
    digitsValue_zeros, digitsValue_zeros]
  simp
  ring

theorem exponentPart?_intText (e : Int) : exponentPart? ('e' :: (intText e).toList) = some e := by
  simp only [exponentPart?, true_or, if_true, takeSign_intText, natural?_digitsOf]
  exact congrArg some (signed_natAbs e)

theorem decimal?_scientific (d : Decimal) :
    ∃ read, decimal? (d.scientific fun e => (intText e).toList) = some read ∧
      read.value = d.value := by
  obtain ⟨c, cs, written, digit, digits⟩ := exists_digitsOf d.digits
  have stops : Stops ('e' :: (intText d.order).toList) := by
    rintro c rest ⟨⟩
    decide
  have first : Digits [c] := by
    intro other member
    rwa [List.mem_singleton.mp member]
  have order : d.order = d.exponent + cs.length := by
    rw [order, written]
    simp
    omega
  have number : digitsValue (c :: cs) = d.digits := by rw [← written, digitsValue_digitsOf]
  rw [scientific, written]
  dsimp only
  cases cs with
  | nil =>
    have read := decimal?_whole (by simp) first stops (by simp)
    rw [exponentPart?_intText] at read
    refine ⟨_, read, ?_⟩
    rw [value, value, number, order]
    simp
  | cons next cs =>
    have read := decimal?_point (by simp) first digits stops
    rw [exponentPart?_intText] at read
    refine ⟨_, read, ?_⟩
    rw [value, value, List.singleton_append, number, order]
    simp

end Decimal

end EntityScripting.Number
