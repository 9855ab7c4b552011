import EntityScripting.Proofs.Number.Numeral
import EntityScripting.Proofs.Number.Order

/-!
# Float texts that read back

Plain text and stored text of a float read as the float again, bit for bit unless it is not a number
(`Double.ofText?_storedText`, `Single.ofText?_plainText`). Stored text always has a character that no
integer has.
-/

namespace EntityScripting.Number

/-- Whether a text begins with a digit and reads as the number of a decimal. -/
def Decimal.WrittenAs (d : Decimal) (cs : List Char) : Prop :=
  (∃ c rest, cs = c :: rest ∧ c.isDigit = true) ∧
    ∃ read, decimal? cs = some read ∧ read.value = d.value

theorem Decimal.writtenAs_positional (d : Decimal) : d.WrittenAs d.positional :=
  ⟨d.exists_positional, d.decimal?_positional⟩

theorem Decimal.writtenAs_tenths {d : Decimal} (whole : 0 ≤ d.exponent) :
    d.WrittenAs (d.positional ++ ['.', '0']) := by
  obtain ⟨c, rest, written, digit⟩ := d.exists_positional
  exact ⟨⟨c, rest ++ ['.', '0'], by rw [written, List.cons_append], digit⟩,
    decimal?_positional_tenths whole⟩

theorem Decimal.writtenAs_scientific (d : Decimal) :
    d.WrittenAs (d.scientific fun e => (intText e).toList) :=
  ⟨d.exists_scientific _, d.decimal?_scientific⟩

theorem Decimal.point_mem_positional {d : Decimal} (places : d.exponent < 0) :
    '.' ∈ d.positional := by
  unfold positional
  dsimp only
  rw [if_neg (not_le.mpr places)]
  split_ifs <;> simp

theorem Decimal.mark_mem_scientific (d : Decimal) (power : Int → List Char) :
    'e' ∈ d.scientific power := by
  obtain ⟨c, cs, written, -⟩ := exists_digitsOf d.digits
  simp [scientific, written]

theorem signed_append (negative : Bool) (cs ds : List Char) :
    signed negative cs ++ String.ofList ds = signed negative (cs ++ ds) := by
  cases negative <;> simp [signed, String.append_assoc]

theorem takeSign_signed (negative : Bool) {cs : List Char}
    (digits : ∃ c rest, cs = c :: rest ∧ c.isDigit = true) :
    takeSign (signed negative cs).toList = (negative, cs) := by
  obtain ⟨c, rest, rfl, digit⟩ := digits
  rw [toList_signed]
  cases negative with
  | true => rfl
  | false => exact takeSign_of_isDigit digit rest

theorem toLower_of_isDigit {c : Char} (digit : c.isDigit = true) : c.toLower = c := by
  refine dif_neg fun upper => ?_
  have letter : 65 ≤ c.val.toNat := UInt32.le_iff_toNat_le.mp upper.1
  have digit' : c.val.toNat ≤ 57 := by
    simp only [Char.isDigit, Bool.and_eq_true, decide_eq_true_eq] at digit
    exact UInt32.le_iff_toNat_le.mp digit.2
  omega

theorem reading?_signed (f : Format) (negative : Bool) {cs : List Char}
    (digits : ∃ c rest, cs = c :: rest ∧ c.isDigit = true) :
    reading? f (signed negative cs).toList = (decimal? cs).map (Decimal.toReading f negative) := by
  have sign := takeSign_signed negative digits
  obtain ⟨c, rest, rfl, digit⟩ := digits
  have name (word : String) (letter : word.toList.head?.all (fun c => !c.isDigit) = true) :
      (String.ofList ((c :: rest).map Char.toLower) = word) = False := by
    rw [eq_iff_iff, iff_false]
    rintro rfl
    simp [toLower_of_isDigit digit, digit] at letter
  simp only [reading?, sign, name "inf" rfl, name "infinity" rfl, name "nan" rfl, decide_false,
    Bool.or_false, Bool.false_eq_true, if_false]

theorem reading?_writtenAs {f : Format} (proper : f.Proper) (negative : Bool) {m : Nat} {u : Int}
    (canonical : f.Canonical m u) {tie : Decimal.Tie} {cs : List Char}
    (written : (Decimal.shortest f tie m u).WrittenAs cs) :
    reading? f (signed negative cs).toList = some (.finite negative m u) := by
  obtain ⟨digits, read, found, same⟩ := written
  rw [reading?_signed f negative digits, found, Option.map_some,
    Decimal.toReading_shortest proper negative canonical same]

/-! ### Readings -/

def Reading.Agrees (r s : Reading) : Prop := s = r ∨ r.isNaN = true ∧ s.isNaN = true

theorem reading?_nan (f : Format) : reading? f "NaN".toList = some (.nan false) := by
  have sign : takeSign "NaN".toList = (false, ['N', 'a', 'N']) := by decide
  simp only [reading?, sign]
  rw [if_neg (by decide), if_pos (by decide)]

theorem reading?_infinite (f : Format) (negative : Bool) :
    reading? f (signed negative "inf".toList).toList = some (.infinite negative) := by
  have sign : takeSign (signed negative "inf".toList).toList = (negative, ['i', 'n', 'f']) := by
    cases negative <;> decide
  simp only [reading?, sign]
  rw [if_pos (by decide)]

theorem reading?_plainText {f : Format} (proper : f.Proper) {r : Reading}
    (canonical : ∀ negative m u, r = .finite negative m u → f.Canonical m u) :
    ∃ s, reading? f (r.plainText f).toList = some s ∧ r.Agrees s := by
  cases r with
  | nan negative => exact ⟨.nan false, reading?_nan f, .inr ⟨rfl, rfl⟩⟩
  | infinite negative => exact ⟨.infinite negative, reading?_infinite f negative, .inl rfl⟩
  | finite negative m u =>
    exact ⟨_, reading?_writtenAs proper negative (canonical negative m u rfl)
      (Decimal.writtenAs_positional _), .inl rfl⟩

theorem integral_iff (m : Nat) (u : Int) :
    m * pow2 u % pow2 (-u) = 0 ↔ ∃ n : Nat, (m : ℚ) * 2 ^ u = n := by
  have den := pow2_pos (-u)
  have den' : (pow2 (-u) : ℚ) ≠ 0 := by exact_mod_cast den.ne'
  constructor
  · intro exact
    obtain ⟨n, quotient⟩ := Nat.dvd_of_mod_eq_zero exact
    refine ⟨n, ?_⟩
    rw [← ratio_eq, quotient]
    push_cast
    field_simp
  · rintro ⟨n, value⟩
    rw [← ratio_eq, div_eq_iff den'] at value
    have whole : m * pow2 u = n * pow2 (-u) := by exact_mod_cast value
    rw [whole, Nat.mul_mod_left]

namespace Double

/-- Whether two floats have the same bits or are both not a number. -/
def Agrees (x y : Double) : Prop := y = x ∨ x.isNaN = true ∧ y.isNaN = true

theorem agrees_ofReading {x : Double} {r : Reading} (same : x.read.Agrees r) :
    x.Agrees (ofReading r) := by
  cases number : x.isNaN with
  | false =>
    obtain rfl : r = x.read := same.resolve_right fun both => by
      rw [isNaN, both.1] at number
      cases number
    exact .inl (ofReading_read number)
  | true =>
    have none : r.isNaN = true := by
      rcases same with rfl | both
      · exact number
      · exact both.2
    cases r with
    | nan negative => exact .inr ⟨number, by cases negative <;> rfl⟩
    | infinite | finite => cases none

/-- `10 ^ 16` is a value of the format. -/
theorem read_storedLimit : storedLimit.read = .finite false 5000000000000000 1 := by
  decide +kernel

theorem abs_lt_storedLimit_iff {x : Double} {negative : Bool} {m : Nat} {u : Int}
    (read : x.read = .finite negative m u) :
    x.abs.lt storedLimit = true ↔ (m : ℚ) * 2 ^ u < 10 ^ 16 := by
  rw [lt, abs, read, Reading.abs, read_ofReading_finite false (canonical_of_read read),
    read_storedLimit, Reading.lt_finite_iff]
  norm_num [Reading.value]

theorem isIntegral_iff {x : Double} {negative : Bool} {m : Nat} {u : Int}
    (read : x.read = .finite negative m u) :
    x.isIntegral = true ↔ ∃ n : Nat, (m : ℚ) * 2 ^ u = n := by
  rw [← integral_iff, isIntegral, exactInt?, read, Reading.exactInt?]
  split <;> simp_all

/-- The stored text of a finite float is one of its shortest decimal, with a point or an exponent. -/
theorem storedText_finite {x : Double} {negative : Bool} {m : Nat} {u : Int}
    (read : x.read = .finite negative m u) :
    ∃ cs, x.storedText = signed negative cs ∧
      (Decimal.shortest binary64 .up m u).WrittenAs cs ∧ ('.' ∈ cs ∨ 'e' ∈ cs) := by
  have canonical := canonical_of_read read
  have plain : x.plainText = signed negative (Decimal.shortest binary64 .up m u).positional := by
    rw [plainText, read, Reading.plainText]
  by_cases integral : x.isIntegral = true
  · obtain ⟨n, value⟩ := (isIntegral_iff read).mp integral
    by_cases small : x.abs.lt storedLimit = true
    · have below := (abs_lt_storedLimit_iff read).mp small
      rw [value] at below
      have whole := Decimal.exponent_shortest_nonneg .up Format.proper_binary64 canonical
        value (by exact_mod_cast below)
      refine ⟨_, ?_, Decimal.writtenAs_tenths whole, .inl (by simp)⟩
      rw [storedText, if_pos integral, if_pos small, plain]
      exact signed_append negative _ ['.', '0']
    · refine ⟨_, ?_, Decimal.writtenAs_scientific _, .inr (Decimal.mark_mem_scientific ..)⟩
      rw [storedText, if_pos integral, if_neg small, scientificText, read]
  · have places := Decimal.exponent_shortest_neg .up Format.proper_binary64 canonical
      fun n value => integral ((isIntegral_iff read).mpr ⟨n, value⟩)
    refine ⟨_, ?_, Decimal.writtenAs_positional _, .inl (Decimal.point_mem_positional places)⟩
    rw [storedText, if_neg integral, plain]

theorem storedText_eq_plainText {x : Double} (named : x.isFinite = false) :
    x.storedText = x.plainText := by
  have fraction : x.isIntegral = false := by
    unfold isIntegral exactInt? Reading.exactInt?
    split
    · rename_i read
      rw [isFinite, read] at named
      cases named
    · rfl
  rw [storedText, fraction, if_neg Bool.false_ne_true]

/-- A stored float reads as the float again. -/
theorem ofText?_storedText (x : Double) :
    ∃ y, ofText? x.storedText.toList = some y ∧ x.Agrees y := by
  suffices ∃ r, reading? binary64 x.storedText.toList = some r ∧ x.read.Agrees r by
    obtain ⟨r, read, same⟩ := this
    exact ⟨ofReading r, by rw [ofText?, read, Option.map_some], agrees_ofReading same⟩
  cases finite : x.isFinite with
  | false =>
    rw [storedText_eq_plainText finite]
    exact reading?_plainText Format.proper_binary64 fun _ _ _ => canonical_of_read
  | true =>
    cases read : x.read with
    | nan | infinite =>
      rw [isFinite, read] at finite
      cases finite
    | finite negative m u =>
      obtain ⟨cs, stored, written, -⟩ := storedText_finite read
      rw [stored]
      exact ⟨_, reading?_writtenAs Format.proper_binary64 negative (canonical_of_read read) written,
        .inl rfl⟩

/-- A stored float has a character that no integer has. -/
theorem storedText_marked (x : Double) :
    ∃ c ∈ x.storedText.toList, c = '.' ∨ c = 'e' ∨ c = 'n' ∨ c = 'N' := by
  cases read : x.read with
  | nan negative =>
    rw [storedText_eq_plainText (by rw [isFinite, read]; rfl), plainText, read]
    exact ⟨'N', by simp [Reading.plainText], by simp⟩
  | infinite negative =>
    rw [storedText_eq_plainText (by rw [isFinite, read]; rfl), plainText, read]
    exact ⟨'n', by cases negative <;> simp [Reading.plainText, signed], by simp⟩
  | finite negative m u =>
    obtain ⟨cs, stored, -, marked⟩ := storedText_finite read
    have kept (c : Char) (member : c ∈ cs) : c ∈ x.storedText.toList := by
      rw [stored, toList_signed]
      split
      · exact List.mem_cons_of_mem _ member
      · exact member
    rcases marked with point | mark
    · exact ⟨'.', kept _ point, by simp⟩
    · exact ⟨'e', kept _ mark, by simp⟩

end Double

def PlainChar (c : Char) : Prop := c.isDigit = true ∨ c ∈ ['-', '.', 'i', 'n', 'f', 'N', 'a']

theorem Digits.plainChar {cs : List Char} (digits : Digits cs) : ∀ c ∈ cs, PlainChar c :=
  fun c member => .inl (digits c member)

theorem Decimal.plainChar_positional (d : Decimal) : ∀ c ∈ d.positional, PlainChar c := by
  have digits := digits_digitsOf d.digits
  have point : PlainChar '.' := .inr (by simp)
  have zero : PlainChar '0' := .inl (by decide)
  unfold positional
  dsimp only
  split_ifs
  · exact (digits.append (digits_zeros _)).plainChar
  · intro c member
    rcases List.mem_append.mp member with whole | below
    · exact (digits.take _).plainChar c whole
    · rcases List.mem_cons.mp below with rfl | places
      · exact point
      · exact (digits.drop _).plainChar c places
  · intro c member
    rcases List.mem_cons.mp member with rfl | below
    · exact zero
    · rcases List.mem_cons.mp below with rfl | places
      · exact point
      · exact ((digits_zeros _).append digits).plainChar c places

theorem Reading.plainChar_plainText (f : Format) (r : Reading) :
    ∀ c ∈ (r.plainText f).toList, PlainChar c := by
  have named (negative : Bool) {cs : List Char} (plain : ∀ c ∈ cs, PlainChar c) :
      ∀ c ∈ (signed negative cs).toList, PlainChar c := by
    intro c member
    rw [toList_signed] at member
    split at member
    · rcases List.mem_cons.mp member with rfl | rest
      · exact .inr (by simp)
      · exact plain c rest
    · exact plain c member
  cases r with
  | nan =>
    have letters : ∀ c ∈ "NaN".toList, c ∈ ['-', '.', 'i', 'n', 'f', 'N', 'a'] := by simp
    exact fun c member => .inr (letters c member)
  | infinite negative =>
    have letters : ∀ c ∈ "inf".toList, c ∈ ['-', '.', 'i', 'n', 'f', 'N', 'a'] := by simp
    exact named negative fun c member => .inr (letters c member)
  | finite negative m u => exact named negative (Decimal.plainChar_positional _)

namespace Single

def Agrees (x y : Single) : Prop := y = x ∨ x.isNaN = true ∧ y.isNaN = true

theorem agrees_ofReading {x : Single} {r : Reading} (same : x.read.Agrees r) :
    x.Agrees (ofReading r) := by
  cases number : x.isNaN with
  | false =>
    obtain rfl : r = x.read := same.resolve_right fun both => by
      rw [isNaN, both.1] at number
      cases number
    exact .inl (ofReading_read number)
  | true =>
    have none : r.isNaN = true := by
      rcases same with rfl | both
      · exact number
      · exact both.2
    cases r with
    | nan negative => exact .inr ⟨number, by cases negative <;> rfl⟩
    | infinite | finite => cases none

/-- Plain text of a float reads as the float again. -/
theorem ofText?_plainText (x : Single) :
    ∃ y, ofText? x.plainText.toList = some y ∧ x.Agrees y := by
  obtain ⟨r, read, same⟩ :=
    reading?_plainText Format.proper_binary32 (r := x.read) fun _ _ _ => canonical_of_read
  exact ⟨ofReading r, by rw [ofText?, plainText, read, Option.map_some], agrees_ofReading same⟩

end Single

end EntityScripting.Number
