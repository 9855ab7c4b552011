import Mathlib.Tactic
import EntityScripting.Text.Utf8

/-!
# Texts among the byte strings

The bytes of a text are cut into its characters, so they are read as that text (`lossy_utf8`), and
texts are told apart by their bytes. Any other byte string is read as a text that has other bytes.
-/

namespace EntityScripting.Text

theorem toNat_ofNat_of_lt {n : Nat} (small : n < 256) : (UInt8.ofNat n).toNat = n :=
  Nat.mod_eq_of_lt small

/-- What a byte announces, by its number. -/
theorem leadOf_ofNat {n : Nat} (small : n < 256) :
    leadOf (UInt8.ofNat n) =
      if n < 0x80 then .whole
      else if n < 0xC2 then .none
      else if n < 0xE0 then .start 2 0x80 0xBF
      else if n = 0xE0 then .start 3 0xA0 0xBF
      else if n = 0xED then .start 3 0x80 0x9F
      else if n < 0xF0 then .start 3 0x80 0xBF
      else if n = 0xF0 then .start 4 0x90 0xBF
      else if n < 0xF4 then .start 4 0x80 0xBF
      else if n = 0xF4 then .start 4 0x80 0x8F
      else .none := by
  simp only [leadOf, UInt8.lt_iff_toNat_lt, ← UInt8.toNat_inj, toNat_ofNat_of_lt small]
  rfl

def Follows (low high b : UInt8) : Prop := ¬ b < low ∧ ¬ high < b

theorem follows_ofNat {low high : UInt8} {n : Nat} (above : low.toNat ≤ n) (below : n ≤ high.toNat) :
    Follows low high (UInt8.ofNat n) := by
  have small : n < 256 := Nat.lt_of_le_of_lt below high.toNat_lt
  rw [Follows, UInt8.lt_iff_toNat_lt, UInt8.lt_iff_toNat_lt, toNat_ofNat_of_lt small]
  exact ⟨Nat.not_lt.mpr above, Nat.not_lt.mpr below⟩

theorem isTail_ofNat (n : Nat) : isTail (UInt8.ofNat (n % 64 + 128)) = true := by
  have number : (UInt8.ofNat (n % 64 + 128)).toNat = n % 64 + 128 := toNat_ofNat_of_lt (by omega)
  simp only [isTail, UInt8.le_iff_toNat_le, number, Bool.and_eq_true, decide_eq_true_eq]
  exact ⟨by simp, by simp; omega⟩

theorem tailBits_ofNat (n : Nat) : tailBits (UInt8.ofNat (n % 64 + 128)) = n % 64 := by
  rw [tailBits, toNat_ofNat_of_lt (by omega)]
  omega

section

variable {v : Nat} (rest : Bytes)

theorem firstPiece_one (below : v ≤ 127) :
    firstPiece (UInt8.ofNat v) rest = (.char (Char.ofNat v), 0) := by
  rw [firstPiece, leadOf_ofNat (by omega), if_pos (by omega), toNat_ofNat_of_lt (by omega)]

theorem firstPiece_two (above : 127 < v) (below : v ≤ 2047) :
    firstPiece (UInt8.ofNat (v / 64 % 32 + 192)) (UInt8.ofNat (v % 64 + 128) :: rest) =
      (.char (Char.ofNat v), 1) := by
  have lead : leadOf (UInt8.ofNat (v / 64 % 32 + 192)) = .start 2 0x80 0xBF := by
    rw [leadOf_ofNat (by omega), if_neg (by omega), if_neg (by omega), if_pos (by omega)]
  have second : Follows 0x80 0xBF (UInt8.ofNat (v % 64 + 128)) :=
    follows_ofNat (by simp) (by simp; omega)
  have number : (v / 64 % 32 + 192) % 32 * 64 + v % 64 = v := by omega
  simp only [firstPiece, lead, second.1, second.2, decide_false, Bool.or_false, Bool.false_eq_true,
    if_false, if_true, tailBits_ofNat, toNat_ofNat_of_lt (show v / 64 % 32 + 192 < 256 by omega),
    number]

/-- The second byte is bounded where a shorter form or a surrogate would be spelled. -/
theorem leadOf_three (above : 2047 < v) (below : v ≤ 65535) (valid : v < 0xD800 ∨ 0xDFFF < v) :
    ∃ low high, leadOf (UInt8.ofNat (v / 4096 % 16 + 224)) = .start 3 low high ∧
      Follows low high (UInt8.ofNat (v / 64 % 64 + 128)) := by
  rw [leadOf_ofNat (by omega), if_neg (by omega), if_neg (by omega), if_neg (by omega)]
  split_ifs with shorter surrogates
  · exact ⟨_, _, rfl, follows_ofNat (by simp; omega) (by simp; omega)⟩
  · exact ⟨_, _, rfl, follows_ofNat (by simp) (by simp; omega)⟩
  all_goals first | exact ⟨_, _, rfl, follows_ofNat (by simp) (by simp; omega)⟩ | omega

theorem firstPiece_three (above : 2047 < v) (below : v ≤ 65535) (valid : v < 0xD800 ∨ 0xDFFF < v) :
    firstPiece (UInt8.ofNat (v / 4096 % 16 + 224))
        (UInt8.ofNat (v / 64 % 64 + 128) :: UInt8.ofNat (v % 64 + 128) :: rest) =
      (.char (Char.ofNat v), 2) := by
  obtain ⟨low, high, lead, second⟩ := leadOf_three above below valid
  have number : ((v / 4096 % 16 + 224) % 16 * 64 + v / 64 % 64) * 64 + v % 64 = v := by omega
  simp only [firstPiece, lead, second.1, second.2, isTail_ofNat, tailBits_ofNat, decide_false,
    Bool.or_false, Bool.not_true, Bool.false_eq_true, Nat.reduceEqDiff, if_false, if_true,
    toNat_ofNat_of_lt (show v / 4096 % 16 + 224 < 256 by omega), number]

/-- The second byte is bounded where a shorter form or no character would be spelled. -/
theorem leadOf_four (above : 65535 < v) (below : v < 0x110000) :
    ∃ low high, leadOf (UInt8.ofNat (v / 262144 % 8 + 240)) = .start 4 low high ∧
      Follows low high (UInt8.ofNat (v / 4096 % 64 + 128)) := by
  rw [leadOf_ofNat (by omega), if_neg (by omega), if_neg (by omega), if_neg (by omega),
    if_neg (by omega), if_neg (by omega), if_neg (by omega)]
  split_ifs with shorter inner last
  · exact ⟨_, _, rfl, follows_ofNat (by simp; omega) (by simp; omega)⟩
  · exact ⟨_, _, rfl, follows_ofNat (by simp) (by simp; omega)⟩
  · exact ⟨_, _, rfl, follows_ofNat (by simp) (by simp; omega)⟩
  · omega

theorem firstPiece_four (above : 65535 < v) (below : v < 0x110000) :
    firstPiece (UInt8.ofNat (v / 262144 % 8 + 240))
        (UInt8.ofNat (v / 4096 % 64 + 128) :: UInt8.ofNat (v / 64 % 64 + 128) ::
          UInt8.ofNat (v % 64 + 128) :: rest) =
      (.char (Char.ofNat v), 3) := by
  obtain ⟨low, high, lead, second⟩ := leadOf_four above below
  have number : (((v / 262144 % 8 + 240) % 8 * 64 + v / 4096 % 64) * 64 + v / 64 % 64) * 64 +
      v % 64 = v := by omega
  simp only [firstPiece, lead, second.1, second.2, isTail_ofNat, tailBits_ofNat, decide_false,
    Bool.or_false, Bool.not_true, Bool.false_eq_true, Nat.reduceEqDiff, if_false,
    toNat_ofNat_of_lt (show v / 262144 % 8 + 240 < 256 by omega), number]

end

/-- The bytes of a character are its piece, whatever follows them. -/
theorem firstPiece_encoded (c : Char) :
    ∃ a more, String.utf8EncodeChar c = a :: more ∧
      ∀ rest, firstPiece a (more ++ rest) = (.char c, more.length) := by
  have valid : c.toNat < 0xD800 ∨ 0xDFFF < c.toNat ∧ c.toNat < 0x110000 := c.valid
  have back : Char.ofNat c.toNat = c := Char.ofNat_toNat c
  have number : c.val.toNat = c.toNat := rfl
  rw [String.utf8EncodeChar, number]
  generalize c.toNat = v at valid back
  subst back
  split_ifs with one two three
  · exact ⟨_, _, rfl, fun rest => firstPiece_one _ one⟩
  · exact ⟨_, _, rfl, fun rest => firstPiece_two rest (by omega) two⟩
  · exact ⟨_, _, rfl, fun rest => firstPiece_three rest (by omega) three (by omega)⟩
  · exact ⟨_, _, rfl, fun rest => firstPiece_four rest (by omega) (by omega)⟩

/-! ### Reading the bytes of a text -/

theorem toList_loop (bs : ByteArray) (i : Nat) (r : List UInt8) :
    ByteArray.toList.loop bs i r = r.reverse ++ bs.data.toList.drop i := by
  fun_induction ByteArray.toList.loop bs i r with
  | case1 i r more ih =>
    have within : i < bs.data.toList.length := by simpa using more
    have byte : bs.get! i = bs.data.toList[i] := by
      rw [Array.getElem_toList]
      exact getElem!_pos bs.data i more
    rw [ih, List.drop_eq_getElem_cons within, byte]
    simp
  | case2 i r ends =>
    rw [List.drop_eq_nil_of_le (by simpa using Nat.le_of_not_lt ends), List.append_nil]

theorem utf8_ofList (cs : List Char) : utf8 (String.ofList cs) = cs.flatMap String.utf8EncodeChar := by
  rw [utf8, ByteArray.toList, toList_loop]
  exact List.toList_data_toByteArray

theorem utf8_eq_flatMap (s : String) : utf8 s = s.toList.flatMap String.utf8EncodeChar := by
  rw [← utf8_ofList, String.ofList_toList]

theorem piecesFrom_append (skipped rest : Bytes) :
    piecesFrom skipped.length (skipped ++ rest) = pieces rest := by
  induction skipped with
  | nil => rfl
  | cons _ _ ih => exact ih

theorem pieces_encoded (cs : List Char) :
    pieces (cs.flatMap String.utf8EncodeChar) = cs.map .char := by
  induction cs with
  | nil => rfl
  | cons c rest ih =>
    obtain ⟨a, more, bytes, first⟩ := firstPiece_encoded c
    rw [List.flatMap_cons, bytes, List.cons_append, pieces, piecesFrom, first, List.map_cons, ← ih,
      ← piecesFrom_append more]

/-- The bytes of a text are read as that text. -/
@[simp] theorem lossy_utf8 (s : String) : lossy (utf8 s) = s := by
  rw [lossy, utf8_eq_flatMap, pieces_encoded, List.map_map]
  exact (congrArg String.ofList (List.map_id _)).trans (String.ofList_toList)

theorem utf8_inj {s t : String} : utf8 s = utf8 t ↔ s = t :=
  ⟨fun same => by rw [← lossy_utf8 s, same, lossy_utf8], congrArg utf8⟩

/-- A byte string is what it is read as exactly if it has the bytes of a text. -/
theorem utf8_lossy_iff {bs : Bytes} : utf8 (lossy bs) = bs ↔ ∃ s, bs = utf8 s :=
  ⟨fun same => ⟨_, same.symm⟩, fun ⟨_, text⟩ => by rw [text, lossy_utf8]⟩

end EntityScripting.Text
