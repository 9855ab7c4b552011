import EntityScripting.Proofs.Text.Utf8
import Mathlib.Data.String.Basic

/-!
# The order of texts

Texts are compared by their characters, from the first one on. Their bytes compare the same way: a
greater character has the greater bytes, and no character's bytes begin with those of another.
-/

namespace EntityScripting.Text

theorem ofNat_lt_ofNat_iff {m n : Nat} (hm : m < 256) (hn : n < 256) :
    UInt8.ofNat m < UInt8.ofNat n ↔ m < n := by
  rw [UInt8.lt_iff_toNat_lt, toNat_ofNat_of_lt hm, toNat_ofNat_of_lt hn]

theorem ofNat_eq_ofNat_iff {m n : Nat} (hm : m < 256) (hn : n < 256) :
    UInt8.ofNat m = UInt8.ofNat n ↔ m = n := by
  rw [← UInt8.toNat_inj, toNat_ofNat_of_lt hm, toNat_ofNat_of_lt hn]

/-- Bytes that differ compare like the numbers they are made of. -/
theorem cons_lt_cons_of_lt {m n : Nat} (hn : n < 256) (less : m < n) (rest rest' : Bytes) :
    UInt8.ofNat m :: rest < UInt8.ofNat n :: rest' := by
  rw [List.cons_lt_cons_iff]
  left
  rwa [ofNat_lt_ofNat_iff (by omega) hn]

theorem cons_lt_cons_of_le {m n : Nat} (hm : m < 256) (hn : n < 256) {rest rest' : Bytes}
    (le : m ≤ n) (later : m = n → rest < rest') :
    UInt8.ofNat m :: rest < UInt8.ofNat n :: rest' := by
  rw [List.cons_lt_cons_iff, ofNat_lt_ofNat_iff hm hn, ofNat_eq_ofNat_iff hm hn]
  by_cases same : m = n
  · exact .inr ⟨same, later same⟩
  · left
    omega

/-- A greater character has the greater bytes, whatever follows them. -/
theorem encoded_lt_encoded {c d : Char} (less : c < d) (rest rest' : Bytes) :
    String.utf8EncodeChar c ++ rest < String.utf8EncodeChar d ++ rest' := by
  have numbers : c.toNat < d.toNat := less
  have bound : d.toNat < 0x110000 := by
    have valid : d.toNat < 0xD800 ∨ 0xDFFF < d.toNat ∧ d.toNat < 0x110000 := d.valid
    omega
  rw [String.utf8EncodeChar, String.utf8EncodeChar, show c.val.toNat = c.toNat from rfl,
    show d.val.toNat = d.toNat from rfl]
  generalize c.toNat = u at numbers
  generalize d.toNat = v at numbers bound
  -- A longer form starts with a greater byte; in the same form the first byte that differs decides.
  split_ifs <;> first
    | exact cons_lt_cons_of_lt (by omega) (by omega) _ _
    | omega
    | skip
  · apply cons_lt_cons_of_le (by omega) (by omega) (by omega)
    intro same
    exact cons_lt_cons_of_lt (by omega) (by omega) _ _
  · apply cons_lt_cons_of_le (by omega) (by omega) (by omega)
    intro same
    apply cons_lt_cons_of_le (by omega) (by omega) (by omega)
    intro same'
    exact cons_lt_cons_of_lt (by omega) (by omega) _ _
  · apply cons_lt_cons_of_le (by omega) (by omega) (by omega)
    intro same
    apply cons_lt_cons_of_le (by omega) (by omega) (by omega)
    intro same'
    apply cons_lt_cons_of_le (by omega) (by omega) (by omega)
    intro same''
    exact cons_lt_cons_of_lt (by omega) (by omega) _ _

theorem append_lt_append_left (front : Bytes) {bs bs' : Bytes} (less : bs < bs') :
    front ++ bs < front ++ bs' := by
  induction front with
  | nil => exact less
  | cons b front ih =>
    rw [List.cons_append, List.cons_append, List.cons_lt_cons_iff]
    exact .inr ⟨rfl, ih⟩

theorem flatMap_encoded_lt {cs ds : List Char} (less : cs < ds) :
    cs.flatMap String.utf8EncodeChar < ds.flatMap String.utf8EncodeChar := by
  induction cs generalizing ds with
  | nil =>
    cases ds with
    | nil => exact absurd less (List.lt_irrefl _)
    | cons d ds =>
      obtain ⟨a, more, bytes, -⟩ := firstPiece_encoded d
      rw [List.flatMap_nil, List.flatMap_cons, bytes, List.cons_append]
      exact List.nil_lt_cons _ _
  | cons c cs ih =>
    cases ds with
    | nil => exact absurd less (List.not_lt_nil _)
    | cons d ds =>
      rw [List.flatMap_cons, List.flatMap_cons]
      rcases List.cons_lt_cons_iff.mp less with first | ⟨rfl, later⟩
      · exact encoded_lt_encoded first _ _
      · exact append_lt_append_left _ (ih later)

/-- Texts are in the order of their bytes. -/
theorem utf8_lt_utf8_iff {s t : String} : utf8 s < utf8 t ↔ s < t := by
  have keeps {s t : String} (less : s < t) : utf8 s < utf8 t := by
    rw [utf8_eq_flatMap, utf8_eq_flatMap]
    exact flatMap_encoded_lt (String.lt_iff_toList_lt.mp less)
  constructor
  · intro less
    rcases lt_trichotomy s t with before | rfl | after
    · exact before
    · exact absurd less (List.lt_irrefl _)
    · exact absurd (keeps after) (List.lt_asymm less)
  · exact keeps

end EntityScripting.Text
