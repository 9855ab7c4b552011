import EntityScripting.Proofs.Number.FloatText
import EntityScripting.Proofs.Pool.Handle
import EntityScripting.Variable.Codec

/-!
# Saved values that read back

Every value reads back from its saved text as itself: numbers keep their kind and their bits, texts
may hold separators, and an entity that is there is found again. Only what is not a number and an
entity that is gone come back as another of their kind.
-/

namespace EntityScripting

open Number

namespace Text

theorem splitOnce_append {mark : Char} {front : List Char} (clear : mark ∉ front)
    (rest : List Char) : splitOnce mark (front ++ mark :: rest) = some (front, rest) := by
  have other : ∀ c ∈ front, (c != mark) = true := fun c member =>
    bne_iff_ne.mpr fun same => clear (same ▸ member)
  simp [splitOnce, List.takeWhile_append_of_pos other, List.dropWhile_append_of_pos other]

/-- Where a text begins with a tag and the first separator. -/
theorem splitOnce_tagged {front tag : String} (tagged : front.toList = tag.toList ++ [':'])
    (clear : ':' ∉ tag.toList) (text : String) :
    splitOnce ':' (front ++ text).toList = some (tag.toList, text.toList) := by
  rw [String.toList_append, tagged, List.append_assoc]
  exact splitOnce_append clear text.toList

theorem splitAt_of_clear {isEnd : Char → Bool} {cs : List Char}
    (clear : ∀ c ∈ cs, isEnd c = false) : splitAt isEnd cs = [cs] := by
  induction cs with
  | nil => rfl
  | cons c cs ih =>
    have rest := ih fun d member => clear d (List.mem_cons_of_mem c member)
    simp [splitAt, clear c List.mem_cons_self, rest]

theorem splitAt_append {isEnd : Char → Bool} {cs : List Char}
    (clear : ∀ c ∈ cs, isEnd c = false) {mark : Char} (ends : isEnd mark = true)
    (rest : List Char) : splitAt isEnd (cs ++ mark :: rest) = cs :: splitAt isEnd rest := by
  induction cs with
  | nil => simp [splitAt, ends]
  | cons c cs ih =>
    have rest := ih fun d member => clear d (List.mem_cons_of_mem c member)
    simp [splitAt, clear c List.mem_cons_self, rest]

theorem trimBlanks_of_clear {cs : List Char} (clear : ∀ c ∈ cs, isBlank c = false) :
    trimBlanks cs = cs := by
  have keep {ds : List Char} (clear : ∀ c ∈ ds, isBlank c = false) : ds.dropWhile isBlank = ds := by
    cases ds with
    | nil => rfl
    | cons c ds => simp [clear c List.mem_cons_self]
  rw [trimBlanks, keep clear, keep fun c member => clear c (List.mem_reverse.mp member),
    List.reverse_reverse]

end Text

namespace Number.PlainChar

variable {c : Char}

theorem not_blank (plain : PlainChar c) : Text.isBlank c = false := by
  rcases plain with digit | letter
  · have low : 48 ≤ c.toNat := by
      simp only [Char.isDigit, Bool.and_eq_true, decide_eq_true_eq] at digit
      exact UInt32.le_iff_toNat_le.mp digit.1
    have high : c.toNat ≤ 57 := by
      simp only [Char.isDigit, Bool.and_eq_true, decide_eq_true_eq] at digit
      exact UInt32.le_iff_toNat_le.mp digit.2
    simp [Text.isBlank]
    omega
  · simp only [List.mem_cons, List.not_mem_nil, or_false] at letter
    rcases letter with rfl | rfl | rfl | rfl | rfl | rfl | rfl <;> rfl

theorem ne_comma (plain : PlainChar c) : c ≠ ',' := by
  rcases plain with digit | letter
  · rintro rfl
    exact absurd digit (by decide)
  · rintro rfl
    simp at letter

end Number.PlainChar

namespace ScriptValue

/-! ### Reading by type -/

variable {key : String} {p : Pool}

def orMalformed (key tag text : String) : Option ScriptValue → Except CodecError ScriptValue
  | some value => .ok value
  | none => .error (.malformed key tag text)

theorem decode_number (text : String) :
    decode key p ("number:" ++ text) = orMalformed key "number" text (decodeNumber? text.toList) := by
  have split : Text.splitOnce ':' ("number:" ++ text).toList = some ("number".toList, text.toList) :=
    Text.splitOnce_tagged rfl (by decide) text
  simp only [decode, split, String.ofList_toList]
  rfl

theorem decode_boolean (text : String) :
    decode key p ("boolean:" ++ text) =
      orMalformed key "boolean" text (if text.toList = "true".toList then some (.boolean true)
        else if text.toList = "false".toList then some (.boolean false) else none) := by
  have split : Text.splitOnce ':' ("boolean:" ++ text).toList =
      some ("boolean".toList, text.toList) := Text.splitOnce_tagged rfl (by decide) text
  simp only [decode, split, String.ofList_toList]
  rfl

theorem decode_text (text : String) : decode key p ("string:" ++ text) = .ok (.text text) := by
  have split : Text.splitOnce ':' ("string:" ++ text).toList = some ("string".toList, text.toList) :=
    Text.splitOnce_tagged rfl (by decide) text
  simp only [decode, split, String.ofList_toList]

theorem decode_entity (text : String) :
    decode key p ("entity:" ++ text) = decodeEntity key p text.toList := by
  have split : Text.splitOnce ':' ("entity:" ++ text).toList = some ("entity".toList, text.toList) :=
    Text.splitOnce_tagged rfl (by decide) text
  simp only [decode, split, String.ofList_toList]

theorem decode_vector (text : String) :
    decode key p ("vector:" ++ text) = orMalformed key "vector" text (decodeVector? text.toList) := by
  have split : Text.splitOnce ':' ("vector:" ++ text).toList = some ("vector".toList, text.toList) :=
    Text.splitOnce_tagged rfl (by decide) text
  simp only [decode, split, String.ofList_toList]
  rfl

theorem decodeNumber?_intText (n : Int64) :
    decodeNumber? (intText n.toInt).toList = some (.integer n) := by
  have plain : looksFloat (intText n.toInt).toList = false := by
    refine List.any_eq_false.mpr fun c member => ?_
    rcases isDigit_or_minus_of_mem_intText member with rfl | digit
    · decide
    · intro mark
      simp only [Bool.or_eq_true, decide_eq_true_eq] at mark
      rcases mark with (((rfl | rfl) | rfl) | rfl) | rfl <;> exact absurd digit (by decide)
  rw [decodeNumber?, plain, int64?_intText, if_neg Bool.false_ne_true]

theorem decodeNumber?_storedText (x : Double) :
    ∃ y, decodeNumber? x.storedText.toList = some (.number y) ∧ x.Agrees y := by
  obtain ⟨c, member, mark⟩ := x.storedText_marked
  obtain ⟨y, read, same⟩ := x.ofText?_storedText
  have float : looksFloat x.storedText.toList = true := by
    refine List.any_eq_true.mpr ⟨c, member, ?_⟩
    rcases mark with rfl | rfl | rfl | rfl <;> rfl
  refine ⟨y, ?_, same⟩
  rw [decodeNumber?, float, if_pos rfl, read, Option.map_some]

theorem decodeVector?_text (v : Vec3) :
    ∃ x y z, decodeVector? (v.text ",").toList = some (.vector ⟨x, y, z⟩) ∧
      v.x.Agrees x ∧ v.y.Agrees y ∧ v.z.Agrees z := by
  obtain ⟨x, hx, sameX⟩ := v.x.ofText?_plainText
  obtain ⟨y, hy, sameY⟩ := v.y.ofText?_plainText
  obtain ⟨z, hz, sameZ⟩ := v.z.ofText?_plainText
  refine ⟨x, y, z, ?_, sameX, sameY, sameZ⟩
  have text : (v.text ",").toList = v.x.plainText.toList ++ ',' :: (v.y.plainText.toList ++
      ',' :: v.z.plainText.toList) := by
    have joined : v.text "," =
        v.x.plainText ++ "," ++ v.y.plainText ++ "," ++ v.z.plainText := rfl
    simp [joined]
  have comma (w : Single) : ∀ c ∈ w.plainText.toList, decide (c = ',') = false := fun c member =>
    decide_eq_false (Reading.plainChar_plainText binary32 _ c member).ne_comma
  have blank (w : Single) : Text.trimBlanks w.plainText.toList = w.plainText.toList :=
    Text.trimBlanks_of_clear fun c member =>
      (Reading.plainChar_plainText binary32 _ c member).not_blank
  have parts : Text.splitAt (· = ',') (v.text ",").toList =
      [v.x.plainText.toList, v.y.plainText.toList, v.z.plainText.toList] := by
    rw [text, Text.splitAt_append (comma v.x) rfl, Text.splitAt_append (comma v.y) rfl,
      Text.splitAt_of_clear (comma v.z)]
  simp [decodeVector?, parts, blank, hx, hy, hz, Vec3.ofComponents?]

theorem decodeEntity_gone : decodeEntity key p "-1".toList = .ok (.entity .invalid) := if_pos rfl

theorem decodeEntity_natText {index : Nat} (room : index < p.capacity)
    (fits : p.capacity ≤ UInt64.size) :
    decodeEntity key p (natText index).toList = .ok (.entity (p.wrap index)) := by
  obtain ⟨c, cs, written, digit, -⟩ := exists_digitsOf index
  have other : (natText index).toList ≠ "-1".toList := by
    rw [toList_natText, written]
    rintro ⟨⟩
    exact absurd digit (by decide)
  rw [decodeEntity, if_neg other, unsigned?_natText (room.trans_le fits)]
  exact if_neg (not_le.mpr room)

/-! ### All values -/

def Agrees : ScriptValue → ScriptValue → Prop
  | .number x, .number y => x.Agrees y
  | .vector v, .vector w => v.x.Agrees w.x ∧ v.y.Agrees w.y ∧ v.z.Agrees w.z
  | v, w => w = v

/-- What a value means in another pool: an entity is what its slot holds there, or none if it was
gone in its own pool. -/
def carry (p q : Pool) : ScriptValue → ScriptValue
  | .entity h => .entity (((h.resolve p).map q.wrap).getD .invalid)
  | v => v

/-- A value saved in one pool and read in another. -/
theorem decode_encode_carry {q : Pool} (key : String) (room : p.size ≤ q.capacity)
    (fits : q.capacity ≤ UInt64.size) (v : ScriptValue) :
    ∃ w, decode key q (v.encode p) = .ok w ∧ (v.carry p q).Agrees w := by
  cases v with
  | integer n =>
    refine ⟨.integer n, ?_, rfl⟩
    exact (decode_number (intText n.toInt)).trans (by rw [decodeNumber?_intText, orMalformed])
  | number x =>
    obtain ⟨y, read, same⟩ := decodeNumber?_storedText x
    refine ⟨.number y, ?_, same⟩
    exact (decode_number x.storedText).trans (by rw [read, orMalformed])
  | boolean b =>
    refine ⟨.boolean b, ?_, rfl⟩
    cases b with
    | true => exact (decode_boolean "true").trans rfl
    | false => exact (decode_boolean "false").trans rfl
  | text s => exact ⟨.text s, decode_text s, rfl⟩
  | entity h =>
    refine ⟨(ScriptValue.entity h).carry p q, ?_, rfl⟩
    cases resolved : h.resolve p with
    | none =>
      simp only [encode, carry, resolved]
      exact (decode_entity "-1").trans decodeEntity_gone
    | some id =>
      obtain ⟨rfl, e, found, -⟩ := (h.resolve_eq_some_iff p id).mp resolved
      have allocated : h.slot < p.size := (Array.getElem?_eq_some_iff.mp found).1
      simp only [encode, carry, resolved]
      exact (decode_entity (natText h.slot)).trans
        (decodeEntity_natText (allocated.trans_le room) fits)
  | vector v =>
    obtain ⟨x, y, z, read, same⟩ := decodeVector?_text v
    refine ⟨.vector ⟨x, y, z⟩, ?_, same⟩
    exact (decode_vector (v.text ",")).trans (by rw [read, orMalformed])

/-- What can be told of a value in a pool: one that was gone is no entity. -/
def standing (p : Pool) : ScriptValue → ScriptValue
  | .entity h => .entity (if h.isValid p then h else .invalid)
  | v => v

theorem carry_self (v : ScriptValue) : v.carry p p = v.standing p := by
  cases v with
  | entity h =>
    simp only [carry, standing, Handle.isValid]
    rcases Option.eq_none_or_eq_some (h.resolve p) with gone | ⟨id, resolved⟩
    · simp [gone]
    · simp [resolved, Pool.wrap_of_resolve resolved]
  | _ => rfl

/-- Every value reads back from its saved text. -/
theorem decode_encode {config : PoolConfig} (made : (Pool.new config).Reaches p)
    (fits : max config.maxEntities (config.maxClients + 1) ≤ UInt64.size) (key : String)
    (v : ScriptValue) : ∃ w, decode key p (v.encode p) = .ok w ∧ (v.standing p).Agrees w := by
  rw [← Pool.capacity_of_made made] at fits
  rw [← carry_self]
  exact decode_encode_carry key (Pool.size_le_of_made made) fits v

theorem decode_encode_spawned :
    ∃ w, decode "door" ((Pool.new {}).run [.spawn])
        ((ScriptValue.entity ⟨2, 0⟩).encode ((Pool.new {}).run [.spawn])) = .ok w ∧
      w = .entity ⟨2, 0⟩ := by
  have made : (Pool.new {}).Reaches ((Pool.new {}).run [.spawn]) := ⟨[.spawn], rfl⟩
  obtain ⟨w, read, same⟩ := decode_encode made (by decide) "door" (.entity ⟨2, 0⟩)
  exact ⟨w, read, same⟩

end ScriptValue

end EntityScripting
