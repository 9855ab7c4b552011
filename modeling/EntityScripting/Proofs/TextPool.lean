import EntityScripting.Proofs.Text.Order
import EntityScripting.TextPool
import Mathlib.Data.List.DropRight

/-!
# Interning is canonical

The copies in a pool are strictly in the order of their texts, so halving finds the copy of a text
or the one place where it belongs (`seek_copy`, `seek_slot`). Every call keeps that order and the
copies that are there, a reset apart, and no number is given out twice (`Sound`). So two results are
one allocation exactly if they are of one text and no reset came between (`interning_canonical`).
-/

namespace EntityScripting.TextPool

def InOrder (entries : List Interned) : Prop := entries.Pairwise fun a b => a.text < b.text

structure Cut (text : String) (entries front back : List Interned) : Prop where
  whole : entries = front ++ back
  below : ∀ entry ∈ front, entry.text < text
  above : ∀ entry ∈ back, text < entry.text

theorem Place.behind_eq_copy {more : Nat} {place : Place} {entry : Interned}
    (h : place.behind more = .copy entry) : place = .copy entry := by
  cases place with
  | copy other => exact h
  | slot before => cases h

theorem Place.behind_eq_slot {more before : Nat} {place : Place}
    (h : place.behind more = .slot before) : ∃ rest, place = .slot rest ∧ before = more + rest := by
  cases place with
  | copy entry => cases h
  | slot rest =>
    obtain rfl := Place.slot.inj h
    exact ⟨rest, rfl, rfl⟩

theorem eq_take_append {entries rest : List Interned} {n : Nat} {middle : Interned}
    (upper : entries.drop n = middle :: rest) : entries = entries.take n ++ middle :: rest := by
  rw [← upper, List.take_append_drop]

theorem seek_copy {text : String} {entries : List Interned} {entry : Interned}
    (found : seek text entries = .copy entry) : entry ∈ entries ∧ entry.text = text := by
  fun_induction seek text entries with
  | case1 => cases found
  | case2 entries half middle rest upper same =>
    obtain rfl := Place.copy.inj found
    refine ⟨?_, same.symm⟩
    exact List.mem_of_mem_drop (upper ▸ List.mem_cons_self)
  | case3 entries half middle rest upper other less ih =>
    obtain ⟨member, same⟩ := ih found
    exact ⟨List.mem_of_mem_take member, same⟩
  | case4 entries half middle rest upper other above ih =>
    obtain ⟨member, same⟩ := ih (Place.behind_eq_copy found)
    refine ⟨?_, same⟩
    exact List.mem_of_mem_drop (upper ▸ List.mem_cons_of_mem _ member)

theorem seek_slot {text : String} {entries : List Interned} {before : Nat} (ordered : InOrder entries)
    (ended : seek text entries = .slot before) :
    ∃ front back, front.length = before ∧ Cut text entries front back := by
  fun_induction seek text entries generalizing before with
  | case1 entries half =>
    rename_i upper
    have empty : entries = [] := by
      have short := List.drop_eq_nil_iff.mp upper
      apply List.eq_nil_of_length_eq_zero
      omega
    cases ended
    exact ⟨[], [], rfl, empty, by simp, by simp⟩
  | case2 => cases ended
  | case3 entries half middle rest upper other less =>
    rename_i ih
    have whole := eq_take_append upper
    rw [InOrder, whole, List.pairwise_append, List.pairwise_cons] at ordered
    obtain ⟨lower, ⟨next, -⟩, -⟩ := ordered
    obtain ⟨front, back, counted, cut⟩ := ih lower ended
    refine ⟨front, back ++ middle :: rest, counted, ?_, cut.below, ?_⟩
    · rw [← List.append_assoc, ← cut.whole]
      exact whole
    · intro entry member
      rcases List.mem_append.mp member with inner | member
      · exact cut.above entry inner
      · rcases List.mem_cons.mp member with rfl | later
        · exact less
        · exact less.trans (next entry later)
  | case4 entries half middle rest upper other above =>
    rename_i ih
    have whole := eq_take_append upper
    have greater : middle.text < text := lt_of_le_of_ne (not_lt.mp above) (Ne.symm other)
    have counted : (entries.take half).length = half := by
      rw [List.length_take]
      omega
    rw [InOrder, whole, List.pairwise_append, List.pairwise_cons] at ordered
    obtain ⟨-, ⟨-, higher⟩, across⟩ := ordered
    obtain ⟨inner, place, rfl⟩ := Place.behind_eq_slot ended
    obtain ⟨front, back, counted', cut⟩ := ih higher place
    refine ⟨entries.take half ++ middle :: front, back, ?_, ?_, ?_, cut.above⟩
    · rw [List.length_append, List.length_cons, counted, counted']
      omega
    · rw [List.append_assoc, List.cons_append, ← cut.whole]
      exact whole
    · intro entry member
      rcases List.mem_append.mp member with lower | member
      · exact (across entry lower middle List.mem_cons_self).trans greater
      · rcases List.mem_cons.mp member with rfl | inner
        · exact greater
        · exact cut.below entry inner

theorem Cut.inOrder {entries front back : List Interned} {copy : Interned}
    (cut : Cut copy.text entries front back) (ordered : InOrder entries) :
    InOrder (front ++ copy :: back) := by
  rw [InOrder, cut.whole, List.pairwise_append] at ordered
  obtain ⟨lower, upper, across⟩ := ordered
  refine List.pairwise_append.mpr ⟨lower, List.pairwise_cons.mpr ⟨cut.above, upper⟩, ?_⟩
  intro a front b member
  rcases List.mem_cons.mp member with rfl | back
  · exact cut.below a front
  · exact across a front b back

/-! ### One call -/

/-- A pool whose copies are in order, each under a number of its own that has been given out. -/
structure Sound (s : TextPool) : Prop where
  ordered : InOrder s.entries
  issued : ∀ entry ∈ s.entries, entry.allocation < s.next
  apart : ∀ a ∈ s.entries, ∀ b ∈ s.entries, a.allocation = b.allocation → a = b

theorem sound_empty (n : Nat) : Sound ⟨[], n⟩ := ⟨.nil, by simp, by simp⟩

theorem Sound.distinct {s : TextPool} (sound : s.Sound) : (s.entries.map (·.text)).Nodup :=
  List.pairwise_map.mpr (sound.ordered.imp fun less => less.ne)

theorem Sound.eq_of_text {s : TextPool} (sound : s.Sound) {a b : Interned} (ha : a ∈ s.entries)
    (hb : b ∈ s.entries) (same : a.text = b.text) : a = b :=
  List.inj_on_of_nodup_map sound.distinct ha hb same

/-- What asking for the copy of a text does: it is an old copy, or a new one beside the old ones. -/
structure Shares (s : TextPool) (text : String) (copy : Interned) (s' : TextPool) : Prop where
  asked : copy.text = text
  members : ∀ entry, entry ∈ s'.entries ↔ entry = copy ∨ entry ∈ s.entries
  origin : copy ∈ s.entries ∧ s'.next = s.next ∨
    copy.allocation = s.next ∧ s'.next = s.next + 1

theorem intern_shares {s : TextPool} (sound : s.Sound) (text : String) :
    (s.intern text).2.Sound ∧ Shares s text (s.intern text).1 (s.intern text).2 := by
  unfold intern
  cases place : seek text s.entries with
  | copy entry =>
    obtain ⟨member, same⟩ := seek_copy place
    refine ⟨sound, same, ?_, .inl ⟨member, rfl⟩⟩
    intro other
    constructor
    · exact .inr
    · rintro (rfl | held)
      · exact member
      · exact held
  | slot before =>
    obtain ⟨front, back, rfl, cut⟩ := seek_slot sound.ordered place
    have parts : s.entries.take front.length = front ∧ s.entries.drop front.length = back := by
      rw [cut.whole]
      exact ⟨List.take_left, List.drop_left⟩
    have members (entry : Interned) : entry ∈ front ++ ⟨text, s.next⟩ :: back ↔
        entry = ⟨text, s.next⟩ ∨ entry ∈ s.entries := by
      rw [cut.whole, List.mem_append, List.mem_cons, List.mem_append]
      tauto
    simp only [parts.1, parts.2]
    have ordered : InOrder (front ++ ⟨text, s.next⟩ :: back) := cut.inOrder sound.ordered
    refine ⟨⟨ordered, ?_, ?_⟩, rfl, members, .inr ⟨rfl, rfl⟩⟩
    · intro entry member
      rcases (members entry).mp member with rfl | held
      · show s.next < s.next + 1
        omega
      · show entry.allocation < s.next + 1
        have := sound.issued entry held
        omega
    · intro a ha b hb same
      rcases (members a).mp ha with rfl | ha
      · rcases (members b).mp hb with rfl | hb
        · rfl
        · exact absurd same (sound.issued b hb).ne'
      · rcases (members b).mp hb with rfl | hb
        · exact absurd same (sound.issued a ha).ne
        · exact sound.apart a ha b hb same

inductive Call where
  | intern (text : String)
  | intern? (text : Option String)
  | reset
deriving DecidableEq, Repr

def Call.text? : Call → Option String
  | .intern text => some text
  | .intern? text => text
  | .reset => none

def perform (s : TextPool) : Call → Option Interned × TextPool
  | .intern text => let (copy, s) := s.intern text; (some copy, s)
  | .intern? text => s.intern? text
  | .reset => (none, s.reset)

def after (s : TextPool) (calls : List Call) : TextPool :=
  calls.foldl (fun s call => (s.perform call).2) s

theorem perform_of_text {s : TextPool} {call : Call} {text : String}
    (asked : call.text? = some text) :
    s.perform call = (some (s.intern text).1, (s.intern text).2) := by
  cases call with
  | intern other =>
    obtain rfl := Option.some.inj asked
    rfl
  | intern? other =>
    obtain rfl : other = some text := asked
    rfl
  | reset => cases asked

theorem perform_of_no_text {s : TextPool} {call : Call} (none_asked : call.text? = none) :
    s.perform call = (none, s) ∨ call = .reset ∧ s.perform call = (none, s.reset) := by
  cases call with
  | intern text => cases none_asked
  | intern? text =>
    obtain rfl : text = none := none_asked
    exact .inl rfl
  | reset => exact .inr ⟨rfl, rfl⟩

/-- What a call does: it shares the text that it asks for, changes nothing, or resets. -/
theorem perform_cases {s : TextPool} (sound : s.Sound) (call : Call) :
    (∃ text copy, call.text? = some text ∧ (s.perform call).1 = some copy ∧
      (s.perform call).2.Sound ∧ Shares s text copy (s.perform call).2) ∨
    (call.text? = none ∧ call ≠ .reset ∧ s.perform call = (none, s)) ∨
    call = .reset ∧ s.perform call = (none, ⟨[], s.next⟩) := by
  cases asked : call.text? with
  | some text =>
    left
    obtain ⟨sound', shares⟩ := intern_shares sound text
    rw [perform_of_text asked]
    exact ⟨text, _, rfl, rfl, sound', shares⟩
  | none =>
    right
    by_cases resets : call = .reset
    · subst resets
      exact .inr ⟨rfl, rfl⟩
    · rcases perform_of_no_text (s := s) asked with same | ⟨resets', -⟩
      · exact .inl ⟨rfl, resets, same⟩
      · exact absurd resets' resets

theorem Sound.perform {s : TextPool} (sound : s.Sound) (call : Call) : (s.perform call).2.Sound := by
  rcases perform_cases sound call with ⟨text, copy, -, -, sound', -⟩ | ⟨-, -, same⟩ | ⟨-, same⟩
  · exact sound'
  · rw [same]
    exact sound
  · rw [same]
    exact sound_empty s.next

theorem after_append (s : TextPool) (calls later : List Call) :
    s.after (calls ++ later) = (s.after calls).after later := List.foldl_append

theorem Sound.after {s : TextPool} (sound : s.Sound) (calls : List Call) : (s.after calls).Sound := by
  induction calls generalizing s with
  | nil => exact sound
  | cons call calls ih => exact ih (sound.perform call)

/-- The copies stay while nothing is reset. -/
theorem mem_after {s : TextPool} (sound : s.Sound) {calls : List Call} (kept : .reset ∉ calls)
    {entry : Interned} (held : entry ∈ s.entries) : entry ∈ (s.after calls).entries := by
  induction calls generalizing s with
  | nil => exact held
  | cons call calls ih =>
    rw [List.mem_cons, not_or] at kept
    apply ih (sound.perform call) kept.2
    rcases perform_cases sound call with ⟨text, copy, -, -, -, shares⟩ | ⟨-, -, same⟩ | ⟨resets, -⟩
    · exact (shares.members entry).mpr (.inr held)
    · rw [same]
      exact held
    · exact absurd resets.symm kept.1

/-- A pool all of whose copies, those to come too, have this number or a later one. -/
structure Since (n : Nat) (s : TextPool) : Prop where
  next : n ≤ s.next
  copies : ∀ entry ∈ s.entries, n ≤ entry.allocation

theorem Since.perform {n : Nat} {s : TextPool} (sound : s.Sound) (since : Since n s) (call : Call) :
    Since n (s.perform call).2 := by
  rcases perform_cases sound call with ⟨text, copy, -, -, -, shares⟩ | ⟨-, -, same⟩ | ⟨-, same⟩
  · have next := since.next
    constructor
    · rcases shares.origin with ⟨-, stays⟩ | ⟨-, moves⟩ <;> omega
    · intro entry member
      rcases (shares.members entry).mp member with rfl | held
      · rcases shares.origin with ⟨old, -⟩ | ⟨fresh, -⟩
        · exact since.copies entry old
        · omega
      · exact since.copies entry held
  · rw [same]
    exact since
  · rw [same]
    exact ⟨since.next, by simp⟩

theorem Since.after {n : Nat} {s : TextPool} (sound : s.Sound) (since : Since n s)
    (calls : List Call) : Since n (s.after calls) := by
  induction calls generalizing s with
  | nil => exact since
  | cons call calls ih => exact ih (sound.perform call) (since.perform sound call)

theorem next_le_after {s : TextPool} (sound : s.Sound) (calls : List Call) :
    s.next ≤ (s.after calls).next := by
  induction calls generalizing s with
  | nil => exact Nat.le_refl _
  | cons call calls ih =>
    have step : s.next ≤ (s.perform call).2.next := by
      rcases perform_cases sound call with ⟨_, copy, -, -, -, shares⟩ | ⟨-, -, same⟩ | ⟨-, same⟩
      · rcases shares.origin with ⟨-, stays⟩ | ⟨-, moves⟩ <;> omega
      · rw [same]
      · rw [same]
    exact step.trans (ih (sound.perform call))

/-- A reset leaves no copy of those before it. -/
theorem since_after {n : Nat} {s : TextPool} (sound : s.Sound) (le : n ≤ s.next)
    {calls : List Call} (resets : .reset ∈ calls) : Since n (s.after calls) := by
  obtain ⟨before, later, rfl⟩ := List.append_of_mem resets
  have grows := next_le_after sound before
  rw [after_append]
  exact Since.after (sound_empty _) ⟨le.trans grows, by simp⟩ later

/-! ### What a pool holds -/

def texts (calls : List Call) : List String := (calls.rtakeWhile (· ≠ .reset)).filterMap Call.text?

theorem texts_append (calls : List Call) (call : Call) :
    texts (calls ++ [call]) = if call = .reset then [] else texts calls ++ call.text?.toList := by
  rw [texts, List.rtakeWhile_concat]
  by_cases resets : call = .reset
  · simp [resets]
  · cases asked : call.text? <;> simp [texts, resets, asked]

theorem mem_texts_iff (calls : List Call) (text : String) :
    text ∈ texts calls ↔ ∃ entry ∈ (after {} calls).entries, entry.text = text := by
  induction calls using List.reverseRecOn with
  | nil => simp [texts, after]
  | append_singleton calls call ih =>
    have sound := (sound_empty 0).after calls
    rw [texts_append, after_append]
    show _ ↔ ∃ entry ∈ (((after {} calls).perform call).2).entries, entry.text = text
    rcases perform_cases sound call with ⟨asked, copy, asks, -, -, shares⟩ | ⟨asks, keeps, same⟩ |
      ⟨resets, same⟩
    · have keeps : call ≠ .reset := by
        rintro rfl
        cases asks
      rw [if_neg keeps, asks, Option.toList_some, List.mem_append, List.mem_singleton, ih]
      constructor
      · rintro (⟨entry, held, same⟩ | rfl)
        · exact ⟨entry, (shares.members entry).mpr (.inr held), same⟩
        · exact ⟨copy, (shares.members copy).mpr (.inl rfl), shares.asked⟩
      · rintro ⟨entry, member, rfl⟩
        rcases (shares.members entry).mp member with rfl | held
        · exact .inr shares.asked
        · exact .inl ⟨entry, held, rfl⟩
    · rw [if_neg keeps, asks, Option.toList_none, List.append_nil, same]
      exact ih
    · rw [if_pos resets, same]
      simp

theorem mem_of_result {s : TextPool} (sound : s.Sound) {call : Call} {copy : Interned}
    (result : (s.perform call).1 = some copy) : copy ∈ (s.perform call).2.entries := by
  rcases perform_cases sound call with ⟨_, made, -, makes, -, shares⟩ | ⟨-, -, same⟩ | ⟨-, same⟩
  · obtain rfl := Option.some.inj (makes.symm.trans result)
    exact (shares.members made).mpr (.inl rfl)
  · rw [same] at result
    cases result
  · rw [same] at result
    cases result

/-- Two results are one allocation exactly if they are of one text and no reset came between. -/
theorem allocation_eq_iff {s : TextPool} (sound : s.Sound) {first second : Call}
    {between : List Call} {a b : Interned} (ha : (s.perform first).1 = some a)
    (hb : ((s.after (first :: between)).perform second).1 = some b) :
    a.allocation = b.allocation ↔ a.text = b.text ∧ .reset ∉ between := by
  have sound₁ := sound.perform first
  have sound₂ := sound₁.after between
  have sound₃ := sound₂.perform second
  have held := mem_of_result sound ha
  have there := mem_of_result sound₂ hb
  have issued := sound₁.issued a held
  by_cases resets : Call.reset ∈ between
  · -- What is there after a reset has a number that was not given out before.
    have later := (since_after sound₁ (Nat.le_refl _) resets).perform sound₂ second
    have above := later.copies b there
    constructor
    · intro same
      omega
    · rintro ⟨-, keeps⟩
      exact absurd resets keeps
  · have stays := mem_after sound₁ resets held
    have kept : a ∈ (((s.perform first).2.after between).perform second).2.entries := by
      rcases perform_cases sound₂ second with ⟨_, _, -, -, -, shares⟩ | ⟨-, -, same⟩ | ⟨-, same⟩
      · exact (shares.members a).mpr (.inr stays)
      · rw [same]
        exact stays
      · change (((s.perform first).2.after between).perform second).1 = some b at hb
        rw [same] at hb
        cases hb
    constructor
    · intro same
      exact ⟨congrArg Interned.text (sound₃.apart a kept b there same), resets⟩
    · rintro ⟨same, -⟩
      exact congrArg Interned.allocation (sound₃.eq_of_text kept there same)

/-- After any calls, a call for a text has a copy of just that text for its result, two results are
one allocation exactly if their texts are equal and no reset came between, the size is the number of
different texts since the last reset, and the copies are strictly in the order of their bytes. -/
theorem interning_canonical (calls : List Call) :
    (∀ call, (((after {} calls).perform call).1).map (·.text) = call.text?) ∧
    (∀ first between second, ∀ a ∈ ((after {} calls).perform first).1,
      ∀ b ∈ ((after {} (calls ++ first :: between)).perform second).1,
        (a.allocation = b.allocation ↔ a.text = b.text ∧ .reset ∉ between)) ∧
    (after {} calls).size = (texts calls).toFinset.card ∧
    (after {} calls).entries.Pairwise fun a b => Text.utf8 a.text < Text.utf8 b.text := by
  have sound : (after {} calls).Sound := (sound_empty 0).after calls
  refine ⟨?_, ?_, ?_, ?_⟩
  · intro call
    rcases perform_cases sound call with ⟨text, copy, asks, result, -, shares⟩ | ⟨asks, -, same⟩ |
      ⟨rfl, same⟩
    · rw [result, asks, Option.map_some, shares.asked]
    · rw [same, asks, Option.map_none]
    · rw [same]
      rfl
  · intro first between second a ha b hb
    rw [after_append] at hb
    exact allocation_eq_iff sound ha hb
  · have same : ((after {} calls).entries.map (·.text)).toFinset = (texts calls).toFinset := by
      ext text
      rw [List.mem_toFinset, List.mem_toFinset, mem_texts_iff, List.mem_map]
    rw [← same, List.toFinset_card_of_nodup sound.distinct, List.length_map, size]
  · exact sound.ordered.imp fun less => Text.utf8_lt_utf8_iff.mpr less

example :
    let s := after {} [.intern "door_open", .intern "alarm"]
    s.entries = [⟨"alarm", 1⟩, ⟨"door_open", 0⟩] ∧ (s.intern "door_open").1.allocation = 0 ∧
      (s.reset.intern "door_open").1.allocation = 2 := by
  decide

end EntityScripting.TextPool
