/-
# NameDeclension.Proofs.Pattern.Offsets — letters asked for by a number of 64 bits

The letter at an offset is the letter as many places before the last one, and offsets past the start
of the word name no letter. This holds of every offset but one. Places are counted from 1, so the
number of the place after the largest offset does not fit. It wraps to 0, which the comparison with the
length lets pass, and the program aborts looking for the letter behind the last instead of answering
"no letter" (`letterAt_last_aborts`).

A pattern never gets there. It asks for one letter after another from the end, as many as it has
slots, and the largest offset is that of slot number 2^64. So comparing a word with a pattern by offsets
gives an answer, the same as comparing it letter by letter (`fitsByOffset_eq_fits`). `letterAt_exact`
says both.
-/
import NameDeclension.Proofs.Pattern.Row

namespace NameDeclension

/-! ## One letter -/

theorem Text.fromEnd?_eq_getElem? (t : Text) (i : Nat) :
    t.fromEnd? i = if i < t.length then t[t.length - 1 - i]? else none := by
  by_cases inside : i < t.length
  · rw [fromEnd?, if_pos inside, List.getElem?_reverse inside]
  · rw [if_neg inside, fromEnd?_eq_none_iff]
    exact Nat.le_of_not_lt inside

namespace Word

/-- The place of an offset is one above it, unless its number does not fit. -/
theorem toNat_place_of_lt {offset : UInt64} (h : offset.toNat + 1 < UInt64.size) :
    (offset + 1).toNat = offset.toNat + 1 := by
  rw [UInt64.toNat_add]
  exact Nat.mod_eq_of_lt h

/-- The place of the largest offset wraps to 0. -/
theorem toNat_place_of_last {offset : UInt64} (h : offset.toNat + 1 = UInt64.size) :
    (offset + 1).toNat = 0 := by
  rw [UInt64.toNat_add]
  exact (congrArg (· % UInt64.size) h).trans (Nat.mod_self _)

/-- Below the largest offset, the letter is found or there is none. -/
theorem letterAt_of_lt (w : Word) {offset : UInt64} (h : offset.toNat + 1 < UInt64.size) :
    w.letterAt offset = .ok (w.fromEnd? offset.toNat) := by
  rw [letterAt, toNat_place_of_lt h, fromEnd?, Text.fromEnd?_eq_getElem?, length]
  by_cases inside : offset.toNat < w.letters.length
  · -- the place is one of the word, so its letter is found
    have index : w.letters.length - (offset.toNat + 1) = w.letters.length - 1 - offset.toNat := by
      omega
    have found : w.letters.length - 1 - offset.toNat < w.letters.length := by omega
    rw [if_pos (Nat.succ_le_of_lt inside), if_pos inside, index, List.getElem?_eq_getElem found]
  · rw [if_neg (by omega), if_neg inside]

/-- At the largest offset the letter behind the last is looked up, and the program aborts. -/
theorem letterAt_of_last (w : Word) {offset : UInt64} (h : offset.toNat + 1 = UInt64.size) :
    w.letterAt offset = .error .tooLarge := by
  have behind : w.letters[w.letters.length]? = none := List.getElem?_eq_none (Nat.le_refl _)
  rw [letterAt, toNat_place_of_last h, if_pos (Nat.zero_le _), Nat.sub_zero, length, behind]

end Word

/-! ## A row of slots -/

/-- Whether the slots take the letters at the offsets from the given one on. The first slot that does
not take its letter decides, and the letters behind it are not asked for. -/
def Slot.scanFrom (w : Word) : UInt64 → List Slot → Except Word.OffsetError Bool
  | _, [] => .ok true
  | offset, slot :: slots =>
    match w.letterAt offset with
    | .error e => .error e
    | .ok letter => if slot.accepts letter then scanFrom w (offset + 1) slots else .ok false

/-- Slots that stop below the largest offset are scanned without the program aborting. -/
theorem Slot.scanFrom_eq_takeFrom (w : Word) {slots : List Slot} {offset : UInt64}
    (h : offset.toNat + slots.length < UInt64.size) :
    scanFrom w offset slots = .ok (takeFrom w.letters offset.toNat slots) := by
  induction slots generalizing offset with
  | nil => rfl
  | cons slot slots ih =>
    rw [List.length_cons] at h
    have next : (offset + 1).toNat = offset.toNat + 1 := Word.toNat_place_of_lt (by omega)
    have later : scanFrom w (offset + 1) slots = .ok (takeFrom w.letters (offset.toNat + 1) slots) := by
      rw [← next]
      exact ih (by omega)
    rw [scanFrom, w.letterAt_of_lt (by omega), takeFrom]
    show (if slot.accepts (w.letters.fromEnd? offset.toNat) = true then _ else _) = _
    cases slot.accepts (w.letters.fromEnd? offset.toNat) with
    | false => rfl
    | true => rw [if_pos rfl, later, Bool.true_and]

namespace Pattern

/-- Whether the end of a word fits the pattern, its slots compared with letters at offsets. -/
def fitsByOffset (pattern : Pattern) (w : Word) : Except Word.OffsetError Bool :=
  match pattern.body with
  | .tail letters => .ok (w.endsWith letters)
  | .slots row => Slot.scanFrom w 0 row.reverse

theorem fitsByOffset_eq_fits {pattern : Pattern} (h : pattern.body.row.length < UInt64.size)
    (w : Word) : pattern.fitsByOffset w = .ok (pattern.fits w) := by
  obtain ⟨source, body⟩ := pattern
  cases body with
  | tail letters => rfl
  | slots row =>
    have inside : (0 : UInt64).toNat + row.reverse.length < UInt64.size := by
      rw [List.length_reverse, UInt64.toNat_zero, Nat.zero_add]
      exact h
    rw [fits_eq_takeFrom]
    exact Slot.scanFrom_eq_takeFrom w inside

end Pattern

/-! ## Every offset -/

namespace Word

/-- **Offsets are exact below the largest one.** An offset names the letter as many places before the
last one, or no letter if the word is not long enough, unless it is the largest offset, at which the
program aborts. No pattern asks for that one, so comparing a word with a pattern of fewer than 2^64
slots always gives an answer. -/
theorem letterAt_exact (w : Word) (offset : UInt64) :
    (w.letterAt offset =
        .ok (if offset.toNat < w.length then w.letters[w.length - 1 - offset.toNat]? else none) ↔
      offset.toNat + 1 < UInt64.size) ∧
    (w.letterAt offset = .error .tooLarge ↔ offset.toNat + 1 = UInt64.size) ∧
    ∀ pattern : Pattern, pattern.body.row.length < UInt64.size →
      pattern.fitsByOffset w = .ok (pattern.fits w) := by
  refine ⟨?_, ?_, fun _ h => Pattern.fitsByOffset_eq_fits h w⟩
  · constructor
    · intro answered
      refine Nat.lt_of_le_of_ne offset.toNat_lt fun last => ?_
      rw [w.letterAt_of_last last] at answered
      cases answered
    · intro below
      rw [w.letterAt_of_lt below, fromEnd?, Text.fromEnd?_eq_getElem?, length]
  · refine ⟨fun aborted => ?_, w.letterAt_of_last⟩
    refine (Nat.eq_or_lt_of_le offset.toNat_lt).resolve_right fun below => ?_
    rw [w.letterAt_of_lt below] at aborted
    cases aborted

/-- The name has three letters. A wildcard asks for a fourth and a fifth, and the offset before the
largest for one that no name has; the answer is that there is none. -/
theorem letterAt_exact_lev :
    letterAt ⟨"Лев".toList, by decide⟩ 2 = .ok (some 'л') ∧
      letterAt ⟨"Лев".toList, by decide⟩ 18446744073709551614 = .ok none ∧
      (Slot.parse "--[лг]!а-".toList).1.length < UInt64.size ∧
      Pattern.fitsByOffset ⟨"--[лг]!а-".toList, .slots (Slot.parse "--[лг]!а-".toList).1⟩
        ⟨"Лев".toList, by decide⟩ = .ok true := by
  have short : (Slot.parse "--[лг]!а-".toList).1.length < UInt64.size := by decide
  refine ⟨?_, ?_, short, ?_⟩
  · exact ((letterAt_exact _ 2).1.mpr (by decide)).trans rfl
  · exact ((letterAt_exact _ 18446744073709551614).1.mpr (by decide)).trans rfl
  · exact ((letterAt_exact _ 0).2.2
      ⟨"--[лг]!а-".toList, .slots (Slot.parse "--[лг]!а-".toList).1⟩ short).trans rfl

/-- **The largest offset has no answer**: the program aborts, though no word has a letter there. -/
theorem letterAt_last_aborts :
    ¬ ∀ (w : Word) (offset : UInt64), w.letterAt offset =
      .ok (if offset.toNat < w.length then w.letters[w.length - 1 - offset.toNat]? else none) := by
  intro total
  have aborted : letterAt ⟨"Лев".toList, by decide⟩ 18446744073709551615 = .error .tooLarge := rfl
  have answered := total ⟨"Лев".toList, by decide⟩ 18446744073709551615
  rw [aborted] at answered
  cases answered

end Word

end NameDeclension
