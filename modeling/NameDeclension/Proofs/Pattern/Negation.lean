/-
# NameDeclension.Proofs.Pattern.Negation — the sign of one place

A `!` asks for the other letters. That is not the complement of a match: where a word has no letter,
the slot and its negation both fail, and only a wildcard does without one. So of a slot and its
negation at most one takes what stands in a place, and one of them does just when a letter stands there
(`accepts_or_negate_iff`).

In a row the other places are tested on their own. What they say does not depend on the slot of this
one (`exists_others`), so three rows that differ in it alone, by the slot, its negation and a wildcard,
stand or fall together in all else. `negate_inverts_place` compares them.
-/
import NameDeclension.Proofs.Pattern.Alignment

namespace NameDeclension

namespace Slot

/-! ## One slot -/

/-- The **slot with its sign turned.** It takes the letters that the slot does not; a wildcard has no
sign. -/
def negate : Slot → Slot
  | .wildcard => .wildcard
  | .literal letter negated => .literal letter (!negated)
  | .oneOf members negated => .oneOf members (!negated)

@[simp] theorem isWildcard_negate (slot : Slot) : slot.negate.isWildcard = slot.isWildcard := by
  cases slot <;> rfl

/-- A letter that one of the two takes the other does not. -/
theorem accepts_negate {slot : Slot} (compared : slot.isWildcard = false) (c : Char) :
    slot.negate.accepts (some c) = !slot.accepts (some c) := by
  have turned : ∀ same negated : Bool, (same != !negated) = !(same != negated) := by decide
  cases slot with
  | wildcard => exact absurd compared (by decide)
  | literal letter negated => exact turned (c == letter) negated
  | oneOf members negated => exact turned (members.contains c) negated

/-- **One of a slot and its negation takes what stands in a place just when a letter stands there**, and
never do both. -/
theorem accepts_or_negate_iff {slot : Slot} (compared : slot.isWildcard = false)
    (place : Option Char) :
    ¬ (slot.accepts place = true ∧ slot.negate.accepts place = true) ∧
      ((slot.accepts place = true ∨ slot.negate.accepts place = true) ↔ place.isSome = true) := by
  cases place with
  | none =>
    have fails : slot.accepts none = false := by rw [accepts_none, compared]
    have fails' : slot.negate.accepts none = false := by
      rw [accepts_none, isWildcard_negate, compared]
    simp [fails, fails']
  | some c =>
    rw [accepts_negate compared]
    cases slot.accepts (some c) <;> simp

/-! ## One place of a row -/

/-- **The other places of a row are tested on their own**: what they say is the same whichever slot
stands in this one. -/
theorem exists_others {row : List Slot} {k : Nat} (h : k < row.length) (letters : Text) :
    ∃ others : Bool, ∀ slot : Slot, scan (row.set k slot).reverse letters =
      (slot.accepts letters[row.length - 1 - k]? && others) := by
  let before := row.take k
  let behind := row.drop (k + 1)
  have offset : behind.reverse.length = row.length - 1 - k := by
    rw [List.length_reverse, List.length_drop]
    omega
  refine ⟨scan behind.reverse letters &&
    scan before.reverse (letters.drop behind.reverse.length).tail, fun slot => ?_⟩
  have reversed : (row.set k slot).reverse = behind.reverse ++ slot :: before.reverse := by
    rw [List.set_eq_take_append_cons_drop, if_pos h, List.reverse_append, List.reverse_cons,
      List.append_assoc, List.singleton_append]
  rw [reversed, scan_append, scan, List.head?_drop, offset, Bool.and_left_comm]

/-- **Negation inverts one place and no other.** Take a slot of a row that is no wildcard, and the rows
with its negation and with a wildcard instead. No word fits both the first and the second. A word fits
one of them if and only if it fits the third and is so long that it has a letter in this place. -/
theorem negate_inverts_place {row : List Slot} {k : Nat} {slot : Slot} (hslot : row[k]? = some slot)
    (compared : slot.isWildcard = false) (w : Word) :
    ¬ (scan row.reverse w.letters.reverse = true ∧
        scan (row.set k slot.negate).reverse w.letters.reverse = true) ∧
      ((scan row.reverse w.letters.reverse = true ∨
          scan (row.set k slot.negate).reverse w.letters.reverse = true) ↔
        scan (row.set k .wildcard).reverse w.letters.reverse = true ∧
          row.length - 1 - k < w.length) := by
  obtain ⟨h, rfl⟩ := List.getElem?_eq_some_iff.mp hslot
  obtain ⟨others, split⟩ := exists_others h w.letters.reverse
  have itself := split row[k]
  rw [List.set_getElem_self] at itself
  have has_letter : w.letters.reverse[row.length - 1 - k]?.isSome = true ↔
      row.length - 1 - k < w.length := by
    rw [Option.isSome_iff_ne_none, Ne, ← Text.fromEnd?, Text.fromEnd?_eq_none_iff, Nat.not_le]
    rfl
  obtain ⟨not_both, either⟩ :=
    accepts_or_negate_iff compared w.letters.reverse[row.length - 1 - k]?
  rw [itself, split, split, ← has_letter, ← either]
  cases others with
  | false => simp
  | true => simpa [accepts] using not_both

/-- The row `и-` and its negation both ask for a letter before the last. This word has none and fits
neither, although it fits the row of two wildcards. -/
theorem negate_inverts_place_ya :
    [literal 'и' false, wildcard][0]? = some (literal 'и' false) ∧
      (literal 'и' false).isWildcard = false ∧
      scan [wildcard, wildcard].reverse (Word.letters ⟨['Я'], by decide⟩).reverse = true ∧
      ¬ (scan [literal 'и' false, wildcard].reverse (Word.letters ⟨['Я'], by decide⟩).reverse = true ∨
        scan [literal 'и' true, wildcard].reverse (Word.letters ⟨['Я'], by decide⟩).reverse = true) := by
  have hslot : [literal 'и' false, wildcard][0]? = some (literal 'и' false) := rfl
  have compared : (literal 'и' false).isWildcard = false := rfl
  refine ⟨hslot, compared, by decide +kernel, fun either => ?_⟩
  -- a word that fits one of the two has a letter in the place
  have long : 1 < Word.length ⟨['Я'], by decide⟩ :=
    ((negate_inverts_place hslot compared ⟨['Я'], by decide⟩).2.mp either).2
  exact absurd long (by decide +kernel)

end Slot

end NameDeclension
