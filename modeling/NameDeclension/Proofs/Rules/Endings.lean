/-
# NameDeclension.Proofs.Rules.Endings — the verdicts of a table, read off its written forms

The patterns of the tables are written in small Cyrillic letters and the signs of the notation, so
lowering leaves them as they are and their slots can be read off the text (`passes_ends`). A slot
that takes one letter, or one of a list, says something about one place from the end. With the last
letter known, the verdicts of a table become a list of conditions on that letter and the one before
it, and a rule fires when its condition is the first of the list that holds (`firesAt_iff_firstOf`).
-/
import NameDeclension.Proofs.Lettercase.Signs
import NameDeclension.Proofs.Pattern.Row
import NameDeclension.Proofs.Rules.Firing

namespace NameDeclension

open Lettercase

/-! ## Kinds of letters -/

/-- Two lists of letters have none in common. -/
def Apart (letters others : String) : Prop :=
  (letters.toList.all fun c => !others.toList.contains c) = true

instance (letters others : String) : Decidable (Apart letters others) :=
  inferInstanceAs (Decidable (_ = true))

theorem Apart.not_mem {letters others : String} (h : Apart letters others) {c : Char}
    (hc : c ∈ letters.toList) : c ∉ others.toList := by
  simpa using List.all_eq_true.mp h c hc

/-! ## The last letter and the one in front of it -/

namespace Word

/-- The letter before the last one is there and is one of these. -/
def PrecededBy (w : Word) (letters : String) : Prop :=
  ∃ d, w.fromEnd? 1 = some d ∧ d ∈ letters.toList

/-- The letter before the last one is there and is none of these. -/
def PrecededByOther (w : Word) (letters : String) : Prop :=
  ∃ d, w.fromEnd? 1 = some d ∧ d ∉ letters.toList

theorem not_precededByOther_of_precededBy (w : Word) (letters : String)
    (h : w.PrecededBy letters) : ¬ w.PrecededByOther letters := by
  obtain ⟨d, hd, listed⟩ := h
  rintro ⟨d', hd', other⟩
  obtain rfl := Option.some.inj (hd.symm.trans hd')
  exact other listed

/-- One letter cannot be on two lists that have none in common. -/
theorem not_precededBy_of_apart (w : Word) {letters others : String}
    (apart : Apart letters others) (h : w.PrecededBy letters) : ¬ w.PrecededBy others := by
  obtain ⟨d, hd, listed⟩ := h
  rintro ⟨d', hd', other⟩
  obtain rfl := Option.some.inj (hd.symm.trans hd')
  exact apart.not_mem listed other

/-- The last letter is one of these. -/
def EndsIn (w : Word) (letters : String) : Prop :=
  ∃ c, w.fromEnd? 0 = some c ∧ c ∈ letters.toList

theorem endsIn_iff {w : Word} {c : Char} (hc : w.fromEnd? 0 = some c) (letters : String) :
    w.EndsIn letters ↔ c ∈ letters.toList := by
  simp [EndsIn, hc]

/-- Every word has a last letter. -/
theorem exists_last (w : Word) : ∃ c, w.fromEnd? 0 = some c := by
  have ne_nil : w.letters ≠ [] := by
    intro h
    exact w.spelling_ne_nil ((lower_eq_nil_iff _).mp h)
  rw [← Option.ne_none_iff_exists']
  intro h
  rw [fromEnd?, Text.fromEnd?_eq_none_iff] at h
  exact ne_nil (List.eq_nil_of_length_eq_zero (Nat.le_zero.mp h))

end Word

/-! ## What one slot asks -/

namespace Slot

@[simp] theorem accepts_literal_iff (letter : Char) (place : Option Char) :
    accepts (.literal letter false) place = true ↔ place = some letter := by
  cases place <;> simp [accepts]

@[simp] theorem accepts_oneOf_iff (members : List Char) (place : Option Char) :
    accepts (.oneOf members false) place = true ↔ ∃ c, place = some c ∧ c ∈ members := by
  cases place <;> simp [accepts]

@[simp] theorem accepts_noneOf_iff (members : List Char) (place : Option Char) :
    accepts (.oneOf members true) place = true ↔ ∃ c, place = some c ∧ c ∉ members := by
  cases place <;> simp [accepts]

@[simp] theorem accepts_wildcard (place : Option Char) : accepts .wildcard place = true := by
  cases place <;> rfl

end Slot

/-! ## What one guard asks -/

/-- The characters in which the tables write their patterns. -/
def isWritten (c : Char) : Bool := isCyrillicSmall c || Slot.special.contains c

theorem lower_of_written {t : Text} (h : t.all isWritten = true) : lower t = t := by
  apply lower_of_isSmall
  intro c hc
  have written := List.all_eq_true.mp h c hc
  rw [isWritten, Bool.or_eq_true, List.contains_iff_mem] at written
  rcases written with letter | sign
  · exact isSmall_of_isCyrillicSmall letter
  · exact isSmall_of_mem_special sign

namespace Rule

/-- **The guard for an end asks for the slots that its written form shows**, from the right. -/
theorem passes_ends {source : String} {valid : (Pattern.compile source.toList).toOption.isSome = true}
    (h : source.toList.all isWritten = true) (w : Word) :
    (ends source valid).passes w =
      Slot.takeFrom w.letters 0 (Slot.parse source.toList).1.reverse := by
  rw [ends, Guard.passes, Pattern.fits_eq_takeFrom, Pattern.row_ofValid, lower_of_written h]

theorem passes_equals_iff {literal : String} (h : literal.toList.all isWritten = true) (w : Word) :
    (equals literal).passes w = true ↔ w.letters = literal.toList := by
  rw [equals, Guard.passes, Word.isSpelled_iff, lower_of_written h]

/-! ## The first condition that holds -/

/-- **`FirstOf conditions n`** — the condition at the place `n` is the first of the list that
holds. -/
def FirstOf : List Prop → Nat → Prop
  | [], _ => False
  | p :: _, 0 => p
  | p :: conditions, n + 1 => ¬ p ∧ FirstOf conditions n

/-- **A rule fires when its verdict is the first in the table that holds.** -/
theorem firesAt_iff_firstOf (w : Word) (rules : List Rule) (n : Nat) :
    FiresAt w rules n ↔ FirstOf (rules.map fun rule => rule.guard.passes w = true) n := by
  induction rules generalizing n with
  | nil => exact Iff.rfl
  | cons rule rules ih =>
    cases n with
    | zero => exact Iff.rfl
    | succ n => rw [FiresAt, List.map_cons, FirstOf, ih, Bool.not_eq_true]

end Rule

end NameDeclension
