/-
# NameDeclension.Proofs.Guard.Sight — how far a guard sees

A pattern has a number of places, and past the last of them it does not look. A guard that is built
from ends alone, by negations, conjunctions and disjunctions, sees as far as the pattern with the most
places (`sight`). Words that have the same letters there, or the same lack of letters where both are too
short, get the same verdict, whatever stands further left. The two other facts see the whole word: what
it is and how many syllables it has. Even these see its letters only, so `passes_eq_of_sight` bounds
what any guard may tell apart.
-/
import NameDeclension.Proofs.Guard.Letters
import NameDeclension.Rules.Basic

namespace NameDeclension

/-- The **number of places of a pattern**: of its letters if it names a tail, else of its slots. -/
def Pattern.places (pattern : Pattern) : Nat :=
  match pattern.body with
  | .tail letters => letters.length
  | .slots row => row.length

theorem Pattern.length_row (pattern : Pattern) : pattern.body.row.length = pattern.places := by
  unfold places
  cases pattern.body with
  | tail letters => exact List.length_map Slot.plain
  | slots row => rfl

namespace Guard

/-! ## The patterns in a guard -/

/-- The pattern of a fact about the end of a word. -/
def Fact.pattern? : Fact → Option Pattern
  | .ends pattern => some pattern
  | .equals _ => none
  | .syllables _ => none

/-- The patterns in a guard, from left to right. -/
def patterns (guard : Guard Pattern) : List Pattern := (facts guard).filterMap Fact.pattern?

/-- **`guard.AsksEndsOnly`** — all that the guard asks about a word is how it ends. -/
def AsksEndsOnly (guard : Guard Pattern) : Prop :=
  ∀ fact ∈ facts guard, fact.pattern?.isSome = true

instance (guard : Guard Pattern) : Decidable guard.AsksEndsOnly :=
  inferInstanceAs (Decidable (∀ fact ∈ facts guard, fact.pattern?.isSome = true))

/-- The **sight of a guard**: the largest number of places of a pattern in it. -/
def sight (guard : Guard Pattern) : Nat := ((patterns guard).map Pattern.places).max?.getD 0

theorem places_le_sight {guard : Guard Pattern} {pattern : Pattern} (h : pattern ∈ patterns guard) :
    pattern.places ≤ sight guard :=
  List.le_max?_getD_of_mem (List.mem_map_of_mem h)

/-! ## Words that a guard cannot tell apart -/

/-- A pattern in a guard sees no further than the guard. -/
theorem fits_eq_of_sight {guard : Guard Pattern} {pattern : Pattern} {u v : Word}
    (h : pattern ∈ patterns guard) (same : ∀ i < sight guard, u.fromEnd? i = v.fromEnd? i) :
    pattern.fits u = pattern.fits v := by
  apply Pattern.fits_congr
  intro slot _ i hi
  rw [Pattern.length_row] at hi
  rw [same i (Nat.lt_of_lt_of_le hi (places_le_sight h))]

/-- **Guards see only the ending.** Two words get the same verdict from a guard that asks about ends
only, if they agree on as many letters from the end as the guard has sight, a place before the start of
a word being one without a letter. From any guard at all they get the same verdict if they have the same
letters. -/
theorem passes_eq_of_sight :
    (∀ (guard : Guard Pattern) (u v : Word), guard.AsksEndsOnly →
      (∀ i < sight guard, u.fromEnd? i = v.fromEnd? i) → passes u guard = passes v guard) ∧
    ∀ (guard : Guard Pattern) (u v : Word), u.letters = v.letters →
      passes u guard = passes v guard := by
  refine ⟨?_, fun guard u v same => passes_congr same guard⟩
  intro guard u v ends same
  apply passes_congr_of_facts
  intro fact hfact
  obtain ⟨pattern, hpattern⟩ := Option.isSome_iff_exists.mp (ends fact hfact)
  have inside : pattern ∈ patterns guard := List.mem_filterMap.mpr ⟨fact, hfact, hpattern⟩
  cases fact with
  | ends other =>
    obtain rfl := Option.some.inj hpattern
    exact fits_eq_of_sight inside same
  | equals literal => exact absurd hpattern.symm (Option.some_ne_none pattern)
  | syllables count => exact absurd hpattern.symm (Option.some_ne_none pattern)

/-- The guard has sight of three letters, and these two surnames end in the same three. It does not
see where they begin, nor that one is written in capitals. -/
theorem passes_eq_of_sight_lov :
    AsksEndsOnly (.all [Rule.ends "![ая]ов", .not (Rule.ends "ев")]) ∧
      sight (.all [Rule.ends "![ая]ов", .not (Rule.ends "ев")]) = 3 ∧
      (∀ i < 3, Word.fromEnd? ⟨"Козлов".toList, by decide⟩ i =
        Word.fromEnd? ⟨"ОРЛОВ".toList, by decide⟩ i) ∧
      passes ⟨"Козлов".toList, by decide⟩ (.all [Rule.ends "![ая]ов", .not (Rule.ends "ев")]) =
        passes ⟨"ОРЛОВ".toList, by decide⟩ (.all [Rule.ends "![ая]ов", .not (Rule.ends "ев")]) := by
  have ends : AsksEndsOnly (.all [Rule.ends "![ая]ов", .not (Rule.ends "ев")]) := by
    decide +kernel
  have reach : sight (.all [Rule.ends "![ая]ов", .not (Rule.ends "ев")]) = 3 := by
    decide +kernel
  have same : ∀ i < 3, Word.fromEnd? ⟨"Козлов".toList, by decide⟩ i =
      Word.fromEnd? ⟨"ОРЛОВ".toList, by decide⟩ i := by
    decide +kernel
  exact ⟨ends, reach, same, passes_eq_of_sight.1 _ _ _ ends (reach ▸ same)⟩

end Guard

end NameDeclension
