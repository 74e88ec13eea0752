/-
# NameDeclension.Proofs.Guard.Length — a word that passes is long enough for its guard

`minLength` is computed from the guard alone: from the bounds of the facts that it asks about, by
taking the most over a conjunction and the least over a disjunction. That is sound whatever the bounds
of the facts are bounds of (`minLength_le_of_facts`); a negation asks for nothing, and an empty
disjunction, whose bound is 0, holds of no word.

The bound of a fact is one on the number of letters, for three reasons. A slot that is compared needs
a letter in its place, so the one that stands furthest from the end has all others behind it. A literal
is not longer than its small form. Each syllable is a letter.
-/
import NameDeclension.Proofs.Guard.Letters
import NameDeclension.Rules.Basic

namespace NameDeclension

/-! ## Slots and patterns -/

/-- Only a wildcard does without a letter. -/
theorem Slot.accepts_none (slot : Slot) : slot.accepts none = slot.isWildcard := by
  cases slot <;> rfl

/-- **Each slot that is compared has a letter to be compared with.** -/
theorem Slot.countP_le_of_scan {slots : List Slot} {letters : Text}
    (h : scan slots letters = true) :
    slots.countP (fun slot => !slot.isWildcard) ≤ letters.length := by
  induction slots generalizing letters with
  | nil => exact Nat.zero_le _
  | cons slot slots ih =>
    rw [scan, Bool.and_eq_true] at h
    cases letters with
    | nil =>
      -- past the start of the word all slots are wildcards
      have wildcard : slot.isWildcard = true := by
        rw [← accepts_none]
        exact h.1
      rw [List.countP_cons_of_neg (by simp [wildcard])]
      exact ih h.2
    | cons c letters =>
      have behind := ih h.2
      rw [List.countP_cons, List.length_cons]
      split
      · exact Nat.succ_le_succ behind
      · exact Nat.le_succ_of_le behind

namespace Pattern

/-- The letters of a tail are slots that are all compared. -/
theorem minLength_eq_countP (pattern : Pattern) :
    pattern.minLength = pattern.body.row.countP fun slot => !slot.isWildcard := by
  unfold minLength
  cases pattern.body with
  | slots row => rfl
  | tail letters =>
    have compared : ∀ slot ∈ letters.map Slot.plain, (!slot.isWildcard) = true := by
      intro slot hslot
      obtain ⟨c, -, rfl⟩ := List.mem_map.mp hslot
      rfl
    show letters.length = (letters.map Slot.plain).countP _
    rw [List.countP_eq_length.mpr compared, List.length_map]

theorem minLength_le_of_fits {pattern : Pattern} {w : Word} (h : pattern.fits w = true) :
    pattern.minLength ≤ w.length := by
  rw [fits_eq_scan] at h
  have compared := Slot.countP_le_of_scan h
  rwa [List.countP_reverse, List.length_reverse, ← minLength_eq_countP] at compared

end Pattern

namespace Guard

/-! ## Facts -/

/-- The number of letters that a fact needs. -/
def Fact.minLength : Fact → Nat
  | .ends pattern => pattern.minLength
  | .equals literal => literal.length
  | .syllables count => count

/-- **A word of which a fact is true has as many letters as the fact needs.** -/
theorem Fact.minLength_le_of_holds {fact : Fact} {w : Word} (h : fact.holds w = true) :
    fact.minLength ≤ w.length := by
  cases fact with
  | ends pattern => exact Pattern.minLength_le_of_fits h
  | equals literal =>
    have letters : w.letters = Lettercase.lower literal := Word.isSpelled_iff.mp h
    -- the literal is measured as it is written and compared lowered
    rw [Word.length, letters]
    exact Lettercase.length_le_length_lower literal
  | syllables count =>
    have counted : w.syllables = count := by simpa [holds] using h
    show count ≤ w.letters.length
    rw [← counted]
    exact List.countP_le_length

/-! ## Guards -/

section Facts

variable {w : Word} {n : Nat}

mutual

/-- **What bounds the facts that are true of a word bounds every guard that it passes.** -/
theorem minLength_le_of_facts :
    ∀ {guard : Guard Pattern},
      (∀ fact ∈ facts guard, fact.holds w = true → fact.minLength ≤ n) →
      passes w guard = true → minLength guard ≤ n
  | .ends _, h, hw => h _ List.mem_cons_self hw
  | .equals _, h, hw => h _ List.mem_cons_self hw
  | .syllables _, h, hw => h _ List.mem_cons_self hw
  | .not _, _, _ => Nat.zero_le n
  | .all _, h, hw => mostLength_le_of_facts h hw
  | .any _, h, hw => leastLength_le_of_facts h hw

theorem mostLength_le_of_facts :
    ∀ {guards : List (Guard Pattern)},
      (∀ fact ∈ factsOfAll guards, fact.holds w = true → fact.minLength ≤ n) →
      passesAll w guards = true → mostLength guards ≤ n
  | [], _, _ => Nat.zero_le n
  | guard :: guards, h, hw => by
    rw [factsOfAll, List.forall_mem_append] at h
    rw [passesAll, Bool.and_eq_true] at hw
    exact Nat.max_le.mpr ⟨minLength_le_of_facts h.1 hw.1, mostLength_le_of_facts h.2 hw.2⟩

theorem leastLength_le_of_facts :
    ∀ {guards : List (Guard Pattern)},
      (∀ fact ∈ factsOfAll guards, fact.holds w = true → fact.minLength ≤ n) →
      passesAny w guards = true → leastLength guards ≤ n
  | [], _, hw => absurd hw Bool.false_ne_true
  | [guard], h, hw => by
    rw [factsOfAll, List.forall_mem_append] at h
    rw [passesAny, passesAny, Bool.or_false] at hw
    exact minLength_le_of_facts h.1 hw
  | guard :: next :: guards, h, hw => by
    rw [factsOfAll, List.forall_mem_append] at h
    rw [passesAny, Bool.or_eq_true] at hw
    -- whichever guard the word passes, the least is not more than its bound
    rcases hw with first | later
    · exact Nat.le_trans (Nat.min_le_left _ _) (minLength_le_of_facts h.1 first)
    · exact Nat.le_trans (Nat.min_le_right _ _) (leastLength_le_of_facts h.2 later)

end

end Facts

/-- **A word that passes a guard has at least as many letters as the guard says it needs.** -/
theorem minLength_le_length {guard : Guard Pattern} {w : Word} (h : passes w guard = true) :
    minLength guard ≤ w.length :=
  minLength_le_of_facts (fun _ _ holds => Fact.minLength_le_of_holds holds) h

/-- A guard for patronymics of women needs four letters, and this one has nine. -/
theorem minLength_le_length_ilyinichna :
    passes ⟨"Ильинична".toList, by decide⟩ (.any [Rule.ends "[ое]вна", Rule.ends "ична"]) = true ∧
      minLength (.any [Rule.ends "[ое]вна", Rule.ends "ична"]) ≤
        Word.length ⟨"Ильинична".toList, by decide⟩ := by
  have passed : passes ⟨"Ильинична".toList, by decide⟩
      (.any [Rule.ends "[ое]вна", Rule.ends "ична"]) = true := by
    decide +kernel
  exact ⟨passed, minLength_le_length passed⟩

end Guard

end NameDeclension
