/-
# NameDeclension.Proofs.Rules.FirstNames — the cascades for first names, decided by letters

The tables for first names are flat lists in which a rule relies on all rules above it: a sibilant is
a consonant, й is a consonant, `-` does not ask for a letter, `!` does. What they come to is a nested
decision: first the irregular names, then the last letter, then the letter before it (which a name of
one letter has not), then for -ия the number of syllables.

`maleFirstNameCondition` and `femaleFirstNameCondition` give that decision, one condition for each
place of the table, and `firstName_decidedBy` says that exactly the rule whose condition holds fires,
for every word. The argument is the same for both: read the verdicts off the table, sort the letters
into kinds that exclude each other, and compare the cascade with the conditions place by place.
-/
import NameDeclension.Proofs.Rules.Endings

namespace NameDeclension.Rules

open NameDeclension.Rule (FiresAt FirstOf firesAt_iff_firstOf passes_ends passes_equals_iff)

/-! ## Kinds of letters -/

/-- A consonant is a sibilant or ц, the letter й, or one of the others. -/
theorem mem_consonants_iff (c : Char) :
    c ∈ "бвгджзлмнрйпфктшсхцчщ".toList ↔
      c ∈ "жчшщц".toList ∨ c = 'й' ∨ c ∈ "бвгдзлмнрпфктсх".toList := by
  have sorted : List.Perm "бвгджзлмнрйпфктшсхцчщ".toList
      ("жчшщц".toList ++ 'й' :: "бвгдзлмнрпфктсх".toList) := by decide
  rw [sorted.mem_iff, List.mem_append, List.mem_cons]

/-! ## First names of men -/

/-- The two names that lose a vowel. -/
def IsIrregular (w : Word) : Prop := w.letters = "павел".toList ∨ w.letters = "лев".toList

/-- **`maleFirstNameCondition w c n`** — what a word `w` with the last letter `c` has to be for the
rule at the place `n` to fire. -/
def maleFirstNameCondition (w : Word) (c : Char) : Nat → Prop
  | 0 => w.letters = "павел".toList
  | 1 => w.letters = "лев".toList
  | 2 => ¬ IsIrregular w ∧ c ∈ "жчшщц".toList
  | 3 => ¬ IsIrregular w ∧ c = 'й' ∧ w.PrecededBy "аеёоуяю"
  | 4 => ¬ IsIrregular w ∧ c = 'й' ∧ ¬ w.PrecededBy "аеёоуяю"
  | 5 => ¬ IsIrregular w ∧ c ∈ "бвгдзлмнрпфктсх".toList
  | 6 => ¬ IsIrregular w ∧ c = 'ь' ∧ w.PrecededBy "бвгджзлмнрйпфктшсхцчщ"
  | 7 => ¬ IsIrregular w ∧ c = 'а' ∧ w.PrecededByOther "жчшщгкхц"
  | 8 => ¬ IsIrregular w ∧ c = 'а' ∧ ¬ w.PrecededByOther "жчшщгкхц"
  | 9 => ¬ IsIrregular w ∧ c = 'я' ∧ (w.PrecededBy "и" ∧ w.syllables ≠ 2)
  | 10 => ¬ IsIrregular w ∧ c = 'я' ∧ ¬ (w.PrecededBy "и" ∧ w.syllables ≠ 2)
  | _ => False

section

variable {w : Word} {c : Char}

/-- The verdicts of the table, each without regard to the rules above it. -/
theorem verdicts_maleFirstName (hc : w.fromEnd? 0 = some c) :
    (maleFirstName.map fun rule => rule.guard.passes w = true) = [
      w.letters = "павел".toList,
      w.letters = "лев".toList,
      c ∈ "жчшщц".toList,
      c = 'й' ∧ w.PrecededBy "аеёоуяю",
      c = 'й',
      c ∈ "бвгджзлмнрйпфктшсхцчщ".toList,
      c = 'ь' ∧ w.PrecededBy "бвгджзлмнрйпфктшсхцчщ",
      c = 'а' ∧ w.PrecededByOther "жчшщгкхц",
      c = 'а',
      c = 'я' ∧ w.PrecededBy "и" ∧ w.syllables ≠ 2,
      c = 'я'] := by
  have last : Text.fromEnd? w.letters 0 = some c := hc
  simp (disch := decide) only [maleFirstName, List.map_cons, List.map_nil, Guard.passes,
    Guard.passesAll, passes_ends, passes_equals_iff]
  simp [Slot.parse, Slot.read, Slot.readMembers, Slot.takeFrom, last, Word.fromEnd?,
    Word.PrecededBy, Word.PrecededByOther]

/-- The irregular names end in hard consonants, so the rules for those would take them too. -/
theorem hard_of_isIrregular (hc : w.fromEnd? 0 = some c) (h : IsIrregular w) :
    c ∈ "бвгдзлмнрпфктсх".toList := by
  rw [Word.fromEnd?] at hc
  rcases h with pavel | lev
  · rw [pavel] at hc
    obtain rfl := Option.some.inj hc
    decide
  · rw [lev] at hc
    obtain rfl := Option.some.inj hc
    decide

theorem firesAt_maleFirstName_iff (hc : w.fromEnd? 0 = some c) (n : Nat) :
    FiresAt w maleFirstName n ↔ maleFirstNameCondition w c n := by
  rw [firesAt_iff_firstOf, verdicts_maleFirstName hc]
  have consonant := mem_consonants_iff c
  have sibilant : c ∈ "жчшщц".toList → c ∉ "бвгдзлмнрпфктсх".toList := Apart.not_mem (by decide)
  have sibilant' : c ∈ "жчшщц".toList → c ∉ "йьая".toList := Apart.not_mem (by decide)
  have hard : c ∈ "бвгдзлмнрпфктсх".toList → c ∉ "йьая".toList := Apart.not_mem (by decide)
  have irregular := hard_of_isIrregular hc
  have differ : w.letters = "павел".toList → w.letters ≠ "лев".toList := by
    intro h
    rw [h]
    decide
  simp only [IsIrregular] at irregular
  -- with the kinds kept apart, what each place adds to those above it is propositional
  match n with
  | 0 => exact Iff.rfl
  | 1 | 2 | 3 | 4 | 5 | 6 | 7 | 8 | 9 | 10 =>
    simp only [FirstOf, maleFirstNameCondition, IsIrregular]
    grind
  | n + 11 =>
    simp only [FirstOf, maleFirstNameCondition, and_false]

end

/-! ## First names of women -/

/-- **`femaleFirstNameCondition w c n`** — what a word `w` with the last letter `c` has to be for the
rule at the place `n` to fire. -/
def femaleFirstNameCondition (w : Word) (c : Char) : Nat → Prop
  | 0 => c = 'а' ∧ w.PrecededByOther "гкхцжчшщ"
  | 1 => c = 'а' ∧ w.PrecededBy "гкхцжчшщ"
  | 2 => w.letters = ['а']
  | 3 => c = 'я' ∧ w.PrecededBy "и" ∧ w.syllables = 2
  | 4 => c = 'я' ∧ w.PrecededBy "и" ∧ w.syllables ≠ 2
  | 5 => c = 'я' ∧ ¬ w.PrecededBy "и"
  | 6 => c ∈ "ёюеиь".toList ∧ w.PrecededBy "бвгджзлмнрйпфктшсхцчщ"
  | 7 => c ∈ "жчшщ".toList
  | _ => False

section

variable {w : Word} {c : Char}

/-- The verdicts of the table, each without regard to the rules above it. -/
theorem verdicts_femaleFirstName (hc : w.fromEnd? 0 = some c) :
    (femaleFirstName.map fun rule => rule.guard.passes w = true) = [
      c = 'а' ∧ w.PrecededByOther "гкхцжчшщ",
      c = 'а' ∧ w.PrecededBy "гкхцжчшщ",
      c = 'а',
      c = 'я' ∧ w.PrecededBy "и" ∧ w.syllables = 2,
      c = 'я' ∧ w.PrecededBy "и",
      c = 'я',
      c ∈ "яёюеиь".toList ∧ w.PrecededBy "бвгджзлмнрйпфктшсхцчщ",
      c ∈ "жчшщ".toList] := by
  have last : Text.fromEnd? w.letters 0 = some c := hc
  simp (disch := decide) only [femaleFirstName, List.map_cons, List.map_nil, Guard.passes,
    Guard.passesAll, passes_ends]
  simp [Slot.parse, Slot.read, Slot.readMembers, Slot.takeFrom, last, Word.fromEnd?,
    Word.PrecededBy, Word.PrecededByOther]

/-- Only a name of one letter has neither one of some letters nor another before its last one. -/
theorem letters_eq_singleton_iff (hc : w.fromEnd? 0 = some c) (letters : String) :
    w.letters = [c] ↔ ¬ w.PrecededByOther letters ∧ ¬ w.PrecededBy letters := by
  constructor
  · intro h
    have missing : w.fromEnd? 1 = none := by rw [Word.fromEnd?, h]; rfl
    simp [Word.PrecededByOther, Word.PrecededBy, missing]
  · rintro ⟨notOther, notOne⟩
    have missing : w.fromEnd? 1 = none := by
      rw [Option.eq_none_iff_forall_ne_some]
      intro d hd
      by_cases listed : d ∈ letters.toList
      · exact notOne ⟨d, hd, listed⟩
      · exact notOther ⟨d, hd, listed⟩
    rw [Word.fromEnd?, Text.fromEnd?_eq_none_iff] at missing
    rw [Word.fromEnd?] at hc
    match hletters : w.letters, missing with
    | [], _ => rw [hletters] at hc; exact absurd hc (by simp [Text.fromEnd?])
    | [d], _ => rw [hletters] at hc; simpa [Text.fromEnd?] using hc

theorem firesAt_femaleFirstName_iff (hc : w.fromEnd? 0 = some c) (n : Nat) :
    FiresAt w femaleFirstName n ↔ femaleFirstNameCondition w c n := by
  rw [firesAt_iff_firstOf, verdicts_femaleFirstName hc]
  have soft : c ∈ "яёюеиь".toList ↔ c = 'я' ∨ c ∈ "ёюеиь".toList := by simp
  have vowel : c ∈ "ёюеиь".toList → c ∉ "ая".toList := Apart.not_mem (by decide)
  have sibilant : c ∈ "жчшщ".toList → c ∉ "ёюеиь".toList := Apart.not_mem (by decide)
  have sibilant' : c ∈ "жчшщ".toList → c ∉ "ая".toList := Apart.not_mem (by decide)
  have exclusive := w.not_precededByOther_of_precededBy "гкхцжчшщ"
  -- after the first two rules, а is left only when nothing stands before it
  have bare := letters_eq_singleton_iff hc "гкхцжчшщ"
  have bareLast : w.letters = ['а'] → c = 'а' := by
    intro h
    rw [Word.fromEnd?, h] at hc
    exact (Option.some.inj hc).symm
  match n with
  | 0 => exact Iff.rfl
  | 1 | 2 | 3 | 4 | 5 | 6 | 7 =>
    simp only [FirstOf, femaleFirstNameCondition]
    grind
  | n + 8 =>
    simp only [FirstOf, femaleFirstNameCondition, and_false]

end

/-! ## The rule of a first name -/

/-- **The cascades for first names decide by the last letter and the one before it**, for every word.
Every word has a last letter. -/
theorem firstName_decidedBy (w : Word) :
    ∃ c, w.fromEnd? 0 = some c ∧
      w.DecidedBy .maleFirstName (maleFirstNameCondition w c) ∧
      w.DecidedBy .femaleFirstName (femaleFirstNameCondition w c) := by
  obtain ⟨c, hc⟩ := w.exists_last
  refine ⟨c, hc, ?_, ?_⟩
  · exact Word.decidedBy_of_firesAt_iff (firesAt_maleFirstName_iff hc)
  · exact Word.decidedBy_of_firesAt_iff (firesAt_femaleFirstName_iff hc)

end NameDeclension.Rules
