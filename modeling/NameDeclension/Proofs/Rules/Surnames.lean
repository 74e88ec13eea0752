/-
# NameDeclension.Proofs.Rules.Surnames — the cascades for surnames, decided by letters

A surname is declined by its ending. For men the last letter and the one before it decide: the
possessive surnames (-ов, -ев, -ин), the three endings of adjectives, the consonants, and what is left
of й and ь. The consonants come after the possessive surnames and leave out the genitive plurals
(-их, -ых), so those and the words with another last letter stay as they are. For women only four
endings are known.

`maleSurnameCondition` and `femaleSurnameCondition` give the decision place by place, and
`surname_decidedBy` says that exactly the rule whose condition holds fires, for every word, and which
words no rule takes.
-/
import NameDeclension.Proofs.Rules.Endings

namespace NameDeclension.Rules

open NameDeclension.Rule (FiresAt FirstOf firesAt_iff_firstOf passes_ends)

/-! ## Surnames of men -/

/-- A possessive surname: the word ends in -ов, -ев or -ин. -/
def IsPossessive (w : Word) (c : Char) : Prop :=
  (c = 'в' ∧ w.PrecededBy "ое") ∨ (c = 'н' ∧ w.PrecededBy "и")

/-- **`maleSurnameCondition w c n`** — what a word `w` with the last letter `c` has to be for the rule
at the place `n` to fire. -/
def maleSurnameCondition (w : Word) (c : Char) : Nat → Prop
  | 0 => IsPossessive w c
  | 1 => c = 'й' ∧ w.PrecededBy "о"
  | 2 => c = 'й' ∧ w.PrecededBy "ы"
  | 3 => c = 'й' ∧ w.PrecededBy "и"
  | 4 => c ∈ "бвгджзлмнрпфктшсхцчщ".toList ∧ ¬ IsPossessive w c ∧ ¬ (c = 'х' ∧ w.PrecededBy "иы")
  | 5 => c = 'ь' ∨ (c = 'й' ∧ ¬ w.PrecededBy "оыи")
  | _ => False

section

variable {w : Word} {c : Char}

/-- The verdicts of the table, each without regard to the rules above it. -/
theorem verdicts_maleSurname (hc : w.fromEnd? 0 = some c) :
    (maleSurname.map fun rule => rule.guard.passes w = true) = [
      IsPossessive w c,
      c = 'й' ∧ w.PrecededBy "о",
      c = 'й' ∧ w.PrecededBy "ы",
      c = 'й' ∧ w.PrecededBy "и",
      (c ≠ 'х' ∨ ¬ w.PrecededBy "иы") ∧ c ∈ "бвгджзлмнрпфктшсхцчщ".toList,
      c = 'й' ∨ c = 'ь'] := by
  have last : Text.fromEnd? w.letters 0 = some c := hc
  simp (disch := decide) only [maleSurname, List.map_cons, List.map_nil, Guard.passes,
    Guard.passesAll, Guard.passesAny, passes_ends]
  simp [-Bool.not_eq_true, Bool.eq_false_iff, Slot.parse, Slot.read, Slot.readMembers,
    Slot.takeFrom, last, Word.fromEnd?, Word.PrecededBy, IsPossessive]

theorem precededBy_vowel_iff : w.PrecededBy "оыи" ↔
    w.PrecededBy "о" ∨ w.PrecededBy "ы" ∨ w.PrecededBy "и" := by
  simp [Word.PrecededBy, and_or_left, exists_or]

theorem mem_consonants_of_isPossessive (h : IsPossessive w c) :
    c ∈ "бвгджзлмнрпфктшсхцчщ".toList := by
  rcases h with ⟨rfl, -⟩ | ⟨rfl, -⟩ <;> decide

theorem firesAt_maleSurname_iff (hc : w.fromEnd? 0 = some c) (n : Nat) :
    FiresAt w maleSurname n ↔ maleSurnameCondition w c n := by
  rw [firesAt_iff_firstOf, verdicts_maleSurname hc]
  have consonant : c ∈ "бвгджзлмнрпфктшсхцчщ".toList → c ∉ "йь".toList := Apart.not_mem (by decide)
  have possessive : IsPossessive w c → _ := mem_consonants_of_isPossessive
  have vowel := precededBy_vowel_iff (w := w)
  -- the letter before й is one of the three at most once
  have o_y : w.PrecededBy "о" → ¬ w.PrecededBy "ы" := w.not_precededBy_of_apart (by decide)
  have o_i : w.PrecededBy "о" → ¬ w.PrecededBy "и" := w.not_precededBy_of_apart (by decide)
  have y_i : w.PrecededBy "ы" → ¬ w.PrecededBy "и" := w.not_precededBy_of_apart (by decide)
  match n with
  | 0 => exact Iff.rfl
  | 1 | 2 | 3 | 4 | 5 =>
    simp only [FirstOf, maleSurnameCondition]
    grind
  | n + 6 => simp only [FirstOf, maleSurnameCondition, and_false]

/-- The endings of the genitive plurals. -/
theorem suffix_genitivePlural_iff (hc : w.fromEnd? 0 = some c) :
    "их".toList <:+ w.letters ∨ "ых".toList <:+ w.letters ↔ c = 'х' ∧ w.PrecededBy "иы" := by
  have last : Text.fromEnd? w.letters 0 = some c := hc
  simp [Slot.suffix_iff_takeFrom, Slot.takeFrom, Slot.plain, last, Word.PrecededBy, Word.fromEnd?,
    and_or_left, exists_or]

/-- The endings of the possessive surnames. -/
theorem isPossessive_iff_suffix (hc : w.fromEnd? 0 = some c) :
    IsPossessive w c ↔
      "ов".toList <:+ w.letters ∨ "ев".toList <:+ w.letters ∨ "ин".toList <:+ w.letters := by
  have last : Text.fromEnd? w.letters 0 = some c := hc
  simp [Slot.suffix_iff_takeFrom, Slot.takeFrom, Slot.plain, last, Word.PrecededBy, Word.fromEnd?,
    IsPossessive, and_or_left, exists_or, or_assoc]

/-- The words that no rule takes are the genitive plurals and those with another last letter. -/
theorem forall_not_maleSurnameCondition_iff (hc : w.fromEnd? 0 = some c) :
    (∀ n, ¬ maleSurnameCondition w c n) ↔
      ("их".toList <:+ w.letters ∨ "ых".toList <:+ w.letters) ∨
        (c ∉ "бвгджзлмнрпфктшсхцчщ".toList ∧ c ≠ 'й' ∧ c ≠ 'ь') := by
  rw [suffix_genitivePlural_iff hc]
  have consonant : c ∈ "бвгджзлмнрпфктшсхцчщ".toList → c ∉ "йь".toList := Apart.not_mem (by decide)
  have possessive : IsPossessive w c → _ := mem_consonants_of_isPossessive
  have vowel := precededBy_vowel_iff (w := w)
  constructor
  · intro h
    have h0 := h 0
    have h1 := h 1
    have h2 := h 2
    have h3 := h 3
    have h4 := h 4
    have h5 := h 5
    simp only [maleSurnameCondition] at h0 h1 h2 h3 h4 h5
    grind
  · intro h n
    have plural : ¬ IsPossessive w 'х' := by simp [IsPossessive]
    match n with
    | 0 | 1 | 2 | 3 | 4 | 5 =>
      simp only [maleSurnameCondition]
      grind
    | n + 6 => exact id

end

/-! ## Surnames of women -/

/-- **`femaleSurnameCondition w n`** — what a word `w` has to end in for the rule at the place `n` to
fire. -/
def femaleSurnameCondition (w : Word) : Nat → Prop
  | 0 => "ова".toList <:+ w.letters ∨ "ева".toList <:+ w.letters ∨ "ина".toList <:+ w.letters
  | 1 => "ая".toList <:+ w.letters
  | _ => False

section

variable {w : Word}

/-- The verdicts of the table, each without regard to the rules above it. -/
theorem verdicts_femaleSurname :
    (femaleSurname.map fun rule => rule.guard.passes w = true) = [
      "ова".toList <:+ w.letters ∨ "ева".toList <:+ w.letters ∨ "ина".toList <:+ w.letters,
      "ая".toList <:+ w.letters] := by
  simp (disch := decide) only [femaleSurname, List.map_cons, List.map_nil, Guard.passes,
    Guard.passesAny, passes_ends]
  simp [Slot.suffix_iff_takeFrom, Slot.parse, Slot.read, Slot.readMembers, Slot.takeFrom,
    Slot.plain, and_or_left, exists_or, or_assoc]

/-- The two rules ask for different last letters. -/
theorem not_possessive_of_adjective (h : "ая".toList <:+ w.letters) :
    ¬ ("ова".toList <:+ w.letters ∨ "ева".toList <:+ w.letters ∨ "ина".toList <:+ w.letters) := by
  have ya : w.letters.fromEnd? 0 = some 'я' := Text.fromEnd?_of_suffix h (by decide)
  have no_a : w.letters.fromEnd? 0 ≠ some 'а' := by
    rw [ya]
    decide
  rintro (ova | eva | ina)
  · exact no_a (Text.fromEnd?_of_suffix ova (by decide))
  · exact no_a (Text.fromEnd?_of_suffix eva (by decide))
  · exact no_a (Text.fromEnd?_of_suffix ina (by decide))

theorem firesAt_femaleSurname_iff (n : Nat) :
    FiresAt w femaleSurname n ↔ femaleSurnameCondition w n := by
  rw [firesAt_iff_firstOf, verdicts_femaleSurname]
  match n with
  | 0 => exact Iff.rfl
  | 1 =>
    simp only [FirstOf, femaleSurnameCondition]
    exact and_iff_right_of_imp not_possessive_of_adjective
  | n + 2 => simp only [FirstOf, femaleSurnameCondition, and_false]

end

/-! ## The rule of a surname -/

/-- **The cascades for surnames decide by the ending**, for every word. Every word has a last letter.
A surname of a man stays as it is exactly when it is a genitive plural or ends in a letter that is
neither a consonant nor ь. -/
theorem surname_decidedBy (w : Word) :
    ∃ c, w.fromEnd? 0 = some c ∧
      w.DecidedBy .maleSurname (maleSurnameCondition w c) ∧
      (w.declension .maleSurname = ⟨Forms.unchanged w.spelling, none⟩ ↔
        ("их".toList <:+ w.letters ∨ "ых".toList <:+ w.letters) ∨
          (c ∉ "бвгджзлмнрпфктшсхцчщ".toList ∧ c ≠ 'й' ∧ c ≠ 'ь')) ∧
      w.DecidedBy .femaleSurname (femaleSurnameCondition w) := by
  obtain ⟨c, hc⟩ := w.exists_last
  have male : w.DecidedBy .maleSurname (maleSurnameCondition w c) :=
    Word.decidedBy_of_firesAt_iff (firesAt_maleSurname_iff hc)
  refine ⟨c, hc, male, ?_, ?_⟩
  · rw [male.eq_unchanged_iff, forall_not_maleSurnameCondition_iff hc]
  · exact Word.decidedBy_of_firesAt_iff firesAt_femaleSurname_iff

end NameDeclension.Rules
