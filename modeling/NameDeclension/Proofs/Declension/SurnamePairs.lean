/-
# NameDeclension.Proofs.Declension.SurnamePairs — the surnames of a man and a woman of one family

A surname has a form for men and one for women, and a table for each. The tables agree. A possessive
surname (Пушкин) gets an -а for a woman, and the rule for the one fires exactly when the rule for the
other does (`firesAt_possessive_iff`), whatever its spelling: the letters of a Cyrillic end do not
depend on the letter that follows. The genitive of the man's name is then the woman's name. A surname
that is an adjective (Толстой, Толстая) changes its last two letters, and all its forms for both are
on the one stem that is left.

Either way a rule cuts what the surname has behind the stem and puts its endings there instead
(`Word.declension_onStem`). In a man's possessive surname that is nothing: the stem is the whole name.
-/
import NameDeclension.Proofs.Declension.Trace
import NameDeclension.Proofs.Rules.Surnames

namespace NameDeclension

open Lettercase

/-! ## Endings on a stem -/

/-- The **forms that endings make of a stem.** -/
def Forms.onStem (stem : Text) (endings : Oblique String) : Forms :=
  endings.map fun ending => stem ++ ending.toList

section

variable {stem cut : Text} {endings : Oblique String}

/-- **A rule that cuts what stands behind a stem puts its endings on the stem.** -/
theorem Word.declension_onStem (id : RuleId) {w : Word} (hw : w.spelling = stem ++ cut)
    (table : id.rule?.map Rule.paradigm =
      some (endings.map fun ending => ⟨cut.length, ending.toList⟩))
    (fires : Rule.FiresAt w id.ruleSet.rules id.index.toNat) :
    w.declension id.ruleSet = ⟨Forms.onStem stem endings, some id⟩ := by
  obtain ⟨rule, hrule, hparadigm⟩ := Option.map_eq_some_iff.mp table
  refine declension_eq_some_iff.mpr ⟨rfl, rule, RuleId.isFirstFor_iff.mpr ⟨hrule, fires⟩, ?_⟩
  have kept : w.truncated cut.length = stem := by
    rw [truncated, hw, Text.dropEnd_append (Nat.le_refl _)]
    simp [Text.dropEnd]
  rw [hparadigm, Paradigm.forms, Oblique.map_map, Forms.onStem]
  apply Oblique.map_congr
  intro ending _
  rw [Splice.apply, kept]

/-- So it does with every stem, the empty one too, if it fires on all words with that end. -/
theorem declension?_onStem (id : RuleId) (ne_nil : cut ≠ [])
    (cyrillic : cut.all isCyrillicSmall = true)
    (table : id.rule?.map Rule.paradigm =
      some (endings.map fun ending => ⟨cut.length, ending.toList⟩))
    (fires : ∀ w : Word, cut <:+ w.letters → Rule.FiresAt w id.ruleSet.rules id.index.toNat) :
    declension? (stem ++ cut) id.ruleSet = .ok ⟨Forms.onStem stem endings, some id⟩ := by
  have small : ∀ c ∈ cut, isCyrillicSmall c = true := List.all_eq_true.mp cyrillic
  let w : Word := ⟨stem ++ cut, List.append_ne_nil_of_right_ne_nil stem ne_nil⟩
  have ending : cut <:+ w.letters :=
    (suffix_lower_iff small _).mpr
      ⟨cut, List.suffix_append stem cut, map_simpleLower_of_isCyrillicSmall small⟩
  rw [← Word.declension_onStem id rfl table (fires w ending)]
  exact declension?_spelling w id.ruleSet

end

namespace Rules

open NameDeclension.Rule (FiresAt)

/-! ## Possessive surnames -/

section

variable {w v : Word}

/-- **The rules for possessive surnames fire together**, for the man's name and for the woman's with
the -а. -/
theorem firesAt_possessive_iff (hv : v.spelling = w.spelling ++ ['а']) :
    FiresAt w maleSurname 0 ↔ FiresAt v femaleSurname 0 := by
  have added : ∀ tail : Text, tail.all isCyrillicSmall = true →
      (tail ++ ['а'] <:+ v.letters ↔ tail <:+ w.letters) := by
    intro tail cyrillic
    rw [Word.letters, hv]
    exact suffix_lower_append_iff (List.all_eq_true.mp cyrillic)
      (List.all_eq_true.mp (by decide)) w.spelling
  have ov := added "ов".toList (by decide)
  have ev := added "ев".toList (by decide)
  have yn := added "ин".toList (by decide)
  obtain ⟨c, hc⟩ := w.exists_last
  rw [firesAt_maleSurname_iff hc, firesAt_femaleSurname_iff]
  show IsPossessive w c ↔ _
  rw [isPossessive_iff_suffix hc, ← ov, ← ev, ← yn]
  exact Iff.rfl

theorem declension_manPossessive (fires : FiresAt w maleSurname 0) :
    w.declension .maleSurname =
      ⟨Forms.onStem w.spelling ⟨"а", "у", "а", "ым", "е"⟩, some ⟨.maleSurname, 0⟩⟩ := by
  have whole : w.spelling = w.spelling ++ [] := (List.append_nil _).symm
  exact Word.declension_onStem ⟨.maleSurname, 0⟩ whole (by decide +kernel) fires

theorem declension_womanPossessive (hv : v.spelling = w.spelling ++ ['а'])
    (fires : FiresAt v femaleSurname 0) :
    v.declension .femaleSurname =
      ⟨Forms.onStem w.spelling ⟨"ой", "ой", "у", "ой", "ой"⟩, some ⟨.femaleSurname, 0⟩⟩ :=
  Word.declension_onStem ⟨.femaleSurname, 0⟩ hv (by decide +kernel) fires

end

/-! ## Surnames that are adjectives -/

/-- The letter before -й is the place in the table for an adjective of a man. -/
theorem firesAt_manAdjective (n : Nat) (d : Char)
    (place : (n, d) ∈ [(1, 'о'), (2, 'ы'), (3, 'и')]) {w : Word} {cut : Text}
    (last : cut.fromEnd? 0 = some 'й') (before : cut.fromEnd? 1 = some d)
    (ending : cut <:+ w.letters) : FiresAt w maleSurname n := by
  have hd : w.fromEnd? 1 = some d := Text.fromEnd?_of_suffix ending before
  rw [firesAt_maleSurname_iff (Text.fromEnd?_of_suffix ending last)]
  simp only [List.mem_cons, Prod.mk.injEq, List.not_mem_nil, or_false] at place
  rcases place with ⟨rfl, rfl⟩ | ⟨rfl, rfl⟩ | ⟨rfl, rfl⟩
  · exact ⟨rfl, 'о', hd, by decide⟩
  · exact ⟨rfl, 'ы', hd, by decide⟩
  · exact ⟨rfl, 'и', hd, by decide⟩

theorem declension?_manAdjective (stem : Text) :
    declension? (stem ++ "ой".toList) .maleSurname =
        .ok ⟨.onStem stem ⟨"ого", "ому", "ого", "ым", "ом"⟩, some ⟨.maleSurname, 1⟩⟩ ∧
      declension? (stem ++ "ый".toList) .maleSurname =
        .ok ⟨.onStem stem ⟨"ого", "ому", "ого", "ым", "ом"⟩, some ⟨.maleSurname, 2⟩⟩ ∧
      declension? (stem ++ "ий".toList) .maleSurname =
        .ok ⟨.onStem stem ⟨"ого", "ому", "ого", "им", "ом"⟩, some ⟨.maleSurname, 3⟩⟩ := by
  refine ⟨?_, ?_, ?_⟩
  · refine declension?_onStem ⟨.maleSurname, 1⟩ (by decide) (by decide) (by decide +kernel) ?_
    exact fun _ => firesAt_manAdjective 1 'о' (by decide) (by decide) (by decide)
  · refine declension?_onStem ⟨.maleSurname, 2⟩ (by decide) (by decide) (by decide +kernel) ?_
    exact fun _ => firesAt_manAdjective 2 'ы' (by decide) (by decide) (by decide)
  · refine declension?_onStem ⟨.maleSurname, 3⟩ (by decide) (by decide) (by decide +kernel) ?_
    exact fun _ => firesAt_manAdjective 3 'и' (by decide) (by decide) (by decide)

theorem declension?_womanAdjective (stem : Text) :
    declension? (stem ++ "ая".toList) .femaleSurname =
      .ok ⟨.onStem stem ⟨"ой", "ой", "ую", "ой", "ой"⟩, some ⟨.femaleSurname, 1⟩⟩ := by
  refine declension?_onStem ⟨.femaleSurname, 1⟩ (by decide) (by decide) (by decide +kernel) ?_
  exact fun _ ending => (firesAt_femaleSurname_iff 1).mpr ending

end Rules

/-! ## The two tables -/

/-- **The tables for surnames of men and of women agree.** The rule for possessive surnames fires on a
man's name if and only if the one for women fires on that name with an -а; and then his genitive is
her name, and her accusative is his dative. Surnames in -ой, -ый and -ий and those in -ая are declined
as adjectives with any stem, and all their forms are on that stem. -/
theorem surnames_correspond :
    (∀ w : Word, ∃ man woman,
      declension? w.spelling .maleSurname = .ok man ∧
      declension? (w.spelling ++ ['а']) .femaleSurname = .ok woman ∧
      (man.rule = some ⟨.maleSurname, 0⟩ ↔ woman.rule = some ⟨.femaleSurname, 0⟩) ∧
      (man.rule = some ⟨.maleSurname, 0⟩ →
        man.forms.genitive = w.spelling ++ ['а'] ∧ woman.forms.accusative = man.forms.dative)) ∧
    ∀ stem : Text,
      declension? (stem ++ "ой".toList) .maleSurname =
        .ok ⟨.onStem stem ⟨"ого", "ому", "ого", "ым", "ом"⟩, some ⟨.maleSurname, 1⟩⟩ ∧
      declension? (stem ++ "ый".toList) .maleSurname =
        .ok ⟨.onStem stem ⟨"ого", "ому", "ого", "ым", "ом"⟩, some ⟨.maleSurname, 2⟩⟩ ∧
      declension? (stem ++ "ий".toList) .maleSurname =
        .ok ⟨.onStem stem ⟨"ого", "ому", "ого", "им", "ом"⟩, some ⟨.maleSurname, 3⟩⟩ ∧
      declension? (stem ++ "ая".toList) .femaleSurname =
        .ok ⟨.onStem stem ⟨"ой", "ой", "ую", "ой", "ой"⟩, some ⟨.femaleSurname, 1⟩⟩ := by
  constructor
  · intro w
    let v : Word := ⟨w.spelling ++ ['а'], List.append_ne_nil_of_left_ne_nil w.spelling_ne_nil _⟩
    have together := Rules.firesAt_possessive_iff (w := w) (v := v) rfl
    have man_iff : (w.declension .maleSurname).rule = some ⟨.maleSurname, 0⟩ ↔
        Rule.FiresAt w Rules.maleSurname 0 :=
      Word.declension_rule_eq_some_iff.trans (and_iff_right rfl)
    have woman_iff : (v.declension .femaleSurname).rule = some ⟨.femaleSurname, 0⟩ ↔
        Rule.FiresAt v Rules.femaleSurname 0 :=
      Word.declension_rule_eq_some_iff.trans (and_iff_right rfl)
    refine ⟨_, _, declension?_spelling w _, declension?_spelling v _, ?_, ?_⟩
    · rw [man_iff, woman_iff, together]
    · rw [man_iff]
      intro fires
      rw [Rules.declension_manPossessive fires,
        Rules.declension_womanPossessive rfl (together.mp fires)]
      exact ⟨rfl, rfl⟩
  · intro stem
    obtain ⟨oy, yy, iy⟩ := Rules.declension?_manAdjective stem
    exact ⟨oy, yy, iy, Rules.declension?_womanAdjective stem⟩

/-- Capitals make no difference to the rule, and the ending that is added is small. -/
theorem surnames_correspond_pushkin :
    ∃ man woman,
      declension? "ПушкИН".toList .maleSurname = .ok man ∧
      declension? "ПушкИНа".toList .femaleSurname = .ok woman ∧
      man.rule = some ⟨.maleSurname, 0⟩ ∧ woman.rule = some ⟨.femaleSurname, 0⟩ ∧
      man.forms.genitive = "ПушкИНа".toList ∧ woman.forms.accusative = man.forms.dative := by
  let w : Word := ⟨"ПушкИН".toList, by decide⟩
  have added : w.spelling ++ ['а'] = "ПушкИНа".toList := by decide
  have fired : (w.declension .maleSurname).rule = some ⟨.maleSurname, 0⟩ := by decide +kernel
  obtain ⟨man, woman, hman, hwoman, together, forms⟩ := surnames_correspond.1 w
  obtain rfl := Except.ok.inj ((declension?_spelling w _).symm.trans hman)
  rw [added] at hwoman forms
  obtain ⟨genitive, accusative⟩ := forms fired
  exact ⟨_, woman, hman, hwoman, fired, together.mp fired, genitive, accusative⟩

end NameDeclension
