/-
# NameDeclension.Proofs.Declension.Syncretism — cases that share one form

Not every case of a name has a form of its own. Surnames of women have one form for four of the five
cases, first names of women have one for the dative and the prepositional. Surnames of men have no
accusative of their own, it is the genitive; nor have first names of men, unless they end in -а or -я
(Никита, Илья) and are declined like those of women. These are laws of the tables: two cases coincide
in every word when each paradigm has one ending for both (`RuleSet.Merges`).

The accusative of men's first names takes a closer look. Each rule either has one ending for the two
cases and pins another last letter, or pins one of the two letters and adds different endings to one
stem (`Rule.PartsAccusative`); and a name that ends in one of the two letters does have a rule.

A full name has the coincidences of both its parts, and no others: the surname adds the same text to
both forms of the first name.
-/
import NameDeclension.Proofs.Declension.FullNames
import NameDeclension.Proofs.Rules.FirstNames

namespace NameDeclension

/-! ## Cases that a table never tells apart -/

/-- **`s.Merges c c'`** — every paradigm of the set has one ending for the two cases. -/
def RuleSet.Merges (s : RuleSet) (c c' : Case) : Prop :=
  ∀ rule ∈ s.rules, rule.paradigm.get? c = rule.paradigm.get? c'

instance (s : RuleSet) (c c' : Case) : Decidable (s.Merges c c') :=
  inferInstanceAs (Decidable (∀ rule ∈ s.rules, _))

/-- **Two cases that a set merges have one form in every word.** -/
theorem RuleSet.Merges.form_eq {s : RuleSet} {c c' : Case} (h : s.Merges c c') (w : Word) :
    (w.declension s).forms.form c w.spelling = (w.declension s).forms.form c' w.spelling := by
  rcases w.declension_cases s with ⟨rule, hrule, id, -, hd⟩ | hd
  · rw [hd, Paradigm.forms, Forms.form, Forms.form, Oblique.get?_map, Oblique.get?_map,
      h rule hrule]
  · rw [hd, Forms.form_unchanged, Forms.form_unchanged]

theorem RuleSet.Merges.trans {s : RuleSet} {c c' c'' : Case} (h : s.Merges c c')
    (h' : s.Merges c' c'') : s.Merges c c'' :=
  fun rule hrule => (h rule hrule).trans (h' rule hrule)

/-- A full name has one form for two cases that the sets for both its parts merge. -/
theorem FullName.form_eq_of_merges {s s' : RuleSet} {c c' : Case} (h : s.Merges c c')
    (h' : s'.Merges c c') (first last : Word) :
    Forms.form (Oblique.zipWith join (first.declension s).forms (last.declension s').forms) c
        (join first.spelling last.spelling) =
      Forms.form (Oblique.zipWith join (first.declension s).forms (last.declension s').forms) c'
        (join first.spelling last.spelling) := by
  rw [form_zipWith_join, form_zipWith_join, h.form_eq first, h'.form_eq last]

theorem RuleSet.maleSurname_merges : RuleSet.maleSurname.Merges .accusative .genitive := by
  decide +kernel

theorem RuleSet.femaleFirstName_merges :
    RuleSet.femaleFirstName.Merges .dative .prepositional := by
  decide +kernel

theorem RuleSet.femaleSurname_merges :
    RuleSet.femaleSurname.Merges .genitive .dative ∧
      RuleSet.femaleSurname.Merges .dative .instrumental ∧
      RuleSet.femaleSurname.Merges .instrumental .prepositional := by
  decide +kernel

/-! ## The accusative of men's first names -/

/-- Endings that cut the same make the same form only if they add the same. -/
theorem Splice.apply_eq_apply_iff {splice other : Splice} (h : splice.drop = other.drop) (w : Word) :
    splice.apply w = other.apply w ↔ splice.ending = other.ending := by
  rw [apply, apply, h]
  exact List.append_right_inj _

/-- **`rule.PartsAccusative letters`** — the rule is for words with one of these last letters and adds
different endings to one stem in the accusative and the genitive, or it is for words with another
last letter and has one ending for both. -/
def Rule.PartsAccusative (rule : Rule) (letters : String) : Prop :=
  (rule.guard.pins (fun c => letters.toList.contains c) 0 = true ∧
      rule.paradigm.accusative.drop = rule.paradigm.genitive.drop ∧
      rule.paradigm.accusative.ending ≠ rule.paradigm.genitive.ending) ∨
    (rule.guard.pins (fun c => !letters.toList.contains c) 0 = true ∧
      rule.paradigm.accusative = rule.paradigm.genitive)

instance (rule : Rule) (letters : String) : Decidable (rule.PartsAccusative letters) :=
  inferInstanceAs (Decidable (_ ∨ _))

theorem RuleSet.maleFirstName_partsAccusative :
    ∀ rule ∈ RuleSet.maleFirstName.rules, rule.PartsAccusative "ая" := by
  decide +kernel

/-- For a word that passes the guard, the two cases coincide by the last letter. -/
theorem Rule.PartsAccusative.eq_iff {rule : Rule} {letters : String} {w : Word}
    (parts : rule.PartsAccusative letters) (hpasses : rule.guard.passes w = true) :
    (rule.paradigm.forms w).accusative = (rule.paradigm.forms w).genitive ↔
      ¬ w.EndsIn letters := by
  obtain ⟨c, hc⟩ := w.exists_last
  rw [Word.endsIn_iff hc]
  show rule.paradigm.accusative.apply w = rule.paradigm.genitive.apply w ↔ _
  rcases parts with ⟨pinned, cut, differ⟩ | ⟨pinned, same⟩
  · have listed : c ∈ letters.toList := by simpa using Guard.of_pins pinned hpasses hc
    rw [Splice.apply_eq_apply_iff cut]
    exact iff_of_false differ (not_not_intro listed)
  · have other : c ∉ letters.toList := by simpa using Guard.of_pins pinned hpasses hc
    rw [same]
    exact iff_of_true rfl other

/-- A first name of a man in -а or -я has a rule. -/
theorem Rules.not_endsIn_of_forall_not_firesAt {w : Word}
    (none_fires : ∀ n, ¬ Rule.FiresAt w maleFirstName n) : ¬ w.EndsIn "ая" := by
  obtain ⟨c, hc⟩ := w.exists_last
  have refused : ∀ verdict ∈ maleFirstName.map fun rule => rule.guard.passes w = true,
      ¬ verdict := by
    intro verdict hverdict
    obtain ⟨rule, hrule, rfl⟩ := List.mem_map.mp hverdict
    exact Bool.eq_false_iff.mp (Rule.forall_not_firesAt_iff.mp none_fires rule hrule)
  rw [verdicts_maleFirstName hc] at refused
  have not_a : c ≠ 'а' := refused _ (by simp)
  have not_ya : c ≠ 'я' := refused _ (by simp)
  rw [Word.endsIn_iff hc]
  simp [not_a, not_ya]

/-- **The accusative of a man's first name is the genitive, but for names in -а and -я.** -/
theorem Word.accusative_eq_genitive_iff (w : Word) :
    (w.declension .maleFirstName).forms.accusative =
        (w.declension .maleFirstName).forms.genitive ↔ ¬ w.EndsIn "ая" := by
  by_cases none_fires : ∀ n, ¬ Rule.FiresAt w RuleSet.maleFirstName.rules n
  · rw [declension_of_forall_not_firesAt none_fires]
    exact iff_of_true rfl (Rules.not_endsIn_of_forall_not_firesAt none_fires)
  · obtain ⟨n, hn⟩ := Classical.not_forall_not.mp none_fires
    obtain ⟨rule, hrule, hpasses⟩ := hn.passes
    rw [declension_of_firesAt hrule hn]
    exact (RuleSet.maleFirstName_partsAccusative rule (List.mem_of_getElem? hrule)).eq_iff hpasses

/-! ## Names and full names -/

/-- **The cases that coincide.** In surnames of men the accusative is the genitive. In first names of
men it is, if and only if the name ends neither in -а nor in -я. In first names of women the dative is
the prepositional. In surnames of women the genitive, the dative, the instrumental and the
prepositional are one form. Hence a full name of a woman has one form for the dative and the
prepositional, and one of a man has one for the accusative and the genitive if and only if the first
name ends neither in -а nor in -я. -/
theorem forms_coincide (first last : Word) :
    (last.declension .maleSurname).forms.accusative =
        (last.declension .maleSurname).forms.genitive ∧
      ((first.declension .maleFirstName).forms.accusative =
        (first.declension .maleFirstName).forms.genitive ↔ ¬ first.EndsIn "ая") ∧
      (first.declension .femaleFirstName).forms.dative =
        (first.declension .femaleFirstName).forms.prepositional ∧
      ((last.declension .femaleSurname).forms.genitive =
          (last.declension .femaleSurname).forms.dative ∧
        (last.declension .femaleSurname).forms.dative =
          (last.declension .femaleSurname).forms.instrumental ∧
        (last.declension .femaleSurname).forms.instrumental =
          (last.declension .femaleSurname).forms.prepositional) ∧
      (∃ forms, FullName.forms? ⟨first.spelling, last.spelling, .feminine⟩ = .ok forms ∧
        forms.dative = forms.prepositional) ∧
      ∃ forms, FullName.forms? ⟨first.spelling, last.spelling, .masculine⟩ = .ok forms ∧
        (forms.accusative = forms.genitive ↔ ¬ first.EndsIn "ая") := by
  have man : (last.declension .maleSurname).forms.accusative =
      (last.declension .maleSurname).forms.genitive :=
    RuleSet.maleSurname_merges.form_eq last
  have woman : (first.declension .femaleFirstName).forms.dative =
      (first.declension .femaleFirstName).forms.prepositional :=
    RuleSet.femaleFirstName_merges.form_eq first
  obtain ⟨genitive, dative, instrumental⟩ := RuleSet.femaleSurname_merges
  refine ⟨man, first.accusative_eq_genitive_iff, woman, ?_, ?_, ?_⟩
  · exact ⟨genitive.form_eq last, dative.form_eq last, instrumental.form_eq last⟩
  · refine ⟨_, FullName.forms?_spelling first last .feminine, ?_⟩
    exact FullName.form_eq_of_merges RuleSet.femaleFirstName_merges (dative.trans instrumental)
      first last
  · refine ⟨_, FullName.forms?_spelling first last .masculine, ?_⟩
    rw [← first.accusative_eq_genitive_iff]
    show FullName.join _ (last.declension .maleSurname).forms.accusative =
      FullName.join _ (last.declension .maleSurname).forms.genitive ↔ _
    rw [man]
    -- the same surname stands behind both
    exact List.append_left_inj _

end NameDeclension
