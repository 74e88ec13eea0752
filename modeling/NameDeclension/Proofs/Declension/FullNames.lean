/-
# NameDeclension.Proofs.Declension.FullNames — a full name is declined part by part

A full name has forms exactly when both parts are names, and a form is that of the first name and
that of the surname with a space between them (`forms?_partwise`). Whether a full name stays as it is
cannot be read off its characters at once: the parts may have spaces of their own, so what one part
loses the other might gain. It does not happen, because no form is shorter than its name
(`join_eq_iff`). So each part keeps its spelling in the instrumental, and then no rule takes it.
-/
import NameDeclension.FullName
import NameDeclension.Proofs.Declension.Fallback
import NameDeclension.Proofs.Declension.Growth

namespace NameDeclension

/-- Only the empty text has no forms. -/
theorem exists_forms?_iff {name : Text} {s : RuleSet} :
    (∃ forms, forms? name s = .ok forms) ↔ name ≠ [] := by
  constructor
  · rintro ⟨forms, hforms⟩ rfl
    have refused : forms? [] s = .error (.invalidWord .empty) := rfl
    rw [refused] at hforms
    exact absurd hforms (by simp)
  · intro ne_nil
    exact ⟨_, forms?_spelling ⟨name, ne_nil⟩ s⟩

namespace FullName

/-- **Parts that are not shorter than those of a name make the same name only as the same parts**,
wherever there are spaces in them. -/
theorem join_eq_iff {first last first' last' : Text} (hfirst : first.length ≤ first'.length)
    (hlast : last.length ≤ last'.length) :
    join first' last' = join first last ↔ first' = first ∧ last' = last := by
  constructor
  · intro same
    have lengths : first'.length + (last'.length + 1) = first.length + (last.length + 1) := by
      simpa [join] using congrArg List.length same
    obtain ⟨parts, rest⟩ := List.append_inj same (by omega)
    exact ⟨parts, (List.cons.inj rest).2⟩
  · rintro ⟨rfl, rfl⟩
    rfl

theorem exists_forms?_iff {name : FullName} :
    (∃ forms, name.forms? = .ok forms) ↔ name.first ≠ [] ∧ name.last ≠ [] := by
  rw [← NameDeclension.exists_forms?_iff (s := .select .firstName name.gender),
    ← NameDeclension.exists_forms?_iff (s := .select .surname name.gender)]
  constructor
  · rintro ⟨forms, hforms⟩
    obtain ⟨first, last, hfirst, hlast, -⟩ := forms?_eq_ok_iff.mp hforms
    exact ⟨⟨first, hfirst⟩, ⟨last, hlast⟩⟩
  · rintro ⟨⟨first, hfirst⟩, ⟨last, hlast⟩⟩
    exact ⟨_, forms?_eq_ok_iff.mpr ⟨first, last, hfirst, hlast, rfl⟩⟩

/-- **Two declensions make an unchanged full name if and only if both are fallbacks.** -/
theorem isUnchanged_zipWith_join_iff (first last : Word) (s s' : RuleSet) :
    Forms.isUnchanged
        (Oblique.zipWith join (first.declension s).forms (last.declension s').forms)
        (join first.spelling last.spelling) = true ↔
      (first.declension s).isFallback = true ∧ (last.declension s').isFallback = true := by
  rw [Forms.isUnchanged_iff]
  constructor
  · intro unchanged
    have instrumental : join (first.declension s).forms.instrumental
        (last.declension s').forms.instrumental = join first.spelling last.spelling :=
      congrArg Oblique.instrumental unchanged
    have longer : first.spelling.length ≤ (first.declension s).forms.instrumental.length :=
      (first.length_form s _ (by simp [Oblique.toList])).1
    have longer' : last.spelling.length ≤ (last.declension s').forms.instrumental.length :=
      (last.length_form s' _ (by simp [Oblique.toList])).1
    obtain ⟨hfirst, hlast⟩ := (join_eq_iff longer longer').mp instrumental
    exact ⟨(first.isFallback_iff_instrumental s).mpr hfirst,
      (last.isFallback_iff_instrumental s').mpr hlast⟩
  · rintro ⟨hfirst, hlast⟩
    rw [Word.forms_of_isFallback hfirst, Word.forms_of_isFallback hlast]
    rfl

/-- **A full name is declined part by part.** It has forms if and only if neither part is empty. In
every case the form is that of the first name, by the rules for first names of its gender, a space,
and that of the surname, by the rules for surnames. All forms are the full name itself if and only if
neither part has a rule, whatever spaces the parts contain. -/
theorem forms?_partwise (name : FullName) :
    ((∃ forms, name.forms? = .ok forms) ↔ name.first ≠ [] ∧ name.last ≠ []) ∧
    ∀ forms, name.forms? = .ok forms →
      ∃ first last,
        declension? name.first (.select .firstName name.gender) = .ok first ∧
        declension? name.last (.select .surname name.gender) = .ok last ∧
        (∀ c, forms.form c name.nominative =
          first.forms.form c name.first ++ ' ' :: last.forms.form c name.last) ∧
        (forms.isUnchanged name.nominative = true ↔
          first.isFallback = true ∧ last.isFallback = true) := by
  refine ⟨exists_forms?_iff, ?_⟩
  intro forms hforms
  obtain ⟨first_ne_nil, last_ne_nil⟩ := exists_forms?_iff.mp ⟨forms, hforms⟩
  let first : Word := ⟨name.first, first_ne_nil⟩
  let last : Word := ⟨name.last, last_ne_nil⟩
  have made := forms?_spelling first last name.gender
  obtain rfl := Except.ok.inj (made.symm.trans hforms)
  refine ⟨_, _, declension?_spelling first _, declension?_spelling last _, ?_, ?_⟩
  · intro c
    exact form_zipWith_join _ _ c name.first name.last
  · exact isUnchanged_zipWith_join_iff first last _ _

/-- Two words make the first name here, and its second word is all that changes: the rules for men's
surnames leave Черных alone. -/
theorem forms?_partwise_chernykh :
    ∃ forms, forms? ⟨"Ян Карл".toList, "Черных".toList, .masculine⟩ = .ok forms ∧
      forms.genitive = "Ян Карла Черных".toList ∧
      ∃ first last,
        declension? "Ян Карл".toList .maleFirstName = .ok first ∧
        declension? "Черных".toList .maleSurname = .ok last ∧
        (forms.isUnchanged "Ян Карл Черных".toList = true ↔
          first.isFallback = true ∧ last.isFallback = true) := by
  obtain ⟨named, partwise⟩ :=
    forms?_partwise ⟨"Ян Карл".toList, "Черных".toList, .masculine⟩
  obtain ⟨forms, hforms⟩ := named.mpr (by decide)
  have genitive : (forms? ⟨"Ян Карл".toList, "Черных".toList, .masculine⟩).toOption.map
      Oblique.genitive = some "Ян Карла Черных".toList := by decide +kernel
  have spelled : nominative ⟨"Ян Карл".toList, "Черных".toList, .masculine⟩ =
      "Ян Карл Черных".toList := by decide
  rw [hforms] at genitive
  obtain ⟨first, last, hfirst, hlast, -, unchanged⟩ := partwise forms hforms
  rw [spelled] at unchanged
  exact ⟨forms, hforms, Option.some.inj genitive, first, last, hfirst, hlast, unchanged⟩

end FullName

end NameDeclension
