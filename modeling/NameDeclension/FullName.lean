/-
# NameDeclension.FullName — declining a first name with a surname

Both parts of a full name take the case, each by the rules for its kind and the gender of the
person. The parts are joined by a space.
-/
import NameDeclension.Declension

namespace NameDeclension

/-- A **full name**: a first name, a surname and the gender of the person. -/
structure FullName where
  first : Text
  last : Text
  gender : Gender
  deriving DecidableEq, Repr

namespace FullName

/-- Two parts of a name with a space between them. -/
def join (first last : Text) : Text := first ++ ' ' :: last

/-- The full name in the nominative. -/
def nominative (name : FullName) : Text := join name.first name.last

/-- The **forms of a full name.** The first name is looked at before the surname. -/
def forms? (name : FullName) : Except DeclensionError Forms := do
  let first ← NameDeclension.forms? name.first (.select .firstName name.gender)
  let last ← NameDeclension.forms? name.last (.select .surname name.gender)
  return Oblique.zipWith join first last

/-- The forms of a full name are made of those of its parts, and there are no others. -/
theorem forms?_eq_ok_iff {name : FullName} {forms : Forms} :
    name.forms? = .ok forms ↔ ∃ first last,
      NameDeclension.forms? name.first (.select .firstName name.gender) = .ok first ∧
      NameDeclension.forms? name.last (.select .surname name.gender) = .ok last ∧
      Oblique.zipWith join first last = forms := by
  rw [forms?]
  cases NameDeclension.forms? name.first (.select .firstName name.gender) with
  | error e => simp [bind, Except.bind]
  | ok first =>
    cases NameDeclension.forms? name.last (.select .surname name.gender) with
    | error e => simp [bind, Except.bind]
    | ok last => simp [bind, Except.bind, pure, Except.pure]

theorem forms?_spelling (first last : Word) (gender : Gender) :
    forms? ⟨first.spelling, last.spelling, gender⟩ =
      .ok (Oblique.zipWith join (first.declension (.select .firstName gender)).forms
        (last.declension (.select .surname gender)).forms) :=
  forms?_eq_ok_iff.mpr
    ⟨_, _, NameDeclension.forms?_spelling first _, NameDeclension.forms?_spelling last _, rfl⟩

/-- Each case of a full name is that case of its parts. So is the nominative. -/
theorem form_zipWith_join (forms forms' : Forms) (c : Case) (first last : Text) :
    Forms.form (Oblique.zipWith join forms forms') c (join first last) =
      join (forms.form c first) (forms'.form c last) := by
  cases c <;> rfl

end FullName

end NameDeclension
