/-
# NameDeclension.Proofs.Declension.Settled — a declined surname is not declined again

A form of a name is a name, so it can be declined once more. With surnames that changes nothing, as a
rule: the form has left the table that made it. What a rule adds ends in a letter that no guard of the
table allows at the end of a word, whatever the stem and its capitals (`RuleSet.SettlesIn`), and a
surname that no rule takes has been outside the table from the start. The table for women is such in
every case, so one step is as good as any number of them; the one for men in the genitive, the dative
and the accusative. Its instrumental and its prepositional in -м are surnames with a hard consonant.
-/
import NameDeclension.Inflection
import NameDeclension.Proofs.Declension.Trace
import NameDeclension.Proofs.Rules.Cuts

namespace NameDeclension

open Lettercase

/-! ## Names that a table leaves alone -/

/-- **`IsSettled s name`** — no rule of the set takes the name, and each of its forms is the name. -/
def IsSettled (s : RuleSet) (name : Text) : Prop :=
  declension? name s = .ok ⟨Forms.unchanged name, none⟩

theorem isSettled_spelling_iff {w : Word} {s : RuleSet} :
    IsSettled s w.spelling ↔ ∀ rule ∈ s.rules, rule.guard.passes w = false := by
  rw [IsSettled, declension?_spelling, Except.ok.injEq, Word.declension_eq_none_iff]
  exact and_iff_left rfl

namespace IsSettled

open Inflection (Step)

variable {s : RuleSet} {name : Text}

/-- A step keeps a settled name, in any case. -/
theorem step_apply (h : IsSettled s name) (c : Case) : Step.apply ⟨s, c⟩ name = .ok name := by
  rw [Step.apply, forms?, h]
  exact congrArg Except.ok (Forms.form_unchanged name c)

/-- **So does every run of steps by the set.** -/
theorem run (h : IsSettled s name) (cases : List Case) :
    Inflection.run name (cases.map (Step.mk s)) = .ok name := by
  induction cases with
  | nil => rfl
  | cons c cases ih =>
    rw [List.map_cons, Inflection.run, h.step_apply c]
    exact ih

end IsSettled

/-! ## Endings that lead out of a table -/

/-- **`splice.leaves guard`** — no word with the ending passes the guard: the guard pins another last
letter than that of the ending. -/
def Splice.leaves (splice : Splice) (guard : Guard Pattern) : Bool :=
  match splice.ending.fromEnd? 0 with
  | some last => guard.pins (fun c => c != last) 0
  | none => false

namespace Splice

variable {splice : Splice} {guard : Guard Pattern}

theorem exists_last_of_leaves (h : splice.leaves guard = true) :
    ∃ last, splice.ending.fromEnd? 0 = some last ∧
      guard.pins (fun c => c != last) 0 = true := by
  rw [leaves] at h
  split at h
  · rename_i last hlast
    exact ⟨last, hlast, h⟩
  · exact absurd h Bool.false_ne_true

theorem ending_ne_nil_of_leaves (h : splice.leaves guard = true) : splice.ending ≠ [] := by
  obtain ⟨last, hlast, -⟩ := exists_last_of_leaves h
  intro empty
  rw [empty] at hlast
  exact absurd hlast (Option.some_ne_none last).symm

/-- A word that got the ending does not pass. -/
theorem passes_eq_false_of_leaves (h : splice.leaves guard = true)
    (small : ∀ c ∈ splice.ending, isCyrillicSmall c = true) {w v : Word}
    (made : v.spelling = splice.apply w) : guard.passes v = false := by
  obtain ⟨last, hlast, pinned⟩ := exists_last_of_leaves h
  have ends : v.fromEnd? 0 = some last :=
    Text.fromEnd?_of_suffix (suffix_letters small made) hlast
  rw [Bool.eq_false_iff]
  intro passed
  -- the guard would have to see another letter than the one that was added
  simpa using Guard.of_pins pinned passed ends

end Splice

/-! ## Tables that do not take their own forms -/

/-- **`s.SettlesIn c`** — each ending that the set has for the case leaves every guard of the set. -/
def RuleSet.SettlesIn (s : RuleSet) (c : Case) : Prop :=
  ∀ rule ∈ s.rules, ∀ splice ∈ rule.paradigm.get? c, ∀ other ∈ s.rules,
    splice.leaves other.guard = true

instance (s : RuleSet) (c : Case) : Decidable (s.SettlesIn c) :=
  inferInstanceAs (Decidable (∀ rule ∈ s.rules, _))

theorem RuleSet.femaleSurname_settlesIn (c : Case) : RuleSet.femaleSurname.SettlesIn c := by
  cases c <;> decide +kernel

theorem RuleSet.maleSurname_settlesIn :
    ∀ c ∈ [Case.genitive, .dative, .accusative], RuleSet.maleSurname.SettlesIn c := by
  decide +kernel

/-- **A form in such a case is settled**, for every word. -/
theorem RuleSet.SettlesIn.isSettled_form {s : RuleSet} {c : Case} (h : s.SettlesIn c)
    (oblique : c ∈ Case.oblique) (w : Word) :
    IsSettled s ((w.declension s).forms.form c w.spelling) := by
  rcases w.declension_cases s with ⟨rule, hrule, id, -, hd⟩ | hd
  · obtain ⟨splice, hmem, hget⟩ :=
      rule.paradigm.exists_get?_eq_some (Case.mem_oblique_iff.mp oblique)
    have leaves : ∀ other ∈ s.rules, splice.leaves other.guard = true := h rule hrule splice hget
    have small : ∀ x ∈ splice.ending, isCyrillicSmall x = true :=
      List.all_eq_true.mp ((s.cutsCyrillic rule hrule).2.2 splice hmem).1
    have made : (w.declension s).forms.form c w.spelling = splice.apply w := by
      rw [hd, Paradigm.forms, Forms.form, Oblique.get?_map, hget]
      rfl
    let v : Word := ⟨splice.apply w, List.append_ne_nil_of_right_ne_nil _
      (Splice.ending_ne_nil_of_leaves (leaves rule hrule))⟩
    have refused : ∀ other ∈ s.rules, other.guard.passes v = false := by
      intro other hother
      exact Splice.passes_eq_false_of_leaves (leaves other hother) small rfl
    rw [made]
    exact isSettled_spelling_iff.mpr refused
  · -- the form is the name, which no rule takes
    rw [hd, Forms.form_unchanged, IsSettled, declension?_spelling, hd]

/-! ## Surnames -/

/-- **A declined surname is not declined again.** Every form of a woman's surname is settled, so after
one step in any case but the nominative, further steps by the table change nothing, whatever their
cases. So are the genitive, the dative and the accusative of a man's surname. -/
theorem surname_settles (w : Word) :
    ∃ women men, forms? w.spelling .femaleSurname = .ok women ∧
      forms? w.spelling .maleSurname = .ok men ∧
      (∀ c ∈ Case.oblique, IsSettled .femaleSurname (women.form c w.spelling) ∧
        ∀ cases : List Case,
          Inflection.run w.spelling
              (⟨.femaleSurname, c⟩ :: cases.map (Inflection.Step.mk .femaleSurname)) =
            .ok (women.form c w.spelling)) ∧
      ∀ c ∈ [Case.genitive, .dative, .accusative],
        IsSettled .maleSurname (men.form c w.spelling) := by
  refine ⟨_, _, forms?_spelling w .femaleSurname, forms?_spelling w .maleSurname, ?_, ?_⟩
  · intro c hc
    have settled : IsSettled .femaleSurname
        ((w.declension .femaleSurname).forms.form c w.spelling) :=
      (RuleSet.femaleSurname_settlesIn c).isSettled_form hc w
    refine ⟨settled, fun cases => ?_⟩
    rw [Inflection.run, Inflection.Step.apply_spelling]
    exact settled.run cases
  · intro c hc
    -- the first three of the five
    have oblique : c ∈ Case.oblique.take 3 := hc
    exact (RuleSet.maleSurname_settlesIn c hc).isSettled_form (List.mem_of_mem_take oblique) w

/-- The instrumental of a man's surname is declined again. -/
example :
    (Inflection.run "Иванов".toList
        [⟨.maleSurname, .instrumental⟩, ⟨.maleSurname, .genitive⟩]).toOption =
      some "Ивановыма".toList := by
  decide +kernel

end NameDeclension
