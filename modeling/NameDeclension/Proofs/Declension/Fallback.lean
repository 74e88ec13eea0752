/-
# NameDeclension.Proofs.Declension.Fallback — a rule that fires shows in the forms

A name that no rule takes is the same in every case. The converse holds as well: a single form may
repeat the name (the accusative of Любовь does), but the instrumental never does. Most endings of the
instrumental do not add as many letters as they cut, so the form has another length. The few that do
(Белый, Белым) end in another letter than the one which the guard pins at the end of the name. The
spelling of the name makes no difference to that, since what an ending adds is small Cyrillic.
-/
import NameDeclension.Proofs.Rules.Cuts

namespace NameDeclension

open Lettercase

/-- **`splice.showsOn guard`** — the ending shows on every word that passes the guard: it does not
add as many letters as it cuts, or its last letter is not the one that the guard pins. -/
def Splice.showsOn (splice : Splice) (guard : Guard Pattern) : Bool :=
  splice.ending.length != splice.drop ||
    match splice.ending.fromEnd? 0 with
    | some last => guard.pins (fun c => c != last) 0
    | none => false

/-- An ending that shows makes another word of it. -/
theorem Splice.apply_ne_spelling {splice : Splice} {guard : Guard Pattern} {w : Word}
    (shows : splice.showsOn guard = true) (hpasses : guard.passes w = true)
    (inside : splice.drop ≤ w.spellingLength)
    (small : ∀ c ∈ splice.ending, isCyrillicSmall c = true) : splice.apply w ≠ w.spelling := by
  intro same
  rw [showsOn, Bool.or_eq_true, bne_iff_ne] at shows
  rcases shows with longer | other
  · -- the lengths differ
    have length := Splice.length_apply inside
    rw [same, Word.spellingLength] at length
    omega
  · -- the last letters differ
    split at other
    · rename_i last hlast
      have word_last : w.fromEnd? 0 = some last :=
        Text.fromEnd?_of_suffix (suffix_letters small same.symm) hlast
      simpa using Guard.of_pins other hpasses word_last
    · exact absurd other Bool.false_ne_true

/-- The instrumental shows in every table. -/
theorem RuleSet.instrumental_showsOn (s : RuleSet) :
    ∀ rule ∈ s.rules, rule.paradigm.instrumental.showsOn rule.guard = true := by
  cases s <;> decide +kernel

/-- A word that no rule takes keeps its spelling. -/
theorem Word.forms_of_isFallback {w : Word} {s : RuleSet}
    (h : (w.declension s).isFallback = true) :
    (w.declension s).forms = Forms.unchanged w.spelling := by
  have unnamed : (w.declension s).rule = none := Option.isNone_iff_eq_none.mp h
  rw [declension_of_forall_not_firesAt (declension_rule_eq_none_iff.mp unnamed)]

/-- If a rule takes the word, the instrumental is another word. -/
theorem Word.instrumental_ne_spelling {w : Word} {s : RuleSet} (fired : (w.declension s).rule ≠ none) :
    (w.declension s).forms.instrumental ≠ w.spelling := by
  rcases w.declension_cases s with ⟨rule, hrule, id, hpasses, hd⟩ | hd
  · have audited : rule.CutsCyrillic := s.cutsCyrillic rule hrule
    have mem : rule.paradigm.instrumental ∈ rule.paradigm.toList := by simp [Oblique.toList]
    have small : ∀ c ∈ rule.paradigm.instrumental.ending, isCyrillicSmall c = true :=
      List.all_eq_true.mp (audited.2.2 _ mem).1
    rw [hd]
    exact Splice.apply_ne_spelling (s.instrumental_showsOn rule hrule) hpasses
      (audited.drop_le_spellingLength hpasses mem) small
  · rw [hd] at fired
    exact absurd rfl fired

/-- The instrumental alone tells whether a rule takes the word. -/
theorem Word.isFallback_iff_instrumental (w : Word) (s : RuleSet) :
    (w.declension s).isFallback = true ↔ (w.declension s).forms.instrumental = w.spelling := by
  constructor
  · intro fallback
    rw [Word.forms_of_isFallback fallback]
    rfl
  · intro same
    rw [Declension.isFallback, Option.isNone_iff_eq_none]
    exact Classical.byContradiction fun fired => Word.instrumental_ne_spelling fired same

/-- **A name stays as it is in every case if and only if no rule takes it**, whatever its capitals.
If one does, the instrumental is another name. -/
theorem isFallback_iff_isUnchanged (w : Word) (s : RuleSet) :
    ∃ d, declension? w.spelling s = .ok d ∧
      (d.isFallback = true ↔ d.forms.isUnchanged w.spelling = true) ∧
      (d.rule ≠ none → d.forms.instrumental ≠ w.spelling) := by
  refine ⟨w.declension s, declension?_spelling w s, ?_, Word.instrumental_ne_spelling⟩
  rw [Forms.isUnchanged_iff]
  constructor
  · exact Word.forms_of_isFallback
  · intro unchanged
    exact (w.isFallback_iff_instrumental s).mpr (congrArg Oblique.instrumental unchanged)

end NameDeclension
