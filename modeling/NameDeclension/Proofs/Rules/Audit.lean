/-
# NameDeclension.Proofs.Rules.Audit — what a comparison of lengths says about a rule

Whoever writes a table can check a rule without a name at hand: does its guard need as many letters as
its paradigm cuts? The two are not counts of the same thing. A guard counts letters, a cut is counted
in characters of the spelling, and the dotted capital I is one character and two letters. So the check
bounds the cut by the number of letters: that of the characters, and one more for each dotted capital I
(`maxDrop_le_of_passes`). In a name without one no cut goes past the start; in a name that has one it
may, although the rule passes the check (`dotted_shorter_than_cut`).
-/
import NameDeclension.Proofs.Guard.Length
import NameDeclension.Proofs.Rules.Cuts

namespace NameDeclension

open Guard (minLength_le_of_facts Fact.minLength_le_of_holds)

theorem Word.length_eq_add_count (w : Word) :
    w.length = w.spellingLength + w.spelling.count '\u0130' :=
  Lettercase.length_lower w.spelling

/-- What is cut and what is left make up the spelling, if no more is cut than there is. -/
theorem Word.length_truncated_add {w : Word} {n : Nat} (h : n ≤ w.spellingLength) :
    (w.truncated n).length + n = w.spellingLength := by
  rw [truncated, Text.length_dropEnd]
  exact Nat.sub_add_cancel h

/-- **A rule that passes the check cuts no more than the letters of a name that it takes.** These are
as many as the characters, and one more for each dotted capital I. So in a name without that letter
the longest cut stays inside the spelling, and every ending cuts as much as it says. -/
theorem maxDrop_le_of_passes {guard : Guard Pattern} {paradigm : Paradigm} {w : Word}
    (hpasses : guard.passes w = true) (checked : paradigm.maxDrop ≤ guard.minLength) :
    paradigm.maxDrop ≤ w.length ∧
      w.length = w.spellingLength + w.spelling.count '\u0130' ∧
      ('\u0130' ∉ w.spelling → paradigm.maxDrop ≤ w.spellingLength ∧
        ∀ splice ∈ paradigm.toList,
          (w.truncated splice.drop).length + splice.drop = w.spellingLength) := by
  have needed : guard.minLength ≤ w.length :=
    minLength_le_of_facts (fun _ _ holds => Fact.minLength_le_of_holds holds) hpasses
  have bound : paradigm.maxDrop ≤ w.length := Nat.le_trans checked needed
  refine ⟨bound, w.length_eq_add_count, ?_⟩
  intro undotted
  have same : w.length = w.spellingLength := by
    rw [w.length_eq_add_count, List.count_eq_zero.mpr undotted, Nat.add_zero]
  have inside : paradigm.maxDrop ≤ w.spellingLength := same ▸ bound
  refine ⟨inside, ?_⟩
  intro splice hsplice
  exact Word.length_truncated_add (Nat.le_trans (Paradigm.drop_le_maxDrop hsplice) inside)

/-- A rule for surnames in -кий passes the check, and of this one it leaves a letter. -/
theorem maxDrop_le_of_passes_kiy :
    (Rule.ends "кий").passes ⟨"Кий".toList, by decide⟩ = true ∧
      (Rule.endings "--ого" "--ому" "--ого" "--им" "--ом").maxDrop ≤ (Rule.ends "кий").minLength ∧
      (Rule.endings "--ого" "--ому" "--ого" "--им" "--ом").maxDrop ≤
        Word.spellingLength ⟨"Кий".toList, by decide⟩ := by
  have passed : (Rule.ends "кий").passes ⟨"Кий".toList, by decide⟩ = true := by decide +kernel
  have checked : (Rule.endings "--ого" "--ому" "--ого" "--им" "--ом").maxDrop ≤
      (Rule.ends "кий").minLength := by decide +kernel
  exact ⟨passed, checked, ((maxDrop_le_of_passes passed checked).2.2 (by decide)).1⟩

/-- **The check does not bound the cut by the number of characters.** A dotted capital I has the two
letters that this guard needs, and the paradigm cuts two characters where there is one. -/
theorem dotted_shorter_than_cut :
    (Rule.equals "i\u0307").passes ⟨['\u0130'], by decide⟩ = true ∧
      (Rule.endings "--а" "--у" "--а" "--ом" "--е").maxDrop ≤ (Rule.equals "i\u0307").minLength ∧
      ¬ (Rule.endings "--а" "--у" "--а" "--ом" "--е").maxDrop ≤
        Word.spellingLength ⟨['\u0130'], by decide⟩ := by
  decide +kernel

end NameDeclension
