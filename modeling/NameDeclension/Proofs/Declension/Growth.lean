/-
# NameDeclension.Proofs.Declension.Growth — a name never shrinks, however often it is declined

Each ending of the tables adds at least as many letters as it cuts, and at most two more. A cut never
goes past the start of the name, so a form is at least as long as the name and at most two characters
longer (`length_form`). The forms of one table are names for every other, and a name that no rule
takes stays as it is. So steps can follow each other without end: there is always a name to decline,
no step fails, and `k` steps make it at most `2 * k` characters longer (`run_grows`).
-/
import NameDeclension.Inflection
import NameDeclension.Proofs.Rules.Cuts

namespace NameDeclension

/-! ## The length of a form -/

/-- Every ending of the tables adds what it cuts, in number of letters, and up to two letters more. -/
theorem RuleSet.endings_grow (s : RuleSet) :
    ∀ rule ∈ s.rules, ∀ splice ∈ rule.paradigm.toList,
      splice.drop ≤ splice.ending.length ∧ splice.ending.length ≤ splice.drop + 2 := by
  cases s <;> decide +kernel

/-- **A form is not shorter than the name, and at most two characters longer.** -/
theorem Word.length_form (w : Word) (s : RuleSet) :
    ∀ form ∈ (w.declension s).forms.toList,
      w.spellingLength ≤ form.length ∧ form.length ≤ w.spellingLength + 2 := by
  intro form hform
  rcases w.declension_cases s with ⟨rule, hrule, id, hpasses, hd⟩ | hd
  · rw [hd, Paradigm.forms, Oblique.toList_map, List.mem_map] at hform
    obtain ⟨splice, hsplice, rfl⟩ := hform
    have inside : splice.drop ≤ w.spellingLength :=
      (s.cutsCyrillic rule hrule).drop_le_spellingLength hpasses hsplice
    have grows := s.endings_grow rule hrule splice hsplice
    have length := Splice.length_apply inside
    omega
  · -- without a rule every form is the spelling
    have same : form = w.spelling := by simpa [hd, Forms.unchanged, Oblique.replicate,
      Oblique.toList] using hform
    rw [same, spellingLength]
    omega

/-! ## Steps -/

namespace Inflection

/-- **A step makes a name of a name.** -/
theorem Step.exists_apply (step : Step) (w : Word) :
    ∃ next : Word, step.apply w.spelling = .ok next.spelling ∧
      (step.case = .nominative → next = w) ∧
      w.spellingLength ≤ next.spellingLength ∧ next.spellingLength ≤ w.spellingLength + 2 := by
  rw [Step.apply_spelling]
  by_cases nominative : step.case = .nominative
  · rw [nominative]
    exact ⟨w, rfl, fun _ => rfl, Nat.le_refl _, Nat.le_add_right _ 2⟩
  · have bounds := w.length_form step.ruleSet _
      ((w.declension step.ruleSet).forms.form_mem_toList nominative w.spelling)
    have some_length : 0 < w.spellingLength := List.length_pos_iff.mpr w.spelling_ne_nil
    have ne_nil : (w.declension step.ruleSet).forms.form step.case w.spelling ≠ [] :=
      List.ne_nil_of_length_pos (Nat.lt_of_lt_of_le some_length bounds.1)
    exact ⟨⟨_, ne_nil⟩, rfl, fun h => absurd h nominative, bounds⟩

/-! ## Runs -/

/-- Every run comes to its end, and each of its steps adds two characters at most. -/
theorem exists_run (w : Word) (steps : List Step) :
    ∃ last : Word, run w.spelling steps = .ok last.spelling ∧
      w.spellingLength ≤ last.spellingLength ∧
      last.spellingLength ≤ w.spellingLength + 2 * steps.length := by
  induction steps generalizing w with
  | nil => exact ⟨w, rfl, Nat.le_refl _, Nat.le_add_right _ _⟩
  | cons step steps ih =>
    obtain ⟨next, happly, -, longer, bound⟩ := step.exists_apply w
    obtain ⟨last, hrun, longer', bound'⟩ := ih next
    refine ⟨last, ?_, Nat.le_trans longer longer', ?_⟩
    · rw [run, happly]
      exact hrun
    · rw [List.length_cons]
      omega

/-- **However often a name is declined, there is a name to decline again.** After any steps the
current name is a word, not shorter than the first one and at most two characters longer for each
step. The next step, whatever it is, does not fail and makes it the last name of the longer run: in
the nominative the same, else one that is not shorter and at most two characters longer. -/
theorem run_grows (w : Word) (steps : List Step) :
    ∃ current : Word, run w.spelling steps = .ok current.spelling ∧
      w.spellingLength ≤ current.spellingLength ∧
      current.spellingLength ≤ w.spellingLength + 2 * steps.length ∧
      ∀ step : Step, ∃ next : Word, step.apply current.spelling = .ok next.spelling ∧
        run w.spelling (steps ++ [step]) = .ok next.spelling ∧
        (step.case = .nominative → next = current) ∧
        current.spellingLength ≤ next.spellingLength ∧
        next.spellingLength ≤ current.spellingLength + 2 := by
  obtain ⟨current, hrun, longer, bound⟩ := exists_run w steps
  refine ⟨current, hrun, longer, bound, ?_⟩
  intro step
  obtain ⟨next, happly, same, bounds⟩ := step.exists_apply current
  refine ⟨next, happly, ?_, same, bounds⟩
  rw [run_append, hrun]
  show (step.apply current.spelling).bind _ = _
  rw [happly]
  rfl

/-- What one table makes is a name for the next. -/
example :
    (run "Лев".toList [⟨.maleFirstName, .instrumental⟩, ⟨.maleSurname, .genitive⟩]).toOption =
      some "Львома".toList := by
  decide +kernel

end Inflection

end NameDeclension
