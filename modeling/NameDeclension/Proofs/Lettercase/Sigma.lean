/-
# NameDeclension.Proofs.Lettercase.Sigma — what stands before a text

A text is lowered with what stands before it in view: a sigma at its end may be final only because a
letter stands further left. That is all. With both small sigmas read as one (`plainSigma`), the small
form of a text does not depend on what it continues (`map_plainSigma_lowerAfter`), so the last
letters of a longer text are those of its end (`fromEnd?_lower_append`).

With the two told apart it depends on one bit, whether a letter leads what stands before, and only if
the text opens with a sigma that no letter follows (`lowerAfter_eq_iff`). So the small form of a longer
text ends with that of its end but for this one case (`suffix_lower_append_self_iff`).
-/
import NameDeclension.Proofs.Ends
import NameDeclension.Proofs.Lettercase.Cyrillic

namespace NameDeclension.Lettercase

/-- Final sigma read as the plain small one. -/
def plainSigma (c : Char) : Char := if c = 'ς' then 'σ' else c

theorem plainSigma_eq_iff {c d : Char} (final : d ≠ 'ς') (plain : d ≠ 'σ') :
    plainSigma c = d ↔ c = d := by
  unfold plainSigma
  split
  · rename_i h
    rw [h]
    exact ⟨fun e => absurd e.symm plain, fun e => absurd e.symm final⟩
  · exact Iff.rfl

theorem map_plainSigma_lowerAt (left left' : Text) (c : Char) (right : Text) :
    (lowerAt left c right).map plainSigma = (lowerAt left' c right).map plainSigma := by
  have either : ∀ b : Bool, (if b then ['ς'] else ['σ'] : Text).map plainSigma = ['σ'] := by
    intro b
    cases b <;> rfl
  unfold lowerAt
  split
  · rw [either, either]
  · rfl

/-- **What stands before a text acts on its small form only through sigmas.** -/
theorem map_plainSigma_lowerAfter (left left' t : Text) :
    (lowerAfter left t).map plainSigma = (lowerAfter left' t).map plainSigma := by
  induction t generalizing left left' with
  | nil => rfl
  | cons c right ih =>
    rw [lowerAfter, lowerAfter, List.map_append, List.map_append,
      map_plainSigma_lowerAt left left' c right, ih (c :: left) (c :: left')]

/-- **The letters at the end of a longer text are those of its end**, sigmas apart. -/
theorem fromEnd?_lower_append (p : Text) {t : Text} {i : Nat} (h : i < t.length) :
    ((lower (p ++ t)).fromEnd? i).map plainSigma = ((lower t).fromEnd? i).map plainSigma := by
  have same : (lowerAfter (p.reverse ++ []) t).map plainSigma = (lower t).map plainSigma :=
    map_plainSigma_lowerAfter _ [] t
  have inside : i < ((lower t).map plainSigma).length := by
    rw [List.length_map]
    exact Nat.lt_of_lt_of_le h (length_le_length_lower t)
  rw [← Text.fromEnd?_map, ← Text.fromEnd?_map, lower, lowerAfter_append, List.map_append, same,
    Text.fromEnd?_append_of_lt inside]

/-! ## The one bit -/

/-- Whether **a text opens with a sigma that may be final**: the first character that is not looked
through is a capital sigma, and no letter follows it. -/
def opensWithFinalSigma : Text → Bool
  | [] => false
  | c :: rest =>
    if isIgnorable c then opensWithFinalSigma rest else c == 'Σ' && !leadsCased rest

section

variable {left left' : Text}

/-- What stands before a text acts on its small form only through one bit: whether a letter leads. -/
theorem lowerAfter_congr (h : leadsCased left = leadsCased left') (t : Text) :
    lowerAfter left t = lowerAfter left' t := by
  induction t generalizing left left' with
  | nil => rfl
  | cons c rest ih =>
    have here : lowerAt left c rest = lowerAt left' c rest := by rw [lowerAt, lowerAt, h]
    have next : leadsCased (c :: left) = leadsCased (c :: left') := by
      rw [leadsCased, leadsCased, h]
    rw [lowerAfter, lowerAfter, here, ih next]

/-- A letter with a letter or none on both sides has one small form, unless it is a sigma that no letter
follows. -/
theorem lowerAt_eq_iff (left left' : Text) (c : Char) (right : Text) :
    lowerAt left c right = lowerAt left' c right ↔
      leadsCased left = leadsCased left' ∨ (c == 'Σ' && !leadsCased right) = false := by
  unfold lowerAt
  by_cases sigma : c = 'Σ'
  · cases leadsCased left <;> cases leadsCased left' <;> cases leadsCased right <;> simp [sigma]
  · simp [sigma]

/-- **The bit matters only to a text that opens with a sigma which may be final.** -/
theorem lowerAfter_eq_iff (t : Text) :
    lowerAfter left t = lowerAfter left' t ↔
      leadsCased left = leadsCased left' ∨ opensWithFinalSigma t = false := by
  induction t generalizing left left' with
  | nil => simp [lowerAfter, opensWithFinalSigma]
  | cons c rest ih =>
    rw [lowerAfter, lowerAfter, opensWithFinalSigma]
    by_cases through : isIgnorable c = true
    · -- the character is no sigma, and the bit is passed on behind it
      have other : (c == 'Σ') = false := by
        rw [beq_eq_false_iff_ne]
        rintro rfl
        exact absurd through (by decide +kernel)
      have here : lowerAt left c rest = lowerAt left' c rest :=
        (lowerAt_eq_iff left left' c rest).mpr (.inr (by rw [other, Bool.false_and]))
      rw [here, List.append_cancel_left_eq, ih, leadsCased, leadsCased, if_pos through,
        if_pos through, if_pos through]
    · -- behind the character nothing is seen of what stands before it
      have behind : lowerAfter (c :: left) rest = lowerAfter (c :: left') rest :=
        lowerAfter_congr (by rw [leadsCased, leadsCased, if_neg through, if_neg through]) rest
      rw [behind, List.append_cancel_right_eq, lowerAt_eq_iff, if_neg through]

end

/-- **The small form of a longer text ends with that of its end**, unless the end opens with a sigma that
is final there because a letter stands before. -/
theorem suffix_lower_append_self_iff (front t : Text) :
    lower t <:+ lower (front ++ t) ↔
      ¬ (leadsCased front.reverse = true ∧ opensWithFinalSigma t = true) := by
  have parts : lower (front ++ t) = lowerBetween [] front t ++ lowerAfter front.reverse t := by
    rw [lower, lowerAfter_append, List.append_nil]
  have same_length : (lower t).length = (lowerAfter front.reverse t).length := by
    rw [length_lower, length_lowerAfter]
  have ends : lower t <:+ lower (front ++ t) ↔ lowerAfter [] t = lowerAfter front.reverse t := by
    rw [parts]
    constructor
    · rintro ⟨before, h⟩
      exact (List.append_inj' h same_length).2
    · intro h
      exact ⟨lowerBetween [] front t, congrArg _ h⟩
  rw [ends, lowerAfter_eq_iff]
  show false = leadsCased front.reverse ∨ _ ↔ _
  cases leadsCased front.reverse <;> simp

end NameDeclension.Lettercase
