/-
# NameDeclension.Proofs.Lettercase.Signs — lowering neither makes nor loses a sign

A written pattern is lowered before it is read. The signs of the notation (`[`, `]`, `!`, `-`) are
small, and no capital becomes one of them: the images of the table lie behind the last of the signs.
So the signs of a lowered text are those of the text, in the same order (`filter_lower`).
-/
import NameDeclension.Pattern.Slot
import NameDeclension.Proofs.Lettercase.Sigma

namespace NameDeclension.Lettercase

theorem isSmall_of_mem_special {c : Char} (h : c ∈ Slot.special) : IsSmall c := by
  have signs : (Slot.special.all fun c => decide (IsSmall c)) = true := by decide +kernel
  exact of_decide_eq_true (List.all_eq_true.mp signs c h)

/-- No capital of the table becomes a sign. -/
theorem simpleLower_eq_of_mem_special {c : Char} (h : simpleLower c ∈ Slot.special) :
    simpleLower c = c := by
  have table : (capitalRuns.all fun run => Nat.ble 0x61 run.target) = true := by decide +kernel
  have signs : (Slot.special.all fun c => Nat.blt c.toNat 0x61) = true := by decide
  have below : (simpleLower c).toNat < 0x61 := by
    simpa [Nat.blt_eq] using List.all_eq_true.mp signs _ h
  unfold simpleLower at below ⊢
  cases himage : capitalImage? c.toNat with
  | none => rfl
  | some n =>
    exfalso
    rw [himage] at below
    obtain ⟨valid, -⟩ := capitalImage?_spec himage
    obtain ⟨run, hrun, hn⟩ := List.exists_of_findSome?_eq_some himage
    obtain ⟨-, -, -, rfl⟩ := (Run.image?_eq_some_iff run c.toNat n).mp hn
    have behind : 0x61 ≤ run.target := Nat.ble_eq.mp (List.all_eq_true.mp table run hrun)
    simp only [toNat_ofNat valid] at below
    omega

/-- **A sign in a small form comes from that sign.** -/
theorem eq_of_mem_lowerAt {left right : Text} {c d : Char} (h : d ∈ lowerAt left c right)
    (hd : d ∈ Slot.special) : c = d := by
  by_cases sigma : c = 'Σ'
  · have sigmas : 'ς' ∉ Slot.special ∧ 'σ' ∉ Slot.special := by decide
    unfold lowerAt at h
    rw [if_pos sigma] at h
    split at h
    · exact absurd (List.mem_singleton.mp h ▸ hd) sigmas.1
    · exact absurd (List.mem_singleton.mp h ▸ hd) sigmas.2
  · rw [lowerAt, if_neg sigma] at h
    by_cases dotted : c = '\u0130'
    · have two : ((lowerChar '\u0130').all fun x => !Slot.special.contains x) = true := by
        decide +kernel
      rw [dotted] at h
      have other : d ∉ Slot.special := by simpa using List.all_eq_true.mp two d h
      exact absurd hd other
    · rw [lowerChar_eq dotted, List.mem_singleton] at h
      subst h
      exact (simpleLower_eq_of_mem_special hd).symm

section

variable {p : Char → Bool}

theorem filter_lowerAt (signs : ∀ d, p d = true → d ∈ Slot.special) (left : Text) (c : Char)
    (right : Text) : (lowerAt left c right).filter p = [c].filter p := by
  by_cases hc : c ∈ Slot.special
  · rw [lowerAt_of_isSmall (isSmall_of_mem_special hc)]
  · -- no sign goes in, so none comes out
    have none_out : (lowerAt left c right).filter p = [] := by
      rw [List.filter_eq_nil_iff]
      intro d hd sign
      exact hc (eq_of_mem_lowerAt hd (signs d sign) ▸ signs d sign)
    have none_in : [c].filter p = [] := by
      rw [List.filter_eq_nil_iff]
      intro d hd sign
      exact hc (List.mem_singleton.mp hd ▸ signs d sign)
    rw [none_out, none_in]

theorem filter_lowerAfter (signs : ∀ d, p d = true → d ∈ Slot.special) (left t : Text) :
    (lowerAfter left t).filter p = t.filter p := by
  induction t generalizing left with
  | nil => rfl
  | cons c right ih =>
    rw [lowerAfter, List.filter_append, ih, filter_lowerAt signs, ← List.filter_append,
      List.singleton_append]

/-- **Lowering keeps the signs of a text**, or those of some kind, in their order. -/
theorem filter_lower (signs : ∀ d, p d = true → d ∈ Slot.special) (t : Text) :
    (lower t).filter p = t.filter p :=
  filter_lowerAfter signs [] t

end

/-- A text is a run of one sign if and only if its small form is. -/
theorem forall_mem_lower_eq_iff {sign : Char} (h : sign ∈ Slot.special) (t : Text) :
    (∀ c ∈ lower t, c = sign) ↔ ∀ c ∈ t, c = sign := by
  constructor
  · intro run
    have signs : ∀ d, (d == sign) = true → d ∈ Slot.special := by
      intro d hd
      rwa [beq_iff_eq.mp hd]
    have kept : (lower t).filter (fun c => c == sign) = t.filter fun c => c == sign :=
      filter_lower signs t
    have all : (lower t).filter (fun c => c == sign) = lower t :=
      List.filter_eq_self.mpr fun c hc => beq_iff_eq.mpr (run c hc)
    -- `t` is not longer than its small form, whose letters are all signs of `t`
    have length : (t.filter fun c => c == sign).length = t.length :=
      Nat.le_antisymm (List.length_filter_le _ t)
        (by rw [← kept, all]; exact length_le_length_lower t)
    intro c hc
    exact beq_iff_eq.mp (List.length_filter_eq_length_iff.mp length c hc)
  · intro run
    have small : ∀ c ∈ t, IsSmall c := fun c hc => isSmall_of_mem_special (run c hc ▸ h)
    rwa [lower_of_isSmall small]

end NameDeclension.Lettercase
