/-
# NameDeclension.Proofs.Splice.Endings — what a written ending says

The last hyphen of a written ending divides it. What follows the hyphen is added, and the hyphen and
each character before it cut one character off the word, whatever these characters are. Without a
hyphen nothing is cut. `ofText_eq_iff` says that no other reading is possible.

A paradigm is five written endings in the order of the cases, and its longest cut is the least number
that none of them exceeds.
-/
import NameDeclension.Splice

namespace NameDeclension

namespace Splice

/-! ## The last hyphen -/

/-- A text has a last hyphen or none. -/
theorem exists_last_hyphen (source : Text) :
    '-' ∉ source ∨ ∃ before ending, source = before ++ '-' :: ending ∧ '-' ∉ ending := by
  by_cases h : '-' ∈ source
  · -- it is the first one backwards
    obtain ⟨behind, before, split, none_behind⟩ :=
      List.eq_append_cons_of_mem (List.mem_reverse.mpr h)
    refine .inr ⟨before.reverse, behind.reverse, ?_, by rwa [List.mem_reverse]⟩
    rw [← List.reverse_reverse source, split, List.reverse_append, List.reverse_cons,
      List.append_assoc, List.singleton_append]
  · exact .inl h

theorem takeWhile_reverse {ending : Text} (h : '-' ∉ ending) (before : Text) :
    (before ++ ending).reverse.takeWhile (fun c => c != '-') =
      ending.reverse ++ before.reverse.takeWhile fun c => c != '-' := by
  rw [List.reverse_append]
  apply List.takeWhile_append_of_pos
  intro c hc
  rw [bne_iff_ne]
  rintro rfl
  exact h (List.mem_reverse.mp hc)

/-- Without a hyphen all of the text is added. -/
theorem ofText_of_not_mem {ending : Text} (h : '-' ∉ ending) : ofText ending = ⟨0, ending⟩ := by
  have all : ending.reverse.takeWhile (fun c => c != '-') = ending.reverse := by
    simpa using takeWhile_reverse h []
  rw [ofText, all, List.reverse_reverse, Nat.sub_self]

/-- The last hyphen and each character before it cut one character. -/
theorem ofText_append_hyphen (before : Text) {ending : Text} (h : '-' ∉ ending) :
    ofText (before ++ '-' :: ending) = ⟨before.length + 1, ending⟩ := by
  have behind : (before ++ '-' :: ending).reverse.takeWhile (fun c => c != '-') =
      ending.reverse := by
    rw [List.append_cons, takeWhile_reverse h, List.reverse_concat,
      List.takeWhile_cons_of_neg (by decide), List.append_nil]
  have length : (before ++ '-' :: ending).length - ending.length = before.length + 1 := by
    rw [List.length_append, List.length_cons]
    omega
  rw [ofText, behind, List.reverse_reverse, length]

/-- **What a written ending says.** -/
theorem ofText_eq_iff {source : Text} {drop : Nat} {ending : Text} :
    ofText source = ⟨drop, ending⟩ ↔
      '-' ∉ ending ∧ (source = ending ∧ drop = 0 ∨
        ∃ before, source = before ++ '-' :: ending ∧ drop = before.length + 1) := by
  constructor
  · intro h
    rcases exists_last_hyphen source with plain | ⟨before, behind, rfl, plain⟩
    · rw [ofText_of_not_mem plain, mk.injEq] at h
      obtain ⟨rfl, rfl⟩ := h
      exact ⟨plain, .inl ⟨rfl, rfl⟩⟩
    · rw [ofText_append_hyphen before plain, mk.injEq] at h
      obtain ⟨rfl, rfl⟩ := h
      exact ⟨plain, .inr ⟨before, rfl, rfl⟩⟩
  · rintro ⟨plain, ⟨rfl, rfl⟩ | ⟨before, rfl, rfl⟩⟩
    · exact ofText_of_not_mem plain
    · exact ofText_append_hyphen before plain

end Splice

namespace Paradigm

/-! ## The endings of a paradigm -/

/-- Each case gets its own ending. -/
theorem entries_forms_ofTexts (sources : Oblique Text) (w : Word) :
    ((ofTexts sources).forms w).entries =
      Case.oblique.zip (sources.toList.map fun source => (Splice.ofText source).apply w) := by
  rw [Oblique.entries_eq_zip, forms, ofTexts, Oblique.map_map, Oblique.toList_map]

/-- **The longest cut is the least number that no cut exceeds.** -/
theorem maxDrop_le_iff {paradigm : Paradigm} {n : Nat} :
    paradigm.maxDrop ≤ n ↔ ∀ splice ∈ paradigm.toList, splice.drop ≤ n := by
  simp only [maxDrop, Oblique.toList, List.map_cons, List.map_nil, List.foldr_cons, List.foldr_nil,
    Nat.max_le, Nat.zero_le, List.forall_mem_cons, List.not_mem_nil, false_implies, implies_true]

theorem drop_le_maxDrop {paradigm : Paradigm} {splice : Splice} (h : splice ∈ paradigm.toList) :
    splice.drop ≤ paradigm.maxDrop :=
  maxDrop_le_iff.mp (Nat.le_refl _) splice h

end Paradigm

end NameDeclension
