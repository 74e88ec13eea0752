/-
# NameDeclension.Proofs.Pattern.Brackets — which texts are patterns, and what is wrong with others

A class is opened by `[` and closed by the next bracket, which has to be `]`. Reading stops at the
first bracket for which this fails, so whether a text is a pattern can be told from its brackets
alone. `badBrackets` pairs each `[` with a `]` right behind it among the brackets of the text and keeps
those that are left: a `]` that closes no class, and a `[` whose next bracket is another `[` or is
missing.

`compile_outcome` is the grammar of patterns: a text of bangs alone names no slot, any other is a
pattern if it has no bad bracket, and if it has, the first one says which error it is. Lowering does
not come into it, since it keeps the signs of a text.
-/
import NameDeclension.Proofs.Lettercase.Signs
import NameDeclension.Proofs.Pattern.Grammar
import NameDeclension.Proofs.Pattern.Row

namespace NameDeclension

namespace Slot

/-! ## Brackets that belong to no class -/

/-- The brackets of a row that belong to no class: all but the pairs `[`, `]`. -/
def unmatched : Text → Text
  | '[' :: ']' :: rest => unmatched rest
  | c :: rest => c :: unmatched rest
  | [] => []

/-- The **bad brackets** of a text, in order. Whatever stands between two brackets does not
matter. -/
def badBrackets (t : Text) : Text := unmatched (brackets t)

theorem head?_unmatched_close (rest : Text) : (unmatched (']' :: rest)).head? = some ']' := by
  simp [unmatched]

theorem head?_unmatched_open {rest : Text} (h : rest.head? ≠ some ']') :
    (unmatched ('[' :: rest)).head? = some '[' := by
  cases rest with
  | nil => rfl
  | cons c rest =>
    have other : c ≠ ']' := by simpa using h
    simp [unmatched, other]

theorem badBrackets_eq_nil_of_bangs {t : Text} (h : ∀ c ∈ t, c = '!') : badBrackets t = [] := by
  have plain : ∀ c ∈ t, isBracket c = false := fun c hc => h c hc ▸ rfl
  rw [badBrackets, ← List.append_nil t, brackets_append_of_not_isBracket plain]
  rfl

theorem not_bangs_of_head?_badBrackets {t : Text} {c : Char}
    (h : (badBrackets t).head? = some c) : badBrackets t ≠ [] ∧ ¬ ∀ d ∈ t, d = '!' := by
  have bad : badBrackets t ≠ [] := by
    intro good
    rw [good] at h
    exact absurd h (Option.some_ne_none c).symm
  exact ⟨bad, fun bangs => bad (badBrackets_eq_nil_of_bangs bangs)⟩

theorem badBrackets_lower (t : Text) : badBrackets (Lettercase.lower t) = badBrackets t := by
  have signs : ∀ c, isBracket c = true → c ∈ special := by
    intro c hc
    simp only [isBracket, Bool.or_eq_true, beq_iff_eq] at hc
    rcases hc with rfl | rfl <;> decide
  rw [badBrackets, brackets, Lettercase.filter_lower signs]
  rfl

/-! ## What is left over when a text is read -/

theorem StopsReading.head?_badBrackets {left : Text} (h : StopsReading left) :
    (badBrackets left).head? = left.head? := by
  cases left with
  | nil => rfl
  | cons c rest =>
    rcases h with rfl | ⟨rfl, next⟩
    · rw [badBrackets, brackets_cons_of_isBracket (by decide), head?_unmatched_close]
      rfl
    · rw [badBrackets, brackets_cons_of_isBracket (by decide), head?_unmatched_open next]
      rfl

/-- A written form has no bad bracket, and closes every class that it opens. -/
theorem WrittenAs.badBrackets_append {slot : Slot} {piece : Text} (h : slot.WrittenAs piece)
    (t : Text) : badBrackets (piece ++ t) = badBrackets t := by
  cases h with
  | wildcard n =>
    have plain : ∀ c ∈ bangs n ++ ['-'], isBracket c = false := by
      rw [List.forall_mem_append, List.forall_mem_singleton]
      exact ⟨not_isBracket_of_mem_bangs, rfl⟩
    rw [badBrackets, brackets_append_of_not_isBracket plain, badBrackets]
  | @literal n letter plain =>
    have plain : ∀ c ∈ bangs n ++ [letter], isBracket c = false := by
      rw [List.forall_mem_append, List.forall_mem_singleton]
      exact ⟨not_isBracket_of_mem_bangs, by simp [isBracket, not_mem_special_iff.mp plain]⟩
    rw [badBrackets, brackets_append_of_not_isBracket plain, badBrackets]
  | @oneOf n inside plain =>
    have joined : bangs n ++ '[' :: inside ++ [']'] ++ t =
        bangs n ++ '[' :: (inside ++ ']' :: t) := by simp
    rw [badBrackets, joined, brackets_append_of_not_isBracket not_isBracket_of_mem_bangs,
      brackets_cons_of_isBracket (by decide), brackets_append_of_not_isBracket plain,
      brackets_cons_of_isBracket (by decide), unmatched, badBrackets]

/-- **Reading stops at the first bad bracket**, or nowhere. -/
theorem ReadsAs.head?_left {t left : Text} {slots : List Slot} (h : ReadsAs t slots left) :
    left.head? = (badBrackets t).head? := by
  obtain ⟨pieces, n, rfl, hpieces, stops⟩ := h
  induction hpieces with
  | nil =>
    rw [List.flatten_nil, List.nil_append, badBrackets,
      brackets_append_of_not_isBracket not_isBracket_of_mem_bangs]
    exact stops.head?_badBrackets.symm
  | cons hpiece _ ih =>
    rw [List.flatten_cons, List.append_assoc, List.append_assoc, hpiece.badBrackets_append,
      ← List.append_assoc, ih]

/-- Only a run of bangs names no slot and leaves nothing over. -/
theorem readsAs_nil_nil_iff {t : Text} : ReadsAs t [] [] ↔ ∀ c ∈ t, c = '!' := by
  constructor
  · rintro ⟨pieces, n, rfl, hpieces, -⟩ c hc
    cases hpieces
    rw [List.append_nil] at hc
    exact List.eq_of_mem_replicate hc
  · intro run
    have all_bangs : bangs t.length ++ [] = t := by
      rw [List.append_nil]
      exact (List.eq_replicate_of_mem run).symm
    have reading : ReadsAs (bangs t.length ++ []) [] [] := .stop t.length trivial
    rwa [all_bangs] at reading

end Slot

/-! ## Compiling -/

namespace Pattern

open Slot (badBrackets)

/-- **All that can come of a text** is decided by its reading: no slot, slots with nothing left over,
or a rest that begins with a bracket. The texts that are stored as letters are no exception. -/
theorem Body.ofText?_cases (source lowered : Text) :
    (Slot.parse lowered = ([], []) ∧ Body.ofText? source lowered = .error .empty) ∨
    (∃ row, row ≠ [] ∧ Slot.parse lowered = (row, []) ∧
      ∃ body, Body.ofText? source lowered = .ok body) ∨
    (∃ row c left, Slot.parse lowered = (row, c :: left) ∧ Body.ofText? source lowered =
      .error (if c = '[' then .unclosedClass source else .unexpectedClassEnd source)) := by
  unfold Body.ofText?
  split
  · rename_i empty
    left
    rw [empty]
    exact ⟨rfl, rfl⟩
  · rename_i nonempty
    split
    · cases hparse : Slot.parse lowered with
      | mk row left =>
        cases left with
        | nil =>
          cases row with
          | nil => exact Or.inl ⟨rfl, rfl⟩
          | cons slot row => exact Or.inr (Or.inl ⟨slot :: row, List.cons_ne_nil _ _, rfl, _, rfl⟩)
        | cons c left => exact Or.inr (Or.inr ⟨row, c, left, rfl, by cases row <;> rfl⟩)
    · -- the letters read as themselves
      rename_i plain
      have letters : ∀ c ∈ lowered, c ∉ Slot.special := by simpa using plain
      right
      left
      exact ⟨lowered.map Slot.plain, by simpa using nonempty, Slot.parse_of_not_special letters,
        _, rfl⟩

/-- What comes of a text, told from its bangs and its brackets. -/
theorem compile_cases (s : Text) :
    ((∀ c ∈ s, c = '!') ∧ compile s = .error .empty) ∨
    ((∃ c ∈ s, c ≠ '!') ∧ badBrackets s = [] ∧ ∃ pattern, compile s = .ok pattern) ∨
    ((badBrackets s).head? = some '[' ∧ compile s = .error (.unclosedClass s)) ∨
    ((badBrackets s).head? = some ']' ∧ compile s = .error (.unexpectedClassEnd s)) := by
  have first_bad : (Slot.parse (Lettercase.lower s)).2.head? = (badBrackets s).head? := by
    rw [(Slot.readsAs_parse _).head?_left, Slot.badBrackets_lower]
  have bangs : Slot.parse (Lettercase.lower s) = ([], []) ↔ ∀ c ∈ s, c = '!' := by
    rw [Slot.parse_eq_iff, Slot.readsAs_nil_nil_iff,
      Lettercase.forall_mem_lower_eq_iff (by decide)]
  unfold compile
  rcases Body.ofText?_cases s (Lettercase.lower s) with
    ⟨hparse, hbody⟩ | ⟨row, hrow, hparse, body, hbody⟩ | ⟨row, c, left, hparse, hbody⟩
  · left
    rw [hbody]
    exact ⟨bangs.mp hparse, rfl⟩
  · right
    left
    have not_bangs : ¬ ∀ c ∈ s, c = '!' := by
      intro run
      rw [bangs.mpr run] at hparse
      exact hrow (Prod.mk.inj hparse).1.symm
    have other : ∃ c ∈ s, c ≠ '!' := by simpa using not_bangs
    rw [hparse] at first_bad
    rw [hbody]
    exact ⟨other, List.head?_eq_none_iff.mp first_bad.symm, _, rfl⟩
  · right
    right
    obtain ⟨-, -, -, -, stops⟩ := Slot.parse_eq_iff.mp hparse
    rw [hparse] at first_bad
    rw [hbody, ← first_bad]
    rcases stops with rfl | ⟨rfl, -⟩
    · exact Or.inr ⟨rfl, rfl⟩
    · exact Or.inl ⟨rfl, rfl⟩

/-- **The grammar of patterns.** A text of nothing but bangs is refused as empty. Any other is a pattern
if and only if it has no bad bracket; otherwise the first bad bracket decides the error, which quotes
the text as it was given. -/
theorem compile_outcome (s : Text) :
    (compile s = .error .empty ↔ ∀ c ∈ s, c = '!') ∧
    ((∃ pattern, compile s = .ok pattern) ↔ (∃ c ∈ s, c ≠ '!') ∧ badBrackets s = []) ∧
    (∀ t, compile s = .error (.unclosedClass t) ↔
      t = s ∧ (badBrackets s).head? = some '[') ∧
    (∀ t, compile s = .error (.unexpectedClassEnd t) ↔
      t = s ∧ (badBrackets s).head? = some ']') := by
  rcases compile_cases s with
    ⟨bangs, h⟩ | ⟨⟨c, hc, other⟩, good, pattern, h⟩ | ⟨first_bad, h⟩ | ⟨first_bad, h⟩
  · have good : badBrackets s = [] := Slot.badBrackets_eq_nil_of_bangs bangs
    simpa [h, good] using bangs
  · have found : ∃ d ∈ s, d ≠ '!' := ⟨c, hc, other⟩
    have not_bangs : ¬ ∀ d ∈ s, d = '!' := fun bangs => other (bangs c hc)
    simpa [h, good, not_bangs] using found
  · obtain ⟨bad, not_bangs⟩ := Slot.not_bangs_of_head?_badBrackets first_bad
    simp [h, bad, first_bad, not_bangs, @eq_comm _ s]
  · obtain ⟨bad, not_bangs⟩ := Slot.not_bangs_of_head?_badBrackets first_bad
    simp [h, bad, first_bad, not_bangs, @eq_comm _ s]

/-- A second `[` before the `]` makes the first one bad, not the `]`; bangs in front do not hide it. -/
example : badBrackets "!а[!б][вг[д]".toList = ['['] ∧ badBrackets "!!]а[".toList = [']', '['] := by
  decide

end Pattern

end NameDeclension
