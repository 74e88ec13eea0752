/-
# NameDeclension.Proofs.Pattern.Literal — patterns without signs

A source without signs is stored as its lowered letters and compared with the end of a word as a text.
Read as slots it would give one plain letter for each of them, and the scan of these takes the same
words (`compile_plain`). It takes the word with exactly these letters and the longer words that end so.

One might expect that a word fits its own ending. The source and the word are lowered apart, so this
fails for a sigma: as the last letter of a word it is final, and alone it is not
(`own_ending_unfit`). It fails nowhere else: `fits_own_ending_iff` says when.
-/
import NameDeclension.Proofs.Guard.Length
import NameDeclension.Proofs.Lettercase.Signs

namespace NameDeclension

namespace Pattern

open Lettercase (lower leadsCased opensWithFinalSigma)

/-! ## Sources without signs -/

/-- No sign comes up when a text is lowered. -/
theorem not_mem_special_of_mem_lower {s : Text} (plain : ∀ c ∈ s, c ∉ Slot.special) :
    ∀ c ∈ lower s, c ∉ Slot.special := by
  have signs : (lower s).filter (fun c => Slot.special.contains c) =
      s.filter fun c => Slot.special.contains c :=
    Lettercase.filter_lower (fun _ h => List.contains_iff_mem.mp h) s
  have none_in : s.filter (fun c => Slot.special.contains c) = [] :=
    List.filter_eq_nil_iff.mpr fun c hc sign => plain c hc (List.contains_iff_mem.mp sign)
  rw [none_in, List.filter_eq_nil_iff] at signs
  exact fun c hc sign => signs c hc (List.contains_iff_mem.mpr sign)

/-- A source without signs is stored as its letters. -/
theorem compile_of_plain {s : Text} (nonempty : s ≠ []) (plain : ∀ c ∈ s, c ∉ Slot.special) :
    compile s = .ok ⟨s, .tail (lower s)⟩ := by
  have letters : lower s ≠ [] := mt (Lettercase.lower_eq_nil_iff s).mp nonempty
  have signless : ((lower s).any fun c => Slot.special.contains c) = false :=
    List.any_eq_false.mpr fun c hc sign =>
      not_mem_special_of_mem_lower plain c hc (List.contains_iff_mem.mp sign)
  rw [compile, Body.ofText?, if_neg letters, signless, if_neg Bool.false_ne_true]
  rfl

theorem fits_tail_iff {source letters : Text} {w : Word} :
    fits ⟨source, .tail letters⟩ w = true ↔ letters <:+ w.letters :=
  List.isSuffixOf_iff_suffix

/-- The word with certain letters is the one that ends with them and is as long. -/
theorem isSpelled_iff_fits {s : Text} {w : Word} :
    w.isSpelled s = true ↔
      fits ⟨s, .tail (lower s)⟩ w = true ∧ w.length = (lower s).length := by
  rw [Word.isSpelled_iff, fits_tail_iff]
  constructor
  · intro h
    rw [Word.length, h]
    exact ⟨List.suffix_refl _, rfl⟩
  · rintro ⟨ends, length_eq⟩
    exact (ends.eq_of_length length_eq.symm).symm

/-- **Comparing texts and scanning slots agree.** A source without signs reads as one plain letter for
each lowered one, with nothing left over. It is compiled to these letters, and a word fits by its end if
and only if the scan of the slots succeeds; the number of letters compared is the same in both. The guard
for the word itself passes just those words that fit and have as many letters. -/
theorem compile_plain {s : Text} (nonempty : s ≠ []) (plain : ∀ c ∈ s, c ∉ Slot.special) :
    Slot.parse (lower s) = ((lower s).map Slot.plain, []) ∧
    ∃ pattern, compile s = .ok pattern ∧ pattern.isLiteral = true ∧
      pattern.minLength =
        (Slot.parse (lower s)).1.countP (fun slot => !slot.isWildcard) ∧
      ∀ w : Word, pattern.fits w = w.endsWith (lower s) ∧
        w.endsWith (lower s) =
          Slot.scan (Slot.parse (lower s)).1.reverse w.letters.reverse ∧
        (Guard.passes w (.equals s) = true ↔
          pattern.fits w = true ∧ w.length = (lower s).length) := by
  have reading := Slot.parse_of_not_special (not_mem_special_of_mem_lower plain)
  refine ⟨reading, ⟨s, .tail (lower s)⟩, compile_of_plain nonempty plain, rfl, ?_, fun w => ?_⟩
  · rw [minLength_eq_countP, reading]
    rfl
  · have scanned := fits_eq_scan ⟨s, .tail (lower s)⟩ w
    rw [reading]
    exact ⟨rfl, scanned, isSpelled_iff_fits⟩

/-- The capitals of a source make no difference, and a longer word fits without being spelled so. -/
theorem compile_plain_evna :
    "ЕВна".toList ≠ [] ∧ (∀ c ∈ "ЕВна".toList, c ∉ Slot.special) ∧
      ∃ pattern, compile "ЕВна".toList = .ok pattern ∧
        pattern.fits ⟨"Евна".toList, by decide⟩ = true ∧
        pattern.fits ⟨"Сергеевна".toList, by decide⟩ = true ∧
        Guard.passes ⟨"Евна".toList, by decide⟩ (.equals "ЕВна".toList) = true ∧
        ¬ Guard.passes ⟨"Сергеевна".toList, by decide⟩ (.equals "ЕВна".toList) = true := by
  have nonempty : "ЕВна".toList ≠ [] := by decide
  have plain : ∀ c ∈ "ЕВна".toList, c ∉ Slot.special := by simp [Slot.special]
  obtain ⟨-, pattern, compiled, -, -, meaning⟩ := compile_plain nonempty plain
  have short : pattern.fits ⟨"Евна".toList, by decide⟩ = true := by
    rw [(meaning _).1]
    decide +kernel
  have long : pattern.fits ⟨"Сергеевна".toList, by decide⟩ = true := by
    rw [(meaning _).1]
    decide +kernel
  refine ⟨nonempty, plain, pattern, compiled, short, long, ?_, ?_⟩
  · exact (meaning _).2.2.mpr ⟨short, by decide +kernel⟩
  · intro passes
    exact absurd ((meaning _).2.2.mp passes).2 (by decide +kernel)

/-! ## The ending of a word as a pattern -/

/-- **When a word fits its own ending.** An ending without signs is a pattern, and the word fits it in all
cases but one: the ending opens with a sigma that no letter follows, and a letter stands before it. -/
theorem fits_own_ending_iff (w : Word) {front ending : Text} (split : w.spelling = front ++ ending)
    (nonempty : ending ≠ []) (plain : ∀ c ∈ ending, c ∉ Slot.special) :
    ∃ pattern, compile ending = .ok pattern ∧
      (pattern.fits w = true ↔
        ¬ (leadsCased front.reverse = true ∧ opensWithFinalSigma ending = true)) := by
  refine ⟨_, compile_of_plain nonempty plain, ?_⟩
  rw [fits_tail_iff, Word.letters, split]
  exact Lettercase.suffix_lower_append_self_iff front ending

/-- Here the last sigma is final in the word and in its ending. -/
theorem fits_own_ending_iff_odysseus :
    "ΟΔΥΣΣΕΥΣ".toList = "ΟΔΥΣ".toList ++ "ΣΕΥΣ".toList ∧ "ΣΕΥΣ".toList ≠ [] ∧
      (∀ c ∈ "ΣΕΥΣ".toList, c ∉ Slot.special) ∧
      ∃ pattern, compile "ΣΕΥΣ".toList = .ok pattern ∧
        pattern.fits ⟨"ΟΔΥΣΣΕΥΣ".toList, by decide⟩ = true := by
  have split : "ΟΔΥΣΣΕΥΣ".toList = "ΟΔΥΣ".toList ++ "ΣΕΥΣ".toList := by decide
  have nonempty : "ΣΕΥΣ".toList ≠ [] := by decide
  have plain : ∀ c ∈ "ΣΕΥΣ".toList, c ∉ Slot.special := by simp [Slot.special]
  obtain ⟨pattern, compiled, fits_iff⟩ :=
    fits_own_ending_iff ⟨"ΟΔΥΣΣΕΥΣ".toList, by decide⟩ split nonempty plain
  exact ⟨split, nonempty, plain, pattern, compiled, fits_iff.mpr (by decide +kernel)⟩

/-- **A word may not fit its own ending.** The sigma at the end of this word is final, and that of the
pattern is not. -/
theorem own_ending_unfit :
    "Σ".toList ≠ [] ∧ "Σ".toList <:+ "ΑΣ".toList ∧ (∀ c ∈ "Σ".toList, c ∉ Slot.special) ∧
      ¬ ∃ pattern, compile "Σ".toList = .ok pattern ∧
        pattern.fits ⟨"ΑΣ".toList, by decide⟩ = true := by
  have nonempty : "Σ".toList ≠ [] := by decide
  have plain : ∀ c ∈ "Σ".toList, c ∉ Slot.special := by simp [Slot.special]
  have alone : lower "Σ".toList = ['σ'] := by decide +kernel
  have final : lower "ΑΣ".toList = ['α', 'ς'] := by decide +kernel
  refine ⟨nonempty, ⟨['Α'], rfl⟩, plain, ?_⟩
  rintro ⟨pattern, compiled, taken⟩
  rw [compile_of_plain nonempty plain, alone] at compiled
  obtain rfl := Except.ok.inj compiled
  rw [fits_tail_iff, Word.letters, final] at taken
  exact absurd taken (by decide)

end Pattern

end NameDeclension
