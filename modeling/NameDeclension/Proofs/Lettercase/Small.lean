/-
# NameDeclension.Proofs.Lettercase.Small — small letters are fixed, so lowering is idempotent

The table of capitals never sends a capital to a capital: the images of a run and the capitals of
any run are ranges that lie apart, or interleave with opposite parity (`Run.avoids`). What the table
yields is therefore fixed by it, and so are the two small sigmas and the two characters of the dotted
capital I. A lowered text holds nothing else. It has no capital sigma left whose neighbours could
matter, and a second lowering finds nothing to do: `lower_lower`.

The check of the table is one closed evaluation over pairs of runs, not over the 1487 letters.
-/
import NameDeclension.Lettercase.Lower

namespace NameDeclension.Lettercase

/-! ## What a run does to a code point -/

theorem Run.image?_eq_some_iff (run : Run) (n m : Nat) :
    run.image? n = some m ↔
      run.first ≤ n ∧ n ≤ run.last ∧ (n - run.first) % run.step = 0 ∧
        m = run.target + (n - run.first) := by
  unfold Run.image?
  split
  · rename_i h
    rw [Option.some.injEq]
    exact ⟨fun e => ⟨h.1, h.2.1, h.2.2, e.symm⟩, fun e => e.2.2.2.symm⟩
  · rename_i h
    constructor
    · intro e
      exact absurd e (Option.some_ne_none m).symm
    · intro e
      exact absurd ⟨e.1, e.2.1, e.2.2.1⟩ h

/-- **`run.avoids other`** — no image of `run` is a capital of `other`: the two ranges are apart, or
`other` steps over the images because their parity is the other one. -/
def Run.avoids (run other : Run) : Bool :=
  Nat.blt (run.target + (run.last - run.first)) other.first || Nat.blt other.last run.target ||
    (other.step == 2 && (run.step == 2 || run.first == run.last) &&
      (run.target + other.first) % 2 == 1)

theorem Run.image?_eq_none_of_avoids {run other : Run} {n m : Nat}
    (apart : run.avoids other = true) (h : run.image? n = some m) : other.image? m = none := by
  rw [Run.image?_eq_some_iff] at h
  obtain ⟨hfirst, hlast, hstep, rfl⟩ := h
  rw [Option.eq_none_iff_forall_ne_some]
  intro k hk
  rw [Run.image?_eq_some_iff] at hk
  obtain ⟨kfirst, klast, kstep, -⟩ := hk
  simp only [Run.avoids, Bool.or_eq_true, Bool.and_eq_true, beq_iff_eq, Nat.blt_eq] at apart
  rcases apart with (above | below) | ⟨⟨two, narrow⟩, odd⟩
  · omega
  · omega
  · -- `other` has step 2, and the image differs from each of its capitals by an odd number
    rw [two] at kstep
    rcases narrow with two' | one
    · rw [two'] at hstep
      omega
    · omega

/-- **`run.inText`** — every image of the run is the code point of a character, and none is that of
the dotted capital I. -/
def Run.inText (run : Run) : Bool :=
  let last := run.target + (run.last - run.first)
  (Nat.blt last 0x130 || Nat.blt 0x130 run.target) &&
    (Nat.blt last 0xD800 || (Nat.blt 0xDFFF run.target && Nat.blt last 0x110000))

theorem Run.isValidChar_image {run : Run} {n m : Nat} (ok : run.inText = true)
    (h : run.image? n = some m) : m.isValidChar ∧ m ≠ 0x130 := by
  rw [Run.image?_eq_some_iff] at h
  obtain ⟨hfirst, hlast, -, rfl⟩ := h
  simp only [Run.inText, Bool.or_eq_true, Bool.and_eq_true, Nat.blt_eq] at ok
  refine ⟨?_, by omega⟩
  simp only [Nat.isValidChar]
  omega

/-! ## The table -/

theorem capitalRuns_avoid :
    (capitalRuns.all fun run => capitalRuns.all fun other => run.avoids other) = true := by
  decide +kernel

theorem capitalRuns_inText : capitalRuns.all Run.inText = true := by decide +kernel

/-- The code point that the table gives to a capital. -/
def capitalImage? (n : Nat) : Option Nat := capitalRuns.findSome? fun run => run.image? n

theorem capitalImage?_spec {n m : Nat} (h : capitalImage? n = some m) :
    m.isValidChar ∧ m ≠ 0x130 ∧ capitalImage? m = none := by
  obtain ⟨run, hrun, himage⟩ := List.exists_of_findSome?_eq_some h
  have inText : run.inText = true := List.all_eq_true.mp capitalRuns_inText run hrun
  have apart := List.all_eq_true.mp capitalRuns_avoid run hrun
  obtain ⟨valid, notDotted⟩ := Run.isValidChar_image inText himage
  refine ⟨valid, notDotted, ?_⟩
  -- any run may be the one that would move the image on
  show (capitalRuns.findSome? fun other => other.image? m) = none
  rw [List.findSome?_eq_none_iff]
  intro other hother
  exact Run.image?_eq_none_of_avoids (List.all_eq_true.mp apart other hother) himage

theorem toNat_ofNat {n : Nat} (h : n.isValidChar) : (Char.ofNat n).toNat = n := by
  rw [Char.ofNat, dif_pos h]
  rfl

/-- The **small form of a letter that has a small form of one character.** -/
def simpleLower (c : Char) : Char :=
  match capitalImage? c.toNat with
  | some n => Char.ofNat n
  | none => c

theorem lowerChar_eq {c : Char} (h : c ≠ '\u0130') : lowerChar c = [simpleLower c] := by
  unfold lowerChar simpleLower
  rw [if_neg h]
  show (match capitalImage? c.toNat with
    | some n => [Char.ofNat n]
    | none => [c]) = _
  cases capitalImage? c.toNat <;> rfl

/-! ## Small letters -/

/-- A letter is **small** when the map of single letters leaves it as it is. -/
def IsSmall (c : Char) : Prop := lowerChar c = [c]

instance : DecidablePred IsSmall := fun c => inferInstanceAs (Decidable (lowerChar c = [c]))

theorem IsSmall.ne_sigma {c : Char} (h : IsSmall c) : c ≠ 'Σ' := by
  rintro rfl
  exact absurd h (by decide +kernel)

theorem isSmall_of_capitalImage?_eq_none {c : Char} (h : capitalImage? c.toNat = none)
    (hc : c ≠ '\u0130') : IsSmall c := by
  unfold IsSmall
  rw [lowerChar_eq hc, simpleLower, h]

theorem isSmall_simpleLower {c : Char} (hc : c ≠ '\u0130') : IsSmall (simpleLower c) := by
  cases h : capitalImage? c.toNat with
  | none =>
    rw [simpleLower, h]
    exact isSmall_of_capitalImage?_eq_none h hc
  | some n =>
    rw [simpleLower, h]
    show IsSmall (Char.ofNat n)
    -- the image is again a code point for the table to look up, and is not found there
    obtain ⟨valid, notDotted, fixed⟩ := capitalImage?_spec h
    have toNat_eq : (Char.ofNat n).toNat = n := toNat_ofNat valid
    apply isSmall_of_capitalImage?_eq_none
    · simpa only [toNat_eq] using fixed
    · intro dotted
      rw [dotted] at toNat_eq
      exact notDotted toNat_eq.symm

theorem isSmall_of_mem_lowerChar {c d : Char} (h : d ∈ lowerChar c) : IsSmall d := by
  by_cases hc : c = '\u0130'
  · subst hc
    have both : ((lowerChar '\u0130').all fun x => decide (IsSmall x)) = true := by decide +kernel
    exact of_decide_eq_true (List.all_eq_true.mp both d h)
  · rw [lowerChar_eq hc, List.mem_singleton] at h
    exact h ▸ isSmall_simpleLower hc

/-! ## Small texts -/

/-- Whatever its neighbours, a letter becomes small ones. -/
theorem isSmall_of_mem_lowerAt {left right : Text} {c d : Char} (h : d ∈ lowerAt left c right) :
    IsSmall d := by
  have sigmas : IsSmall 'σ' ∧ IsSmall 'ς' := by decide +kernel
  unfold lowerAt at h
  split at h
  · split at h
    · exact List.mem_singleton.mp h ▸ sigmas.2
    · exact List.mem_singleton.mp h ▸ sigmas.1
  · exact isSmall_of_mem_lowerChar h

theorem isSmall_of_mem_lowerAfter {left t : Text} {d : Char} (h : d ∈ lowerAfter left t) :
    IsSmall d := by
  induction t generalizing left with
  | nil => exact absurd h List.not_mem_nil
  | cons c right ih =>
    rw [lowerAfter, List.mem_append] at h
    rcases h with here | later
    · exact isSmall_of_mem_lowerAt here
    · exact ih later

/-- **A lowered text is made of small letters.** -/
theorem isSmall_of_mem_lower {t : Text} {d : Char} (h : d ∈ lower t) : IsSmall d :=
  isSmall_of_mem_lowerAfter h

theorem lowerAt_of_isSmall {c : Char} (h : IsSmall c) (left right : Text) :
    lowerAt left c right = [c] := by
  rw [lowerAt, if_neg h.ne_sigma]
  show lowerChar c = [c]
  exact h

theorem lowerAfter_of_isSmall {t : Text} (h : ∀ c ∈ t, IsSmall c) (left : Text) :
    lowerAfter left t = t := by
  induction t generalizing left with
  | nil => rfl
  | cons c right ih =>
    rw [lowerAfter, lowerAt_of_isSmall (h c List.mem_cons_self),
      ih fun d hd => h d (List.mem_cons_of_mem c hd)]
    rfl

theorem lower_of_isSmall {t : Text} (h : ∀ c ∈ t, IsSmall c) : lower t = t :=
  lowerAfter_of_isSmall h []

/-- **Lowering is idempotent.** -/
@[simp] theorem lower_lower (t : Text) : lower (lower t) = lower t :=
  lower_of_isSmall fun _ h => isSmall_of_mem_lower h

/-! ## Lengths -/

/-- Only the dotted capital I becomes two letters. -/
theorem length_lowerAt (left : Text) (c : Char) (right : Text) :
    (lowerAt left c right).length = if c = '\u0130' then 2 else 1 := by
  by_cases sigma : c = 'Σ'
  · have other : c ≠ '\u0130' := by
      rw [sigma]
      decide
    rw [lowerAt, if_pos sigma, if_neg other]
    split <;> rfl
  · rw [lowerAt, if_neg sigma]
    by_cases dotted : c = '\u0130'
    · rw [if_pos dotted, dotted]
      rfl
    · rw [if_neg dotted, lowerChar_eq dotted]
      rfl

theorem length_lowerAfter (left t : Text) :
    (lowerAfter left t).length = t.length + t.count '\u0130' := by
  induction t generalizing left with
  | nil => rfl
  | cons c right ih =>
    rw [lowerAfter, List.length_append, length_lowerAt, ih, List.length_cons, List.count_cons]
    by_cases dotted : c = '\u0130'
    · rw [if_pos dotted, if_pos (beq_iff_eq.mpr dotted)]
      omega
    · rw [if_neg dotted, if_neg (mt beq_iff_eq.mp dotted)]
      omega

/-- **A small form has a letter for each character, and one more for each dotted capital I.** -/
theorem length_lower (t : Text) : (lower t).length = t.length + t.count '\u0130' :=
  length_lowerAfter [] t

theorem length_le_length_lower (t : Text) : t.length ≤ (lower t).length := by
  rw [length_lower]
  exact Nat.le_add_right _ _

theorem lower_eq_nil_iff (t : Text) : lower t = [] ↔ t = [] := by
  constructor
  · intro h
    have longer := length_le_length_lower t
    rw [h] at longer
    exact List.eq_nil_of_length_eq_zero (Nat.le_zero.mp longer)
  · rintro rfl
    rfl

end NameDeclension.Lettercase
