/-
# NameDeclension.Proofs.Guard.Lowering — capitals make no difference

A pattern is lowered when it is compiled, a literal when it is compared, and a word before it is looked
at. Whoever lowers them beforehand does what would be done anyway, and lowering twice is lowering once.

The source of a pattern is kept beside what it is compiled to, and errors about brackets quote it. So
what comes of a lowered source is not the same but the small form of what comes of the source
(`Pattern.compile_lower`). A guard is compiled one pattern after another, which carries this over to
all guards (`Guard.compile_lowered`). The verdict on a word does not depend on what is quoted:
`lowering_beforehand`.
-/
import NameDeclension.Proofs.Guard.Letters

namespace NameDeclension

open Lettercase (lower lower_lower lower_eq_nil_iff)

/-! ## Words -/

namespace Word

/-- The **word in small letters.** -/
def lowered (w : Word) : Word :=
  ⟨lower w.spelling, fun h => w.spelling_ne_nil ((lower_eq_nil_iff w.spelling).mp h)⟩

theorem spelling_lowered (w : Word) : w.lowered.spelling = lower w.spelling := rfl

/-- Lowering the spelling changes none of the letters. -/
@[simp] theorem letters_lowered (w : Word) : w.lowered.letters = w.letters := lower_lower w.spelling

theorem ofText?_lower (w : Word) : ofText? (lower w.spelling) = .ok w.lowered :=
  ofText?_spelling w.lowered

end Word

/-! ## Patterns -/

/-- The **error about the lowered text**: of the same kind, and it quotes the small form of what the
error quotes. -/
def PatternError.lowered : PatternError → PatternError
  | .empty => .empty
  | .unclosedClass source => .unclosedClass (lower source)
  | .unexpectedClassEnd source => .unexpectedClassEnd (lower source)

/-- The **pattern with a lowered source.** It asks the same. -/
def Pattern.lowered (pattern : Pattern) : Pattern := ⟨lower pattern.source, pattern.body⟩

theorem Pattern.fits_lowered (pattern : Pattern) (w : Word) :
    pattern.lowered.fits w = pattern.fits w :=
  rfl

/-- The source shows in nothing but the errors. -/
theorem Pattern.Body.ofText?_lower (source letters : Text) :
    ofText? (lower source) letters = (ofText? source letters).mapError PatternError.lowered := by
  unfold ofText?
  split
  · rfl
  · split
    · -- the first character left over decides the error, which quotes the source
      split
      · rfl
      · rfl
      · split <;> rfl
    · rfl

/-- **What comes of a lowered source is the small form of what comes of the source.** -/
theorem Pattern.compile_lower (source : Text) :
    compile (lower source) =
      ((compile source).mapError PatternError.lowered).map Pattern.lowered := by
  rw [compile, compile, lower_lower, Body.ofText?_lower]
  cases Body.ofText? source (lower source) <;> rfl

/-! ## Guards with other texts -/

namespace Guard

section

variable {α β ε α' β' ε' : Type}
variable {f : α → Except ε β} {f' : α' → Except ε' β'}
variable {a : α → α'} {b : β → β'} {e : ε → ε'} (g : Text → Text)

mutual

/-- **Whole guards come to what their descriptions come to.** If a description in other words comes to the
same, with values and errors put in other words as well, then so does a guard, since the first
description that fails is still the first. -/
theorem traverse_map (h : ∀ x, f' (a x) = ((f x).mapError e).map b) :
    ∀ guard : Guard α, traverse f' (map a g guard) = ((traverse f guard).mapError e).map (map b g)
  | .ends description => by
    rw [map, traverse, traverse, h]
    cases f description <;> rfl
  | .equals _ => rfl
  | .syllables _ => rfl
  | .not guard => by
    rw [map, traverse, traverse, traverse_map h guard]
    cases traverse f guard <;> rfl
  | .all guards => by
    rw [map, traverse, traverse, traverseAll_mapAll h guards]
    cases traverseAll f guards <;> rfl
  | .any guards => by
    rw [map, traverse, traverse, traverseAll_mapAll h guards]
    cases traverseAll f guards <;> rfl

theorem traverseAll_mapAll (h : ∀ x, f' (a x) = ((f x).mapError e).map b) :
    ∀ guards : List (Guard α),
      traverseAll f' (mapAll a g guards) = ((traverseAll f guards).mapError e).map (mapAll b g)
  | [] => rfl
  | guard :: guards => by
    rw [mapAll, traverseAll, traverseAll, traverse_map h guard]
    cases traverse f guard with
    | error _ => rfl
    | ok head =>
      -- only behind a success are the other guards looked at
      show (traverseAll f' (mapAll a g guards)).map _ = _
      rw [traverseAll_mapAll h guards]
      cases traverseAll f guards <;> rfl

end

end

section

variable {w : Word} {f : Pattern → Pattern} {g : Text → Text}

mutual

/-- Patterns and literals that a word cannot tell from others may stand in their place. -/
theorem passes_map (hf : ∀ pattern, (f pattern).fits w = pattern.fits w)
    (hg : ∀ literal, w.isSpelled (g literal) = w.isSpelled literal) :
    ∀ guard : Guard Pattern, passes w (map f g guard) = passes w guard
  | .ends pattern => hf pattern
  | .equals literal => hg literal
  | .syllables _ => rfl
  | .not guard => by rw [map, passes, passes, passes_map hf hg guard]
  | .all guards => (passesEach_mapAll hf hg guards).1
  | .any guards => (passesEach_mapAll hf hg guards).2

theorem passesEach_mapAll (hf : ∀ pattern, (f pattern).fits w = pattern.fits w)
    (hg : ∀ literal, w.isSpelled (g literal) = w.isSpelled literal) :
    ∀ guards : List (Guard Pattern), passesAll w (mapAll f g guards) = passesAll w guards ∧
      passesAny w (mapAll f g guards) = passesAny w guards
  | [] => ⟨rfl, rfl⟩
  | guard :: guards => by
    obtain ⟨all, any⟩ := passesEach_mapAll hf hg guards
    rw [mapAll, passesAll, passesAll, passesAny, passesAny, passes_map hf hg guard, all, any]
    exact ⟨rfl, rfl⟩

end

end

/-! ## Guards in small letters -/

/-- **What comes of a lowered guard is the small form of what comes of the guard.** -/
theorem compile_lowered (guard : Guard Text) :
    compile guard.lowered =
      ((compile guard).mapError PatternError.lowered).map (map Pattern.lowered lower) :=
  traverse_map lower Pattern.compile_lower guard

/-- A word in small letters gets the verdict of the word, from the guard in small letters as well. -/
theorem passes_lowered (w : Word) (guard : Guard Pattern) :
    passes w.lowered (map Pattern.lowered lower guard) = passes w guard := by
  have literals : ∀ literal, w.isSpelled (lower literal) = w.isSpelled literal := by
    intro literal
    rw [Word.isSpelled, Word.isSpelled, lower_lower]
  rw [passes_congr w.letters_lowered]
  exact passes_map (fun pattern => pattern.fits_lowered w) literals guard

end Guard

/-! ## Both ways of compiling -/

/-- **`SameOutcome R`** — the same comes of two attempts: values that `R` relates, or errors of one
kind, of which the second quotes the small form of what the first one quotes. -/
def SameOutcome {α β : Type} (R : α → β → Prop) :
    Except PatternError α → Except PatternError β → Prop
  | .ok x, .ok y => R x y
  | .error e, .error e' => e' = e.lowered
  | _, _ => False

theorem SameOutcome.of_map {α β : Type} {R : α → β → Prop} {f : α → β} (h : ∀ x, R x (f x))
    (r : Except PatternError α) : SameOutcome R r ((r.mapError PatternError.lowered).map f) := by
  cases r with
  | ok x => exact h x
  | error e => rfl

/-- **Patterns and words may be lowered beforehand.** A source and its small form are both patterns or
both none, and then for the same reason. As patterns they are of the same sort and compare the same
number of letters, and the word in small letters fits the second if and only if the word fits the first.
So it is with whole guards: with all texts in it lowered, a guard compiles if it did before, and gives
the word in small letters the verdict that it gave the word. -/
theorem lowering_beforehand :
    (∀ source : Text,
      SameOutcome (fun pattern small => small.isLiteral = pattern.isLiteral ∧
          small.minLength = pattern.minLength ∧
          ∀ w : Word, ∃ v, Word.ofText? (lower w.spelling) = .ok v ∧ small.fits v = pattern.fits w)
        (Pattern.compile source) (Pattern.compile (lower source))) ∧
    ∀ guard : Guard Text,
      SameOutcome (fun guard small => ∀ w : Word, ∃ v, Word.ofText? (lower w.spelling) = .ok v ∧
          Guard.passes v small = Guard.passes w guard)
        guard.compile guard.lowered.compile := by
  constructor
  · intro source
    rw [Pattern.compile_lower]
    refine SameOutcome.of_map (fun pattern => ⟨rfl, rfl, fun w => ⟨w.lowered, w.ofText?_lower, ?_⟩⟩) _
    rw [Pattern.fits_eq_scan, Pattern.fits_eq_scan, w.letters_lowered]
    rfl
  · intro guard
    rw [Guard.compile_lowered]
    exact SameOutcome.of_map (fun guard w => ⟨w.lowered, w.ofText?_lower, Guard.passes_lowered w guard⟩) _

end NameDeclension
