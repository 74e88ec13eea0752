/-
# NameDeclension.Splice — endings and paradigms

An ending is written as a text such as `--ого`: cut two characters off the word, then add `ого`.
Only the last hyphen counts, and each character before it cuts one character as well. A paradigm is
five endings, one for each oblique case.
-/
import NameDeclension.Grammar.Case
import NameDeclension.Word

namespace NameDeclension

/-- An **ending**: cut `drop` characters off the end of a word and add `ending`. -/
structure Splice where
  drop : Nat
  ending : Text
  deriving DecidableEq, Repr

namespace Splice

/-- An **ending from its written form.** What follows the last hyphen is added; that hyphen and
everything before it each cut one character. Without a hyphen all of it is added. -/
def ofText (source : Text) : Splice :=
  let ending := (source.reverse.takeWhile fun c => c != '-').reverse
  ⟨source.length - ending.length, ending⟩

/-- Only the last hyphen counts. -/
example : ofText "--ого".toList = ⟨2, "ого".toList⟩ ∧ ofText "а-б-в".toList = ⟨4, ['в']⟩ := by
  decide +kernel

/-- The word with the ending put on, in its own spelling. -/
def apply (splice : Splice) (w : Word) : Text := w.truncated splice.drop ++ splice.ending

/-- The length of the result, where no more is cut than there is. -/
theorem length_apply {splice : Splice} {w : Word} (h : splice.drop ≤ w.spellingLength) :
    (splice.apply w).length + splice.drop = w.spellingLength + splice.ending.length := by
  have kept : (w.truncated splice.drop).length = w.spellingLength - splice.drop :=
    Text.length_dropEnd w.spelling splice.drop
  rw [apply, List.length_append, kept]
  omega

end Splice

/-- A **paradigm**: the endings for the five oblique cases. -/
abbrev Paradigm := Oblique Splice

namespace Paradigm

/-- The paradigm of five written endings. -/
def ofTexts (sources : Oblique Text) : Paradigm := sources.map Splice.ofText

/-- The forms of a word. -/
def forms (paradigm : Paradigm) (w : Word) : Forms := paradigm.map fun splice => splice.apply w

/-- The longest cut that an ending of the paradigm makes. -/
def maxDrop (paradigm : Paradigm) : Nat := (paradigm.toList.map Splice.drop).foldr max 0

end Paradigm

end NameDeclension
