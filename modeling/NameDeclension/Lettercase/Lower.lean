/-
# NameDeclension.Lettercase.Lower — the small form of a text

A text is lowered letter by letter. Only capital sigma looks at its neighbours: at the end of a word
(a letter before it, none after it) it becomes final sigma, anywhere else the plain small one. So
the small form of a part of a text need not be a part of its small form, and the dotted capital I
makes the small form longer than the text.
-/
import NameDeclension.Lettercase.Mapping
import NameDeclension.Lettercase.Context

namespace NameDeclension.Lettercase

/-- The **small form of a letter among its neighbours.** `left` is the text before the letter,
nearest character first, and `right` the text after it. -/
def lowerAt (left : Text) (c : Char) (right : Text) : Text :=
  if c = 'Σ' then
    if leadsCased left && !leadsCased right then ['ς'] else ['σ']
  else
    lowerChar c

/-- The small form of a text that continues `left` (nearest character first). -/
def lowerAfter (left : Text) : Text → Text
  | [] => []
  | c :: right => lowerAt left c right ++ lowerAfter (c :: left) right

/-- The **small form of a text.** -/
def lower (t : Text) : Text := lowerAfter [] t

@[simp] theorem lower_nil : lower [] = [] := rfl

/-- Sigma is final after a letter and before none, and an apostrophe does not count as either. -/
example : lower "ΟΔΟΣ ΣΑΣ' Σ".toList = "οδος σας' σ".toList := by decide +kernel

/-- The dotted capital I takes two characters. -/
example : lower "İ".toList = ['i', '\u0307'] := by decide +kernel

end NameDeclension.Lettercase
