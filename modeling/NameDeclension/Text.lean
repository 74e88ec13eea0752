/-
# NameDeclension.Text — texts and their ends

Names, patterns and endings are texts. A text is the list of its characters (code points), so its
length counts characters. Russian words change at the end, so positions are counted from there.
-/

namespace NameDeclension

/-- A text is the list of its characters. -/
abbrev Text := List Char

namespace Text

/-- The **character counted from the end**: the one `i` places before the last, so that
place 0 is the last character. -/
def fromEnd? (t : Text) (i : Nat) : Option Char := t.reverse[i]?

/-- The text without its last `n` characters. Nothing is left when it has no more than `n`. -/
def dropEnd (t : Text) (n : Nat) : Text := t.take (t.length - n)

theorem fromEnd?_eq_none_iff (t : Text) (i : Nat) : t.fromEnd? i = none ↔ t.length ≤ i := by
  simp [fromEnd?]

@[simp] theorem dropEnd_zero (t : Text) : t.dropEnd 0 = t := by
  simp [dropEnd]

theorem length_dropEnd (t : Text) (n : Nat) : (t.dropEnd n).length = t.length - n := by
  simp [dropEnd]

end Text

end NameDeclension
