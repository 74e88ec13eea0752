/-
# NameDeclension.Word — a name made ready for matching

A word keeps the spelling it was given and is compared by its letters, the lowered spelling. Rules
look at the letters; endings are cut from the spelling, so capitals survive. The two need not have
the same length.
-/
import NameDeclension.Lettercase.Lower

namespace NameDeclension

/-- Why a text is no word. -/
inductive WordError where
  | empty
  deriving DecidableEq, Repr

/-- The wording of the error. -/
def WordError.message : WordError → String
  | .empty => "cannot decline an empty word"

/-- A **word**: a spelling of at least one character. -/
structure Word where
  spelling : Text
  spelling_ne_nil : spelling ≠ []
  deriving DecidableEq

namespace Word

/-- The word with the given spelling. -/
def ofText? (t : Text) : Except WordError Word :=
  if h : t = [] then .error .empty else .ok ⟨t, h⟩

/-! ## Letters -/

/-- The lowered spelling. -/
def letters (w : Word) : Text := Lettercase.lower w.spelling

/-- The number of letters. -/
def length (w : Word) : Nat := w.letters.length

/-- The number of characters of the spelling. -/
def spellingLength (w : Word) : Nat := w.spelling.length

/-- The letter `i` places before the last one. -/
def fromEnd? (w : Word) (i : Nat) : Option Char := w.letters.fromEnd? i

/-- Why a question for a letter has no answer: it ends the program. -/
inductive OffsetError where
  /-- The offset is too large to be counted from 1, and the program aborts. -/
  | tooLarge
  deriving DecidableEq, Repr

/-- The **letter at a 64-bit offset.** Places are counted from 1 at the end, so an offset names the
place one above it, and a word that has no such place has no letter there. Otherwise the letter is
looked up, and the program aborts if there is none. That happens at the largest offset: the number of
its place wraps to 0, and what is looked up is the letter behind the last. Where overflow is checked,
the addition aborts the program instead. -/
def letterAt (w : Word) (offset : UInt64) : Except OffsetError (Option Char) :=
  let place := offset + 1
  if place.toNat ≤ w.length then
    match w.letters[w.length - place.toNat]? with
    | some letter => .ok (some letter)
    | none => .error .tooLarge
  else
    .ok none

/-! ## Comparison -/

/-- Whether the word is the given one, whatever the capitals of either. -/
def isSpelled (w : Word) (literal : Text) : Bool := w.letters == Lettercase.lower literal

theorem isSpelled_iff {w : Word} {literal : Text} :
    w.isSpelled literal = true ↔ w.letters = Lettercase.lower literal :=
  beq_iff_eq

/-- Whether the letters end with the given ones. -/
def endsWith (w : Word) (tail : Text) : Bool := tail.isSuffixOf w.letters

/-- The vowel letters. -/
def vowels : List Char := ['а', 'о', 'у', 'э', 'ы', 'я', 'ё', 'ю', 'е', 'и']

/-- The number of syllables: a Russian syllable has one vowel. -/
def syllables (w : Word) : Nat := w.letters.countP fun c => vowels.contains c

/-! ## Cutting -/

/-- The spelling without its last `n` characters. -/
def truncated (w : Word) (n : Nat) : Text := w.spelling.dropEnd n

@[simp] theorem ofText?_spelling (w : Word) : ofText? w.spelling = .ok w := by
  simp [ofText?, w.spelling_ne_nil]

theorem ofText?_eq_error_iff (t : Text) (e : WordError) : ofText? t = .error e ↔ t = [] := by
  cases e
  unfold ofText?
  split <;> simp_all

end Word

end NameDeclension
