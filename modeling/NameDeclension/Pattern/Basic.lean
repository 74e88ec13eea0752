/-
# NameDeclension.Pattern.Basic — patterns for the end of a word

A pattern is compiled from its written form. One without special characters asks that the word end
with exactly these letters. Any other is a row of slots, compared with the letters of the word from
the right. Capitals in the written form make no difference.
-/
import NameDeclension.Pattern.Slot
import NameDeclension.Word

namespace NameDeclension

/-- Why a text is no pattern. The errors about brackets quote the text as it was given. -/
inductive PatternError where
  /-- It names no slot. -/
  | empty
  /-- A bracket opens a class that none closes. -/
  | unclosedClass (source : Text)
  /-- A bracket closes a class that none opened. -/
  | unexpectedClassEnd (source : Text)
  deriving DecidableEq, Repr

/-- The wording of the error. -/
def PatternError.message : PatternError → String
  | .empty => "pattern is empty"
  | .unclosedClass source =>
    "unclosed character class in pattern '" ++ String.ofList source ++ "'"
  | .unexpectedClassEnd source =>
    "']' without a matching '[' in pattern '" ++ String.ofList source ++ "'"

namespace Pattern

/-- What a pattern asks of a word. -/
inductive Body where
  /-- The letters with which the word ends. -/
  | tail (letters : Text)
  /-- Slots for its last letters, in reading order. -/
  | slots (row : List Slot)
  deriving DecidableEq, Repr

/-- What a lowered text asks of a word; `source` is the text to quote in an error. -/
def Body.ofText? (source lowered : Text) : Except PatternError Body :=
  if lowered = [] then
    .error .empty
  else if lowered.any fun c => Slot.special.contains c then
    match Slot.parse lowered with
    | ([], []) => .error .empty
    | (row, []) => .ok (.slots row)
    | (_, c :: _) => .error (if c = '[' then .unclosedClass source else .unexpectedClassEnd source)
  else
    .ok (.tail lowered)

end Pattern

/-- A **pattern**: its written form and what it asks of a word. -/
structure Pattern where
  source : Text
  body : Pattern.Body
  deriving DecidableEq

namespace Pattern

/-! ## Compiling -/

/-- The **pattern with the given written form.** -/
def compile (source : Text) : Except PatternError Pattern :=
  (Body.ofText? source (Lettercase.lower source)).map fun body => ⟨source, body⟩

/-- The pattern of a written form that is known to be one. -/
def ofValid (source : Text) (valid : (compile source).toOption.isSome = true) : Pattern :=
  (compile source).toOption.get valid

theorem compile_eq_ok_ofValid {source : Text} (valid : (compile source).toOption.isSome = true) :
    compile source = .ok (ofValid source valid) := by
  have get_eq : ∀ (r : Except PatternError Pattern) (h : r.toOption.isSome = true),
      r = .ok (r.toOption.get h) := by
    intro r h
    cases r with
    | error e => simp [Except.toOption] at h
    | ok p => rfl
  exact get_eq _ valid

/-! ## Matching -/

/-- Whether the pattern only names the letters at the end of the word. -/
def isLiteral (pattern : Pattern) : Bool :=
  match pattern.body with
  | .tail _ => true
  | .slots _ => false

/-- The number of letters that are compared. -/
def minLength (pattern : Pattern) : Nat :=
  match pattern.body with
  | .tail letters => letters.length
  | .slots row => row.countP fun slot => !slot.isWildcard

/-- Whether **the end of a word fits the pattern.** -/
def fits (pattern : Pattern) (w : Word) : Bool :=
  match pattern.body with
  | .tail letters => w.endsWith letters
  | .slots row => Slot.scan row.reverse w.letters.reverse

end Pattern

end NameDeclension
