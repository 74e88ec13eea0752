/-
# NameDeclension.Pattern.Slot — the notation of patterns

A pattern is written as a row of slots, one for each letter it speaks of:

- a letter stands for itself, a class `[абв]` for one of the listed letters;
- `!` before a letter or a class asks for another letter; more of them say nothing more;
- `-` leaves its letter open.

A class ends at the next bracket, which has to close it; a `!` inside a class is no member. Reading
stops at a bracket that opens no class or closes none, and the text from there is left over.
-/
import NameDeclension.Text

namespace NameDeclension

/-- One **place of a pattern.** -/
inductive Slot where
  /-- This letter, or any letter but this one. -/
  | literal (letter : Char) (negated : Bool)
  /-- One of these letters, or any letter but these. -/
  | oneOf (members : List Char) (negated : Bool)
  /-- Any letter, or none at all. -/
  | wildcard
  deriving DecidableEq, Repr

namespace Slot

/-! ## Meaning -/

/-- Whether the slot leaves its letter open. -/
def isWildcard : Slot → Bool
  | .wildcard => true
  | _ => false

/-- Whether **the slot takes what stands in its place.** A word may be too short to have a letter
there; only a wildcard does without one. -/
def accepts : Slot → Option Char → Bool
  | .wildcard, _ => true
  | .literal letter negated, some c => (c == letter) != negated
  | .oneOf members negated, some c => members.contains c != negated
  | _, none => false

/-! ## Writing -/

/-- The characters that do not stand for themselves. -/
def special : List Char := ['[', ']', '!', '-']

theorem not_mem_special_iff {c : Char} :
    c ∉ special ↔ c ≠ '[' ∧ c ≠ ']' ∧ c ≠ '!' ∧ c ≠ '-' := by
  simp [special]

/-- The sign of negation, where there is one. -/
def sign (negated : Bool) : Text := if negated then ['!'] else []

/-- How one slot is written. -/
def write : Slot → Text
  | .wildcard => ['-']
  | .literal letter negated => sign negated ++ [letter]
  | .oneOf members negated => sign negated ++ '[' :: members ++ [']']

/-- How a row of slots is written. -/
def writeAll (slots : List Slot) : Text := slots.flatMap write

/-! ## Reading -/

mutual

/-- The slots at the head of a text and what is left over; `negated` says that a `!` has been read
for the next slot. -/
def read (negated : Bool) : Text → List Slot × Text
  | [] => ([], [])
  | c :: rest =>
    if c = '!' then
      read true rest
    else if c = '-' then
      let (slots, left) := read false rest
      (.wildcard :: slots, left)
    else if c = '[' then
      match readMembers rest with
      | some (members, slots, left) => (.oneOf members negated :: slots, left)
      | none => ([], c :: rest)
    else if c = ']' then
      ([], c :: rest)
    else
      let (slots, left) := read false rest
      (.literal c negated :: slots, left)

/-- Inside a class: its members, the slots behind it and what is left over, or nothing if the next
bracket does not close the class. -/
def readMembers : Text → Option (List Char × List Slot × Text)
  | [] => none
  | c :: rest =>
    if c = ']' then
      some ([], read false rest)
    else if c = '[' then
      none
    else
      match readMembers rest with
      | some (members, behind) => some (if c = '!' then members else c :: members, behind)
      | none => none

end

/-- Reading **a row of slots**: as many as the text begins with, and the text left over. -/
def parse (source : Text) : List Slot × Text := read false source

/-! ## Comparing with a word -/

/-- Whether the slots take the letters, both from the end of the word backwards. -/
def scan : List Slot → Text → Bool
  | [], _ => true
  | slot :: slots, letters => slot.accepts letters.head? && scan slots letters.tail

/-- A scan succeeds exactly when every slot takes what stands in its place, be it a letter or, past
the start of the word, none. -/
theorem scan_eq_true_iff (slots : List Slot) (letters : Text) :
    scan slots letters = true ↔
      ∀ i (h : i < slots.length), slots[i].accepts letters[i]? = true := by
  induction slots generalizing letters with
  | nil => simp [scan]
  | cons slot slots ih =>
    rw [scan, Bool.and_eq_true, ih, List.head?_eq_getElem?]
    simp only [List.getElem?_tail]
    constructor
    · rintro ⟨first, others⟩ i hi
      cases i with
      | zero => exact first
      | succ i => exact others i (Nat.lt_of_succ_lt_succ hi)
    · intro h
      exact ⟨h 0 (Nat.zero_lt_succ _), fun i hi => h (i + 1) (Nat.succ_lt_succ hi)⟩

/-! ## Examples of the notation -/

/-- A run of `!` negates the next slot once, and one inside a class is dropped. -/
example :
    parse "!!а![!б]!-!".toList = ([.literal 'а' true, .oneOf ['б'] true, .wildcard], []) := rfl

/-- A class that is not closed is left over from its bracket on. -/
example : parse "а[бв".toList = ([.literal 'а' false], "[бв".toList) := rfl

end Slot

end NameDeclension
