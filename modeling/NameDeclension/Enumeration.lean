/-
# NameDeclension.Enumeration — finite types with numbered, labelled values

The categories of grammar are finite types. Each lists its values in the order of their numbers and
gives every value the label under which it is stored. Reading a label or a number back is a search
in that list. No value is missing from it and no label is given twice, so a label is read as the one
value that carries it (`ofLabel?_eq_some_iff`).
-/

namespace NameDeclension

/-- An **enumeration.** All values of a finite type, in the order of their numbers, and their
labels. -/
class Enumeration (α : Type) where
  /-- The values, number 0 first. -/
  values : List α
  /-- The label under which a value is stored. -/
  label : α → String
  /-- Every value has a number. -/
  complete : ∀ x, x ∈ values := by intro x; cases x <;> decide
  /-- No two values share a label. -/
  eq_of_label_eq : ∀ x y, label x = label y → x = y := by intro x y; cases x <;> cases y <;> decide

namespace Enumeration

variable {α : Type} [Enumeration α]

/-- The number of a value: its place in the list. -/
def number [BEq α] (x : α) : Nat := (values : List α).idxOf x

/-- The value with the given number. -/
def ofNumber? (n : Nat) : Option α := (values : List α)[n]?

/-- The value with exactly the given label. -/
def ofLabel? (name : String) : Option α := (values : List α).find? fun x => label x == name

/-- **A label is read as its value**, and no other text is read. -/
theorem ofLabel?_eq_some_iff {name : String} {x : α} : ofLabel? name = some x ↔ name = label x := by
  have carried : ∀ {y : α}, ofLabel? name = some y → label y = name := fun found =>
    beq_iff_eq.mp (List.find?_some (p := fun y => label y == name) found)
  constructor
  · exact fun found => (carried found).symm
  · rintro rfl
    obtain ⟨y, found⟩ : ∃ y, ofLabel? (label x) = some y :=
      Option.isSome_iff_exists.mp
        (List.find?_isSome.mpr ⟨x, complete x, beq_self_eq_true (label x)⟩)
    rw [found, eq_of_label_eq y x (carried found)]

end Enumeration

end NameDeclension
