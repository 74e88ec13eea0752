/-
# NameDeclension.Guard — the condition of a rule

A guard is a formula over three kinds of facts about a word: how it ends, what it is, how many
syllables it has. The way in which ends are described is a parameter. As a rule is written down, an
end is a text; before words are tested, every such text is compiled to a pattern.
-/
import NameDeclension.Pattern.Basic

namespace NameDeclension

/-- A **guard** over descriptions `α` of the end of a word. -/
inductive Guard (α : Type) where
  /-- The word ends as described. -/
  | ends (description : α)
  /-- The word is the given one. -/
  | equals (literal : Text)
  /-- The word has exactly so many syllables. -/
  | syllables (count : Nat)
  /-- The guard does not hold. -/
  | not (guard : Guard α)
  /-- All of the guards hold; an empty list of them does. -/
  | all (guards : List (Guard α))
  /-- At least one of the guards holds; of an empty list none does. -/
  | any (guards : List (Guard α))
  deriving Repr

namespace Guard

variable {α β ε : Type}

/-! ## Changing the description of ends -/

mutual

/-- The guard with every text in it replaced: descriptions by `f`, whole words by `g`. -/
def map (f : α → β) (g : Text → Text) : Guard α → Guard β
  | .ends description => .ends (f description)
  | .equals literal => .equals (g literal)
  | .syllables count => .syllables count
  | .not guard => .not (map f g guard)
  | .all guards => .all (mapAll f g guards)
  | .any guards => .any (mapAll f g guards)

/-- The guards with every text in them replaced. -/
def mapAll (f : α → β) (g : Text → Text) : List (Guard α) → List (Guard β)
  | [] => []
  | guard :: guards => map f g guard :: mapAll f g guards

end

mutual

/-- The guard with its descriptions replaced one after another, from left to right. The first one
that fails decides the error. -/
def traverse (f : α → Except ε β) : Guard α → Except ε (Guard β)
  | .ends description => (f description).map .ends
  | .equals literal => .ok (.equals literal)
  | .syllables count => .ok (.syllables count)
  | .not guard => (traverse f guard).map .not
  | .all guards => (traverseAll f guards).map .all
  | .any guards => (traverseAll f guards).map .any

/-- The guards with their descriptions replaced, from left to right. -/
def traverseAll (f : α → Except ε β) : List (Guard α) → Except ε (List (Guard β))
  | [] => .ok []
  | guard :: guards =>
    match traverse f guard with
    | .ok head => (traverseAll f guards).map fun tail => head :: tail
    | .error e => .error e

end

/-- The **guard that is tested**: every end compiled to a pattern. -/
def compile (guard : Guard Text) : Except PatternError (Guard Pattern) :=
  traverse Pattern.compile guard

/-- The guard as it is written: every pattern by its source. -/
def written (guard : Guard Pattern) : Guard Text := map Pattern.source id guard

/-- The written guard with all its texts lowered. -/
def lowered (guard : Guard Text) : Guard Text := map Lettercase.lower Lettercase.lower guard

/-! ## Testing a word -/

mutual

/-- Whether **a word passes the guard.** -/
def passes (w : Word) : Guard Pattern → Bool
  | .ends pattern => pattern.fits w
  | .equals literal => w.isSpelled literal
  | .syllables count => w.syllables == count
  | .not guard => !passes w guard
  | .all guards => passesAll w guards
  | .any guards => passesAny w guards

/-- Whether a word passes all guards of a list. -/
def passesAll (w : Word) : List (Guard Pattern) → Bool
  | [] => true
  | guard :: guards => passes w guard && passesAll w guards

/-- Whether a word passes some guard of a list. -/
def passesAny (w : Word) : List (Guard Pattern) → Bool
  | [] => false
  | guard :: guards => passes w guard || passesAny w guards

end

/-! ## The letters that a guard needs -/

mutual

/-- The **number of letters that a word needs to pass**, as far as it can be told from the guard: a
conjunction needs the most that one of its guards needs, a disjunction the least, and a negation
needs none. -/
def minLength : Guard Pattern → Nat
  | .ends pattern => pattern.minLength
  | .equals literal => literal.length
  | .syllables count => count
  | .not _ => 0
  | .all guards => mostLength guards
  | .any guards => leastLength guards

/-- The most letters that one of the guards needs. -/
def mostLength : List (Guard Pattern) → Nat
  | [] => 0
  | guard :: guards => max (minLength guard) (mostLength guards)

/-- The least letters that one of the guards needs. -/
def leastLength : List (Guard Pattern) → Nat
  | [] => 0
  | [guard] => minLength guard
  | guard :: guards => min (minLength guard) (leastLength guards)

end

end Guard

end NameDeclension
