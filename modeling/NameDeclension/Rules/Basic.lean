/-
# NameDeclension.Rules.Basic — rules and how they are written down

A rule has a label, a guard that says which words it is for, and the paradigm that these words
follow. The functions below write rules down the way a grammar does: `ends "[ое]в"` for a guard,
five endings for a paradigm. A pattern that does not compile is no term, so a table of rules that is
accepted has none.
-/
import NameDeclension.Guard
import NameDeclension.Splice

namespace NameDeclension

/-- A **rule**: the words that pass the guard take the endings of the paradigm. -/
structure Rule where
  /-- A short description for a reader. -/
  label : String
  guard : Guard Pattern
  paradigm : Paradigm

namespace Rule

/-- The guard that asks for an end, from the written form of the pattern. -/
def ends (source : String)
    (valid : (Pattern.compile source.toList).toOption.isSome = true := by decide +kernel) :
    Guard Pattern :=
  .ends (Pattern.ofValid source.toList valid)

/-- The guard that asks for one word. -/
def equals (literal : String) : Guard Pattern := .equals literal.toList

/-- The paradigm of five written endings, in the order of the cases. -/
def endings (genitive dative accusative instrumental prepositional : String) : Paradigm :=
  Paradigm.ofTexts
    ((⟨genitive, dative, accusative, instrumental, prepositional⟩ : Oblique String).map
      String.toList)

end Rule

end NameDeclension
