/-
# NameDeclension.Json.Codec — the values of the library in JSON

A category of grammar is written as its label. The name of a rule and the forms of a name are
objects. To be read back, an object needs every member that would be written, once and of the right
kind; other members do not matter.

Reading also takes two forms that are never written: a record as the array of its values, without
names, and a label as the name of the only member of an object, with null under it.
-/
import NameDeclension.Json.Value
import NameDeclension.Grammar.Case
import NameDeclension.Grammar.RuleSet

namespace NameDeclension

/-! ## Labels -/

namespace Enumeration

variable {α : Type} [Enumeration α]

/-- A value of an enumeration in JSON: its label. -/
def toJson (x : α) : Json := .string (label x)

/-- The value of an enumeration that is written so. -/
def ofJson? (json : Json) : Option α := json.label?.bind ofLabel?

end Enumeration

/-! ## Names of rules -/

namespace RuleId

/-- The name of a rule in JSON. -/
def toJson (id : RuleId) : Json :=
  .object [
    ("rule_set", Enumeration.toJson id.ruleSet),
    ("index", .integer id.index.toNat)]

/-- The name of a rule that is written so. -/
def ofJson? (json : Json) : Option RuleId := do
  let record := json.byName ["rule_set", "index"]
  let ruleSet ← (record.member? "rule_set").bind Enumeration.ofJson?
  let index ← (record.member? "index").bind Json.index?
  return ⟨ruleSet, index⟩

end RuleId

/-! ## Forms -/

namespace Forms

/-- The forms of a name in JSON, under the names of their cases. -/
def toJson (forms : Forms) : Json :=
  .object (forms.entries.map fun entry => (entry.1.name, .string (String.ofList entry.2)))

/-- The form under the name of a case. -/
def formOfJson? (json : Json) (c : Case) : Option Text :=
  ((json.member? c.name).bind Json.string?).map String.toList

/-- The forms of a name that are written so. -/
def ofJson? (json : Json) : Option Forms := do
  let record := json.byName (Case.oblique.map Case.name)
  let genitive ← formOfJson? record .genitive
  let dative ← formOfJson? record .dative
  let accusative ← formOfJson? record .accusative
  let instrumental ← formOfJson? record .instrumental
  let prepositional ← formOfJson? record .prepositional
  return ⟨genitive, dative, accusative, instrumental, prepositional⟩

end Forms

end NameDeclension
