/-
# NameDeclension.Grammar.RuleSet — which table of rules declines a name

First names and surnames decline differently, and so do the names of men and women. That makes four
sets of rules. A rule is named by its set and its place there.
-/
import NameDeclension.Enumeration

namespace NameDeclension

/-! ## Gender and kind of name -/

/-- The grammatical gender of the person's name. -/
inductive Gender where
  | masculine
  | feminine
  deriving DecidableEq, Repr

instance : Enumeration Gender where
  values := [.masculine, .feminine]
  label
    | .masculine => "Masculine"
    | .feminine => "Feminine"

/-- Which part of a personal name a word is. -/
inductive NameKind where
  | firstName
  | surname
  deriving DecidableEq, Repr

instance : Enumeration NameKind where
  values := [.firstName, .surname]
  label
    | .firstName => "FirstName"
    | .surname => "Surname"

/-! ## Sets of rules -/

/-- The four sets of rules. -/
inductive RuleSet where
  | maleFirstName
  | femaleFirstName
  | maleSurname
  | femaleSurname
  deriving DecidableEq, Repr

namespace RuleSet

instance : Enumeration RuleSet where
  values := [.maleFirstName, .femaleFirstName, .maleSurname, .femaleSurname]
  label
    | .maleFirstName => "MaleFirstName"
    | .femaleFirstName => "FemaleFirstName"
    | .maleSurname => "MaleSurname"
    | .femaleSurname => "FemaleSurname"

/-- The rules for a kind of name and a gender. -/
def select : NameKind → Gender → RuleSet
  | .firstName, .masculine => .maleFirstName
  | .firstName, .feminine => .femaleFirstName
  | .surname, .masculine => .maleSurname
  | .surname, .feminine => .femaleSurname

/-- The kind of name that the rules decline. -/
def kind : RuleSet → NameKind
  | .maleFirstName | .femaleFirstName => .firstName
  | .maleSurname | .femaleSurname => .surname

/-- The gender whose names the rules decline. -/
def gender : RuleSet → Gender
  | .maleFirstName | .maleSurname => .masculine
  | .femaleFirstName | .femaleSurname => .feminine

@[simp] theorem select_kind_gender (s : RuleSet) : select s.kind s.gender = s := by
  cases s <;> rfl

/-- The name by which a set of rules is asked for. -/
def name : RuleSet → String
  | .maleFirstName => "male-first-name"
  | .femaleFirstName => "female-first-name"
  | .maleSurname => "male-surname"
  | .femaleSurname => "female-surname"

/-- Why a name stands for no set of rules. -/
inductive NameError where
  | unknown
  deriving DecidableEq, Repr

/-- The wording of the error. -/
def NameError.message : NameError → String
  | .unknown =>
    "unknown rule-set name (expected one of male-first-name, female-first-name, male-surname, " ++
      "female-surname)"

/-- The set of rules with exactly the given name. -/
def ofName? (text : String) : Except NameError RuleSet :=
  match (Enumeration.values : List RuleSet).find? fun s => s.name == text with
  | some s => .ok s
  | none => .error .unknown

theorem ofName?_name (s : RuleSet) : ofName? s.name = .ok s := by
  cases s <;> rfl

instance : Ord RuleSet where
  compare a b := compare (Enumeration.number a) (Enumeration.number b)

end RuleSet

/-! ## Names of rules -/

/-- The **name of a rule**: its set and its place there, counted from 0. A place may lie behind the
last rule. -/
structure RuleId where
  ruleSet : RuleSet
  index : UInt64
  deriving DecidableEq, Repr

namespace RuleId

/-- How a rule is named in writing. -/
def describe (id : RuleId) : String := id.ruleSet.name ++ "#" ++ toString id.index.toNat

/-- Rules are ordered by their set, then by their place. -/
instance : Ord RuleId where
  compare a b := (compare a.ruleSet b.ruleSet).then (compare a.index b.index)

end RuleId

end NameDeclension
