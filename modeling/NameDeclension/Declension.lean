/-
# NameDeclension.Declension — declining one name

The first rule whose guard a word passes gives its forms. A word that passes none keeps its spelling
in every case. A declension says which rule it was, so that a reader can check the answer against
the table.
-/
import NameDeclension.Rules.Tables

namespace NameDeclension

/-! ## The rule for a word -/

/-- The first rule of a list whose guard the word passes, with its place. -/
def Rule.firstFor? (rules : List Rule) (w : Word) : Option (Rule × Nat) :=
  rules.zipIdx.find? fun entry => entry.1.guard.passes w

/-- No rule is found exactly when the word passes no guard of the list. -/
theorem Rule.firstFor?_eq_none_iff (rules : List Rule) (w : Word) :
    Rule.firstFor? rules w = none ↔ ∀ rule ∈ rules, rule.guard.passes w = false := by
  unfold Rule.firstFor?
  rw [List.find?_eq_none]
  constructor
  · intro h rule hmem
    obtain ⟨i, hi, rfl⟩ := List.mem_iff_getElem.mp hmem
    simpa using h (rules[i], i) (by simp [List.mem_zipIdx_iff_getElem?])
  · rintro h ⟨rule, i⟩ hmem
    simpa using h rule (List.fst_mem_of_mem_zipIdx hmem)

/-- A **declined name**: its forms, and the rule that gave them unless none did. -/
structure Declension where
  forms : Forms
  rule : Option RuleId
  deriving DecidableEq

namespace Declension

/-- Whether no rule was found for the name. -/
def isFallback (d : Declension) : Bool := d.rule.isNone

/-- The label of the rule. -/
def label? (d : Declension) : Option String := do
  let id ← d.rule
  let rule ← id.rule?
  return rule.label

end Declension

/-- The **declension of a word** by a set of rules. -/
def Word.declension (w : Word) (s : RuleSet) : Declension :=
  match Rule.firstFor? s.rules w with
  | some (rule, index) => ⟨rule.paradigm.forms w, some ⟨s, index.toUInt64⟩⟩
  | none => ⟨Forms.unchanged w.spelling, none⟩

/-! ## Declining a text -/

/-- Why a text has no declension. -/
inductive DeclensionError where
  | invalidWord (cause : WordError)
  deriving DecidableEq, Repr

/-- The wording of the error. -/
def DeclensionError.message : DeclensionError → String
  | .invalidWord cause => "invalid word: " ++ cause.message

/-- The **declension of a text** by a set of rules. -/
def declension? (name : Text) (s : RuleSet) : Except DeclensionError Declension :=
  match Word.ofText? name with
  | .ok w => .ok (w.declension s)
  | .error cause => .error (.invalidWord cause)

/-- The forms of a text by a set of rules. -/
def forms? (name : Text) (s : RuleSet) : Except DeclensionError Forms :=
  (declension? name s).map Declension.forms

theorem declension?_spelling (w : Word) (s : RuleSet) :
    declension? w.spelling s = .ok (w.declension s) := by
  simp [declension?]

theorem forms?_spelling (w : Word) (s : RuleSet) :
    forms? w.spelling s = .ok (w.declension s).forms := by
  rw [forms?, declension?_spelling]
  rfl

/-- Capitals of the stem stay as they are. -/
example :
    (forms? "ПАВЕЛ".toList .maleFirstName).toOption.map Forms.describe =
      some ("genitive: ПАВла, dative: ПАВлу, accusative: ПАВла, instrumental: ПАВлом, " ++
        "prepositional: ПАВле").toList := by
  decide +kernel

/-! ## Looking at a table -/

/-- What **a rule makes of a word**: whether the word passes its guard, and the forms that its
paradigm gives either way. -/
structure Rule.Outcome where
  passes : Bool
  forms : Forms
  deriving DecidableEq

/-- The outcome of one rule for a word. -/
def Rule.outcome (rule : Rule) (w : Word) : Rule.Outcome :=
  ⟨rule.guard.passes w, rule.paradigm.forms w⟩

/-- The outcomes of all rules of a set for a word, in order. -/
def Word.outcomes (w : Word) (s : RuleSet) : List Rule.Outcome :=
  s.rules.map fun rule => rule.outcome w

end NameDeclension
