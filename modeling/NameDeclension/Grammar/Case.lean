/-
# NameDeclension.Grammar.Case — the six cases and records of five

Russian has six cases. The nominative is the form in the dictionary, which is the given name itself,
so nothing stores it. What declension produces is a record with one entry for each of the other
five, the oblique cases. The same shape holds the five forms of a name and the five endings of a
paradigm.
-/
import NameDeclension.Text
import NameDeclension.Enumeration

namespace NameDeclension

/-! ## Cases -/

/-- The grammatical cases, in the traditional order. -/
inductive Case where
  | nominative
  | genitive
  | dative
  | accusative
  | instrumental
  | prepositional
  deriving DecidableEq, Repr

namespace Case

instance : Enumeration Case where
  values := [.nominative, .genitive, .dative, .accusative, .instrumental, .prepositional]
  label
    | .nominative => "Nominative"
    | .genitive => "Genitive"
    | .dative => "Dative"
    | .accusative => "Accusative"
    | .instrumental => "Instrumental"
    | .prepositional => "Prepositional"

/-- The name of a case in running text. -/
def name : Case → String
  | .nominative => "nominative"
  | .genitive => "genitive"
  | .dative => "dative"
  | .accusative => "accusative"
  | .instrumental => "instrumental"
  | .prepositional => "prepositional"

/-- The case with exactly the given name. -/
def ofName? (text : String) : Option Case :=
  (Enumeration.values : List Case).find? fun c => c.name == text

/-- The cases that declension produces, in the order of a table of endings. -/
def oblique : List Case := [.genitive, .dative, .accusative, .instrumental, .prepositional]

theorem mem_oblique_iff {c : Case} : c ∈ oblique ↔ c ≠ .nominative := by
  cases c <;> decide

end Case

/-! ## Records over the oblique cases -/

/-- A **record over the oblique cases**: one entry for each case but the nominative. -/
structure Oblique (α : Type) where
  genitive : α
  dative : α
  accusative : α
  instrumental : α
  prepositional : α
  deriving DecidableEq, Repr

namespace Oblique

variable {α β : Type}

/-- The record that holds `x` in every case. -/
def replicate (x : α) : Oblique α := ⟨x, x, x, x, x⟩

/-- The function applied in every case. -/
def map (f : α → β) (r : Oblique α) : Oblique β :=
  ⟨f r.genitive, f r.dative, f r.accusative, f r.instrumental, f r.prepositional⟩

/-- Two records combined case by case. -/
def zipWith {γ : Type} (f : α → β → γ) (r : Oblique α) (s : Oblique β) : Oblique γ :=
  ⟨f r.genitive s.genitive, f r.dative s.dative, f r.accusative s.accusative,
    f r.instrumental s.instrumental, f r.prepositional s.prepositional⟩

/-- The entry of a case; the nominative has none. -/
def get? (r : Oblique α) : Case → Option α
  | .nominative => none
  | .genitive => some r.genitive
  | .dative => some r.dative
  | .accusative => some r.accusative
  | .instrumental => some r.instrumental
  | .prepositional => some r.prepositional

/-- The entries in the order of the cases. -/
def toList (r : Oblique α) : List α :=
  [r.genitive, r.dative, r.accusative, r.instrumental, r.prepositional]

/-- The record with the given five entries, in the order of the cases. -/
def ofList? : List α → Option (Oblique α)
  | [g, d, a, i, p] => some ⟨g, d, a, i, p⟩
  | _ => none

/-- The entries with their cases. -/
def entries (r : Oblique α) : List (Case × α) :=
  Case.oblique.filterMap fun c => (r.get? c).map fun x => (c, x)

@[simp] theorem ofList?_toList (r : Oblique α) : ofList? r.toList = some r := rfl

theorem toList_map (f : α → β) (r : Oblique α) : (r.map f).toList = r.toList.map f := rfl

theorem map_map {γ : Type} (f : α → β) (g : β → γ) (r : Oblique α) :
    (r.map f).map g = r.map fun x => g (f x) := rfl

theorem map_congr {f g : α → β} {r : Oblique α} (h : ∀ x ∈ r.toList, f x = g x) :
    r.map f = r.map g := by
  simp only [toList, List.forall_mem_cons] at h
  obtain ⟨hg, hd, ha, hi, hp, -⟩ := h
  simp only [map, hg, hd, ha, hi, hp]

theorem exists_get?_eq_some (r : Oblique α) {c : Case} (h : c ≠ .nominative) :
    ∃ x ∈ r.toList, r.get? c = some x := by
  cases c with
  | nominative => exact absurd rfl h
  | genitive | dative | accusative | instrumental | prepositional =>
    exact ⟨_, by simp [toList], rfl⟩

theorem entries_eq_zip (r : Oblique α) : r.entries = Case.oblique.zip r.toList := rfl

@[simp] theorem get?_map (f : α → β) (r : Oblique α) (c : Case) :
    (r.map f).get? c = (r.get? c).map f := by
  cases c <;> rfl

end Oblique

/-! ## The forms of a name -/

/-- The five oblique forms of a name. -/
abbrev Forms := Oblique Text

namespace Forms

/-- The **form for a case.** The nominative is answered with the given name. -/
def form (forms : Forms) (c : Case) (nominative : Text) : Text := (forms.get? c).getD nominative

/-- The forms of a name that does not change. -/
def unchanged (name : Text) : Forms := Oblique.replicate name

/-- Whether every form is the given name. -/
def isUnchanged (forms : Forms) (name : Text) : Bool := forms.entries.all fun e => e.2 == name

/-- The forms in one line, each after the name of its case. -/
def describe (forms : Forms) : Text :=
  [',', ' '].intercalate (forms.entries.map fun e => e.1.name.toList ++ [':', ' '] ++ e.2)

theorem form_unchanged (name : Text) (c : Case) : (unchanged name).form c name = name := by
  cases c <;> rfl

/-- In any other case the form is one of the record. -/
theorem form_mem_toList (forms : Forms) {c : Case} (h : c ≠ .nominative) (nominative : Text) :
    forms.form c nominative ∈ forms.toList := by
  obtain ⟨form, hmem, hget⟩ := forms.exists_get?_eq_some h
  rwa [Forms.form, hget]

theorem isUnchanged_iff (forms : Forms) (name : Text) :
    forms.isUnchanged name = true ↔ forms = unchanged name := by
  obtain ⟨g, d, a, i, p⟩ := forms
  simp [isUnchanged, Oblique.entries_eq_zip, Case.oblique, Oblique.toList, unchanged,
    Oblique.replicate]

end Forms

end NameDeclension
