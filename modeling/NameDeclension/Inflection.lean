/-
# NameDeclension.Inflection — putting a name into a case, again and again

One step puts the current name into a case by a set of rules; the next step starts from the result.
A step that fails leaves the name as it was. The nominative is the current name itself, yet even
then there has to be a name to decline.
-/
import NameDeclension.Declension

namespace NameDeclension

namespace Inflection

/-- A **step**: which rules to use and which case to take. -/
structure Step where
  ruleSet : RuleSet
  case : Case
  deriving DecidableEq, Repr

/-- The name that a step makes of the current one. -/
def Step.apply (step : Step) (current : Text) : Except DeclensionError Text :=
  (forms? current step.ruleSet).map fun forms => forms.form step.case current

/-- The results of the steps from the given name on, up to the first that fails. -/
def run (current : Text) : List Step → Except DeclensionError Text
  | [] => .ok current
  | step :: steps => (step.apply current).bind fun next => run next steps

theorem Step.apply_spelling (step : Step) (w : Word) :
    step.apply w.spelling = .ok ((w.declension step.ruleSet).forms.form step.case w.spelling) := by
  rw [Step.apply, forms?_spelling]
  rfl

theorem run_append (current : Text) (steps others : List Step) :
    run current (steps ++ others) = (run current steps).bind fun next => run next others := by
  induction steps generalizing current with
  | nil => rfl
  | cons step steps ih =>
    rw [List.cons_append, run, run]
    cases step.apply current with
    | error e => rfl
    | ok next => exact ih next

/-! ## Steps that name their rules -/

/-- A **request for a step**: the rules are given by name. -/
structure Request where
  ruleSetName : String
  case : Case
  deriving DecidableEq, Repr

/-- Why a request is not carried out. -/
inductive RequestError where
  | ruleSet (cause : RuleSet.NameError)
  | name (cause : DeclensionError)
  deriving DecidableEq, Repr

/-- The name that a request makes of the current one. The name of the rules is looked at first. -/
def Request.apply (request : Request) (current : Text) : Except RequestError Text :=
  match RuleSet.ofName? request.ruleSetName with
  | .error cause => .error (.ruleSet cause)
  | .ok s => (Step.apply ⟨s, request.case⟩ current).mapError .name

/-- The **answers to a row of requests.** Each starts from the last name that was made. -/
def answers (current : Text) : List Request → List (Except RequestError Text)
  | [] => []
  | request :: requests =>
    match request.apply current with
    | .ok next => .ok next :: answers next requests
    | .error e => .error e :: answers current requests

end Inflection

end NameDeclension
