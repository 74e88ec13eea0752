/-
# NameDeclension.Json.Value — values of JSON

JSON values as data. Numbers are exact: whole numbers are integers of any size, others a decimal
fraction. An object keeps its members in the order in which they were written.
-/

namespace NameDeclension

/-- A **JSON value.** -/
inductive Json where
  | null
  | bool (value : Bool)
  /-- A number written without fraction or exponent. -/
  | integer (value : Int)
  /-- Any other number, `mantissa` divided by ten to the power `scale`. -/
  | decimal (mantissa : Int) (scale : Nat)
  | string (value : String)
  | array (items : List Json)
  | object (members : List (String × Json))
  deriving Inhabited, Repr

namespace Json

/-- The values that an object holds under a name. -/
def under (name : String) (members : List (String × Json)) : List Json :=
  (members.filter fun member => member.1 == name).map Prod.snd

/-- The **member of the given name**, if the value is an object with exactly one. -/
def member? (name : String) : Json → Option Json
  | .object members =>
    match under name members with
    | [value] => some value
    | _ => none
  | _ => none

/-- The text, if the value is one. -/
def string? : Json → Option String
  | .string value => some value
  | _ => none

/-- The label that the value gives: a text, or an object that holds null under this one name. -/
def label? : Json → Option String
  | .string name => some name
  | .object [(name, .null)] => some name
  | _ => none

/-- The number, if the value is a whole number of 64 bits without sign. -/
def index? : Json → Option UInt64
  | .integer (.ofNat n) => if n < UInt64.size then some (.ofNat n) else none
  | _ => none

/-- A record **by name**, given the names that it declares. An array with a value for each of them is
the object that holds these values under the names, in their order. -/
def byName (names : List String) : Json → Json
  | .array items =>
    if items.length = names.length then .object (names.zip items) else .array items
  | json => json

end Json

end NameDeclension
