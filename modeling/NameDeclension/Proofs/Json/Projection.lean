/-
# NameDeclension.Proofs.Json.Projection — JSON values as faithful projections

What is written in JSON says everything about a value of the library and nothing else. `IsProjection`
puts this into laws: which values are read, that what is written is read back, that what was read is
written again without its undeclared members, that doing both once more changes nothing, and that
undeclared members have no say in the outcome.

The laws speak of values in the shapes that are written: a record is no array, and a label is no object
(`IsArray`, `IsTag`). The reader takes arrays and objects of these kinds too, and what it took from one
is written again in the other shape.

An enumeration is a text and declares no members. The name of a rule and the forms of a name are
records, and for a record all laws come from one fact about its reader: it finds a record exactly if
each declared name finds what would be written under it (`IsProjection.ofMembers`).
-/
import NameDeclension.Json.Codec
import NameDeclension.Proofs.Json.Members

namespace NameDeclension

namespace Json

variable {α : Type}

/-! ## Values of the right kind -/

/-- The text is the label of a set of rules, letter for letter. -/
def IsRuleSet (json : Json) : Prop :=
  ∃ label ∈ ["MaleFirstName", "FemaleFirstName", "MaleSurname", "FemaleSurname"], json = .string label

/-- A whole number from 0 to 2^64 - 1. -/
def IsIndex (json : Json) : Prop := ∃ n : Nat, n < UInt64.size ∧ json = .integer n

/-- A text of any content. -/
def IsText (json : Json) : Prop := ∃ text, json = .string text

/-- **`json.HasMembers declared`** — an object in which each declared name has one value, and that of
the declared kind. If no name is repeated, that is to have a member of each (`holdsOnce_iff_mem`). -/
def HasMembers (declared : List (String × (Json → Prop))) (json : Json) : Prop :=
  ∃ members, json = .object members ∧
    ∀ member ∈ declared, ∃ value, HoldsOnce members member.1 value ∧ member.2 value

theorem hasMembers_iff {declared : List (String × (Json → Prop))} (nonempty : declared ≠ [])
    (json : Json) : json.HasMembers declared ↔
      ∀ member ∈ declared, ∃ value, json.member? member.1 = some value ∧ member.2 value := by
  constructor
  · rintro ⟨members, rfl, held⟩ member hmember
    obtain ⟨value, once, kind⟩ := held member hmember
    exact ⟨value, member?_eq_some_iff.mpr ⟨members, rfl, once⟩, kind⟩
  · intro found
    obtain ⟨first, others, rfl⟩ := List.exists_cons_of_ne_nil nonempty
    obtain ⟨_, here, -⟩ := found first List.mem_cons_self
    obtain ⟨members, rfl, -⟩ := member?_eq_some_iff.mp here
    refine ⟨members, rfl, fun member hmember => ?_⟩
    obtain ⟨value, there, kind⟩ := found member hmember
    exact ⟨value, under_eq_singleton_iff.mp (member?_object_eq_some_iff.mp there), kind⟩

/-! ## Shapes -/

/-- A record by position: its values in an array, without names. -/
def IsArray (json : Json) : Prop := ∃ items, json = .array items

/-- A label as the only name in an object, with nothing under it. -/
def IsTag (json : Json) : Prop := ∃ name, json = .object [(name, .null)]

theorem byName_of_not_isArray {json : Json} (h : ¬ json.IsArray) (names : List String) :
    json.byName names = json := by
  cases json with
  | array items => exact absurd ⟨items, rfl⟩ h
  | null | bool _ | integer _ | decimal _ _ | string _ | object _ => rfl

theorem label?_eq_some_iff {json : Json} (h : ¬ json.IsTag) {name : String} :
    json.label? = some name ↔ json = .string name := by
  unfold label?
  split
  · simp
  · rename_i tag
    exact absurd ⟨tag, rfl⟩ h
  · rename_i no_text _
    exact iff_of_false (Option.some_ne_none _).symm (no_text name)

/-! ## Projections -/

/-- **Writing and reading are a faithful projection** onto the members under the declared names, for
values of the given shape. -/
structure IsProjection (shape admitted : Json → Prop) (names : List String) (write : α → Json)
    (read? : Json → Option α) : Prop where
  /-- What is written has the shape. -/
  writes_shape : ∀ x, shape (write x)
  /-- What is read is what is admitted. -/
  accepts : ∀ json, shape json → ((read? json).isSome = true ↔ admitted json)
  /-- What is written is read back. -/
  reads_back : ∀ x, read? (write x) = some x
  /-- What was read is written again without its undeclared members. -/
  keeps : ∀ json x, shape json → read? json = some x → (json.restrict names).Same (write x)
  /-- Reading and writing what was read and written changes nothing. -/
  settles : ∀ json, (((read? json).map write).bind fun again => (read? again).map write) =
    (read? json).map write
  /-- Values with the same declared members are read as the same, whatever else they hold. -/
  ignores : ∀ json other, shape json → shape other →
    (json.restrict names).Same (other.restrict names) → read? json = read? other

theorem settles_of_reads_back {write : α → Json} {read? : Json → Option α}
    (reads_back : ∀ x, read? (write x) = some x) (json : Json) :
    (((read? json).map write).bind fun again => (read? again).map write) =
      (read? json).map write := by
  cases read? json with
  | none => rfl
  | some x => rw [Option.map_some, Option.bind_some, reads_back, Option.map_some]

/-- **A record is a projection if its reader looks up what its writer writes.** -/
theorem IsProjection.ofMembers {shape admitted : Json → Prop} {names : List String}
    {members : α → List (String × Json)} {read? : Json → Option α}
    (names_eq : ∀ x, (members x).map Prod.fst = names) (distinct : names.Nodup)
    (nonempty : names ≠ []) (writes_shape : ∀ x, shape (.object (members x)))
    (reads : ∀ json x, shape json →
      (read? json = some x ↔ ∀ member ∈ members x, json.member? member.1 = some member.2))
    (accepts : ∀ json, shape json → ((read? json).isSome = true ↔ admitted json)) :
    IsProjection shape admitted names (fun x => .object (members x)) read? := by
  have distinct_members : ∀ x, ((members x).map Prod.fst).Nodup := fun x => names_eq x ▸ distinct
  have reads_back : ∀ x, read? (.object (members x)) = some x := fun x =>
    (reads _ x (writes_shape x)).mpr fun _ hmember =>
      member?_object_of_mem (distinct_members x) hmember
  refine ⟨writes_shape, accepts, reads_back, ?_, settles_of_reads_back reads_back, ?_⟩
  · intro json x hshape h
    have some_member : members x ≠ [] := by
      intro none_there
      exact nonempty (by rw [← names_eq x, none_there, List.map_nil])
    rw [← names_eq x]
    exact (restrict_same_iff (distinct_members x) some_member json).mpr ((reads json x hshape).mp h)
  · intro json other hjson hother same
    apply Option.ext
    intro x
    rw [reads json x hjson, reads other x hother]
    refine forall₂_congr fun member hmember => ?_
    have declared : member.1 ∈ names := names_eq x ▸ List.mem_map_of_mem hmember
    rw [member?_eq_of_restrict same declared]

/-! ## Texts and numbers -/

theorem string?_eq_some_iff {json : Json} {text : String} :
    json.string? = some text ↔ json = .string text := by
  cases json <;> simp [string?]

/-- A number below 2^64 is read as itself, any other is not read. -/
theorem index?_eq_some_iff {json : Json} {index : UInt64} :
    json.index? = some index ↔ json = .integer index.toNat := by
  cases json with
  | integer number =>
    cases number with
    | ofNat n =>
      simp only [index?, Option.ite_none_right_eq_some, Option.some.injEq, integer.injEq,
        Int.ofNat_eq_natCast, Int.natCast_inj]
      constructor
      · rintro ⟨small, rfl⟩
        exact (UInt64.toNat_ofNat_of_lt' small).symm
      · rintro rfl
        exact ⟨index.toNat_lt, UInt64.ofNat_toNat⟩
    | negSucc n => simp [index?]
  | null | bool _ | decimal _ _ | string _ | array _ | object _ => simp [index?]

theorem isIndex_iff {json : Json} : json.IsIndex ↔ ∃ index : UInt64, json = .integer index.toNat := by
  constructor
  · rintro ⟨n, small, rfl⟩
    exact ⟨.ofNat n, by rw [UInt64.toNat_ofNat_of_lt' small]⟩
  · rintro ⟨index, rfl⟩
    exact ⟨index.toNat, index.toNat_lt, rfl⟩

theorem isText_iff {json : Json} :
    json.IsText ↔ ∃ text : Text, json = .string (String.ofList text) := by
  constructor
  · rintro ⟨text, rfl⟩
    exact ⟨text.toList, by rw [String.ofList_toList]⟩
  · rintro ⟨text, rfl⟩
    exact ⟨String.ofList text, rfl⟩

end Json

/-! ## Enumerations -/

namespace Enumeration

variable {α : Type} [Enumeration α]

theorem not_isTag_toJson (x : α) : ¬ (toJson x).IsTag := by
  rintro ⟨name, h⟩
  cases h

theorem ofJson?_eq_some_iff {json : Json} (h : ¬ json.IsTag) {x : α} :
    ofJson? json = some x ↔ json = toJson x := by
  simp only [ofJson?, Option.bind_eq_some_iff, Json.label?_eq_some_iff h, ofLabel?_eq_some_iff,
    exists_eq_right, toJson]

/-- What is found under a name and read as a value is what would be written there. -/
theorem bind_ofJson?_eq_some_iff {found : Option Json} (h : ∀ json, found = some json → ¬ json.IsTag)
    {x : α} : found.bind ofJson? = some x ↔ found = some (toJson x) := by
  rw [Option.bind_eq_some_iff]
  constructor
  · rintro ⟨json, here, read⟩
    rw [here, (ofJson?_eq_some_iff (h json here)).mp read]
  · intro here
    exact ⟨_, here, (ofJson?_eq_some_iff (not_isTag_toJson x)).mpr rfl⟩

/-- An enumeration has no members to declare: its text is all there is. -/
theorem isProjection {admitted : Json → Prop}
    (admitted_iff : ∀ json, admitted json ↔ ∃ x : α, json = toJson x) :
    Json.IsProjection (fun json => ¬ json.IsTag) admitted [] (toJson : α → Json) ofJson? := by
  have reads_back : ∀ x : α, ofJson? (toJson x) = some x :=
    fun x => (ofJson?_eq_some_iff (not_isTag_toJson x)).mpr rfl
  refine ⟨not_isTag_toJson, ?_, reads_back, ?_, Json.settles_of_reads_back reads_back, ?_⟩
  · intro json hjson
    simp only [Option.isSome_iff_exists, ofJson?_eq_some_iff hjson, admitted_iff]
  · intro json x hjson h
    rw [(ofJson?_eq_some_iff hjson).mp h]
    rfl
  · intro json other hjson hother same
    apply Option.ext
    intro x
    rw [ofJson?_eq_some_iff hjson, ofJson?_eq_some_iff hother, toJson,
      ← Json.restrict_eq_string_iff, same.eq_string_iff, Json.restrict_eq_string_iff]

end Enumeration

theorem RuleSet.isRuleSet_iff (json : Json) :
    json.IsRuleSet ↔ ∃ s : RuleSet, json = Enumeration.toJson s := by
  constructor
  · rintro ⟨label, hlabel, rfl⟩
    simp only [List.mem_cons, List.not_mem_nil, or_false] at hlabel
    rcases hlabel with rfl | rfl | rfl | rfl
    · exact ⟨.maleFirstName, rfl⟩
    · exact ⟨.femaleFirstName, rfl⟩
    · exact ⟨.maleSurname, rfl⟩
    · exact ⟨.femaleSurname, rfl⟩
  · rintro ⟨s, rfl⟩
    refine ⟨Enumeration.label s, ?_, rfl⟩
    cases s <;> decide

/-! ## Records -/

namespace RuleId

/-- The members that the name of a rule declares. -/
def declared : List (String × (Json → Prop)) :=
  [("rule_set", Json.IsRuleSet), ("index", Json.IsIndex)]

/-- The members under which the name of a rule is written. -/
def members (id : RuleId) : List (String × Json) :=
  [("rule_set", Enumeration.toJson id.ruleSet), ("index", .integer id.index.toNat)]

/-- The name of a rule as it is written: no array, and under the name of its set no object for a
label. -/
def IsShaped (json : Json) : Prop :=
  ¬ json.IsArray ∧ ∀ ruleSet, json.member? "rule_set" = some ruleSet → ¬ ruleSet.IsTag

theorem isShaped_toJson (id : RuleId) : IsShaped id.toJson := by
  refine ⟨?_, ?_⟩
  · rintro ⟨items, h⟩
    cases h
  · intro ruleSet found
    obtain rfl : Enumeration.toJson id.ruleSet = ruleSet := Option.some.inj found
    exact Enumeration.not_isTag_toJson id.ruleSet

theorem ofJson?_eq_some_iff (json : Json) (id : RuleId) (h : IsShaped json) :
    ofJson? json = some id ↔ ∀ member ∈ id.members, json.member? member.1 = some member.2 := by
  obtain ⟨ruleSet, index⟩ := id
  simp [ofJson?, Json.byName_of_not_isArray h.1, members, Option.bind_eq_some_iff,
    Enumeration.bind_ofJson?_eq_some_iff h.2, Json.index?_eq_some_iff]

theorem isSome_ofJson?_iff (json : Json) (h : IsShaped json) :
    (ofJson? json).isSome = true ↔ json.HasMembers declared := by
  simp only [declared, Json.hasMembers_iff (List.cons_ne_nil _ _), Option.isSome_iff_exists,
    ofJson?_eq_some_iff json _ h, members, List.forall_mem_cons, RuleSet.isRuleSet_iff,
    Json.isIndex_iff]
  constructor
  · rintro ⟨id, ruleSet, index, -⟩
    exact ⟨⟨_, ruleSet, _, rfl⟩, ⟨_, index, _, rfl⟩, List.forall_mem_nil _⟩
  · rintro ⟨⟨_, foundRuleSet, ruleSet, rfl⟩, ⟨_, foundIndex, index, rfl⟩, -⟩
    exact ⟨⟨ruleSet, index⟩, foundRuleSet, foundIndex, List.forall_mem_nil _⟩

/-- The name of a rule is a record of two members. -/
theorem isProjection : Json.IsProjection IsShaped (Json.HasMembers declared) (declared.map Prod.fst)
    toJson ofJson? :=
  .ofMembers (fun _ => rfl) (by decide) (by decide) isShaped_toJson ofJson?_eq_some_iff
    isSome_ofJson?_iff

end RuleId

namespace Forms

/-- The members that the forms of a name declare. -/
def declared : List (String × (Json → Prop)) :=
  [("genitive", Json.IsText), ("dative", Json.IsText), ("accusative", Json.IsText),
    ("instrumental", Json.IsText), ("prepositional", Json.IsText)]

/-- The members under which the forms of a name are written. -/
def members (forms : Forms) : List (String × Json) :=
  forms.entries.map fun entry => (entry.1.name, .string (String.ofList entry.2))

theorem formOfJson?_eq_some_iff {json : Json} {c : Case} {form : Text} :
    formOfJson? json c = some form ↔ json.member? c.name = some (.string (String.ofList form)) := by
  simp only [formOfJson?, Option.map_eq_some_iff, Option.bind_eq_some_iff, Json.string?_eq_some_iff]
  constructor
  · rintro ⟨text, ⟨value, found, rfl⟩, rfl⟩
    rw [found, String.ofList_toList]
  · intro found
    exact ⟨String.ofList form, ⟨_, found, rfl⟩, String.toList_ofList⟩

theorem not_isArray_toJson (forms : Forms) : ¬ forms.toJson.IsArray := by
  rintro ⟨items, h⟩
  cases h

theorem ofJson?_eq_some_iff (json : Json) (forms : Forms) (h : ¬ json.IsArray) :
    ofJson? json = some forms ↔ ∀ member ∈ members forms, json.member? member.1 = some member.2 := by
  obtain ⟨genitive, dative, accusative, instrumental, prepositional⟩ := forms
  simp [ofJson?, Json.byName_of_not_isArray h, members, Option.bind_eq_some_iff,
    formOfJson?_eq_some_iff, Oblique.entries_eq_zip, Case.oblique, Oblique.toList]

theorem isSome_ofJson?_iff (json : Json) (h : ¬ json.IsArray) :
    (ofJson? json).isSome = true ↔ json.HasMembers declared := by
  simp only [declared, Json.hasMembers_iff (List.cons_ne_nil _ _), Option.isSome_iff_exists,
    ofJson?_eq_some_iff json _ h, members, Oblique.entries_eq_zip, Case.oblique, Oblique.toList,
    List.zip_cons_cons, List.zip_nil_right, List.map_cons, List.map_nil, List.forall_mem_cons,
    Json.isText_iff]
  constructor
  · rintro ⟨forms, genitive, dative, accusative, instrumental, prepositional, -⟩
    exact ⟨⟨_, genitive, _, rfl⟩, ⟨_, dative, _, rfl⟩, ⟨_, accusative, _, rfl⟩,
      ⟨_, instrumental, _, rfl⟩, ⟨_, prepositional, _, rfl⟩, List.forall_mem_nil _⟩
  · rintro ⟨⟨_, genitive, g, rfl⟩, ⟨_, dative, d, rfl⟩, ⟨_, accusative, a, rfl⟩,
      ⟨_, instrumental, i, rfl⟩, ⟨_, prepositional, p, rfl⟩, -⟩
    exact ⟨⟨g, d, a, i, p⟩, genitive, dative, accusative, instrumental, prepositional,
      List.forall_mem_nil _⟩

/-- The forms of a name are a record of five texts. -/
theorem isProjection :
    Json.IsProjection (fun json => ¬ json.IsArray) (Json.HasMembers declared)
      (declared.map Prod.fst) toJson ofJson? :=
  .ofMembers (fun _ => rfl) (by decide) (by decide) not_isArray_toJson ofJson?_eq_some_iff
    isSome_ofJson?_iff

end Forms

/-! ## All written values -/

/-- **The JSON form is a faithful projection**, for values in the shapes that are written. A set of
rules is one of four texts. The name of a rule and the forms of a name are read exactly if all that they
declare is there and of its kind. All three come back from what is written, and for what is read no
undeclared member matters. -/
theorem json_faithful :
    Json.IsProjection (fun json => ¬ json.IsTag) Json.IsRuleSet []
      (Enumeration.toJson : RuleSet → Json) Enumeration.ofJson? ∧
    Json.IsProjection RuleId.IsShaped (Json.HasMembers RuleId.declared)
      (RuleId.declared.map Prod.fst) RuleId.toJson RuleId.ofJson? ∧
    Json.IsProjection (fun json => ¬ json.IsArray) (Json.HasMembers Forms.declared)
      (Forms.declared.map Prod.fst) Forms.toJson Forms.ofJson? :=
  ⟨Enumeration.isProjection RuleSet.isRuleSet_iff, RuleId.isProjection, Forms.isProjection⟩

/-- Declared members are found in any order and among others, and the largest index is read. -/
example :
    RuleId.ofJson? (.object [("note", .null), ("index", .integer 18446744073709551615),
      ("rule_set", .string "MaleSurname"), ("note", .bool true)]) =
        some ⟨.maleSurname, 18446744073709551615⟩ := rfl

/-- The next number is no index, and no index is a decimal. -/
example :
    RuleId.ofJson? (.object [("rule_set", .string "MaleSurname"),
      ("index", .integer 18446744073709551616)]) = none ∧
    RuleId.ofJson? (.object [("rule_set", .string "MaleSurname"), ("index", .decimal 30 1)]) = none :=
  ⟨rfl, rfl⟩

/-- An array and an object for a label are read as well, but the array has to be complete. -/
example :
    RuleId.ofJson? (.array [.object [("MaleSurname", .null)], .integer 3]) = some ⟨.maleSurname, 3⟩ ∧
    RuleId.ofJson? (.array [.string "MaleSurname"]) = none :=
  ⟨rfl, rfl⟩

end NameDeclension
