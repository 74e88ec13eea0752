/-
# NameDeclension.Proofs.Json.Members — objects seen through some of their names

A record reads the members that it declares, each by its name, and no others. So two things about an
object matter to it: what stands under the declared names (`restrict`), and not the order in which it
stands there (`Same`). Finding a member respects both (`Same.member?_eq`, `member?_restrict`).

The converse is `restrict_same_iff`: an object in which each declared name finds a value is, apart from
undeclared members and up to order, the object of these names and values.
-/
import Mathlib.Data.List.Nodup
import NameDeclension.Json.Value

namespace NameDeclension

namespace Json

/-! ## One member -/

theorem filter_eq_of_under {name : String} {members : List (String × Json)} {value : Json}
    (h : under name members = [value]) :
    members.filter (fun member => member.1 == name) = [(name, value)] := by
  obtain ⟨⟨other, found⟩, alone, rfl⟩ := List.map_eq_singleton_iff.mp h
  have here : (other, found) ∈ members.filter fun member => member.1 == name := by
    rw [alone]
    exact List.mem_singleton_self _
  obtain rfl : other = name := by simpa using (List.mem_filter.mp here).2
  exact alone

/-- **`HoldsOnce members name value`** — the value stands under the name, and nothing else does. -/
def HoldsOnce (members : List (String × Json)) (name : String) (value : Json) : Prop :=
  (name, value) ∈ members ∧ (members.map Prod.fst).count name = 1

theorem under_eq_singleton_iff {name : String} {members : List (String × Json)} {value : Json} :
    under name members = [value] ↔ HoldsOnce members name value := by
  have number : (members.map Prod.fst).count name =
      (members.filter fun member => member.1 == name).length := by
    rw [List.count_eq_countP, List.countP_map, List.countP_eq_length_filter]
    rfl
  constructor
  · intro h
    have alone := filter_eq_of_under h
    refine ⟨?_, by rw [number, alone, List.length_singleton]⟩
    have here : (name, value) ∈ members.filter fun member => member.1 == name := by
      rw [alone]
      exact List.mem_singleton_self _
    exact (List.mem_filter.mp here).1
  · rintro ⟨here, once⟩
    rw [number] at once
    obtain ⟨member, alone⟩ := List.length_eq_one_iff.mp once
    have inside : (name, value) ∈ members.filter fun member => member.1 == name :=
      List.mem_filter.mpr ⟨here, beq_self_eq_true name⟩
    rw [alone, List.mem_singleton] at inside
    rw [under, alone, ← inside, List.map_singleton]

theorem member?_object_eq_some_iff {name : String} {members : List (String × Json)} {value : Json} :
    (object members).member? name = some value ↔ under name members = [value] := by
  simp only [member?]
  split <;> simp_all

theorem member?_eq_some_iff {json : Json} {name : String} {value : Json} :
    json.member? name = some value ↔
      ∃ members, json = .object members ∧ HoldsOnce members name value := by
  cases json with
  | object members => simp [member?_object_eq_some_iff, under_eq_singleton_iff]
  | null | bool _ | integer _ | decimal _ _ | string _ | array _ => simp [member?]

/-- In an object whose names differ, a value that stands under a name is the one found there. -/
theorem holdsOnce_iff_mem {members : List (String × Json)} (distinct : (members.map Prod.fst).Nodup)
    {name : String} {value : Json} : HoldsOnce members name value ↔ (name, value) ∈ members := by
  refine ⟨And.left, fun here => ⟨here, ?_⟩⟩
  exact List.nodup_iff_count_eq_one.mp distinct name (List.mem_map_of_mem here)

theorem member?_object_of_mem {members : List (String × Json)}
    (distinct : (members.map Prod.fst).Nodup) {member : String × Json} (h : member ∈ members) :
    (object members).member? member.1 = some member.2 :=
  member?_eq_some_iff.mpr ⟨members, rfl, (holdsOnce_iff_mem distinct).mpr h⟩

/-! ## Order and undeclared members -/

/-- **The same value**, where the members of an object have no order. -/
def Same : Json → Json → Prop
  | .object members, .object others => members.Perm others
  | json, other => json = other

theorem Same.member?_eq {json other : Json} (h : json.Same other) (name : String) :
    json.member? name = other.member? name := by
  cases json with
  | object members =>
    cases other with
    | object others =>
      have found : (under name members).Perm (under name others) :=
        (List.Perm.filter _ h).map Prod.snd
      apply Option.ext
      intro value
      rw [member?_object_eq_some_iff, member?_object_eq_some_iff]
      constructor
      · intro alone
        exact List.perm_singleton.mp (alone ▸ found.symm)
      · intro alone
        exact List.perm_singleton.mp (alone ▸ found)
    | null | bool _ | integer _ | decimal _ _ | string _ | array _ => exact nomatch h
  | null | bool _ | integer _ | decimal _ _ | string _ | array _ =>
    cases other with
    | object _ => exact nomatch h
    | null | bool _ | integer _ | decimal _ _ | string _ | array _ => rfl

/-- Texts are the same only if they are equal. -/
theorem Same.eq_string_iff {json other : Json} (h : json.Same other) (text : String) :
    json = .string text ↔ other = .string text := by
  cases json with
  | object members =>
    cases other with
    | object others => exact ⟨nofun, nofun⟩
    | null | bool _ | integer _ | decimal _ _ | string _ | array _ => exact nomatch h
  | null | bool _ | integer _ | decimal _ _ | string _ | array _ =>
    cases other with
    | object others => exact nomatch h
    | null | bool _ | integer _ | decimal _ _ | string _ | array _ => rw [show _ = _ from h]

/-- The value **without its undeclared members**. Only an object has any. -/
def restrict (names : List String) : Json → Json
  | .object members => .object (members.filter fun member => names.contains member.1)
  | json => json

theorem restrict_eq_string_iff {names : List String} {json : Json} {text : String} :
    json.restrict names = .string text ↔ json = .string text := by
  cases json <;> simp [restrict]

/-- What is declared is found as before. -/
theorem member?_restrict {names : List String} {name : String} (h : name ∈ names) (json : Json) :
    (json.restrict names).member? name = json.member? name := by
  cases json with
  | object members =>
    have kept : under name (members.filter fun member => names.contains member.1) =
        under name members := by
      rw [under, List.filter_filter, under]
      congr 1
      apply List.filter_congr
      intro member _
      by_cases same : member.1 = name
      · simp [same, h]
      · simp [same]
    simp only [restrict, member?, kept]
  | null | bool _ | integer _ | decimal _ _ | string _ | array _ => rfl

/-- A value with the same declared members has the same values under their names. -/
theorem member?_eq_of_restrict {names : List String} {json other : Json}
    (h : (json.restrict names).Same (other.restrict names)) {name : String} (hname : name ∈ names) :
    json.member? name = other.member? name := by
  rw [← member?_restrict hname json, h.member?_eq, member?_restrict hname]

/-! ## All declared members -/

/-- The members under given names are those of the given values, if each name finds its value. -/
theorem filter_perm_of_under {members declared : List (String × Json)}
    (distinct : (declared.map Prod.fst).Nodup)
    (h : ∀ member ∈ declared, under member.1 members = [member.2]) :
    (members.filter fun member => (declared.map Prod.fst).contains member.1).Perm declared := by
  induction declared with
  | nil => simp
  | cons first others ih =>
    rw [List.map_cons, List.nodup_cons] at distinct
    rw [List.forall_mem_cons] at h
    -- the first name apart from the others, which do not repeat it
    have here : (members.filter fun member =>
          ((first :: others).map Prod.fst).contains member.1).filter
        (fun member => member.1 == first.1) = [first] := by
      rw [← filter_eq_of_under h.1, List.filter_filter]
      apply List.filter_congr
      intro member _
      by_cases same : member.1 = first.1 <;> simp [same]
    have elsewhere : (members.filter fun member =>
          ((first :: others).map Prod.fst).contains member.1).filter
        (fun member => !(member.1 == first.1)) =
          members.filter fun member => (others.map Prod.fst).contains member.1 := by
      rw [List.filter_filter]
      apply List.filter_congr
      intro member _
      by_cases same : member.1 = first.1
      · have absent : (others.map Prod.fst).contains first.1 = false := by
          simpa using distinct.1
        rw [same, absent, beq_self_eq_true, Bool.not_true, Bool.false_and]
      · rw [List.map_cons, List.contains_cons, beq_eq_false_iff_ne.mpr same, Bool.not_false,
          Bool.true_and, Bool.false_or]
    refine (List.filter_append_perm (fun member => member.1 == first.1) _).symm.trans ?_
    rw [here, elsewhere, List.singleton_append]
    exact (ih distinct.2 h.2).cons first

/-- **An object is known by what its names find.** Each declared name finds its value exactly if, apart
from undeclared members and up to order, the value is the object of these names and values. -/
theorem restrict_same_iff {declared : List (String × Json)} (distinct : (declared.map Prod.fst).Nodup)
    (nonempty : declared ≠ []) (json : Json) :
    (json.restrict (declared.map Prod.fst)).Same (.object declared) ↔
      ∀ member ∈ declared, json.member? member.1 = some member.2 := by
  constructor
  · intro same member hmember
    rw [← member?_restrict (List.mem_map_of_mem hmember) json, same.member?_eq,
      member?_object_of_mem distinct hmember]
  · intro found
    obtain ⟨first, others, rfl⟩ := List.exists_cons_of_ne_nil nonempty
    obtain ⟨members, rfl, -⟩ := member?_eq_some_iff.mp (found first List.mem_cons_self)
    apply filter_perm_of_under distinct
    exact fun member hmember => member?_object_eq_some_iff.mp (found member hmember)

end Json

end NameDeclension
