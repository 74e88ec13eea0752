/-
# NameDeclension.Proofs.Pattern.Repetition — a row read one element at a time

The notation can be read as it is described: an element is a run of bangs and what they stand before,
a row is as many elements as the text begins with, and bangs behind the last element are dropped. An
element is read whole or not at all. If its bangs stand before nothing that a slot could take, they are
given back, and it is the end of the row that drops them.

`Slot.read` goes through the text once and gives nothing back, since it only remembers whether the
last character was a bang. Both readers find the one reading that the grammar leaves
(`parse_eq_parseElements`).
-/
import NameDeclension.Proofs.Pattern.Grammar

namespace NameDeclension

namespace Slot

/-! ## Elements -/

/-- The number of bangs at the head of a text. -/
def bangCount (t : Text) : Nat := (t.takeWhile fun c => c == '!').length

/-- The text behind the bangs at its head. -/
def afterBangs (t : Text) : Text := t.dropWhile fun c => c == '!'

/-- A class at the head of a text: its members and the text behind it. What stands in it up to the
next bracket has to be closed by that bracket, and the bangs there are no members. -/
def class? : Text → Option (List Char × Text)
  | '[' :: t =>
    match t.dropWhile fun c => !isBracket c with
    | ']' :: rest => some ((t.takeWhile fun c => !isBracket c).filter fun c => c != '!', rest)
    | _ => none
  | _ => none

/-- What bangs may stand before, at the head of a text: a class, a hyphen or a letter that is no
sign. -/
def atom? (negated : Bool) (t : Text) : Option (Slot × Text) :=
  match class? t, t with
  | some (members, rest), _ => some (.oneOf members negated, rest)
  | none, [] => none
  | none, c :: rest =>
    if c = '-' then some (.wildcard, rest)
    else if c ∈ special then none
    else some (.literal c negated, rest)

/-- One **element** at the head of a text: a run of bangs and what they stand before. -/
def element? (t : Text) : Option (Slot × Text) :=
  atom? (decide (0 < bangCount t)) (afterBangs t)

/-! ## An element is a written form of its slot -/

theorem bangs_append_afterBangs (t : Text) : bangs (bangCount t) ++ afterBangs t = t := by
  have marks : (t.takeWhile fun c => c == '!').all (fun c => c == '!') = true := List.all_takeWhile
  have run : t.takeWhile (fun c => c == '!') = bangs (bangCount t) :=
    List.eq_replicate_of_mem fun c hc => beq_iff_eq.mp (List.all_eq_true.mp marks c hc)
  rw [← run, afterBangs, List.takeWhile_append_dropWhile]

theorem afterBangs_ne_bang_cons (t rest : Text) : afterBangs t ≠ '!' :: rest := by
  intro h
  have first := List.head?_dropWhile_not (fun c => c == '!') t
  rw [← afterBangs, h] at first
  cases first

/-- **A class is there if and only if the next bracket closes it.** -/
theorem class?_cases (t : Text) :
    (∃ inside rest, t = inside ++ ']' :: rest ∧ (∀ c ∈ inside, isBracket c = false) ∧
      class? ('[' :: t) = some (inside.filter (fun c => c != '!'), rest)) ∨
      (brackets t).head? ≠ some ']' ∧ class? ('[' :: t) = none := by
  obtain ⟨inside, rest, rfl, plain, first⟩ := exists_first_bracket t
  have skipped : ∀ c ∈ inside, (!isBracket c) = true := fun c hc => by rw [plain c hc]; rfl
  rw [class?, List.dropWhile_append_of_pos skipped, List.takeWhile_append_of_pos skipped,
    brackets_append_of_not_isBracket plain]
  rcases first with rfl | ⟨more, rfl⟩ | ⟨more, rfl⟩
  · exact .inr ⟨(Option.some_ne_none _).symm, rfl⟩
  · right
    rw [brackets_cons_of_isBracket (by decide)]
    exact ⟨by simp, rfl⟩
  · refine .inl ⟨inside, more, rfl, plain, ?_⟩
    simp [isBracket]

/-- Behind a run of bangs there is a written form of a slot, or no slot begins. -/
theorem atom?_cases (n : Nat) {t : Text} (other : ∀ rest, t ≠ '!' :: rest) :
    (∃ slot piece rest, atom? (decide (0 < n)) t = some (slot, rest) ∧ slot.WrittenAs piece ∧
        bangs n ++ t = piece ++ rest) ∨
      atom? (decide (0 < n)) t = none ∧ StopsReading t := by
  cases t with
  | nil => exact .inr ⟨rfl, trivial⟩
  | cons c rest =>
    have bang : c ≠ '!' := fun bang => other rest (bang ▸ rfl)
    by_cases opening : c = '['
    · subst opening
      rcases class?_cases rest with ⟨inside, more, rfl, plain, found⟩ | ⟨next, none_there⟩
      · exact .inl ⟨_, _, more, by simp [atom?, found], .oneOf n plain, by simp⟩
      · refine .inr ⟨?_, .inr ⟨rfl, next⟩⟩
        simp [atom?, none_there, special]
    have no_class : class? (c :: rest) = none := by
      rw [class?]
      exact fun _ h => opening (List.cons.inj h).1
    by_cases dash : c = '-'
    · subst dash
      exact .inl ⟨_, _, rest, by simp [atom?, no_class], .wildcard n, by simp⟩
    by_cases close : c = ']'
    · subst close
      exact .inr ⟨by simp [atom?, no_class, special], .inl rfl⟩
    · have plain : c ∉ special := not_mem_special_iff.mpr ⟨opening, close, bang, dash⟩
      exact .inl ⟨_, _, rest, by simp [atom?, no_class, dash, plain], .literal n plain, by simp⟩

/-- **An element takes a written form of its slot off the text.** -/
theorem exists_writtenAs_of_element? {t rest : Text} {slot : Slot}
    (h : element? t = some (slot, rest)) : ∃ piece, slot.WrittenAs piece ∧ t = piece ++ rest := by
  rcases atom?_cases (bangCount t) (afterBangs_ne_bang_cons t) with
    ⟨_, piece, _, found, written, split⟩ | ⟨none_there, -⟩
  · obtain ⟨rfl, rfl⟩ := Prod.mk.inj (Option.some.inj (found.symm.trans h))
    rw [bangs_append_afterBangs] at split
    exact ⟨piece, written, split⟩
  · cases none_there.symm.trans h

/-- **Without an element, no slot begins behind the bangs.** -/
theorem stopsReading_of_element? {t : Text} (h : element? t = none) :
    StopsReading (afterBangs t) := by
  rcases atom?_cases (bangCount t) (afterBangs_ne_bang_cons t) with ⟨_, _, _, found, -⟩ | ⟨-, stops⟩
  · cases found.symm.trans h
  · exact stops

theorem WrittenAs.ne_nil {slot : Slot} {piece : Text} (h : slot.WrittenAs piece) : piece ≠ [] := by
  cases h with
  | wildcard | literal | oneOf => simp

theorem element?_length_lt {t rest : Text} {slot : Slot} (h : element? t = some (slot, rest)) :
    rest.length < t.length := by
  obtain ⟨piece, written, rfl⟩ := exists_writtenAs_of_element? h
  rw [List.length_append]
  exact Nat.lt_add_of_pos_left (List.length_pos_of_ne_nil written.ne_nil)

/-! ## Rows -/

/-- As many elements as the text begins with, and the text from the first that is none. -/
def elements (t : Text) : List Slot × Text :=
  match h : element? t with
  | none => ([], t)
  | some (slot, rest) =>
    have := element?_length_lt h
    let (slots, left) := elements rest
    (slot :: slots, left)
  termination_by t.length

/-- A row read by elements, without the bangs behind the last one. -/
def parseElements (t : Text) : List Slot × Text :=
  ((elements t).1, afterBangs (elements t).2)

/-- What is read by elements is a reading of the text. -/
theorem readsAs_parseElements (t : Text) : ReadsAs t (parseElements t).1 (parseElements t).2 := by
  unfold parseElements
  fun_induction elements t with
  | case1 t h =>
    have stopped := ReadsAs.stop (bangCount t) (stopsReading_of_element? h)
    rwa [bangs_append_afterBangs] at stopped
  | case2 t slot rest h _ slots left hrest ih =>
    obtain ⟨piece, written, rfl⟩ := exists_writtenAs_of_element? h
    rw [hrest] at ih
    exact .cons written ih

/-- **Reading once and reading element by element are the same.** -/
theorem parse_eq_parseElements (t : Text) : parse t = parseElements t :=
  parse_eq_iff.mpr (readsAs_parseElements t)

end Slot

end NameDeclension
