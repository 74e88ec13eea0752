/-
# NameDeclension.Proofs.Guard.Letters — what a guard can see, and what it pins down

A guard is a formula over facts about a word (`Fact`): how it ends, what it is, how many syllables
it has. Two words that agree on the facts which a guard asks about get the same verdict
(`passes_congr_of_facts`). All facts are about the letters, so two words with the same letters get
the same verdict whatever their spelling (`passes_congr`).

A guard may leave no choice for a place. `pins` is a static check: it looks at the guard
alone and answers whether every word that passes must have, at the given place from the end, a
letter of the given kind. A pattern pins a place by an unnegated slot, a conjunction by one of its
guards, a disjunction by each of them, and a negation pins nothing. The check is sound
(`exists_fromEnd?_of_pins`), so a table of rules can be audited by evaluating it. A pinned place is
one that the guard looks at: with another letter there the word does not pass (`looksAt_of_pins`).
-/
import NameDeclension.Guard
import NameDeclension.Proofs.Lettercase.Small
import NameDeclension.Proofs.Pattern.Row

namespace NameDeclension

namespace Guard

/-! ## The facts that a guard asks about -/

/-- One **fact about a word** that a guard can ask for. -/
inductive Fact where
  /-- The end of the word fits the pattern. -/
  | ends (pattern : Pattern)
  /-- The word is the given one. -/
  | equals (literal : Text)
  /-- The word has exactly so many syllables. -/
  | syllables (count : Nat)
  deriving DecidableEq

/-- Whether a fact is true of a word. -/
def Fact.holds (w : Word) : Fact → Bool
  | .ends pattern => pattern.fits w
  | .equals literal => w.isSpelled literal
  | .syllables count => w.syllables == count

mutual

/-- The facts that a guard asks about, from left to right. -/
def facts : Guard Pattern → List Fact
  | .ends pattern => [.ends pattern]
  | .equals literal => [.equals literal]
  | .syllables count => [.syllables count]
  | .not guard => facts guard
  | .all guards => factsOfAll guards
  | .any guards => factsOfAll guards

/-- The facts that the guards of a list ask about. -/
def factsOfAll : List (Guard Pattern) → List Fact
  | [] => []
  | guard :: guards => facts guard ++ factsOfAll guards

end

section Congr

variable {u v : Word}

mutual

/-- **A guard sees a word through the facts that it asks about.** -/
theorem passes_congr_of_facts :
    ∀ {guard : Guard Pattern}, (∀ fact ∈ facts guard, fact.holds u = fact.holds v) →
      passes u guard = passes v guard
  | .ends _, h => h _ List.mem_cons_self
  | .equals _, h => h _ List.mem_cons_self
  | .syllables _, h => h _ List.mem_cons_self
  | .not guard, h => by
    have same : passes u guard = passes v guard := passes_congr_of_facts h
    rw [passes, passes, same]
  | .all guards, h => by
    have both : passesAll u guards = passesAll v guards ∧ passesAny u guards = passesAny v guards :=
      passesEach_congr_of_facts h
    exact both.1
  | .any guards, h => by
    have both : passesAll u guards = passesAll v guards ∧ passesAny u guards = passesAny v guards :=
      passesEach_congr_of_facts h
    exact both.2

theorem passesEach_congr_of_facts :
    ∀ {guards : List (Guard Pattern)},
      (∀ fact ∈ factsOfAll guards, fact.holds u = fact.holds v) →
      passesAll u guards = passesAll v guards ∧ passesAny u guards = passesAny v guards
  | [], _ => ⟨rfl, rfl⟩
  | guard :: guards, h => by
    rw [factsOfAll, List.forall_mem_append] at h
    have first : passes u guard = passes v guard := passes_congr_of_facts h.1
    obtain ⟨all, any⟩ := passesEach_congr_of_facts h.2
    rw [passesAll, passesAll, passesAny, passesAny, first, all, any]
    exact ⟨rfl, rfl⟩

end

/-- **A guard sees the letters of a word only.** -/
theorem passes_congr (h : u.letters = v.letters) (guard : Guard Pattern) :
    passes u guard = passes v guard := by
  apply passes_congr_of_facts
  intro fact _
  cases fact with
  | ends pattern =>
    rw [Fact.holds, Fact.holds, Pattern.fits_eq_scan, Pattern.fits_eq_scan, h]
  | equals literal => rw [Fact.holds, Fact.holds, Word.isSpelled, Word.isSpelled, h]
  | syllables count => rw [Fact.holds, Fact.holds, Word.syllables, Word.syllables, h]

end Congr

end Guard

/-! ## Places that a guard pins down -/

/-- Whether a slot takes letters of the kind `p` and nothing else. -/
def Slot.pins (p : Char → Bool) : Slot → Bool
  | .literal letter negated => !negated && p letter
  | .oneOf members negated => !negated && members.all p
  | .wildcard => false

theorem Slot.exists_of_pins {p : Char → Bool} {slot : Slot} {place : Option Char}
    (h : slot.pins p = true) (hplace : slot.accepts place = true) :
    ∃ c, place = some c ∧ p c = true := by
  cases slot with
  | wildcard => exact absurd h (by simp [pins])
  | literal letter negated =>
    simp only [pins, Bool.and_eq_true, Bool.not_eq_true'] at h
    obtain ⟨rfl, hletter⟩ := h
    cases place with
    | none => exact absurd hplace (by simp [accepts])
    | some c =>
      have same : c = letter := by simpa [accepts] using hplace
      exact ⟨c, rfl, same ▸ hletter⟩
  | oneOf members negated =>
    simp only [pins, Bool.and_eq_true, Bool.not_eq_true'] at h
    obtain ⟨rfl, hmembers⟩ := h
    cases place with
    | none => exact absurd hplace (by simp [accepts])
    | some c =>
      have listed : c ∈ members := by simpa [accepts] using hplace
      exact ⟨c, rfl, List.all_eq_true.mp hmembers c listed⟩

/-- Whether the slot that a pattern has for the place `i` from the end takes letters of the kind `p`
and nothing else. -/
def Pattern.pins (p : Char → Bool) (i : Nat) (pattern : Pattern) : Bool :=
  match pattern.body.row.reverse[i]? with
  | some slot => slot.pins p
  | none => false

namespace Guard

mutual

/-- **`pins p i guard`** — as far as the guard tells, a word that passes has a letter of the kind `p`
at the place `i` from the end. -/
def pins (p : Char → Bool) (i : Nat) : Guard Pattern → Bool
  | .ends pattern => pattern.pins p i
  | .equals literal =>
    match (Lettercase.lower literal).fromEnd? i with
    | some c => p c
    | none => false
  | .syllables _ => false
  | .not _ => false
  | .all guards => pinsSome p i guards
  | .any guards => pinsEach p i guards

/-- Whether some guard of a list pins the place. -/
def pinsSome (p : Char → Bool) (i : Nat) : List (Guard Pattern) → Bool
  | [] => false
  | guard :: guards => pins p i guard || pinsSome p i guards

/-- Whether every guard of a list pins the place. -/
def pinsEach (p : Char → Bool) (i : Nat) : List (Guard Pattern) → Bool
  | [] => true
  | guard :: guards => pins p i guard && pinsEach p i guards

end

section Sound

variable {p : Char → Bool} {i : Nat} {w : Word}

mutual

/-- **What a guard pins down is there in every word that passes.** -/
theorem exists_fromEnd?_of_pins :
    ∀ {guard : Guard Pattern}, pins p i guard = true → passes w guard = true →
      ∃ c, w.fromEnd? i = some c ∧ p c = true
  | .ends pattern, h, hw => by
    rw [pins, Pattern.pins] at h
    split at h
    · rename_i slot hslot
      exact Slot.exists_of_pins h (Pattern.accepts_of_fits hw hslot)
    · exact absurd h Bool.false_ne_true
  | .equals literal, h, hw => by
    have letters : w.letters = Lettercase.lower literal := Word.isSpelled_iff.mp hw
    rw [pins] at h
    split at h
    · rename_i c hc
      exact ⟨c, by rw [Word.fromEnd?, letters, hc], h⟩
    · exact absurd h Bool.false_ne_true
  | .syllables _, h, _ => absurd h Bool.false_ne_true
  | .not _, h, _ => absurd h Bool.false_ne_true
  | .all _, h, hw => exists_fromEnd?_of_pinsSome h hw
  | .any _, h, hw => exists_fromEnd?_of_pinsEach h hw

theorem exists_fromEnd?_of_pinsSome :
    ∀ {guards : List (Guard Pattern)}, pinsSome p i guards = true → passesAll w guards = true →
      ∃ c, w.fromEnd? i = some c ∧ p c = true
  | [], h, _ => absurd h Bool.false_ne_true
  | guard :: guards, h, hw => by
    rw [pinsSome, Bool.or_eq_true] at h
    rw [passesAll, Bool.and_eq_true] at hw
    rcases h with first | later
    · exact exists_fromEnd?_of_pins first hw.1
    · exact exists_fromEnd?_of_pinsSome later hw.2

theorem exists_fromEnd?_of_pinsEach :
    ∀ {guards : List (Guard Pattern)}, pinsEach p i guards = true → passesAny w guards = true →
      ∃ c, w.fromEnd? i = some c ∧ p c = true
  | [], _, hw => absurd hw Bool.false_ne_true
  | guard :: guards, h, hw => by
    rw [pinsEach, Bool.and_eq_true] at h
    rw [passesAny, Bool.or_eq_true] at hw
    rcases hw with first | later
    · exact exists_fromEnd?_of_pins h.1 first
    · exact exists_fromEnd?_of_pinsEach h.2 later

end

/-- So the letter that a passing word has at a pinned place is of the kind. -/
theorem of_pins {guard : Guard Pattern} {c : Char} (h : pins p i guard = true)
    (hw : passes w guard = true) (hc : w.fromEnd? i = some c) : p c = true := by
  obtain ⟨d, hd, hp⟩ := exists_fromEnd?_of_pins h hw
  obtain rfl := Option.some.inj (hc.symm.trans hd)
  exact hp

end Sound

/-! ## Places that decide -/

/-- **The guard looks at the place `i` of a word**: some word that differs from it there and nowhere
else gets the other verdict. -/
def LooksAt (guard : Guard Pattern) (w : Word) (i : Nat) : Prop :=
  ∃ v : Word, v.length = w.length ∧ (∀ j, j ≠ i → v.fromEnd? j = w.fromEnd? j) ∧
    passes v guard ≠ passes w guard

/-- A guard looks at the places that it pins down, if there is a small letter of another kind. -/
theorem looksAt_of_pins {p : Char → Bool} {i : Nat} {guard : Guard Pattern} {w : Word}
    (h : pins p i guard = true) (hw : passes w guard = true) {x : Char}
    (small : Lettercase.IsSmall x) (hx : p x = false) : LooksAt guard w i := by
  obtain ⟨c, hc, -⟩ := exists_fromEnd?_of_pins h hw
  have inside : i < w.letters.reverse.length := (List.getElem?_eq_some_iff.mp hc).1
  -- the letters of `w` backwards, with `x` at the place
  let letters := (w.letters.reverse.set i x).reverse
  have length_eq : letters.length = w.letters.length := by simp [letters]
  have ne_nil : letters ≠ [] := by
    refine List.ne_nil_of_length_pos ?_
    rw [length_eq, ← List.length_reverse]
    exact Nat.zero_lt_of_lt inside
  have letters_small : ∀ d ∈ letters, Lettercase.IsSmall d := by
    intro d hd
    rcases List.mem_or_eq_of_mem_set (List.mem_reverse.mp hd) with old | rfl
    · exact Lettercase.isSmall_of_mem_lower (List.mem_reverse.mp old)
    · exact small
  let v : Word := ⟨letters, ne_nil⟩
  have v_letters : v.letters = letters := Lettercase.lower_of_isSmall letters_small
  refine ⟨v, by rw [Word.length, v_letters, length_eq, Word.length], ?_, ?_⟩
  · intro j hj
    rw [Word.fromEnd?, v_letters, Text.fromEnd?, List.reverse_reverse,
      List.getElem?_set_ne (Ne.symm hj)]
    rfl
  · rw [hw]
    intro hv
    -- if `v` passed, the place would hold a letter of the kind, but it holds `x`
    obtain ⟨d, hd, hp⟩ := exists_fromEnd?_of_pins h hv
    rw [Word.fromEnd?, v_letters, Text.fromEnd?, List.reverse_reverse,
      List.getElem?_set_self inside, Option.some.injEq] at hd
    rw [← hd, hx] at hp
    exact Bool.false_ne_true hp

end Guard

end NameDeclension
