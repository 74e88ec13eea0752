/-
# NameDeclension.Proofs.Declension.Prefixes — a longer name is declined at its end

Put a text in front of a name: a stem, or the first half of a hyphenated name. The rules look at the
last letters, so the same rule fires and each form gets the text in front of it. Three things stand
in the way, and the audit `RuleSet.seesEnd` says where:

* the two irregular first names of men are compared as a whole;
* the rules for first names in -ия count syllables, and the text in front may have some;
* a sigma at the start of the name may become final when letters come before it, but no pattern of
  the tables names a sigma, so none tells the two small ones apart.

Everything else that a guard asks is a pattern of at most three slots, and what a rule cuts is two
characters at most. So the name has to have three characters, and the tables for surnames ask for
nothing more: `declension_prefixed`.
-/
import NameDeclension.Proofs.Lettercase.Sigma
import NameDeclension.Proofs.Rules.Cuts
import NameDeclension.Proofs.Rules.FirstNames

namespace NameDeclension

open Lettercase

/-! ## Slots that name no sigma -/

/-- Whether the slot names neither of the two small sigmas. -/
def Slot.ignoresSigma : Slot → Bool
  | .literal letter _ => letter != 'ς' && letter != 'σ'
  | .oneOf members _ => members.all fun c => c != 'ς' && c != 'σ'
  | .wildcard => true

/-- To such a slot the two small sigmas are one letter. -/
theorem Slot.accepts_map_plainSigma {slot : Slot} (h : slot.ignoresSigma = true)
    (place : Option Char) : slot.accepts (place.map plainSigma) = slot.accepts place := by
  cases place with
  | none => rfl
  | some c =>
    cases slot with
    | wildcard => rfl
    | literal letter negated =>
      simp only [ignoresSigma, Bool.and_eq_true, bne_iff_ne] at h
      have same : (plainSigma c == letter) = (c == letter) := by
        rw [Bool.eq_iff_iff, beq_iff_eq, beq_iff_eq, plainSigma_eq_iff h.1 h.2]
      show ((plainSigma c == letter) != negated) = ((c == letter) != negated)
      rw [same]
    | oneOf members negated =>
      simp only [ignoresSigma, List.all_eq_true, Bool.and_eq_true, bne_iff_ne] at h
      have same : members.contains (plainSigma c) = members.contains c := by
        rw [Bool.eq_iff_iff, List.contains_iff_mem, List.contains_iff_mem]
        constructor
        · intro listed
          obtain ⟨final, plain⟩ := h _ listed
          rwa [← (plainSigma_eq_iff final plain).mp rfl] at listed
        · intro listed
          obtain ⟨final, plain⟩ := h _ listed
          rwa [(plainSigma_eq_iff final plain).mpr rfl]
      show (members.contains (plainSigma c) != negated) = (members.contains c != negated)
      rw [same]

/-! ## The audit of the tables -/

/-- **`fact.SeesEnd s guard`** — what a guard of the set `s` may ask about: three letters at the end,
sigmas apart; for men, whether the word is one of the two irregular first names; and in a guard that
holds of first names in -ия only, whether there are two syllables. -/
def Guard.Fact.SeesEnd (s : RuleSet) (guard : Guard Pattern) : Guard.Fact → Prop
  | .ends pattern =>
    pattern.body.row.length ≤ 3 ∧ ∀ slot ∈ pattern.body.row, slot.ignoresSigma = true
  | .equals literal =>
    s = .maleFirstName ∧ (literal = "павел".toList ∨ literal = "лев".toList)
  | .syllables count =>
    s.kind = .firstName ∧ count = 2 ∧ guard.pins (fun c => c == 'я') 0 = true ∧
      guard.pins (fun c => c == 'и') 1 = true

instance (s : RuleSet) (guard : Guard Pattern) : DecidablePred (Guard.Fact.SeesEnd s guard)
  | .ends _ => inferInstanceAs (Decidable (_ ∧ _))
  | .equals _ => inferInstanceAs (Decidable (_ ∧ _))
  | .syllables _ => inferInstanceAs (Decidable (_ ∧ _))

/-- All guards of the tables pass the audit. -/
theorem RuleSet.seesEnd (s : RuleSet) :
    ∀ rule ∈ s.rules, ∀ fact ∈ rule.guard.facts, fact.SeesEnd s rule.guard := by
  cases s <;> decide +kernel

/-! ## A word behind a text -/

/-- The **word with a text in front of it.** -/
def Word.prefixed (p : Text) (w : Word) : Word :=
  ⟨p ++ w.spelling, List.append_ne_nil_of_right_ne_nil p w.spelling_ne_nil⟩

section

variable {p : Text} {w : Word} {s : RuleSet}

theorem Word.fromEnd?_prefixed {i : Nat} (h : i < w.spellingLength) :
    ((w.prefixed p).fromEnd? i).map plainSigma = (w.fromEnd? i).map plainSigma :=
  fromEnd?_lower_append p h

/-- A letter other than sigma stands at the end of the longer word if and only if it stands at the
end of the word. -/
theorem Word.fromEnd?_prefixed_eq_some_iff {i : Nat} (h : i < w.spellingLength) {c : Char}
    (final : c ≠ 'ς') (plain : c ≠ 'σ') :
    (w.prefixed p).fromEnd? i = some c ↔ w.fromEnd? i = some c := by
  have unmapped : ∀ place : Option Char, place.map plainSigma = some c ↔ place = some c := by
    intro place
    cases place with
    | none => simp
    | some d => rw [Option.map_some, Option.some.injEq, Option.some.injEq,
        plainSigma_eq_iff final plain]
  rw [← unmapped, Word.fromEnd?_prefixed h, unmapped]

theorem Pattern.fits_prefixed {pattern : Pattern} (long : 3 ≤ w.spellingLength)
    (short : pattern.body.row.length ≤ 3)
    (blind : ∀ slot ∈ pattern.body.row, slot.ignoresSigma = true) :
    pattern.fits (w.prefixed p) = pattern.fits w := by
  apply Pattern.fits_congr
  intro slot hslot i hi
  have inside : i < w.spellingLength := by omega
  rw [← Slot.accepts_map_plainSigma (blind slot hslot), Word.fromEnd?_prefixed inside,
    Slot.accepts_map_plainSigma (blind slot hslot)]

theorem Word.isSpelled_irregular_eq_false {literal : Text}
    (h : literal = "павел".toList ∨ literal = "лев".toList) (regular : ¬ Rules.IsIrregular w) :
    w.isSpelled literal = false := by
  have small : lower literal = literal := by
    rcases h with rfl | rfl <;> exact lower_of_written (by decide)
  rw [Word.isSpelled, small, beq_eq_false_iff_ne]
  rintro rfl
  exact regular h

/-- A guard that pins the last two letters of names in -ия, if the word passes it with or without
the text in front, is about such a word. -/
theorem Word.endsInIya_of_pins {guard : Guard Pattern} (long : 3 ≤ w.spellingLength)
    (ya : guard.pins (fun c => c == 'я') 0 = true) (i : guard.pins (fun c => c == 'и') 1 = true)
    (h : guard.passes (w.prefixed p) = true ∨ guard.passes w = true) :
    "ия".toList <:+ w.letters := by
  have place : ∀ {k : Nat} {c : Char}, k < 3 → c ≠ 'ς' → c ≠ 'σ' →
      guard.pins (fun d => d == c) k = true → w.fromEnd? k = some c := by
    intro k c hk final plain hpins
    have inside : k < w.spellingLength := Nat.lt_of_lt_of_le hk long
    rcases h with there | here
    · obtain ⟨d, hd, same⟩ := Guard.exists_fromEnd?_of_pins hpins there
      rw [← Word.fromEnd?_prefixed_eq_some_iff (p := p) inside final plain, hd, beq_iff_eq.mp same]
    · obtain ⟨d, hd, same⟩ := Guard.exists_fromEnd?_of_pins hpins here
      rw [hd, beq_iff_eq.mp same]
  have last : Text.fromEnd? w.letters 0 = some 'я' := place (by decide) (by decide) (by decide) ya
  have before : Text.fromEnd? w.letters 1 = some 'и' := place (by decide) (by decide) (by decide) i
  rw [Slot.suffix_iff_takeFrom]
  simp [Slot.takeFrom, Slot.plain, last, before]

/-- **No guard of the set tells the longer word from the word.** -/
theorem Rule.passes_prefixed {rule : Rule} (hrule : rule ∈ s.rules) (long : 3 ≤ w.spellingLength)
    (regular : s = .maleFirstName →
      ¬ Rules.IsIrregular w ∧ ¬ Rules.IsIrregular (w.prefixed p))
    (counts : s.kind = .firstName → "ия".toList <:+ w.letters →
      (w.syllables = 2 ↔ (w.prefixed p).syllables = 2)) :
    rule.guard.passes (w.prefixed p) = rule.guard.passes w := by
  -- the syllables count only where one of the two words passes, which then ends in -ия
  have agree : rule.guard.passes (w.prefixed p) = true ∨ rule.guard.passes w = true →
      rule.guard.passes (w.prefixed p) = rule.guard.passes w := by
    intro either
    apply Guard.passes_congr_of_facts
    intro fact hfact
    have audited := s.seesEnd rule hrule fact hfact
    cases fact with
    | ends pattern => exact Pattern.fits_prefixed long audited.1 audited.2
    | equals literal =>
      obtain ⟨hs, hliteral⟩ := audited
      obtain ⟨word, longer⟩ := regular hs
      rw [Guard.Fact.holds, Guard.Fact.holds, Word.isSpelled_irregular_eq_false hliteral word,
        Word.isSpelled_irregular_eq_false hliteral longer]
    | syllables count =>
      obtain ⟨kind, rfl, ya, i⟩ := audited
      have same := counts kind (Word.endsInIya_of_pins long ya i either)
      rw [Guard.Fact.holds, Guard.Fact.holds, Bool.eq_iff_iff, beq_iff_eq, beq_iff_eq, same]
  by_cases either : rule.guard.passes (w.prefixed p) = true ∨ rule.guard.passes w = true
  · exact agree either
  · rw [not_or, Bool.not_eq_true, Bool.not_eq_true] at either
    rw [either.1, either.2]

/-! ## The forms -/

/-- A cut inside the word leaves the text in front of it alone. -/
theorem Splice.apply_prefixed {splice : Splice} (h : splice.drop ≤ w.spellingLength) :
    splice.apply (w.prefixed p) = p ++ splice.apply w := by
  show (p ++ w.spelling).dropEnd splice.drop ++ splice.ending =
    p ++ (w.spelling.dropEnd splice.drop ++ splice.ending)
  rw [Text.dropEnd_append h, List.append_assoc]

theorem Paradigm.forms_prefixed {paradigm : Paradigm} (h : paradigm.maxDrop ≤ w.spellingLength) :
    paradigm.forms (w.prefixed p) = (paradigm.forms w).map fun form => p ++ form := by
  rw [Paradigm.forms, Paradigm.forms, Oblique.map_map]
  apply Oblique.map_congr
  intro splice hsplice
  exact Splice.apply_prefixed (Nat.le_trans (Paradigm.drop_le_maxDrop hsplice) h)

/-- **Putting a text in front of a name puts it in front of the forms**, and the same rule fires or
none does. The name has three characters or more. Among first names of men, neither it nor the longer
name is irregular; and a first name in -ия has two syllables with the text in front of it if and only
if it has two without. -/
theorem declension_prefixed (long : 3 ≤ w.spellingLength)
    (regular : s = .maleFirstName →
      ¬ Rules.IsIrregular w ∧ ¬ Rules.IsIrregular (w.prefixed p))
    (counts : s.kind = .firstName → "ия".toList <:+ w.letters →
      (w.syllables = 2 ↔ (w.prefixed p).syllables = 2)) :
    ((w.prefixed p).declension s).rule = (w.declension s).rule ∧
      ((w.prefixed p).declension s).forms = (w.declension s).forms.map fun form => p ++ form := by
  have same_rule : ((w.prefixed p).declension s).rule = (w.declension s).rule := by
    apply Word.declension_rule_eq_of_passes
    intro rule hrule
    exact Rule.passes_prefixed hrule long regular counts
  refine ⟨same_rule, ?_⟩
  rcases Word.forms_cases_of_rule_eq same_rule with
    ⟨rule, hrule, -, -, longer, word⟩ | ⟨longer, word⟩
  · have shallow : rule.paradigm.maxDrop ≤ w.spellingLength :=
      Nat.le_trans (s.cutsCyrillic rule hrule).1 (Nat.le_trans (by decide) long)
    rw [longer, word, Paradigm.forms_prefixed shallow]
  · rw [longer, word]
    rfl

end

/-- The name ends in -ия and has four syllables, seven with the first half in front: neither number
is two, so the genitive is in -ии with it as without. -/
theorem declension_prefixed_zakharia :
    (3 ≤ (⟨"Захария".toList, by decide⟩ : Word).spellingLength ∧
      ¬ Rules.IsIrregular ⟨"Захария".toList, by decide⟩ ∧
      ¬ Rules.IsIrregular ((⟨"Захария".toList, by decide⟩ : Word).prefixed "Иоанн-".toList) ∧
      "ия".toList <:+ (⟨"Захария".toList, by decide⟩ : Word).letters ∧
      ((⟨"Захария".toList, by decide⟩ : Word).syllables = 2 ↔
        ((⟨"Захария".toList, by decide⟩ : Word).prefixed "Иоанн-".toList).syllables = 2)) ∧
    (((⟨"Захария".toList, by decide⟩ : Word).prefixed "Иоанн-".toList).declension
        .maleFirstName).rule = some ⟨.maleFirstName, 9⟩ ∧
      (((⟨"Захария".toList, by decide⟩ : Word).prefixed "Иоанн-".toList).declension
        .maleFirstName).forms.genitive = "Иоанн-Захарии".toList := by
  have long : 3 ≤ (⟨"Захария".toList, by decide⟩ : Word).spellingLength := by decide
  have regular : ¬ Rules.IsIrregular ⟨"Захария".toList, by decide⟩ ∧
      ¬ Rules.IsIrregular ((⟨"Захария".toList, by decide⟩ : Word).prefixed "Иоанн-".toList) := by
    unfold Rules.IsIrregular
    decide +kernel
  have ending : "ия".toList <:+ (⟨"Захария".toList, by decide⟩ : Word).letters := by
    decide +kernel
  have counts : (⟨"Захария".toList, by decide⟩ : Word).syllables = 2 ↔
      ((⟨"Захария".toList, by decide⟩ : Word).prefixed "Иоанн-".toList).syllables = 2 := by
    decide +kernel
  have word : (⟨"Захария".toList, by decide⟩ : Word).declension .maleFirstName =
      ⟨⟨"Захарии".toList, "Захарии".toList, "Захарию".toList, "Захарией".toList,
        "Захарии".toList⟩, some ⟨.maleFirstName, 9⟩⟩ := by decide +kernel
  obtain ⟨rule, forms⟩ := declension_prefixed (p := "Иоанн-".toList) (s := .maleFirstName) long
    (fun _ => regular) (fun _ _ => counts)
  rw [rule, forms, word]
  exact ⟨⟨long, regular.1, regular.2, ending, counts⟩, by decide, by decide⟩

end NameDeclension
