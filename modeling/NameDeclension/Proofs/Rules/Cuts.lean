/-
# NameDeclension.Proofs.Rules.Cuts — the rules cut off the letters that they looked at

A guard is tested on the letters of a word, an ending is cut from its spelling, and the two need not
have the same length. That no cut goes wrong is a property of the tables: every place that a rule
cuts, and in any case the last one, is pinned by its guard to be a small Cyrillic letter
(`Rule.CutsCyrillic`, checked by evaluation). A Cyrillic end is spelled letter by letter, so what is
cut from the spelling is exactly what the guard saw: `cutsOwnLetters_of_declension`.
-/
import NameDeclension.Proofs.Guard.Letters
import NameDeclension.Proofs.Lettercase.Cyrillic
import NameDeclension.Proofs.Rules.Firing
import NameDeclension.Proofs.Splice.Endings

namespace NameDeclension

open Lettercase

/-! ## The audit of the tables -/

namespace Rule

/-- The number of letters at the end of a word that a rule touches: those that it cuts, and the one
that an added ending stands behind. -/
def reach (rule : Rule) : Nat := max 1 rule.paradigm.maxDrop

/-- **`rule.CutsCyrillic`** — the rule cuts at most two letters; its guard pins every place that the
rule reaches to be a small Cyrillic letter; what it adds is small Cyrillic too; and an ending that
cuts all that is reached adds something. -/
def CutsCyrillic (rule : Rule) : Prop :=
  rule.paradigm.maxDrop ≤ 2 ∧
    (∀ i < rule.reach, rule.guard.pins isCyrillicSmall i = true) ∧
    ∀ splice ∈ rule.paradigm.toList, splice.ending.all isCyrillicSmall = true ∧
      (splice.drop < rule.reach ∨ splice.ending ≠ [])

instance (rule : Rule) : Decidable rule.CutsCyrillic := inferInstanceAs (Decidable (_ ∧ _ ∧ _))

theorem reach_pos (rule : Rule) : 0 < rule.reach :=
  Nat.lt_of_lt_of_le Nat.zero_lt_one (Nat.le_max_left _ _)

theorem drop_le_reach {rule : Rule} {splice : Splice} (h : splice ∈ rule.paradigm.toList) :
    splice.drop ≤ rule.reach :=
  Nat.le_trans (Paradigm.drop_le_maxDrop h) (Nat.le_max_right _ _)

end Rule

/-- All shipped rules pass the audit. -/
theorem RuleSet.cutsCyrillic (s : RuleSet) : ∀ rule ∈ s.rules, rule.CutsCyrillic := by
  cases s <;> decide +kernel

/-! ## What an ending puts at the end of a word -/

/-- A word that got an ending in small Cyrillic letters ends in them. -/
theorem Splice.suffix_letters {splice : Splice} {w v : Word}
    (small : ∀ c ∈ splice.ending, isCyrillicSmall c = true) (made : v.spelling = splice.apply w) :
    splice.ending <:+ v.letters := by
  rw [Word.letters, made, apply]
  exact suffix_lower_append small _

/-! ## What a fired rule finds at the end of the spelling -/

/-- **A word that passes the guard of an audited rule is spelled with Cyrillic characters as far as
the rule reaches.** -/
theorem Rule.CutsCyrillic.exists_tail {rule : Rule} {w : Word} (audited : rule.CutsCyrillic)
    (h : rule.guard.passes w = true) :
    ∃ q d, w.spelling = q ++ d ∧ d.length = rule.reach ∧ ∀ x ∈ d, isCyrillic x = true := by
  apply exists_cyrillic_tail
  intro i hi
  obtain ⟨c, hplace, hc⟩ := Guard.exists_fromEnd?_of_pins (audited.2.1 i hi) h
  exact ⟨c, hplace, isCyrillic_of_small hc⟩

/-- So no ending of the rule cuts more than there is. -/
theorem Rule.CutsCyrillic.drop_le_spellingLength {rule : Rule} {w : Word}
    (audited : rule.CutsCyrillic) (h : rule.guard.passes w = true) {splice : Splice}
    (hsplice : splice ∈ rule.paradigm.toList) : splice.drop ≤ w.spellingLength := by
  obtain ⟨q, d, hspelling, hlen, -⟩ := audited.exists_tail h
  have reach_le : rule.reach ≤ w.spellingLength := by
    rw [Word.spellingLength, hspelling, List.length_append, hlen]
    exact Nat.le_add_left _ _
  exact Nat.le_trans (Rule.drop_le_reach hsplice) reach_le

theorem Text.ne_nil_of_length_eq_reach {rule : Rule} {d : Text} (h : d.length = rule.reach) :
    d ≠ [] :=
  List.ne_nil_of_length_pos (h ▸ rule.reach_pos)

/-- The last characters of a spelling with a Cyrillic end, each lowered on its own, are the last
letters. -/
theorem lower_takeEnd_eq {q d : Text} (hne : d ≠ []) (hd : ∀ x ∈ d, isCyrillic x = true) {k : Nat}
    (hk : k ≤ d.length) :
    ((q ++ d).takeEnd k).map (fun x => lower [x]) = ((lower (q ++ d)).takeEnd k).map fun c => [c] := by
  have hk' : k ≤ (d.map simpleLower).length := by rwa [List.length_map]
  rw [lower_append_cyrillic hne hd, Text.takeEnd_append hk, Text.takeEnd_append hk',
    Text.takeEnd_map, List.map_map]
  apply List.map_congr_left
  intro x hx
  have cyrillic : isCyrillic x = true := hd x (List.mem_of_mem_drop hx)
  show lowerAt [] x [] ++ [] = [simpleLower x]
  rw [lowerAt_of_isCyrillic cyrillic, List.append_nil]

/-- **`rule.CutsOwnLetters w`** — putting the endings of the rule on the word cuts the letters that
the guard looked at, and nothing else. A cut is counted in characters of the spelling. -/
structure Rule.CutsOwnLetters (rule : Rule) (w : Word) : Prop where
  /-- The longest cut stays inside the spelling. -/
  maxDrop_le : rule.paradigm.maxDrop ≤ w.spellingLength
  /-- So does every cut, and none takes more than two characters. -/
  drop_le : ∀ splice ∈ rule.paradigm.toList, splice.drop ≤ w.spellingLength ∧ splice.drop ≤ 2
  /-- What a cut leaves and the last characters, as many as it takes, make up the spelling. -/
  cut_eq : ∀ splice ∈ rule.paradigm.toList,
    w.truncated splice.drop ++ w.spelling.takeEnd splice.drop = w.spelling
  /-- Each character that is cut, lowered on its own, is the one letter at its place. -/
  lower_cut : ∀ splice ∈ rule.paradigm.toList,
    (w.spelling.takeEnd splice.drop).map (fun x => lower [x]) =
      (w.letters.takeEnd splice.drop).map fun c => [c]
  /-- With another letter at a place that is cut, the guard decides otherwise. -/
  looksAt : ∀ splice ∈ rule.paradigm.toList, ∀ i < splice.drop, rule.guard.LooksAt w i

/-- **No fired rule cuts past the start of a word, and each cuts the letters that its guard looked
at.** -/
theorem cutsOwnLetters_of_declension {w : Word} {s : RuleSet} {id : RuleId}
    (h : (w.declension s).rule = some id) :
    ∃ rule, id.rule? = some rule ∧ rule.CutsOwnLetters w := by
  obtain ⟨rule, hmem, hrule, hpasses, -⟩ := Word.exists_rule_of_declension h
  have audited : rule.CutsCyrillic := s.cutsCyrillic rule hmem
  obtain ⟨q, d, hspelling, hlen, hd⟩ := audited.exists_tail hpasses
  have reach_le : rule.reach ≤ w.spellingLength := by
    rw [Word.spellingLength, hspelling, List.length_append, hlen]
    exact Nat.le_add_left _ _
  refine ⟨rule, hrule, ?_, ?_, ?_, ?_, ?_⟩
  · exact Nat.le_trans (Nat.le_max_right _ _) reach_le
  · intro splice hsplice
    exact ⟨Nat.le_trans (Rule.drop_le_reach hsplice) reach_le,
      Nat.le_trans (Paradigm.drop_le_maxDrop hsplice) audited.1⟩
  · exact fun splice _ => Text.dropEnd_append_takeEnd w.spelling splice.drop
  · intro splice hsplice
    rw [Word.letters, hspelling]
    exact lower_takeEnd_eq (Text.ne_nil_of_length_eq_reach hlen) hd
      (hlen ▸ Rule.drop_le_reach hsplice)
  · intro splice hsplice i hi
    have pinned := audited.2.1 i (Nat.lt_of_lt_of_le hi (Rule.drop_le_reach hsplice))
    -- any small letter of another script would do
    have z_small : IsSmall 'z' := by decide +kernel
    exact Guard.looksAt_of_pins pinned hpasses z_small (by decide)

/-- The last two characters of this surname are capitals, and the rule for -ой cuts both. -/
theorem cutsOwnLetters_tolstoy :
    ((⟨"ТолстОЙ".toList, by decide⟩ : Word).declension .maleSurname).rule =
        some ⟨.maleSurname, 1⟩ ∧
      ∃ rule, (⟨.maleSurname, 1⟩ : RuleId).rule? = some rule ∧
        rule.CutsOwnLetters ⟨"ТолстОЙ".toList, by decide⟩ := by
  have fired : ((⟨"ТолстОЙ".toList, by decide⟩ : Word).declension .maleSurname).rule =
      some ⟨.maleSurname, 1⟩ := by decide +kernel
  exact ⟨fired, cutsOwnLetters_of_declension fired⟩

end NameDeclension
