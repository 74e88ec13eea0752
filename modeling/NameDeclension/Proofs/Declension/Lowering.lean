/-
# NameDeclension.Proofs.Declension.Lowering — declension commutes with lowering

Rules are chosen by the letters of a word, so a word and its small spelling get the same rule. Their
forms differ in capitals only, but this is not for free: an ending is cut from one spelling and from
the other, which may differ in length, and what is added may change whether a sigma further left is
final. Neither happens, because a rule reaches only Cyrillic characters (`Rule.CutsCyrillic`): they
are lowered one by one, and with any of them at the end the rest of the name is the same stem.
-/
import NameDeclension.Proofs.Guard.Lowering
import NameDeclension.Proofs.Rules.Cuts

namespace NameDeclension

open Lettercase

/-! ## The rule -/

/-- **The letters of a word choose its rule.** -/
theorem Word.declension_rule_congr {u v : Word} (h : u.letters = v.letters) (s : RuleSet) :
    (u.declension s).rule = (v.declension s).rule := by
  apply Word.declension_rule_eq_of_passes
  intro rule _
  exact Guard.passes_congr h rule.guard

/-! ## The forms -/

/-- An ending put on a word whose end is Cyrillic as far as the ending cuts, and one letter more
unless it adds letters of its own. -/
theorem Splice.lower_apply {splice : Splice} {w : Word} {q d : Text} (hspelling : w.spelling = q ++ d)
    (hne : d ≠ []) (hd : ∀ x ∈ d, isCyrillic x = true) (hdrop : splice.drop ≤ d.length)
    (hending : ∀ c ∈ splice.ending, isCyrillicSmall c = true)
    (keeps : splice.drop < d.length ∨ splice.ending ≠ []) :
    lower (splice.apply w) = splice.apply w.lowered := by
  let kept := d.dropEnd splice.drop
  have result_ne_nil : kept ++ splice.ending ≠ [] := by
    rcases keeps with shorter | adds
    · refine List.append_ne_nil_of_left_ne_nil (List.ne_nil_of_length_pos ?_) _
      rw [Text.length_dropEnd]
      omega
    · exact List.append_ne_nil_of_right_ne_nil _ adds
  have result_cyrillic : ∀ c ∈ kept ++ splice.ending, isCyrillic c = true := by
    intro c hc
    rcases List.mem_append.mp hc with hkept | hadded
    · exact hd c (List.mem_of_mem_take hkept)
    · exact isCyrillic_of_small (hending c hadded)
  have ending_small : splice.ending.map simpleLower = splice.ending :=
    map_simpleLower_of_isCyrillicSmall hending
  have hdrop' : splice.drop ≤ (d.map simpleLower).length := by rwa [List.length_map]
  calc lower (splice.apply w)
      = lower (q ++ (kept ++ splice.ending)) := by
        rw [apply, Word.truncated, hspelling, Text.dropEnd_append hdrop, List.append_assoc]
    _ = stem q ++ (kept.map simpleLower ++ splice.ending) := by
        rw [lower_append_cyrillic result_ne_nil result_cyrillic, List.map_append, ending_small]
    _ = (stem q ++ d.map simpleLower).dropEnd splice.drop ++ splice.ending := by
        rw [Text.dropEnd_append hdrop', Text.dropEnd_map, List.append_assoc]
    _ = splice.apply w.lowered := by
        rw [apply, Word.truncated, Word.spelling_lowered, hspelling, lower_append_cyrillic hne hd]

/-- The forms of an audited rule, for a word that passes its guard. -/
theorem Rule.CutsCyrillic.forms_lowered {rule : Rule} {w : Word} (audited : rule.CutsCyrillic)
    (h : rule.guard.passes w = true) :
    rule.paradigm.forms w.lowered = (rule.paradigm.forms w).map lower := by
  obtain ⟨q, d, hspelling, hlen, hd⟩ := audited.exists_tail h
  rw [Paradigm.forms, Paradigm.forms, Oblique.map_map]
  apply Oblique.map_congr
  intro splice hsplice
  obtain ⟨hending, keeps⟩ := audited.2.2 splice hsplice
  refine (Splice.lower_apply hspelling (Text.ne_nil_of_length_eq_reach hlen) hd ?_ ?_ ?_).symm
  · exact hlen ▸ Rule.drop_le_reach hsplice
  · exact List.all_eq_true.mp hending
  · exact hlen ▸ keeps

/-- **Declension commutes with lowering.** The small spelling of a word is a word. It gets the rule
that the word gets, or none where the word gets none, and each of its forms is the small form of
the word's. -/
theorem declension_lower (w : Word) (s : RuleSet) :
    ∃ v : Word, Word.ofText? (lower w.spelling) = .ok v ∧
      (v.declension s).rule = (w.declension s).rule ∧
      (v.declension s).forms = (w.declension s).forms.map lower := by
  have same_rule : (w.lowered.declension s).rule = (w.declension s).rule :=
    Word.declension_rule_congr w.letters_lowered s
  refine ⟨w.lowered, Word.ofText?_spelling w.lowered, same_rule, ?_⟩
  cases hrule : (w.declension s).rule with
  | none =>
    rw [Word.declension_of_forall_not_firesAt (Word.declension_rule_eq_none_iff.mp hrule),
      Word.declension_of_forall_not_firesAt
        (Word.declension_rule_eq_none_iff.mp (same_rule.trans hrule))]
    rfl
  | some id =>
    obtain ⟨rule, hmem, hid, hpasses, hforms⟩ := Word.exists_rule_of_declension hrule
    obtain ⟨rule', -, hid', -, hforms'⟩ := Word.exists_rule_of_declension (same_rule.trans hrule)
    -- both names are `id`, so both rules are the one it names
    obtain rfl : rule = rule' := Option.some.inj (hid.symm.trans hid')
    rw [hforms, hforms', (s.cutsCyrillic rule hmem).forms_lowered hpasses]

end NameDeclension
