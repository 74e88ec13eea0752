/-
# NameDeclension.Proofs.Pattern.Joining — reading two texts written one after the other

A text that is read with nothing left over has settled all its slots: more text behind it moves none
of their borders, and no class of it is open that the new text could close. What it may leave open is
one sign. Bangs at its end have found no slot to negate, so they go to the first slot of what follows
(`ReadsAs.exists_bangs`). Whether there are such bangs is seen at the last character, for no written
form of a slot ends with a bang (`getLast?_append_bangs`). `parse_append` joins the two.
-/
import NameDeclension.Proofs.Pattern.Grammar

namespace NameDeclension

namespace Slot

/-! ## The last character -/

/-- A written form ends with what the slot takes: a hyphen, a letter or the end of a class. -/
theorem WrittenAs.exists_getLast? {slot : Slot} {piece : Text} (h : slot.WrittenAs piece) :
    ∃ c, piece.getLast? = some c ∧ c ≠ '!' := by
  cases h with
  | wildcard n => exact ⟨'-', List.getLast?_concat, by decide⟩
  | @literal n letter plain =>
    exact ⟨letter, List.getLast?_concat, (not_mem_special_iff.mp plain).2.2.1⟩
  | oneOf n plain => exact ⟨']', List.getLast?_concat, by decide⟩

/-- So does a row of written forms. -/
theorem getLast?_flatten_ne_bang {slots : List Slot} {pieces : List Text}
    (h : List.Forall₂ WrittenAs slots pieces) : pieces.flatten.getLast? ≠ some '!' := by
  induction h with
  | nil => simp
  | @cons slot piece slots pieces hpiece _ ih =>
    obtain ⟨c, last, other⟩ := hpiece.exists_getLast?
    rw [List.flatten_cons, List.getLast?_append]
    -- the last character is that of the other pieces, or of this one if there is none
    cases hrest : pieces.flatten.getLast? with
    | none => simpa [last] using other
    | some d => simpa [hrest] using ih

/-- **A text read to its end ends with a bang exactly when bangs are left over behind its slots.** -/
theorem getLast?_append_bangs {slots : List Slot} {pieces : List Text}
    (h : List.Forall₂ WrittenAs slots pieces) (n : Nat) :
    (pieces.flatten ++ bangs n).getLast? = some '!' ↔ 0 < n := by
  cases n with
  | zero => simpa [bangs] using getLast?_flatten_ne_bang h
  | succ n => simp [bangs, List.replicate_succ', ← List.append_assoc]

/-! ## Reading on -/

/-- Bangs in front of a text are one bang or none. -/
theorem parse_bangs_append (n : Nat) (t : Text) :
    parse (bangs n ++ t) = if 0 < n then parse ('!' :: t) else parse t := by
  cases n with
  | zero => rfl
  | succ n =>
    have some_bang : (false || decide (0 < n + 1)) = true := by simp
    rw [if_pos n.succ_pos, parse, read_bangs_append, some_bang, parse, read, if_pos rfl]

/-- **Behind complete slots reading starts anew**, with the bangs that have negated nothing yet. -/
theorem ReadsAs.exists_bangs {a : Text} {slots : List Slot} (h : ReadsAs a slots []) (b : Text) :
    ∃ n, (a.getLast? = some '!' ↔ 0 < n) ∧
      parse (a ++ b) = (slots ++ (parse (bangs n ++ b)).1, (parse (bangs n ++ b)).2) := by
  obtain ⟨pieces, n, rfl, hpieces, -⟩ := h
  rw [List.append_nil]
  refine ⟨n, getLast?_append_bangs hpieces n, ?_⟩
  rw [List.append_assoc, parse, read_flatten_append hpieces, parse]

/-- **Reading is compositional.** Behind a text that is read to its end as some slots, any other text is
read as if it stood alone, unless the first one ends with a bang. Then the other is read as if that
bang stood before it, where it negates the first slot unless this leaves its letter open. -/
theorem parse_append {a : Text} {slots : List Slot} (whole : parse a = (slots, [])) (b : Text) :
    (a.getLast? ≠ some '!' → parse (a ++ b) = (slots ++ (parse b).1, (parse b).2)) ∧
      (a.getLast? = some '!' →
        parse (a ++ b) = (slots ++ (parse ('!' :: b)).1, (parse ('!' :: b)).2)) := by
  obtain ⟨n, last, joined⟩ := (parse_eq_iff.mp whole).exists_bangs b
  rw [joined, parse_bangs_append]
  constructor
  · intro other
    rw [if_neg fun pos => other (last.mpr pos)]
  · intro bang
    rw [if_pos (last.mp bang)]

/-- A class that is closed stays as it is; a bang left over negates the class that follows, and what
is left over of the second text is left over of both. -/
theorem parse_append_classes :
    (parse "![жч]-".toList = ([oneOf ['ж', 'ч'] true, wildcard], []) ∧
      "![жч]-".toList.getLast? ≠ some '!' ∧
      parse ("![жч]-".toList ++ "а]".toList) =
        ([oneOf ['ж', 'ч'] true, wildcard, literal 'а' false], "]".toList)) ∧
    (parse "[о!е]!!".toList = ([oneOf ['о', 'е'] false], []) ∧
      "[о!е]!!".toList.getLast? = some '!' ∧
      parse ("[о!е]!!".toList ++ "[в]-[".toList) =
        ([oneOf ['о', 'е'] false, oneOf ['в'] true, wildcard], "[".toList)) := by
  have plain : parse "![жч]-".toList = ([oneOf ['ж', 'ч'] true, wildcard], []) := rfl
  have bangs : parse "[о!е]!!".toList = ([oneOf ['о', 'е'] false], []) := rfl
  exact ⟨⟨plain, by decide, (parse_append plain "а]".toList).1 (by decide)⟩,
    bangs, by decide, (parse_append bangs "[в]-[".toList).2 (by decide)⟩

end Slot

end NameDeclension
