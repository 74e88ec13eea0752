/-
# NameDeclension.Proofs.Declension.Trace — the rule that a declension names is the one that made it

A declension comes with the name of a rule. A reader who looks the name up finds the first rule of the
set whose guard the word passes (`RuleId.IsFirstFor`), and its paradigm makes the forms. The name is
left out when there is no such rule, and then the forms are the spelling. `declension?_outcome` says so
for every way in which a declension can turn out, the empty text included, which is the only one that
has none.
-/
import NameDeclension.Proofs.Rules.Firing

namespace NameDeclension

/-! ## The first rule for a word -/

/-- A rule fires if and only if the word passes its guard and none of those above it. -/
theorem Rule.firesAt_iff_getElem? {w : Word} {rules : List Rule} {n : Nat} :
    FiresAt w rules n ↔ ∃ rule, rules[n]? = some rule ∧ rule.guard.passes w = true ∧
      ∀ i < n, ∀ above, rules[i]? = some above → above.guard.passes w = false := by
  induction rules generalizing n with
  | nil => simp [FiresAt]
  | cons first rules ih =>
    cases n with
    | zero => simp [FiresAt]
    | succ n =>
      rw [FiresAt, ih, List.getElem?_cons_succ]
      constructor
      · rintro ⟨skipped, rule, hrule, hpasses, fails⟩
        refine ⟨rule, hrule, hpasses, ?_⟩
        intro i hi above habove
        cases i with
        | zero =>
          obtain rfl := Option.some.inj habove
          exact skipped
        | succ i => exact fails i (Nat.lt_of_succ_lt_succ hi) above habove
      · rintro ⟨rule, hrule, hpasses, fails⟩
        refine ⟨fails 0 (Nat.zero_lt_succ n) first rfl, rule, hrule, hpasses, ?_⟩
        exact fun i hi => fails (i + 1) (Nat.succ_lt_succ hi)

/-- **`id.IsFirstFor w rule`** — the rule is the one of that name, the word passes its guard, and it
passes that of no rule of the set with a smaller number. -/
structure RuleId.IsFirstFor (id : RuleId) (w : Word) (rule : Rule) : Prop where
  rule?_eq : id.rule? = some rule
  passes : rule.guard.passes w = true
  fails_above : ∀ i < id.index, ∀ above, RuleId.rule? ⟨id.ruleSet, i⟩ = some above →
    above.guard.passes w = false

theorem RuleId.isFirstFor_iff {id : RuleId} {w : Word} {rule : Rule} :
    id.IsFirstFor w rule ↔
      id.rule? = some rule ∧ Rule.FiresAt w id.ruleSet.rules id.index.toNat := by
  rw [Rule.firesAt_iff_getElem?]
  constructor
  · intro h
    refine ⟨h.rule?_eq, rule, h.rule?_eq, h.passes, ?_⟩
    intro i hi above habove
    -- a place above one that has a number has a number too
    have toNat_eq : i.toUInt64.toNat = i := by
      rw [Nat.toUInt64, UInt64.toNat_ofNat_of_lt' (Nat.lt_trans hi id.index.toNat_lt)]
    refine h.fails_above i.toUInt64 ?_ above ?_
    · rwa [UInt64.lt_iff_toNat_lt, toNat_eq]
    · rwa [rule?, toNat_eq]
  · rintro ⟨hid, rule', hrule, hpasses, fails⟩
    obtain rfl : rule = rule' := Option.some.inj (hid.symm.trans hrule)
    refine ⟨hid, hpasses, ?_⟩
    intro i hi above habove
    exact fails i.toNat (UInt64.lt_iff_toNat_lt.mp hi) above habove

/-! ## The declension of a word -/

namespace Word

variable {w : Word} {s : RuleSet} {forms : Forms}

theorem declension_eq_some_iff {id : RuleId} :
    w.declension s = ⟨forms, some id⟩ ↔
      id.ruleSet = s ∧ ∃ rule, id.IsFirstFor w rule ∧ forms = rule.paradigm.forms w := by
  constructor
  · intro h
    have named : (w.declension s).rule = some id := by rw [h]
    obtain ⟨rfl, fires⟩ := declension_rule_eq_some_iff.mp named
    obtain ⟨rule, -, hrule, -, hforms⟩ := exists_rule_of_declension named
    rw [h] at hforms
    exact ⟨rfl, rule, RuleId.isFirstFor_iff.mpr ⟨hrule, fires⟩, hforms⟩
  · rintro ⟨rfl, rule, first, rfl⟩
    obtain ⟨hrule, fires⟩ := RuleId.isFirstFor_iff.mp first
    rw [declension_of_firesAt hrule fires, Nat.toUInt64, UInt64.ofNat_toNat]

theorem declension_eq_none_iff :
    w.declension s = ⟨forms, none⟩ ↔
      (∀ rule ∈ s.rules, rule.guard.passes w = false) ∧ forms = Forms.unchanged w.spelling := by
  rw [← Rule.forall_not_firesAt_iff]
  constructor
  · intro h
    have unnamed : (w.declension s).rule = none := by rw [h]
    have none_fires := declension_rule_eq_none_iff.mp unnamed
    rw [declension_of_forall_not_firesAt none_fires] at h
    exact ⟨none_fires, (congrArg Declension.forms h).symm⟩
  · rintro ⟨none_fires, rfl⟩
    exact declension_of_forall_not_firesAt none_fires

end Word

/-! ## The declension of a text -/

theorem declension?_eq_error_iff {name : Text} {s : RuleSet} {e : DeclensionError} :
    declension? name s = .error e ↔ name = [] ∧ e = .invalidWord .empty := by
  cases name with
  | nil =>
    have refused : declension? [] s = .error (.invalidWord .empty) := rfl
    simp [refused]
  | cons c rest =>
    have declined : declension? (c :: rest) s =
        .ok (Word.declension ⟨c :: rest, List.cons_ne_nil c rest⟩ s) := rfl
    simp [declined]

/-- The forms of a text are those of its declension, and an error is the same. -/
theorem forms?_eq_ok_iff {name : Text} {s : RuleSet} {forms : Forms} :
    forms? name s = .ok forms ↔ ∃ rule, declension? name s = .ok ⟨forms, rule⟩ := by
  rw [forms?]
  cases declension? name s with
  | error e => simp [Except.map]
  | ok d =>
    obtain ⟨made, rule⟩ := d
    simp [Except.map]

theorem forms?_eq_error_iff {name : Text} {s : RuleSet} {e : DeclensionError} :
    forms? name s = .error e ↔ declension? name s = .error e := by
  rw [forms?]
  cases declension? name s <;> simp [Except.map]

/-- **All that can come of declining a text.** A declension names a rule exactly when that is the
first rule of the set for the word, and the forms are what its paradigm makes of it. It names none
exactly when the word passes no guard of the set, and every form is the spelling. The forms alone are
the same ones. Only the empty text has neither. -/
theorem declension?_outcome (s : RuleSet) :
    (∀ (w : Word) forms id, declension? w.spelling s = .ok ⟨forms, some id⟩ ↔
      id.ruleSet = s ∧ ∃ rule, id.IsFirstFor w rule ∧ forms = rule.paradigm.forms w) ∧
    (∀ (w : Word) forms, declension? w.spelling s = .ok ⟨forms, none⟩ ↔
      (∀ rule ∈ s.rules, rule.guard.passes w = false) ∧ forms = Forms.unchanged w.spelling) ∧
    ∀ name,
      (∀ forms, forms? name s = .ok forms ↔ ∃ rule, declension? name s = .ok ⟨forms, rule⟩) ∧
      (∀ e, declension? name s = .error e ↔ name = [] ∧ e = .invalidWord .empty) ∧
      (∀ e, forms? name s = .error e ↔ name = [] ∧ e = .invalidWord .empty) := by
  refine ⟨?_, ?_, ?_⟩
  · intro w forms id
    rw [declension?_spelling, Except.ok.injEq, Word.declension_eq_some_iff]
  · intro w forms
    rw [declension?_spelling, Except.ok.injEq, Word.declension_eq_none_iff]
  · intro name
    refine ⟨fun _ => forms?_eq_ok_iff, fun _ => declension?_eq_error_iff, fun _ => ?_⟩
    rw [forms?_eq_error_iff, declension?_eq_error_iff]

end NameDeclension
