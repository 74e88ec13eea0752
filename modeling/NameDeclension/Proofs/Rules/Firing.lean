/-
# NameDeclension.Proofs.Rules.Firing — which rule of a table fires

A table is a cascade: the first rule whose guard a word passes decides. `FiresAt` says so by
recursion over the list of rules, without the search that the program makes, and is proved to be what
that search finds. A statement about the declension of a word then splits into one about `FiresAt`,
which unfolds to the verdicts of the guards in order, and one about the paradigm of the rule.
-/
import NameDeclension.Declension

namespace NameDeclension

namespace Rule

/-! ## The first rule that applies -/

/-- **`FiresAt w rules n`** — the rule at the place `n` of the list is the first one whose guard the
word passes. -/
def FiresAt (w : Word) : List Rule → Nat → Prop
  | [], _ => False
  | rule :: _, 0 => rule.guard.passes w = true
  | rule :: rules, n + 1 => rule.guard.passes w = false ∧ FiresAt w rules n

variable {w : Word} {rules : List Rule} {rule : Rule} {n : Nat}

theorem FiresAt.passes (h : FiresAt w rules n) :
    ∃ rule, rules[n]? = some rule ∧ rule.guard.passes w = true := by
  induction rules generalizing n with
  | nil => exact absurd h id
  | cons first rules ih =>
    cases n with
    | zero => exact ⟨first, rfl, h⟩
    | succ n => exact ih h.2

/-- Words that pass the same guards of a list get the same rule of it. -/
theorem firesAt_iff_of_passes {u v : Word}
    (h : ∀ rule ∈ rules, rule.guard.passes u = rule.guard.passes v) (n : Nat) :
    FiresAt u rules n ↔ FiresAt v rules n := by
  induction rules generalizing n with
  | nil => exact Iff.rfl
  | cons first rules ih =>
    rw [List.forall_mem_cons] at h
    cases n with
    | zero => rw [FiresAt, FiresAt, h.1]
    | succ n => rw [FiresAt, FiresAt, h.1, ih h.2]

/-- Some rule fires unless the word passes no guard at all. -/
theorem forall_not_firesAt_iff :
    (∀ n, ¬ FiresAt w rules n) ↔ ∀ rule ∈ rules, rule.guard.passes w = false := by
  induction rules with
  | nil => simp [FiresAt]
  | cons first rules ih =>
    rw [List.forall_mem_cons, ← ih]
    constructor
    · intro h
      -- the first guard is the one asked for at the place 0
      have skipped : first.guard.passes w = false := Bool.eq_false_iff.mpr (h 0)
      exact ⟨skipped, fun n hn => h (n + 1) ⟨skipped, hn⟩⟩
    · rintro ⟨skipped, later⟩ n
      cases n with
      | zero => exact Bool.eq_false_iff.mp skipped
      | succ n => exact fun hn => later n hn.2

/-- The search over a numbered list, with the numbers starting anywhere. -/
theorem find?_zipIdx_eq_some_iff (k : Nat) :
    ((rules.zipIdx k).find? fun entry => entry.1.guard.passes w) = some (rule, k + n) ↔
      rules[n]? = some rule ∧ FiresAt w rules n := by
  induction rules generalizing k n with
  | nil => simp [FiresAt]
  | cons first rules ih =>
    rw [List.zipIdx_cons, List.find?_cons]
    cases hfirst : first.guard.passes w with
    | true =>
      cases n with
      | zero => simp [FiresAt, hfirst]
      | succ n => simp [FiresAt, hfirst]
    | false =>
      cases n with
      | zero =>
        -- the search goes on behind `k`, so it cannot answer `k`
        have behind : ∀ entry ∈ rules.zipIdx (k + 1), k < entry.2 := by
          intro entry hentry
          exact List.le_snd_of_mem_zipIdx hentry
        simp only [FiresAt, hfirst, Bool.false_eq_true, and_false, iff_false]
        intro hfound
        exact absurd (behind _ (List.mem_of_find?_eq_some hfound)) (by simp)
      | succ n =>
        have shift : k + (n + 1) = (k + 1) + n := by omega
        simp only [FiresAt, hfirst, true_and, List.getElem?_cons_succ, shift]
        exact ih (k + 1)

/-- **The search finds exactly the rule that fires.** -/
theorem firstFor?_eq_some_iff :
    firstFor? rules w = some (rule, n) ↔ rules[n]? = some rule ∧ FiresAt w rules n := by
  have h := @find?_zipIdx_eq_some_iff w rules rule n 0
  rwa [Nat.zero_add] at h

end Rule

/-! ## The rule of a declension -/

theorem RuleSet.length_rules_lt (s : RuleSet) : s.rules.length < UInt64.size := by
  cases s <;> decide

namespace Word

open Rule

variable {w : Word} {s : RuleSet} {id : RuleId}

theorem declension_of_firesAt {rule : Rule} {n : Nat} (hrule : s.rules[n]? = some rule)
    (h : FiresAt w s.rules n) : w.declension s = ⟨rule.paradigm.forms w, some ⟨s, n.toUInt64⟩⟩ := by
  rw [declension, firstFor?_eq_some_iff.mpr ⟨hrule, h⟩]

theorem declension_of_forall_not_firesAt (h : ∀ n, ¬ FiresAt w s.rules n) :
    w.declension s = ⟨Forms.unchanged w.spelling, none⟩ := by
  have none_found := (firstFor?_eq_none_iff s.rules w).mpr (forall_not_firesAt_iff.mp h)
  rw [declension, none_found]

/-- **A declension names the rule of its set that fires.** -/
theorem declension_rule_eq_some_iff :
    (w.declension s).rule = some id ↔ id.ruleSet = s ∧ FiresAt w s.rules id.index.toNat := by
  by_cases none_fires : ∀ n, ¬ FiresAt w s.rules n
  · rw [declension_of_forall_not_firesAt none_fires]
    simp [none_fires]
  · obtain ⟨n, hn⟩ := Classical.not_forall_not.mp none_fires
    obtain ⟨rule, hrule, -⟩ := hn.passes
    rw [declension_of_firesAt hrule hn, Option.some.injEq]
    have small : n < UInt64.size :=
      Nat.lt_trans (List.getElem?_eq_some_iff.mp hrule).1 s.length_rules_lt
    have toNat_eq : n.toUInt64.toNat = n := by
      rw [Nat.toUInt64, UInt64.toNat_ofNat_of_lt' small]
    constructor
    · rintro rfl
      exact ⟨rfl, by rwa [toNat_eq]⟩
    · rintro ⟨rfl, hid⟩
      -- only one rule can fire, so the two places agree
      obtain ⟨rule', hrule', -⟩ := hid.passes
      have found := firstFor?_eq_some_iff.mpr ⟨hrule', hid⟩
      rw [firstFor?_eq_some_iff.mpr ⟨hrule, hn⟩] at found
      have same : n = id.index.toNat := (Prod.mk.inj (Option.some.inj found)).2
      cases id with
      | mk ruleSet index =>
        simp only [RuleId.mk.injEq, true_and]
        exact UInt64.toNat_inj.mp (by rw [toNat_eq, same])

theorem declension_rule_eq_none_iff :
    (w.declension s).rule = none ↔ ∀ n, ¬ FiresAt w s.rules n := by
  constructor
  · intro h n hn
    obtain ⟨rule, hrule, -⟩ := hn.passes
    rw [declension_of_firesAt hrule hn] at h
    exact absurd h (Option.some_ne_none _)
  · intro h
    rw [declension_of_forall_not_firesAt h]

/-- Words that pass the same guards of a set get the same rule. -/
theorem declension_rule_eq_of_passes {u v : Word}
    (h : ∀ rule ∈ s.rules, rule.guard.passes u = rule.guard.passes v) :
    (u.declension s).rule = (v.declension s).rule := by
  apply Option.ext
  intro id
  rw [declension_rule_eq_some_iff, declension_rule_eq_some_iff, firesAt_iff_of_passes h]

theorem declension_eq_unchanged_iff :
    w.declension s = ⟨Forms.unchanged w.spelling, none⟩ ↔ ∀ n, ¬ FiresAt w s.rules n := by
  refine ⟨fun h => ?_, declension_of_forall_not_firesAt⟩
  rw [← declension_rule_eq_none_iff, h]

/-- **`w.DecidedBy s condition`** — a condition for each place of the table decides how the set
declines the word: the rule that fires is the one whose condition holds, and with none the word stays
as it is. -/
structure DecidedBy (w : Word) (s : RuleSet) (condition : Nat → Prop) : Prop where
  /-- The declension names the rule whose condition holds. -/
  rule_eq_some_iff : ∀ id, (w.declension s).rule = some id ↔
    id.ruleSet = s ∧ condition id.index.toNat
  /-- The forms are all the spelling, and no rule is named, when no condition holds. -/
  eq_unchanged_iff : w.declension s = ⟨Forms.unchanged w.spelling, none⟩ ↔ ∀ n, ¬ condition n

/-- It is enough to know when each rule of the table fires. -/
theorem decidedBy_of_firesAt_iff {condition : Nat → Prop}
    (h : ∀ n, FiresAt w s.rules n ↔ condition n) : w.DecidedBy s condition where
  rule_eq_some_iff id := by
    rw [declension_rule_eq_some_iff, h]
  eq_unchanged_iff := by
    rw [declension_eq_unchanged_iff]
    exact forall_congr' fun n => not_congr (h n)

/-- **The rule that a declension names exists**, the word passes its guard, and its paradigm gave the
forms. -/
theorem exists_rule_of_declension (h : (w.declension s).rule = some id) :
    ∃ rule ∈ s.rules, id.rule? = some rule ∧ rule.guard.passes w = true ∧
      (w.declension s).forms = rule.paradigm.forms w := by
  obtain ⟨rfl, hfires⟩ := declension_rule_eq_some_iff.mp h
  obtain ⟨rule, hrule, hpasses⟩ := hfires.passes
  refine ⟨rule, List.mem_of_getElem? hrule, hrule, hpasses, ?_⟩
  rw [declension_of_firesAt hrule hfires]

/-- **All that a declension can be**: the forms of a rule of the set whose guard the word passes, or
the word as it is. -/
theorem declension_cases (w : Word) (s : RuleSet) :
    (∃ rule ∈ s.rules, ∃ id, rule.guard.passes w = true ∧
        w.declension s = ⟨rule.paradigm.forms w, some id⟩) ∨
      w.declension s = ⟨Forms.unchanged w.spelling, none⟩ := by
  by_cases none_fires : ∀ n, ¬ FiresAt w s.rules n
  · exact Or.inr (declension_of_forall_not_firesAt none_fires)
  · left
    obtain ⟨n, hn⟩ := Classical.not_forall_not.mp none_fires
    obtain ⟨rule, hrule, hpasses⟩ := hn.passes
    exact ⟨rule, List.mem_of_getElem? hrule, _, hpasses, declension_of_firesAt hrule hn⟩

/-- Two words that get the same rule pass its guard and follow its paradigm, or neither changes. -/
theorem forms_cases_of_rule_eq {u v : Word} (h : (u.declension s).rule = (v.declension s).rule) :
    (∃ rule ∈ s.rules, rule.guard.passes u = true ∧ rule.guard.passes v = true ∧
        (u.declension s).forms = rule.paradigm.forms u ∧
        (v.declension s).forms = rule.paradigm.forms v) ∨
      ((u.declension s).forms = Forms.unchanged u.spelling ∧
        (v.declension s).forms = Forms.unchanged v.spelling) := by
  cases hv : (v.declension s).rule with
  | none =>
    right
    rw [declension_of_forall_not_firesAt (declension_rule_eq_none_iff.mp (h.trans hv)),
      declension_of_forall_not_firesAt (declension_rule_eq_none_iff.mp hv)]
    exact ⟨rfl, rfl⟩
  | some id =>
    left
    obtain ⟨rule, hmem, hid, hpasses, hforms⟩ := exists_rule_of_declension hv
    obtain ⟨rule', -, hid', hpasses', hforms'⟩ := exists_rule_of_declension (h.trans hv)
    -- both names are `id`, so both rules are the one it names
    obtain rfl : rule = rule' := Option.some.inj (hid.symm.trans hid')
    exact ⟨rule, hmem, hpasses', hpasses, hforms', hforms⟩

end Word

end NameDeclension
