/-
# NameDeclension.Proofs.Lettercase.Cyrillic — a Cyrillic end is lowered letter by letter

Lowering is neither local nor keeps lengths: a sigma looks at its neighbours, and the dotted capital
I becomes two characters. At the end of a name this cannot be seen. A Cyrillic letter is cased, so
the sigmas before it only learn that a letter follows (`stem`), and each Cyrillic letter comes from
one Cyrillic letter by the map of single letters.

* `lower_append_cyrillic` — a text with a Cyrillic end is lowered as its stem and, letter by letter,
  that end. Which Cyrillic letters they are does not matter to the stem.
* `exists_cyrillic_tail` — the converse: if the last letters of a lowered text are Cyrillic, the text
  itself ends with as many Cyrillic characters.
-/
import NameDeclension.Proofs.Ends
import NameDeclension.Proofs.Lettercase.Small

namespace NameDeclension.Lettercase

open NameDeclension.Text (fromEnd?_append_length fromEnd?_concat)

/-! ## Cyrillic letters -/

/-- A letter of the basic Cyrillic alphabets, capital (below 0x430) or small. -/
def isCyrillic (c : Char) : Bool := 0x400 ≤ c.toNat && c.toNat ≤ 0x45F

/-- A small letter of the basic Cyrillic alphabets. -/
def isCyrillicSmall (c : Char) : Bool := 0x430 ≤ c.toNat && c.toNat ≤ 0x45F

theorem isCyrillic_iff (c : Char) : isCyrillic c = true ↔ 0x400 ≤ c.toNat ∧ c.toNat ≤ 0x45F := by
  simp [isCyrillic]

theorem isCyrillic_of_small {c : Char} (h : isCyrillicSmall c = true) : isCyrillic c = true := by
  simp only [isCyrillicSmall, Bool.and_eq_true, decide_eq_true_eq] at h
  rw [isCyrillic_iff]
  omega

/-- No capital of the table is a small Cyrillic letter. -/
theorem isSmall_of_isCyrillicSmall {c : Char} (h : isCyrillicSmall c = true) : IsSmall c := by
  have table : (capitalRuns.all fun run => Nat.blt run.last 0x430 || Nat.blt 0x45F run.first)
      = true := by decide +kernel
  simp only [isCyrillicSmall, Bool.and_eq_true, decide_eq_true_eq] at h
  apply isSmall_of_capitalImage?_eq_none
  · show (capitalRuns.findSome? fun run => run.image? c.toNat) = none
    rw [List.findSome?_eq_none_iff]
    intro run hrun
    rw [Option.eq_none_iff_forall_ne_some]
    intro m hm
    have outside := List.all_eq_true.mp table run hrun
    simp only [Bool.or_eq_true, Nat.blt_eq] at outside
    obtain ⟨hfirst, hlast, -⟩ := (Run.image?_eq_some_iff run c.toNat m).mp hm
    omega
  · rintro rfl
    exact absurd h (by decide)

theorem ne_sigma_of_isCyrillic {c : Char} (h : isCyrillic c = true) : c ≠ 'Σ' := by
  rintro rfl
  exact absurd h (by decide)

theorem ne_dotted_of_isCyrillic {c : Char} (h : isCyrillic c = true) : c ≠ '\u0130' := by
  rintro rfl
  exact absurd h (by decide)

theorem lowerAt_of_isCyrillic {c : Char} (h : isCyrillic c = true) (left right : Text) :
    lowerAt left c right = [simpleLower c] := by
  rw [lowerAt, if_neg (ne_sigma_of_isCyrillic h), lowerChar_eq (ne_dotted_of_isCyrillic h)]

/-- Only Cyrillic letters have a Cyrillic small form. -/
theorem isCyrillic_of_simpleLower {c : Char} (h : isCyrillic (simpleLower c) = true) :
    isCyrillic c = true := by
  have table : (capitalRuns.all fun run =>
      Nat.blt (run.target + (run.last - run.first)) 0x400 || Nat.blt 0x45F run.target ||
        (Nat.ble 0x400 run.first && Nat.ble run.last 0x45F)) = true := by decide +kernel
  unfold simpleLower at h
  cases himage : capitalImage? c.toNat with
  | none =>
    rw [himage] at h
    exact h
  | some m =>
    rw [himage] at h
    obtain ⟨valid, -⟩ := capitalImage?_spec himage
    obtain ⟨run, hrun, hm⟩ := List.exists_of_findSome?_eq_some himage
    have place := List.all_eq_true.mp table run hrun
    simp only [Bool.or_eq_true, Bool.and_eq_true, Nat.blt_eq, Nat.ble_eq] at place
    obtain ⟨hfirst, hlast, -, rfl⟩ := (Run.image?_eq_some_iff run c.toNat m).mp hm
    simp only [isCyrillic_iff, toNat_ofNat valid] at h
    rw [isCyrillic_iff]
    omega

/-- A Cyrillic letter is a neighbour that counts: it is cased and not looked through. -/
theorem leadsCased_cons_of_isCyrillic {c : Char} (h : isCyrillic c = true) (t : Text) :
    leadsCased (c :: t) = true := by
  have apart : (ignorableRanges.all fun r => Nat.blt r.2 0x400 || Nat.blt 0x45F r.1) = true := by
    decide +kernel
  have block : (0x3F7, 0x481) ∈ casedRanges := by decide +kernel
  rw [isCyrillic_iff] at h
  have seen : isIgnorable c = false := by
    unfold isIgnorable inRanges
    rw [List.any_eq_false]
    intro r hr
    have outside := List.all_eq_true.mp apart r hr
    simp only [Bool.or_eq_true, Nat.blt_eq] at outside
    simp only [Bool.and_eq_true, decide_eq_true_eq]
    omega
  have cased : isCased c = true := by
    unfold isCased inRanges
    refine List.any_eq_true.mpr ⟨_, block, ?_⟩
    simp only [Bool.and_eq_true, decide_eq_true_eq]
    omega
  rw [leadsCased, seen]
  exact cased

/-! ## What follows a text -/

/-- The small form of a text between its neighbours, `left` nearest character first. -/
def lowerBetween (left : Text) : Text → Text → Text
  | [], _ => []
  | c :: t, right => lowerAt left c (t ++ right) ++ lowerBetween (c :: left) t right

theorem lowerAfter_append (left a b : Text) :
    lowerAfter left (a ++ b) = lowerBetween left a b ++ lowerAfter (a.reverse ++ left) b := by
  induction a generalizing left with
  | nil => rfl
  | cons c a ih =>
    rw [List.cons_append, lowerAfter, ih, lowerBetween, List.append_assoc, List.reverse_cons,
      List.append_assoc, List.singleton_append]

theorem lowerBetween_concat (left a : Text) (c : Char) (right : Text) :
    lowerBetween left (a ++ [c]) right =
      lowerBetween left a (c :: right) ++ lowerAt (a.reverse ++ left) c right := by
  induction a generalizing left with
  | nil => simp [lowerBetween]
  | cons d a ih =>
    simp only [List.cons_append, lowerBetween, ih, List.append_assoc, List.nil_append,
      List.reverse_cons]

theorem leadsCased_append {right right' : Text} (h : leadsCased right = leadsCased right')
    (t : Text) : leadsCased (t ++ right) = leadsCased (t ++ right') := by
  induction t with
  | nil => exact h
  | cons c t ih => rw [List.cons_append, List.cons_append, leadsCased, leadsCased, ih]

/-- **What follows a text acts on its small form only through one bit**: whether a letter leads. -/
theorem lowerBetween_congr {right right' : Text} (h : leadsCased right = leadsCased right')
    (left t : Text) : lowerBetween left t right = lowerBetween left t right' := by
  induction t generalizing left with
  | nil => rfl
  | cons c t ih =>
    rw [lowerBetween, lowerBetween, ih, lowerAt, lowerAt, leadsCased_append h t]

/-- The **stem** of a text: its small form when a letter follows. -/
def stem (t : Text) : Text := lowerBetween [] t ['а']

theorem lowerBetween_eq_stem {r : Text} (hne : r ≠ []) (h : ∀ c ∈ r, isCyrillic c = true)
    (t : Text) : lowerBetween [] t r = stem t := by
  apply lowerBetween_congr
  -- both `r` and the letter that stands for it in the stem lead with a cased letter
  cases r with
  | nil => exact absurd rfl hne
  | cons c r =>
    rw [leadsCased_cons_of_isCyrillic (h c List.mem_cons_self)]
    exact (leadsCased_cons_of_isCyrillic (by decide) []).symm

/-! ## Texts with a Cyrillic end -/

theorem lowerAfter_of_isCyrillic {t : Text} (h : ∀ c ∈ t, isCyrillic c = true) (left : Text) :
    lowerAfter left t = t.map simpleLower := by
  induction t generalizing left with
  | nil => rfl
  | cons c t ih =>
    rw [lowerAfter, lowerAt_of_isCyrillic (h c List.mem_cons_self),
      ih fun d hd => h d (List.mem_cons_of_mem c hd)]
    rfl

/-- The small form of a text before Cyrillic letters, and the letters' own. -/
theorem lower_append_of_isCyrillic {r : Text} (h : ∀ c ∈ r, isCyrillic c = true) (q : Text) :
    lower (q ++ r) = lowerBetween [] q r ++ r.map simpleLower := by
  rw [lower, lowerAfter_append, lowerAfter_of_isCyrillic h]

theorem map_simpleLower_of_isCyrillicSmall {t : Text} (h : ∀ c ∈ t, isCyrillicSmall c = true) :
    t.map simpleLower = t := by
  rw [← lowerAfter_of_isCyrillic (fun c hc => isCyrillic_of_small (h c hc)) []]
  exact lowerAfter_of_isSmall (fun c hc => isSmall_of_isCyrillicSmall (h c hc)) []

/-- A small Cyrillic ending is the end of the small form. -/
theorem suffix_lower_append {r : Text} (h : ∀ c ∈ r, isCyrillicSmall c = true) (q : Text) :
    r <:+ lower (q ++ r) := by
  have cyrillic : ∀ c ∈ r, isCyrillic c = true := fun c hc => isCyrillic_of_small (h c hc)
  rw [lower_append_of_isCyrillic cyrillic, map_simpleLower_of_isCyrillicSmall h]
  exact List.suffix_append _ _

/-- **A Cyrillic end is lowered letter by letter**, and the rest does not see which letters it has. -/
theorem lower_append_cyrillic {r : Text} (hne : r ≠ []) (h : ∀ c ∈ r, isCyrillic c = true)
    (q : Text) : lower (q ++ r) = stem q ++ r.map simpleLower := by
  rw [lower_append_of_isCyrillic h, lowerBetween_eq_stem hne h]

/-- If the small form of a text ends with a Cyrillic letter, whatever follows it, then so does the
text. -/
theorem exists_concat_of_lowerBetween {q right : Text} {c : Char} (hc : isCyrillic c = true)
    (h : (lowerBetween [] q right).fromEnd? 0 = some c) :
    ∃ q' x, q = q' ++ [x] ∧ isCyrillic x = true := by
  rcases List.eq_nil_or_concat q with rfl | ⟨q', x, rfl⟩
  · exact absurd h (by simp [lowerBetween, Text.fromEnd?])
  · refine ⟨q', x, List.concat_eq_append, ?_⟩
    rw [List.concat_eq_append, lowerBetween_concat] at h
    by_cases hsigma : x = 'Σ'
    · -- a sigma ends in a small sigma, which is no Cyrillic letter
      exfalso
      subst hsigma
      unfold lowerAt at h
      rw [if_pos rfl] at h
      split at h <;> rw [fromEnd?_concat] at h <;> obtain rfl := Option.some.inj h <;>
        exact absurd hc (by decide)
    · rw [lowerAt, if_neg hsigma] at h
      by_cases hdotted : x = '\u0130'
      · exfalso
        subst hdotted
        have two : lowerChar '\u0130' = ['i'] ++ ['\u0307'] := rfl
        rw [two, ← List.append_assoc, fromEnd?_concat] at h
        obtain rfl := Option.some.inj h
        exact absurd hc (by decide)
      · rw [lowerChar_eq hdotted, fromEnd?_concat] at h
        obtain rfl := Option.some.inj h
        exact isCyrillic_of_simpleLower hc

/-- **Cyrillic letters at the end come from Cyrillic characters at the end**, one from one. -/
theorem exists_cyrillic_tail {t : Text} {k : Nat}
    (h : ∀ i < k, ∃ c, (lower t).fromEnd? i = some c ∧ isCyrillic c = true) :
    ∃ q d, t = q ++ d ∧ d.length = k ∧ ∀ x ∈ d, isCyrillic x = true := by
  induction k with
  | zero => exact ⟨t, [], (List.append_nil t).symm, rfl, fun x hx => absurd hx List.not_mem_nil⟩
  | succ k ih =>
    obtain ⟨q, d, rfl, hlen, hd⟩ := ih fun i hi => h i (Nat.lt_succ_of_lt hi)
    obtain ⟨c, hplace, hc⟩ := h k (Nat.lt_succ_self k)
    -- `d` is lowered letter by letter, so the letter behind it belongs to the small form of `q`
    have hmap : (d.map simpleLower).length = k := by rw [List.length_map, hlen]
    rw [lower_append_of_isCyrillic hd, ← hmap, fromEnd?_append_length] at hplace
    obtain ⟨q', x, rfl, hx⟩ := exists_concat_of_lowerBetween hc hplace
    refine ⟨q', x :: d, List.append_assoc q' [x] d, by rw [List.length_cons, hlen], ?_⟩
    intro y hy
    rcases List.mem_cons.mp hy with rfl | hy
    · exact hx
    · exact hd y hy

/-! ## Endings in small Cyrillic letters -/

section

variable {tail : Text}

/-- **A small form ends in small Cyrillic letters if and only if the text ends in a spelling of
them.** What precedes that spelling, and whether a sigma is final there, does not matter. -/
theorem suffix_lower_iff (small : ∀ c ∈ tail, isCyrillicSmall c = true) (t : Text) :
    tail <:+ lower t ↔ ∃ d, d <:+ t ∧ d.map simpleLower = tail := by
  constructor
  · intro h
    have places : ∀ i < tail.length,
        ∃ c, (lower t).fromEnd? i = some c ∧ isCyrillic c = true := by
      intro i hi
      obtain ⟨c, hc, hplace⟩ := Text.exists_fromEnd?_of_lt hi
      exact ⟨c, Text.fromEnd?_of_suffix h hplace, isCyrillic_of_small (small c hc)⟩
    obtain ⟨q, d, rfl, hlen, hd⟩ := exists_cyrillic_tail places
    refine ⟨d, List.suffix_append q d, ?_⟩
    -- both are ends of the small form, and of one length
    rw [lower_append_of_isCyrillic hd] at h
    have same_length : (d.map simpleLower).length = tail.length := by rw [List.length_map, hlen]
    have inside : d.map simpleLower <:+ tail :=
      List.suffix_of_suffix_length_le (List.suffix_append _ _) h (Nat.le_of_eq same_length)
    exact inside.eq_of_length same_length
  · rintro ⟨d, ⟨q, rfl⟩, hmap⟩
    have hd : ∀ x ∈ d, isCyrillic x = true := by
      intro x hx
      apply isCyrillic_of_simpleLower
      exact isCyrillic_of_small (small _ (hmap ▸ List.mem_map_of_mem hx))
    rw [lower_append_of_isCyrillic hd, hmap]
    exact List.suffix_append _ _

/-- **Small Cyrillic letters added to a text are added to its Cyrillic end.** -/
theorem suffix_lower_append_iff (small : ∀ c ∈ tail, isCyrillicSmall c = true) {r : Text}
    (hr : ∀ c ∈ r, isCyrillicSmall c = true) (t : Text) :
    tail ++ r <:+ lower (t ++ r) ↔ tail <:+ lower t := by
  have both : ∀ c ∈ tail ++ r, isCyrillicSmall c = true := by
    intro c hc
    rcases List.mem_append.mp hc with htail | hr'
    · exact small c htail
    · exact hr c hr'
  rw [suffix_lower_iff both, suffix_lower_iff small]
  constructor
  · rintro ⟨d, hsuffix, hmap⟩
    have longer : r.length ≤ d.length := by
      have := congrArg List.length hmap
      rw [List.length_map, List.length_append] at this
      omega
    -- the spelling of both ends with the letters that were added
    obtain ⟨d', rfl⟩ := List.suffix_of_suffix_length_le (List.suffix_append t r) hsuffix longer
    rw [List.map_append, map_simpleLower_of_isCyrillicSmall hr] at hmap
    obtain ⟨q, hq⟩ := hsuffix
    rw [← List.append_assoc] at hq
    exact ⟨d', ⟨q, List.append_cancel_right hq⟩, List.append_cancel_right hmap⟩
  · rintro ⟨d, ⟨q, rfl⟩, hmap⟩
    refine ⟨d ++ r, ⟨q, (List.append_assoc q d r).symm⟩, ?_⟩
    rw [List.map_append, hmap, map_simpleLower_of_isCyrillicSmall hr]

end

end NameDeclension.Lettercase
