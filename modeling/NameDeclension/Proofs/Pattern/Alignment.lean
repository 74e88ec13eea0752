/-
# NameDeclension.Proofs.Pattern.Alignment — which words a pattern takes

A scan has no test of lengths. That a word is long enough shows only in that a slot past the start of
the word has no letter to take, and a wildcard does not mind. So the wildcards at the head of a row say
nothing, and from the first other slot on every slot needs a letter, the wildcards among them too. The
number of these slots is the `span` of a pattern. `compile_meaning` says that a word fits if and only if
it has as many letters as the span and each slot within it takes the letter in its place, and that no
shorter word would do, while the number of letters compared may be less than the span.
-/
import NameDeclension.Proofs.Ends
import NameDeclension.Proofs.Guard.Length

namespace NameDeclension

namespace Slot

/-! ## Wildcards at the head of a row -/

/-- The **core of a row**: its slots from the first that is no wildcard. -/
def core (row : List Slot) : List Slot := row.dropWhile isWildcard

theorem exists_append_core (row : List Slot) :
    ∃ idle, row = idle ++ core row ∧ ∀ slot ∈ idle, slot.isWildcard = true :=
  ⟨row.takeWhile isWildcard, List.takeWhile_append_dropWhile.symm,
    List.all_eq_true.mp List.all_takeWhile⟩

/-- A core begins with a slot that is no wildcard. -/
theorem core_cases (row : List Slot) :
    core row = [] ∨ ∃ slot rest, core row = slot :: rest ∧ slot.isWildcard = false := by
  have head := List.head?_dropWhile_not isWildcard row
  unfold core
  cases h : row.dropWhile isWildcard with
  | nil => exact .inl rfl
  | cons slot rest =>
    rw [h] at head
    exact .inr ⟨slot, rest, rfl, head⟩

theorem accepts_of_isWildcard {slot : Slot} (h : slot.isWildcard = true) (place : Option Char) :
    slot.accepts place = true := by
  cases slot with
  | wildcard => rfl
  | literal letter negated => exact absurd h Bool.false_ne_true
  | oneOf members negated => exact absurd h Bool.false_ne_true

theorem scan_append (slots others : List Slot) (letters : Text) :
    scan (slots ++ others) letters =
      (scan slots letters && scan others (letters.drop slots.length)) := by
  induction slots generalizing letters with
  | nil => rfl
  | cons slot slots ih =>
    rw [List.cons_append, scan, scan, ih, Bool.and_assoc, List.length_cons, List.drop_tail]

theorem scan_of_isWildcard {slots : List Slot} (h : ∀ slot ∈ slots, slot.isWildcard = true)
    (letters : Text) : scan slots letters = true := by
  rw [scan_eq_true_iff]
  exact fun i hi => accepts_of_isWildcard (h _ (List.getElem_mem hi)) _

/-- **Wildcards at the head of a row say nothing.** -/
theorem scan_reverse_core (row : List Slot) (letters : Text) :
    scan row.reverse letters = scan (core row).reverse letters := by
  obtain ⟨idle, split, wild⟩ := exists_append_core row
  have idle_scan : ∀ rest, scan idle.reverse rest = true :=
    scan_of_isWildcard fun slot h => wild slot (List.mem_reverse.mp h)
  conv => lhs; rw [split]
  rw [List.reverse_append, scan_append, idle_scan, Bool.and_true]

/-- **Every slot of a core has a letter in its place.** -/
theorem length_core_le_of_scan {row : List Slot} {letters : Text}
    (h : scan (core row).reverse letters = true) : (core row).length ≤ letters.length := by
  rcases core_cases row with nil | ⟨slot, rest, cons, compared⟩
  · rw [nil]
    exact Nat.zero_le _
  · -- the head of the core is the slot furthest from the end, and it needs a letter
    rw [cons, List.reverse_cons, scan_append, Bool.and_eq_true, scan, Bool.and_eq_true,
      List.length_reverse] at h
    have furthest := h.2.1
    rw [List.head?_drop] at furthest
    rw [cons, List.length_cons]
    rcases Nat.lt_or_ge rest.length letters.length with inside | past
    · exact inside
    · rw [List.getElem?_eq_none past, accepts_none, compared] at furthest
      exact absurd furthest Bool.false_ne_true

/-- The slots of a row that are compared are those of its core. -/
theorem countP_core (row : List Slot) :
    row.countP (fun slot => !slot.isWildcard) =
      (core row).countP fun slot => !slot.isWildcard := by
  obtain ⟨idle, split, wild⟩ := exists_append_core row
  have none_compared : idle.countP (fun slot => !slot.isWildcard) = 0 :=
    List.countP_eq_zero.mpr fun slot h => by simp [wild slot h]
  conv => lhs; rw [split]
  rw [List.countP_append, none_compared, Nat.zero_add]

/-! ## Letters for a row -/

/-- **Slots that each take some small letter take a text of small letters**, one for each slot. -/
theorem exists_letters {slots : List Slot}
    (h : ∀ slot ∈ slots, ∃ c, Lettercase.IsSmall c ∧ slot.accepts (some c) = true) :
    ∃ letters : Text, letters.length = slots.length ∧ (∀ c ∈ letters, Lettercase.IsSmall c) ∧
      scan slots letters = true := by
  induction slots with
  | nil => exact ⟨[], rfl, fun c hc => absurd hc List.not_mem_nil, rfl⟩
  | cons slot slots ih =>
    rw [List.forall_mem_cons] at h
    obtain ⟨⟨c, small, taken⟩, others⟩ := h
    obtain ⟨letters, length_eq, letters_small, scanned⟩ := ih others
    refine ⟨c :: letters, by rw [List.length_cons, List.length_cons, length_eq],
      List.forall_mem_cons.mpr ⟨small, letters_small⟩, ?_⟩
    rw [scan, List.head?_cons, List.tail_cons, taken, scanned]
    rfl

end Slot

namespace Pattern

/-! ## The span of a pattern -/

/-- The **span of a pattern**: the number of its slots from the first that is no wildcard. -/
def span (pattern : Pattern) : Nat := (Slot.core pattern.body.row).length

theorem fits_eq_scan_core (pattern : Pattern) (w : Word) :
    pattern.fits w = Slot.scan (Slot.core pattern.body.row).reverse w.letters.reverse := by
  rw [fits_eq_scan, Slot.scan_reverse_core]

theorem span_le_of_fits {pattern : Pattern} {w : Word} (h : pattern.fits w = true) :
    pattern.span ≤ w.length := by
  rw [fits_eq_scan_core] at h
  have reaches := Slot.length_core_le_of_scan h
  rwa [List.length_reverse] at reaches

/-- A place within the span has a slot of the core. -/
theorem getElem?_reverse_row (pattern : Pattern) {i : Nat} (h : i < pattern.span) :
    pattern.body.row.reverse[i]? = (Slot.core pattern.body.row).reverse[i]? := by
  obtain ⟨idle, split, -⟩ := Slot.exists_append_core pattern.body.row
  conv => lhs; rw [split]
  rw [List.reverse_append, List.getElem?_append_left (by rwa [List.length_reverse])]

/-- **A word fits if it is as long as the span and each slot within it takes its letter.** -/
theorem fits_iff (pattern : Pattern) (w : Word) :
    pattern.fits w = true ↔ pattern.span ≤ w.length ∧
      ∀ i < pattern.span, ∀ slot c, pattern.body.row.reverse[i]? = some slot →
        w.fromEnd? i = some c → slot.accepts (some c) = true := by
  constructor
  · intro h
    refine ⟨span_le_of_fits h, fun i _ slot c hslot hc => ?_⟩
    rw [← hc]
    exact accepts_of_fits h hslot
  · rintro ⟨long, taken⟩
    rw [fits_eq_scan_core, Slot.scan_eq_true_iff]
    intro i hi
    have within : i < pattern.span := by rwa [List.length_reverse] at hi
    obtain ⟨c, -, hc⟩ := Text.exists_fromEnd?_of_lt (Nat.lt_of_lt_of_le within long)
    have hslot : pattern.body.row.reverse[i]? = some (Slot.core pattern.body.row).reverse[i] := by
      rw [getElem?_reverse_row pattern within, List.getElem?_eq_getElem hi]
    have letter : w.letters.reverse[i]? = some c := hc
    rw [letter]
    exact taken i within _ c hslot hc

theorem minLength_eq_countP_core (pattern : Pattern) :
    pattern.minLength =
      (Slot.core pattern.body.row).countP fun slot => !slot.isWildcard := by
  rw [minLength_eq_countP, Slot.countP_core]

theorem minLength_eq_span_iff (pattern : Pattern) :
    pattern.minLength = pattern.span ↔
      ∀ slot ∈ Slot.core pattern.body.row, slot.isWildcard = false := by
  rw [minLength_eq_countP_core, span, List.countP_eq_length]
  simp only [Bool.not_eq_true']

/-- A word has a letter, so no word is shorter than the span or than one letter. -/
theorem max_span_le_of_fits {pattern : Pattern} {w : Word} (h : pattern.fits w = true) :
    max pattern.span 1 ≤ w.length := by
  have nonempty : w.letters ≠ [] := mt (Lettercase.lower_eq_nil_iff _).mp w.spelling_ne_nil
  exact Nat.max_le.mpr ⟨span_le_of_fits h, List.length_pos_iff.mpr nonempty⟩

/-- Small letters are the letters of a word. -/
theorem exists_word_of_isSmall {letters : Text} (nonempty : letters ≠ [])
    (small : ∀ c ∈ letters, Lettercase.IsSmall c) : ∃ w : Word, w.letters = letters :=
  ⟨⟨letters, nonempty⟩, Lettercase.lower_of_isSmall small⟩

/-- **The span is reached**: small letters that the slots take make a word that fits. -/
theorem exists_shortest {pattern : Pattern}
    (h : ∀ slot ∈ pattern.body.row, slot.isWildcard = false →
      ∃ c, Lettercase.IsSmall c ∧ slot.accepts (some c) = true) :
    ∃ w : Word, pattern.fits w = true ∧ w.length = max pattern.span 1 := by
  have small_a : Lettercase.IsSmall 'а' := by decide +kernel
  have takes : ∀ slot ∈ (Slot.core pattern.body.row).reverse,
      ∃ c, Lettercase.IsSmall c ∧ slot.accepts (some c) = true := by
    intro slot hslot
    cases wild : slot.isWildcard with
    | true => exact ⟨'а', small_a, Slot.accepts_of_isWildcard wild _⟩
    | false => exact h slot (List.dropWhile_subset _ (List.mem_reverse.mp hslot)) wild
  obtain ⟨letters, length_eq, small, scanned⟩ := Slot.exists_letters takes
  rw [List.length_reverse] at length_eq
  cases letters with
  | nil =>
    -- nothing is asked, and any word of one letter will do
    have span_eq : pattern.span = 0 := length_eq.symm
    have core_eq : Slot.core pattern.body.row = [] := List.eq_nil_of_length_eq_zero span_eq
    obtain ⟨w, w_letters⟩ := exists_word_of_isSmall (List.cons_ne_nil 'а' [])
      (List.forall_mem_singleton.mpr small_a)
    refine ⟨w, ?_, ?_⟩
    · rw [fits_eq_scan_core, core_eq]
      rfl
    · rw [Word.length, w_letters, span_eq]
      rfl
  | cons c letters =>
    have span_eq : pattern.span = letters.length + 1 := length_eq.symm
    obtain ⟨w, w_letters⟩ := exists_word_of_isSmall
      (List.reverse_ne_nil_iff.mpr (List.cons_ne_nil c letters))
      (fun d hd => small d (List.mem_reverse.mp hd))
    refine ⟨w, ?_, ?_⟩
    · rw [fits_eq_scan_core, w_letters, List.reverse_reverse, scanned]
    · rw [Word.length, w_letters, List.length_reverse, List.length_cons, span_eq]
      omega

/-! ## Compiled patterns -/

/-- **The meaning of a compiled pattern.** Its row is what the lowered source reads as. A word fits if and
only if it has as many letters as the span and each slot within the span takes the letter in its place.
The number of letters compared is at most the span, and less just when a wildcard stands within it. No
word that fits is shorter than the span, or than one letter; and if each slot but the wildcards takes some
letter that lowering keeps, a word of that length fits. -/
theorem compile_meaning {source : Text} {pattern : Pattern} (h : compile source = .ok pattern) :
    pattern.body.row = (Slot.parse (Lettercase.lower source)).1 ∧
    (∀ w : Word, pattern.fits w = true ↔ pattern.span ≤ w.length ∧
      ∀ i < pattern.span, ∀ slot c, pattern.body.row.reverse[i]? = some slot →
        w.fromEnd? i = some c → slot.accepts (some c) = true) ∧
    pattern.minLength ≤ pattern.span ∧
    (pattern.minLength = pattern.span ↔
      ∀ slot ∈ Slot.core pattern.body.row, slot.isWildcard = false) ∧
    (∀ w : Word, pattern.fits w = true → max pattern.span 1 ≤ w.length) ∧
    ((∀ slot ∈ pattern.body.row, slot.isWildcard = false →
        ∃ c, Lettercase.lower [c] = [c] ∧ slot.accepts (some c) = true) →
      ∃ w : Word, pattern.fits w = true ∧ w.length = max pattern.span 1) := by
  refine ⟨row_of_compile h, pattern.fits_iff, ?_, pattern.minLength_eq_span_iff,
    fun _ => max_span_le_of_fits, fun takes => exists_shortest fun slot hslot compared => ?_⟩
  · rw [minLength_eq_countP_core]
    exact List.countP_le_length
  · obtain ⟨c, kept, taken⟩ := takes slot hslot compared
    have small : Lettercase.IsSmall c :=
      Lettercase.isSmall_of_mem_lower (kept ▸ List.mem_singleton_self c)
    exact ⟨c, small, taken⟩

/-- Of these four slots two are compared, and the shortest word that fits has three letters. -/
theorem compile_meaning_soft :
    compile "-!и-я".toList =
        .ok ⟨"-!и-я".toList, .slots [.wildcard, .literal 'и' true, .wildcard, .literal 'я' false]⟩ ∧
      (∀ slot ∈ [Slot.wildcard, .literal 'и' true, .wildcard, .literal 'я' false],
        slot.isWildcard = false → ∃ c, Lettercase.lower [c] = [c] ∧
          slot.accepts (some c) = true) ∧
      ∃ w : Word, fits ⟨"-!и-я".toList,
          .slots [.wildcard, .literal 'и' true, .wildcard, .literal 'я' false]⟩ w = true ∧
        w.length = 3 := by
  have compiled : compile "-!и-я".toList =
      .ok ⟨"-!и-я".toList, .slots [.wildcard, .literal 'и' true, .wildcard, .literal 'я' false]⟩ := by
    have small : Lettercase.lower "-!и-я".toList = "-!и-я".toList := by decide +kernel
    rw [compile, small]
    rfl
  have takes : ∀ slot ∈ [Slot.wildcard, .literal 'и' true, .wildcard, .literal 'я' false],
      slot.isWildcard = false → ∃ c, Lettercase.lower [c] = [c] ∧ slot.accepts (some c) = true := by
    have kept : Lettercase.lower ['я'] = ['я'] := by decide +kernel
    intro slot hslot _
    refine ⟨'я', kept, ?_⟩
    revert slot
    decide
  exact ⟨compiled, takes, (compile_meaning compiled).2.2.2.2.2 takes⟩

end Pattern

end NameDeclension
