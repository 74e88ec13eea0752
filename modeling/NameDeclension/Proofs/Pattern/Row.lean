/-
# NameDeclension.Proofs.Pattern.Row — every pattern is a row of slots

A pattern without special characters is stored as a tail of letters and compared as a text; any
other is stored as its slots and compared place by place. The two ways agree: a tail is the row of
its letters (`Body.row`), and a word fits a pattern exactly when the scan of that row succeeds
(`fits_eq_scan`), which can be read place by place from the end (`fits_eq_takeFrom`). So whatever is
proved about scans holds of all patterns, and the row of a shipped pattern is read off its written
form (`row_ofValid`).
-/
import NameDeclension.Pattern.Basic

namespace NameDeclension

namespace Slot

/-! ## Rows of plain letters -/

/-- The slot that asks for one letter. -/
def plain (c : Char) : Slot := .literal c false

/-- Scanning plain letters is comparing texts. -/
theorem scan_map_plain (tail letters : Text) :
    scan (tail.map plain) letters = tail.isPrefixOf letters := by
  induction tail generalizing letters with
  | nil => simp [scan]
  | cons c tail ih =>
    cases letters with
    | nil => rfl
    | cons d letters =>
      rw [List.map_cons, scan, List.head?_cons, List.tail_cons, ih, List.isPrefixOf_cons_cons]
      simp [plain, accepts, BEq.comm (a := d)]

/-- A text without special characters reads as its letters, and nothing is left over. -/
theorem parse_of_not_special {t : Text} (h : ∀ c ∈ t, c ∉ special) :
    parse t = (t.map plain, []) := by
  induction t with
  | nil => rfl
  | cons c t ih =>
    have here := not_mem_special_iff.mp (h c List.mem_cons_self)
    have rest : read false t = (t.map plain, []) := ih fun d hd => h d (List.mem_cons_of_mem c hd)
    simp [parse, read, here, rest, plain]

/-! ## One place at a time -/

/-- Whether the slots take the places of a text from the place `i` on, each one place further from
its end than the slot before it. -/
def takeFrom (t : Text) (i : Nat) : List Slot → Bool
  | [] => true
  | slot :: slots => slot.accepts (t.fromEnd? i) && takeFrom t (i + 1) slots

/-- A scan that has come to the place `i` from the end. -/
theorem scan_drop_reverse (slots : List Slot) (t : Text) (i : Nat) :
    scan slots (t.reverse.drop i) = takeFrom t i slots := by
  induction slots generalizing i with
  | nil => rfl
  | cons slot slots ih => rw [scan, takeFrom, List.head?_drop, List.tail_drop, Text.fromEnd?, ih]

/-- The slots look at as many places as there are slots, and at no others. -/
theorem takeFrom_congr {t t' : Text} {slots : List Slot} {i : Nat}
    (h : ∀ slot ∈ slots, ∀ j < i + slots.length,
      slot.accepts (t.fromEnd? j) = slot.accepts (t'.fromEnd? j)) :
    takeFrom t i slots = takeFrom t' i slots := by
  induction slots generalizing i with
  | nil => rfl
  | cons slot slots ih =>
    have here := h slot List.mem_cons_self i (by simp)
    have later : takeFrom t (i + 1) slots = takeFrom t' (i + 1) slots := by
      apply ih
      intro other hother j hj
      refine h other (List.mem_cons_of_mem slot hother) j ?_
      rw [List.length_cons]
      omega
    rw [takeFrom, takeFrom, here, later]

/-- Letters taken from the end one by one are an ending. -/
theorem suffix_iff_takeFrom (tail letters : Text) :
    tail <:+ letters ↔ takeFrom letters 0 (tail.reverse.map plain) = true := by
  rw [← scan_drop_reverse, List.drop_zero, scan_map_plain, List.isPrefixOf_iff_prefix,
    List.reverse_prefix]

end Slot

namespace Pattern

/-! ## The row of a pattern -/

/-- The **row of slots** that a body asks for, in reading order. -/
def Body.row : Body → List Slot
  | .tail letters => letters.map Slot.plain
  | .slots row => row

/-- **A word fits a pattern exactly when the scan of its row succeeds**, however it is stored. -/
theorem fits_eq_scan (pattern : Pattern) (w : Word) :
    pattern.fits w = Slot.scan pattern.body.row.reverse w.letters.reverse := by
  unfold fits
  cases pattern.body with
  | tail letters =>
    show letters.isSuffixOf w.letters = _
    rw [Body.row, ← List.map_reverse, Slot.scan_map_plain, List.isSuffixOf]
  | slots row => rfl

theorem fits_eq_takeFrom (pattern : Pattern) (w : Word) :
    pattern.fits w = Slot.takeFrom w.letters 0 pattern.body.row.reverse := by
  rw [fits_eq_scan, ← Slot.scan_drop_reverse, List.drop_zero]

/-- **A pattern sees as many letters from the end as its row has slots.** -/
theorem fits_congr {pattern : Pattern} {u v : Word}
    (h : ∀ slot ∈ pattern.body.row, ∀ i < pattern.body.row.length,
      slot.accepts (u.fromEnd? i) = slot.accepts (v.fromEnd? i)) :
    pattern.fits u = pattern.fits v := by
  rw [fits_eq_takeFrom, fits_eq_takeFrom]
  apply Slot.takeFrom_congr
  intro slot hslot i hi
  rw [List.length_reverse, Nat.zero_add] at hi
  exact h slot (List.mem_reverse.mp hslot) i hi

/-- What a fitting word has at a place that the row speaks of. -/
theorem accepts_of_fits {pattern : Pattern} {w : Word} (h : pattern.fits w = true) {i : Nat}
    {slot : Slot} (hslot : pattern.body.row.reverse[i]? = some slot) :
    slot.accepts (w.fromEnd? i) = true := by
  rw [fits_eq_scan, Slot.scan_eq_true_iff] at h
  obtain ⟨hi, rfl⟩ := List.getElem?_eq_some_iff.mp hslot
  exact h i hi

/-! ## Compiled patterns -/

/-- The row of a body is what the lowered text reads as. -/
theorem row_of_ofText? {source lowered : Text} {body : Body}
    (h : Body.ofText? source lowered = .ok body) : body.row = (Slot.parse lowered).1 := by
  unfold Body.ofText? at h
  split at h
  · exact absurd h (by simp)
  · split at h
    · -- a special character: the slots are stored as they are read, and nothing may be left over
      cases hparse : Slot.parse lowered with
      | mk row left =>
        rw [hparse] at h
        cases left with
        | nil =>
          cases row with
          | nil => exact absurd h (by simp)
          | cons slot row =>
            obtain rfl := Except.ok.inj h
            rfl
        | cons c left => exact absurd h (by simp)
    · -- none: the letters are stored, and they are what would be read
      rename_i plain
      obtain rfl := Except.ok.inj h
      have letters : ∀ c ∈ lowered, c ∉ Slot.special := by simpa using plain
      rw [Slot.parse_of_not_special letters]
      rfl

theorem row_of_compile {source : Text} {pattern : Pattern} (h : compile source = .ok pattern) :
    pattern.body.row = (Slot.parse (Lettercase.lower source)).1 := by
  unfold compile at h
  cases hbody : Body.ofText? source (Lettercase.lower source) with
  | error e =>
    rw [hbody] at h
    exact absurd h (by simp [Except.map])
  | ok body =>
    rw [hbody] at h
    obtain rfl := Except.ok.inj h
    exact row_of_ofText? hbody

theorem row_ofValid {source : Text} (valid : (compile source).toOption.isSome = true) :
    (ofValid source valid).body.row = (Slot.parse (Lettercase.lower source)).1 :=
  row_of_compile (compile_eq_ok_ofValid valid)

end Pattern

end NameDeclension
