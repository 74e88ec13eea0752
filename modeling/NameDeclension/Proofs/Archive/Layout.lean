/-
# NameDeclension.Proofs.Archive.Layout — an archive is read back, and its texts lie apart

The cells of an archive are of one size, so the cell of the text number `i` is the slice of eight bytes
at its place (`slice_pack`). What it holds depends on the texts before it: a long text starts behind the
long ones that precede it (`textStart`), and the cell gives the way back to there.

A cell is read through its last byte. In the cell of a short text this is the length, below eight; in
that of a long one it is the top byte of a negative number, which has its top bit set as long as the
archive has fewer than 2^31 bytes. So the reader tells the two apart, and what it takes a cell to refer
to (`reference?`) is where the text stands (`reference?_pack`). The rest follows: a text is read from
where it was written, texts stand before the cells, and no two share a byte.
-/
import Mathlib.Algebra.Group.Nat.Defs
import NameDeclension.Archive.Forms

namespace NameDeclension

namespace Archive

/-! ## Cells -/

theorem isLong_eq_true_iff {content : Bytes} :
    isLong content = true ↔ cellSize - 1 < content.length := by
  simp [isLong]

theorem length_lt_of_not_isLong {content : Bytes} (h : isLong content = false) :
    content.length < cellSize := by
  have fits : ¬ cellSize - 1 < content.length := by
    rw [← isLong_eq_true_iff, h]
    exact Bool.false_ne_true
  unfold cellSize at *
  omega

/-- The cell at `position` of a text, which starts at `start` if it is long. -/
def cell (start position : Nat) (content : Bytes) : Bytes :=
  if isLong content then longCell content.length (position - start) else shortCell content

/-- **All cells have one size.** -/
theorem length_cell (start position : Nat) (content : Bytes) :
    (cell start position content).length = cellSize := by
  cases h : isLong content with
  | true => simp [cell, h, longCell, cellSize]
  | false =>
    have fits := length_lt_of_not_isLong h
    simp only [cell, h, shortCell, List.length_append, List.length_replicate,
      List.length_singleton, Bool.false_eq_true, if_false]
    omega

/-! ## Long texts -/

/-- The long texts, in order. -/
def longTexts (contents : List Bytes) : Bytes := (contents.filter isLong).flatten

/-- Where the text of number `i` starts if it is long: behind the long ones before it. -/
def textStart (contents : List Bytes) (i : Nat) : Nat := (longTexts (contents.take i)).length

theorem longTexts_append (before after : List Bytes) :
    longTexts (before ++ after) = longTexts before ++ longTexts after := by
  simp [longTexts]

theorem longTexts_singleton {content : Bytes} (h : isLong content = true) :
    longTexts [content] = content := by
  simp [longTexts, h]

section

variable {contents : List Bytes} {i : Nat}

theorem longTexts_split (h : i < contents.length) :
    longTexts contents = longTexts (contents.take i) ++ longTexts [contents[i]] ++
      longTexts (contents.drop (i + 1)) := by
  rw [← longTexts_append, ← longTexts_append, List.append_assoc, List.singleton_append,
    ← List.drop_eq_getElem_cons h, List.take_append_drop]

/-- A long text stands among the long texts where it starts, whatever follows them. -/
theorem slice_longTexts (h : i < contents.length) (long : isLong contents[i] = true)
    (rest : Bytes) :
    ((longTexts contents ++ rest).drop (textStart contents i)).take contents[i].length =
      contents[i] := by
  rw [longTexts_split h, longTexts_singleton long, textStart, List.append_assoc, List.append_assoc,
    List.drop_left, List.take_left]

theorem textStart_add_length_le (h : i < contents.length) (long : isLong contents[i] = true) :
    textStart contents i + contents[i].length ≤ (longTexts contents).length := by
  rw [longTexts_split h, longTexts_singleton long, textStart, List.length_append,
    List.length_append]
  exact Nat.le_add_right _ _

/-- **A long text ends before the next one starts.** -/
theorem textStart_add_length_le_textStart {j : Nat} (h : i < contents.length)
    (long : isLong contents[i] = true) (before : i < j) :
    textStart contents i + contents[i].length ≤ textStart contents j := by
  -- among the first `j` texts it is one whose end is bounded by their length
  have inside : i < (contents.take j).length := by
    rw [List.length_take]
    exact Nat.lt_min.mpr ⟨before, h⟩
  have same : (contents.take j)[i] = contents[i] := List.getElem_take
  have bound := textStart_add_length_le inside (by rwa [same])
  rw [same, textStart, List.take_take, Nat.min_eq_left (Nat.le_of_lt before)] at bound
  exact bound

end

/-! ## The row of cells -/

theorem cells_cons (start position : Nat) (content : Bytes) (contents : List Bytes) :
    cells start position (content :: contents) = cell start position content ++
      cells (start + (longTexts [content]).length) (position + cellSize) contents := by
  cases h : isLong content <;> simp [cells, cell, longTexts, h]

theorem length_cells (start position : Nat) (contents : List Bytes) :
    (cells start position contents).length = cellSize * contents.length := by
  induction contents generalizing start position with
  | nil => rfl
  | cons content contents ih =>
    rw [cells_cons, List.length_append, length_cell, ih, List.length_cons, Nat.mul_succ,
      Nat.add_comm]

theorem textStart_cons_succ (content : Bytes) (contents : List Bytes) (i : Nat) :
    textStart (content :: contents) (i + 1) =
      (longTexts [content]).length + textStart contents i := by
  have split : (content :: contents).take (i + 1) = [content] ++ contents.take i := rfl
  rw [textStart, split, longTexts_append, List.length_append, textStart]

/-- **The cell of each text is the slice at its place**, and knows where the text starts. -/
theorem slice_cells {contents : List Bytes} {i : Nat} (h : i < contents.length)
    (start position : Nat) :
    ((cells start position contents).drop (cellSize * i)).take cellSize =
      cell (start + textStart contents i) (position + cellSize * i) contents[i] := by
  induction contents generalizing start position i with
  | nil => exact absurd h (Nat.not_lt_zero i)
  | cons content contents ih =>
    rw [cells_cons]
    cases i with
    | zero =>
      rw [Nat.mul_zero, List.drop_zero, List.take_left' (length_cell _ _ _)]
      rfl
    | succ i =>
      have skip : cellSize * (i + 1) = (cell start position content).length + cellSize * i := by
        rw [length_cell, Nat.mul_succ, Nat.add_comm]
      rw [skip, List.drop_length_add_append, ih (Nat.lt_of_succ_lt_succ h), textStart_cons_succ,
        length_cell, Nat.add_assoc, Nat.add_assoc]
      rfl

/-! ## What a cell refers to -/

/-- **What the cell at a place refers to**: where the first byte stands, and how many there are. A cell
whose last byte has its top bit clear holds its text and refers to none. -/
def reference? (bytes : Bytes) (position : Nat) : Option (Int × Nat) :=
  let cell := (bytes.drop position).take cellSize
  cell.getLast?.bind fun tag =>
    if tag < 128 then none
    else some (position - backwards (ofLittleEndian (cell.drop 4)), ofLittleEndian (cell.take 4))

section

variable {bytes content : Bytes} {root position start length : Nat}

/-- **What a cell refers to is what is read from it**, if it stands before the cells. -/
theorem cellContent?_of_reference? (h : reference? bytes position = some ((start : Int), length))
    (inside : start + length ≤ root) :
    cellContent? bytes root position = some ((bytes.drop start).take length) := by
  unfold reference? at h
  unfold cellContent?
  simp only at h ⊢
  generalize (bytes.drop position).take cellSize = cell at h ⊢
  cases htag : cell.getLast? with
  | none =>
    rw [htag] at h
    exact absurd h (Option.some_ne_none _).symm
  | some tag =>
    rw [htag, Option.bind_some] at h
    split at h
    · exact absurd h (Option.some_ne_none _).symm
    · rename_i top
      obtain ⟨place, rfl⟩ := Prod.mk.inj (Option.some.inj h)
      -- the place is no negative number, so the way back stays inside the bytes
      have back : backwards (ofLittleEndian (cell.drop 4)) ≤ position := by omega
      have start_eq : position - backwards (ofLittleEndian (cell.drop 4)) = start := by omega
      simp only [top, back, start_eq, inside, and_self, if_true, if_false]

/-- The last byte of the cell of a short text is its length. -/
theorem exists_getLast?_shortCell (h : isLong content = false) :
    ∃ tag, (shortCell content).getLast? = some tag ∧ tag.toNat = content.length ∧ tag < 128 := by
  have byte : content.length < 128 := Nat.lt_trans (length_lt_of_not_isLong h) (by decide)
  have tag : (UInt8.ofNat content.length).toNat = content.length :=
    UInt8.toNat_ofNat_of_lt' (Nat.lt_trans byte (by decide))
  refine ⟨UInt8.ofNat content.length, by simp [shortCell], tag, ?_⟩
  rw [UInt8.lt_iff_toNat_lt, tag]
  exact byte

theorem cellContent?_of_shortCell (h : isLong content = false)
    (slice : (bytes.drop position).take cellSize = shortCell content) :
    cellContent? bytes root position = some content := by
  obtain ⟨tag, last, length_eq, clear⟩ := exists_getLast?_shortCell h
  have fits : tag.toNat < cellSize := by
    rw [length_eq]
    exact length_lt_of_not_isLong h
  have taken : (shortCell content).take tag.toNat = content := by
    rw [length_eq, shortCell, List.append_assoc, List.take_left]
  simp only [cellContent?, slice, last, clear, fits, taken, if_true]

theorem reference?_of_shortCell (h : isLong content = false)
    (slice : (bytes.drop position).take cellSize = shortCell content) :
    reference? bytes position = none := by
  obtain ⟨tag, last, -, clear⟩ := exists_getLast?_shortCell h
  simp only [reference?, slice, last, clear, Option.bind_some, if_true]

/-- The last byte of the cell of a long text has its top bit set, since the way leads backwards. -/
theorem exists_getLast?_longCell {distance : Nat} (pos : 0 < distance)
    (near : distance < 2 ^ 31) (length : Nat) :
    ∃ tag, (longCell length distance).getLast? = some tag ∧ ¬ tag < 128 := by
  refine ⟨_, by rw [longCell, List.getLast?_append, getLast?_littleEndian, Option.some_or], ?_⟩
  have way : backwards distance = UInt32.size - distance :=
    backwards_eq_sub pos (Nat.lt_trans near (by decide))
  have top : 128 ≤ (UInt32.size - distance) / Nat.pow 256 3 ∧
      (UInt32.size - distance) / Nat.pow 256 3 < 256 := by
    have pow : Nat.pow 256 3 = 16777216 := rfl
    rw [pow]
    unfold UInt32.size
    omega
  rw [UInt8.lt_iff_toNat_lt, way, Nat.mod_eq_of_lt top.2, UInt8.toNat_ofNat_of_lt' top.2]
  exact Nat.not_lt.mpr top.1

theorem reference?_of_longCell (fits : length < UInt32.size) (before : start < position)
    (near : position < 2 ^ 31)
    (slice : (bytes.drop position).take cellSize = longCell length (position - start)) :
    reference? bytes position = some ((start : Int), length) := by
  have pos : 0 < position - start := Nat.sub_pos_of_lt before
  have small : position - start < 2 ^ 31 := Nat.lt_of_le_of_lt (Nat.sub_le _ _) near
  obtain ⟨tag, last, top⟩ := exists_getLast?_longCell pos small length
  have front : ofLittleEndian ((longCell length (position - start)).take 4) = length := by
    rw [longCell, List.take_left' (length_littleEndian 4 _), ofLittleEndian_littleEndian]
    exact Nat.mod_eq_of_lt fits
  have back : backwards (ofLittleEndian ((longCell length (position - start)).drop 4)) =
      position - start := by
    have way : backwards (position - start) % Nat.pow 256 4 = backwards (position - start) :=
      Nat.mod_eq_of_lt (Nat.mod_lt _ (by decide))
    rw [longCell, List.drop_left' (length_littleEndian 4 _), ofLittleEndian_littleEndian, way,
      backwards_backwards]
    exact Nat.mod_eq_of_lt (Nat.lt_trans small (by decide))
  have place : (position : Int) - (position - start : Nat) = start := by omega
  simp only [reference?, slice, last, top, front, back, place, Option.bind_some, if_false]

end

/-! ## Archives of texts -/

/-- Where the cell of number `i` stands in an archive of `count` cells. -/
def cellPlace (count : Nat) (bytes : Bytes) (i : Nat) : Nat :=
  bytes.length - cellSize * count + cellSize * i

/-- **`RefersApart count bytes`** — what the cells refer to stands before the cells, and what different
cells refer to has no byte in common. -/
structure RefersApart (count : Nat) (bytes : Bytes) : Prop where
  before_cells : ∀ i < count, ∀ start length,
    reference? bytes (cellPlace count bytes i) = some (start, length) →
      0 ≤ start ∧ start + length ≤ cellPlace count bytes 0
  apart : ∀ i < count, ∀ j < count, i ≠ j → ∀ start length start' length',
    reference? bytes (cellPlace count bytes i) = some (start, length) →
    reference? bytes (cellPlace count bytes j) = some (start', length') →
      start + length ≤ start' ∨ start' + length' ≤ start

theorem length_pack (contents : List Bytes) :
    (pack contents).length = (area contents).length + cellSize * contents.length := by
  rw [pack, List.length_append, length_cells]

theorem cellPlace_pack (contents : List Bytes) (i : Nat) :
    cellPlace contents.length (pack contents) i = (area contents).length + cellSize * i := by
  rw [cellPlace, length_pack, Nat.add_sub_cancel]

theorem length_longTexts_le (contents : List Bytes) :
    (longTexts contents).length ≤ (area contents).length := by
  show _ ≤ (longTexts contents ++ _).length
  rw [List.length_append]
  exact Nat.le_add_right _ _

/-- A traversal in which every step succeeds. -/
theorem mapM_eq_some_map {α β : Type} {f : α → Option β} {g : α → β} {l : List α}
    (h : ∀ x ∈ l, f x = some (g x)) : l.mapM f = some (l.map g) := by
  induction l with
  | nil => rfl
  | cons x l ih =>
    rw [List.forall_mem_cons] at h
    rw [List.mapM_cons, h.1, ih h.2]
    rfl

section

variable {contents : List Bytes} {i : Nat}

/-- A long text ends before the cells. -/
theorem textStart_add_length_le_area (h : i < contents.length) (long : isLong contents[i] = true) :
    textStart contents i + contents[i].length ≤ (area contents).length :=
  Nat.le_trans (textStart_add_length_le h long) (length_longTexts_le contents)

theorem slice_pack (h : i < contents.length) :
    ((pack contents).drop (cellPlace contents.length (pack contents) i)).take cellSize =
      cell (textStart contents i) (cellPlace contents.length (pack contents) i) contents[i] := by
  rw [cellPlace_pack, pack, List.drop_length_add_append, slice_cells h, Nat.zero_add]

/-- **The cells of the long texts refer to where the texts stand, and no other cell refers to any
bytes.** -/
theorem reference?_pack (small : (pack contents).length < 2 ^ 31) (h : i < contents.length) :
    reference? (pack contents) (cellPlace contents.length (pack contents) i) =
      if isLong contents[i] then some ((textStart contents i : Int), contents[i].length)
      else none := by
  have slice := slice_pack h
  cases hlong : isLong contents[i] with
  | false =>
    rw [cell, hlong, if_neg Bool.false_ne_true] at slice
    rw [if_neg Bool.false_ne_true]
    exact reference?_of_shortCell hlong slice
  | true =>
    rw [cell, hlong, if_pos rfl] at slice
    rw [if_pos rfl]
    have inside := textStart_add_length_le_area h hlong
    have nonempty : 0 < contents[i].length := Nat.zero_lt_of_lt (isLong_eq_true_iff.mp hlong)
    have place : cellPlace contents.length (pack contents) i < (pack contents).length := by
      rw [cellPlace_pack, length_pack]
      unfold cellSize
      omega
    apply reference?_of_longCell _ _ (Nat.lt_trans place small) slice
    · rw [length_pack] at small
      unfold UInt32.size
      omega
    · rw [cellPlace_pack]
      omega

theorem cellContent?_pack (small : (pack contents).length < 2 ^ 31) (h : i < contents.length) :
    cellContent? (pack contents) (area contents).length
      (cellPlace contents.length (pack contents) i) = some contents[i] := by
  have found := reference?_pack small h
  cases hlong : isLong contents[i] with
  | false =>
    have slice := slice_pack h
    rw [cell, hlong, if_neg Bool.false_ne_true] at slice
    exact cellContent?_of_shortCell hlong slice
  | true =>
    rw [hlong, if_pos rfl] at found
    have inside := textStart_add_length_le_area h hlong
    obtain ⟨rest, split⟩ : ∃ rest, pack contents = longTexts contents ++ rest :=
      ⟨_, List.append_assoc _ _ _⟩
    rw [cellContent?_of_reference? found inside, split, slice_longTexts h hlong]

/-- **The texts of an archive are read back.** -/
theorem unpack?_pack (small : (pack contents).length < 2 ^ 31) :
    unpack? contents.length (pack contents) = some contents := by
  have room : cellSize * contents.length ≤ (pack contents).length := by
    rw [length_pack]
    exact Nat.le_add_left _ _
  have root : (pack contents).length - cellSize * contents.length = (area contents).length := by
    rw [length_pack, Nat.add_sub_cancel]
  have read : ∀ i ∈ List.range contents.length,
      cellContent? (pack contents) (area contents).length ((area contents).length + cellSize * i) =
        some (contents[i]?.getD []) := by
    intro i hi
    have inside : i < contents.length := List.mem_range.mp hi
    rw [← cellPlace_pack, cellContent?_pack small inside, List.getElem?_eq_getElem inside,
      Option.getD_some]
  have listed : (List.range contents.length).map (fun i => contents[i]?.getD []) = contents := by
    apply List.ext_getElem
    · simp
    · intro i _ inside
      simp [inside]
  simp only [unpack?, room, root, if_true]
  rw [mapM_eq_some_map read, listed]

theorem reference?_pack_ne_none_iff (small : (pack contents).length < 2 ^ 31)
    (h : i < contents.length) :
    reference? (pack contents) (cellPlace contents.length (pack contents) i) ≠ none ↔
      isLong contents[i] = true := by
  rw [reference?_pack small h]
  cases isLong contents[i] <;> simp

theorem eq_of_reference?_pack (small : (pack contents).length < 2 ^ 31)
    (h : i < contents.length) {start : Int} {length : Nat}
    (found : reference? (pack contents) (cellPlace contents.length (pack contents) i) =
      some (start, length)) :
    isLong contents[i] = true ∧ start = textStart contents i ∧ length = contents[i].length := by
  rw [reference?_pack small h] at found
  split at found
  · rename_i long
    obtain ⟨rfl, rfl⟩ := Prod.mk.inj (Option.some.inj found)
    exact ⟨long, rfl, rfl⟩
  · exact absurd found (Option.some_ne_none _).symm

/-- **The texts of an archive lie before its cells and apart.** -/
theorem refersApart_pack (small : (pack contents).length < 2 ^ 31) :
    RefersApart contents.length (pack contents) where
  before_cells := by
    intro i hi start length found
    obtain ⟨long, rfl, rfl⟩ := eq_of_reference?_pack small hi found
    have inside := textStart_add_length_le_area hi long
    rw [cellPlace_pack]
    omega
  apart := by
    intro i hi j hj ne start length start' length' found found'
    obtain ⟨long, rfl, rfl⟩ := eq_of_reference?_pack small hi found
    obtain ⟨long', rfl, rfl⟩ := eq_of_reference?_pack small hj found'
    rcases Nat.lt_or_gt_of_ne ne with before | behind
    · have ends := textStart_add_length_le_textStart hi long before
      omega
    · have ends := textStart_add_length_le_textStart hj long' behind
      omega

end

end Archive

/-! ## Archives of forms -/

namespace Forms

open Archive

theorem ofArchive?_toArchive {forms : Forms} (small : forms.toArchive.length < 2 ^ 31) :
    ofArchive? forms.toArchive = some forms := by
  have contents : unpack? Case.oblique.length forms.toArchive = some (forms.toList.map ofText) :=
    unpack?_pack small
  have texts : (forms.toList.map ofText).mapM toText? = some forms.toList := by
    have read : ∀ t ∈ forms.toList, (toText? ∘ ofText) t = some (id t) :=
      fun t _ => toText?_ofText t
    rw [List.mapM_map, mapM_eq_some_map read, List.map_id]
  rw [ofArchive?, contents, Option.bind_eq_bind, Option.bind_some, texts, Option.bind_eq_bind,
    Option.bind_some, Oblique.ofList?_toList]

/-- **An archive keeps the forms of a name.** The forms are read back from it, so different forms have
different archives. Just the cells of texts of more than seven bytes refer to bytes elsewhere; those
stand before the cells, and what different cells refer to has no byte in common. -/
theorem toArchive_faithful (forms : Forms) (small : forms.toArchive.length < 2 ^ 31) :
    ofArchive? forms.toArchive = some forms ∧
    (∀ other : Forms, other.toArchive = forms.toArchive ↔ other = forms) ∧
    (∀ i (h : i < forms.toList.length),
      reference? forms.toArchive (cellPlace 5 forms.toArchive i) ≠ none ↔
        7 < (ofText forms.toList[i]).length) ∧
    RefersApart 5 forms.toArchive := by
  refine ⟨ofArchive?_toArchive small, fun other => ⟨?_, ?_⟩, ?_, refersApart_pack small⟩
  · intro same
    have read := ofArchive?_toArchive (same ▸ small : other.toArchive.length < 2 ^ 31)
    rw [same, ofArchive?_toArchive small] at read
    exact (Option.some.inj read).symm
  · rintro rfl
    rfl
  · intro i h
    have inside : i < (forms.toList.map ofText).length := by rwa [List.length_map]
    have text : (forms.toList.map ofText)[i] = ofText forms.toList[i] := List.getElem_map _
    have referred := reference?_pack_ne_none_iff small inside
    rw [text, isLong_eq_true_iff] at referred
    exact referred

/-- Of the forms of this name only the instrumental is too long for its cell, by one byte. -/
theorem toArchive_faithful_yan :
    (toArchive ⟨"Яна".toList, "Яну".toList, "Яна".toList, "Яном".toList, "Яне".toList⟩).length <
        2 ^ 31 ∧
      ofArchive? (toArchive
          ⟨"Яна".toList, "Яну".toList, "Яна".toList, "Яном".toList, "Яне".toList⟩) =
        some ⟨"Яна".toList, "Яну".toList, "Яна".toList, "Яном".toList, "Яне".toList⟩ := by
  have small : (toArchive
      ⟨"Яна".toList, "Яну".toList, "Яна".toList, "Яном".toList, "Яне".toList⟩).length < 2 ^ 31 := by
    decide +kernel
  exact ⟨small, (toArchive_faithful _ small).1⟩

end Forms

end NameDeclension
