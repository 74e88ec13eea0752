/-
# NameDeclension.Proofs.Pattern.Grammar — what a text is read as

The notation of slots as a grammar, stated without the reader. A slot has many written forms, since
bangs may be repeated and may stand where they say nothing (`WrittenAs`). A text is read as a row of
slots when it is a written form of each, one after another, then bangs that negate nothing, then a
rest with which no slot can begin (`ReadsAs`).

The grammar leaves no choice: `parse_eq_iff` says that what the reader finds is a reading of the text
and its only one. So reading stops nowhere but at the end or at a bad bracket, and a row that can be
written is read back as it was. `parse_exact` says both.
-/
import Mathlib.Data.List.Forall2
import NameDeclension.Pattern.Slot

namespace NameDeclension

namespace Slot

/-! ## Brackets -/

/-- Whether a character opens or closes a class. -/
def isBracket (c : Char) : Bool := c == '[' || c == ']'

/-- The brackets of a text, in order. -/
def brackets (t : Text) : Text := t.filter isBracket

theorem brackets_cons_of_isBracket {c : Char} (h : isBracket c = true) (t : Text) :
    brackets (c :: t) = c :: brackets t :=
  List.filter_cons_of_pos h

theorem brackets_append_of_not_isBracket {text : Text} (h : ∀ c ∈ text, isBracket c = false)
    (t : Text) : brackets (text ++ t) = brackets t := by
  have none_here : text.filter isBracket = [] :=
    List.filter_eq_nil_iff.mpr fun c hc => Bool.eq_false_iff.mp (h c hc)
  rw [brackets, List.filter_append, none_here, List.nil_append, brackets]

/-- A text has a first bracket or none. -/
theorem exists_first_bracket (t : Text) :
    ∃ inside rest, t = inside ++ rest ∧ (∀ c ∈ inside, isBracket c = false) ∧
      (rest = [] ∨ (∃ more, rest = '[' :: more) ∨ ∃ more, rest = ']' :: more) := by
  induction t with
  | nil => exact ⟨[], [], rfl, fun c hc => absurd hc List.not_mem_nil, .inl rfl⟩
  | cons c t ih =>
    by_cases bracket : isBracket c = true
    · refine ⟨[], c :: t, rfl, fun d hd => absurd hd List.not_mem_nil, .inr ?_⟩
      have either : c = '[' ∨ c = ']' := by simpa [isBracket] using bracket
      rcases either with rfl | rfl
      · exact .inl ⟨t, rfl⟩
      · exact .inr ⟨t, rfl⟩
    · obtain ⟨inside, rest, rfl, plain, first⟩ := ih
      refine ⟨c :: inside, rest, rfl, ?_, first⟩
      exact List.forall_mem_cons.mpr ⟨Bool.eq_false_iff.mpr bracket, plain⟩

/-! ## Classes -/

/-- Inside a class, what is no bracket is a member unless it is a bang. -/
theorem readMembers_append {inside : Text} (plain : ∀ c ∈ inside, isBracket c = false) (t : Text) :
    readMembers (inside ++ t) =
      (readMembers t).map fun found => (inside.filter (fun c => c != '!') ++ found.1, found.2) := by
  induction inside with
  | nil => simp
  | cons c inside ih =>
    rw [List.forall_mem_cons] at plain
    have other : c ≠ '[' ∧ c ≠ ']' := by simpa [isBracket] using plain.1
    rw [List.cons_append, readMembers, if_neg other.2, if_neg other.1, ih plain.2]
    cases readMembers t with
    | none => rfl
    | some found => by_cases bang : c = '!' <;> simp [bang]

/-- A class without brackets inside is read up to the bracket that closes it. -/
theorem readMembers_append_close {inside : Text} (plain : ∀ c ∈ inside, isBracket c = false)
    (t : Text) :
    readMembers (inside ++ ']' :: t) = some (inside.filter (fun c => c != '!'), read false t) := by
  simp [readMembers_append plain, readMembers]

/-- **A class is read if and only if the next bracket closes it.** -/
theorem readMembers_cases (t : Text) :
    (∃ inside rest, t = inside ++ ']' :: rest ∧ ∀ c ∈ inside, isBracket c = false) ∨
      (brackets t).head? ≠ some ']' ∧ readMembers t = none := by
  obtain ⟨inside, rest, rfl, plain, rfl | ⟨more, rfl⟩ | ⟨more, rfl⟩⟩ := exists_first_bracket t
  · right
    rw [brackets_append_of_not_isBracket plain, readMembers_append plain]
    exact ⟨(Option.some_ne_none _).symm, rfl⟩
  · right
    rw [brackets_append_of_not_isBracket plain, brackets_cons_of_isBracket (by decide),
      readMembers_append plain]
    exact ⟨by simp, rfl⟩
  · exact .inl ⟨inside, more, rfl, plain⟩

/-! ## The grammar -/

/-- A **run of bangs.** -/
def bangs (n : Nat) : Text := List.replicate n '!'

theorem bangs_succ (n : Nat) : bangs (n + 1) = '!' :: bangs n := rfl

theorem bangs_append_bang (n : Nat) (t : Text) : bangs n ++ '!' :: t = bangs (n + 1) ++ t := by
  rw [bangs, bangs, List.replicate_succ', List.append_assoc, List.singleton_append]

theorem not_isBracket_of_mem_bangs {n : Nat} : ∀ c ∈ bangs n, isBracket c = false := by
  intro c hc
  rw [List.eq_of_mem_replicate hc]
  rfl

/-- **`slot.WrittenAs piece`** — the piece is a written form of the slot: a run of bangs, which may be
empty, and behind it what the slot takes. -/
inductive WrittenAs : Slot → Text → Prop where
  /-- A hyphen leaves the letter open, whether there are bangs or not. -/
  | wildcard (n : Nat) : WrittenAs .wildcard (bangs n ++ ['-'])
  /-- A letter that is no sign stands for itself and is negated if there are bangs. -/
  | literal (n : Nat) {letter : Char} (plain : letter ∉ special) :
    WrittenAs (.literal letter (decide (0 < n))) (bangs n ++ [letter])
  /-- A class holds no bracket; its members are what it holds without the bangs. It is negated if
  there are bangs before it. -/
  | oneOf (n : Nat) {inside : Text} (plain : ∀ c ∈ inside, isBracket c = false) :
    WrittenAs (.oneOf (inside.filter fun c => c != '!') (decide (0 < n)))
      (bangs n ++ '[' :: inside ++ [']'])

/-- **No slot begins with the text**: it is empty, or it begins with a bad bracket, a `]` or a `[` whose
next bracket is another `[` or is missing. -/
def StopsReading : Text → Prop
  | [] => True
  | c :: rest => c = ']' ∨ c = '[' ∧ (brackets rest).head? ≠ some ']'

/-- **`ReadsAs t slots left`** — the text is made of one piece for each slot, in order, then a run of
bangs, then a rest with which no slot begins. -/
def ReadsAs (t : Text) (slots : List Slot) (left : Text) : Prop :=
  ∃ pieces n, t = pieces.flatten ++ bangs n ++ left ∧ List.Forall₂ WrittenAs slots pieces ∧
    StopsReading left

theorem ReadsAs.stop (n : Nat) {left : Text} (h : StopsReading left) :
    ReadsAs (bangs n ++ left) [] left :=
  ⟨[], n, rfl, .nil, h⟩

theorem ReadsAs.cons {slot : Slot} {piece t left : Text} {slots : List Slot}
    (h : slot.WrittenAs piece) (more : ReadsAs t slots left) :
    ReadsAs (piece ++ t) (slot :: slots) left := by
  obtain ⟨pieces, n, rfl, hpieces, hleft⟩ := more
  refine ⟨piece :: pieces, n, ?_, .cons h hpieces, hleft⟩
  rw [List.flatten_cons, List.append_assoc, List.append_assoc, List.append_assoc]

/-! ## What is written is read -/

theorem read_bangs_append (n : Nat) (negated : Bool) (t : Text) :
    read negated (bangs n ++ t) = read (negated || decide (0 < n)) t := by
  induction n generalizing negated with
  | zero => simp [bangs]
  | succ n ih =>
    rw [bangs_succ, List.cons_append, read, if_pos rfl, ih]
    simp

/-- **A written form at the head of a text is read as its slot**, whatever follows it. -/
theorem WrittenAs.read_append {slot : Slot} {piece : Text} (h : slot.WrittenAs piece) (t : Text) :
    read false (piece ++ t) = (slot :: (read false t).1, (read false t).2) := by
  cases h with
  | wildcard n => simp [read_bangs_append, read]
  | @literal n letter plain =>
    simp [read_bangs_append, read, not_mem_special_iff.mp plain]
  | oneOf n plain =>
    have members := readMembers_append_close plain t
    simp [read_bangs_append, read, members]

theorem StopsReading.read_eq {left : Text} (h : StopsReading left) (negated : Bool) :
    read negated left = ([], left) := by
  cases left with
  | nil => rfl
  | cons c rest =>
    rcases h with rfl | ⟨rfl, next⟩
    · simp [read]
    · -- a class that was read would end at the next bracket
      have unread : readMembers rest = none := by
        rcases readMembers_cases rest with ⟨inside, after, rfl, plain⟩ | ⟨-, unread⟩
        · rw [brackets_append_of_not_isBracket plain, brackets_cons_of_isBracket (by decide)] at next
          exact absurd rfl next
        · exact unread
      simp [read, unread]

/-- **Written forms one after another are read as their slots**, whatever follows them. -/
theorem read_flatten_append {slots : List Slot} {pieces : List Text}
    (h : List.Forall₂ WrittenAs slots pieces) (t : Text) :
    read false (pieces.flatten ++ t) = (slots ++ (read false t).1, (read false t).2) := by
  induction h with
  | nil => rfl
  | cons hpiece _ ih =>
    rw [List.flatten_cons, List.append_assoc, hpiece.read_append, ih, List.cons_append]

theorem ReadsAs.parse_eq {t left : Text} {slots : List Slot} (h : ReadsAs t slots left) :
    parse t = (slots, left) := by
  obtain ⟨pieces, n, rfl, hpieces, hleft⟩ := h
  rw [parse, List.append_assoc, read_flatten_append hpieces, read_bangs_append, hleft.read_eq,
    List.append_nil]

/-! ## What is read is written -/

/-- What is read behind a run of bangs, which belongs to the next slot or, with none, to no slot. -/
theorem readsAs_read (n : Nat) (t : Text) :
    ReadsAs (bangs n ++ t) (read (decide (0 < n)) t).1 (read (decide (0 < n)) t).2 := by
  match t with
  | [] => exact .stop n trivial
  | c :: rest =>
    rw [read]
    by_cases bang : c = '!'
    · rw [if_pos bang, bang, bangs_append_bang]
      simpa using readsAs_read (n + 1) rest
    rw [if_neg bang]
    by_cases dash : c = '-'
    · rw [if_pos dash, dash, ← List.singleton_append, ← List.append_assoc]
      exact .cons (.wildcard n) (readsAs_read 0 rest)
    rw [if_neg dash]
    by_cases opening : c = '['
    · rw [if_pos opening, opening]
      rcases readMembers_cases rest with ⟨inside, after, rfl, plain⟩ | ⟨next, unread⟩
      · have joined : bangs n ++ '[' :: (inside ++ ']' :: after) =
            (bangs n ++ '[' :: inside ++ [']']) ++ after := by simp
        rw [readMembers_append_close plain, joined]
        exact .cons (.oneOf n plain) (readsAs_read 0 after)
      · rw [unread]
        exact .stop n (.inr ⟨rfl, next⟩)
    rw [if_neg opening]
    by_cases close : c = ']'
    · rw [if_pos close]
      exact .stop n (.inl close)
    · rw [if_neg close, ← List.singleton_append, ← List.append_assoc]
      have plain : c ∉ special := not_mem_special_iff.mpr ⟨opening, close, bang, dash⟩
      exact .cons (.literal n plain) (readsAs_read 0 rest)
  termination_by t.length

/-- **The reader finds a reading of the text.** -/
theorem readsAs_parse (t : Text) : ReadsAs t (parse t).1 (parse t).2 :=
  readsAs_read 0 t

/-- **Every text has one reading.** -/
theorem parse_eq_iff {t left : Text} {slots : List Slot} :
    parse t = (slots, left) ↔ ReadsAs t slots left := by
  constructor
  · intro h
    have found := readsAs_parse t
    rwa [h] at found
  · exact ReadsAs.parse_eq

/-! ## Rows that can be written -/

/-- **`slot.IsWritable`** — the notation can say what the slot says: its letter is no sign, and its
members are neither brackets nor bangs. -/
def IsWritable : Slot → Prop
  | .wildcard => True
  | .literal letter _ => letter ∉ special
  | .oneOf members _ => ∀ c ∈ members, isBracket c = false ∧ c ≠ '!'

instance : DecidablePred IsWritable
  | .wildcard => inferInstanceAs (Decidable True)
  | .literal letter _ => inferInstanceAs (Decidable (letter ∉ special))
  | .oneOf members _ => List.decidableBAll (fun c => isBracket c = false ∧ c ≠ '!') members

theorem IsWritable.writtenAs_write {slot : Slot} (h : slot.IsWritable) :
    slot.WrittenAs slot.write := by
  cases slot with
  | wildcard => exact .wildcard 0
  | literal letter negated =>
    cases negated with
    | false => exact .literal 0 h
    | true => exact .literal 1 h
  | oneOf members negated =>
    have plain : ∀ c ∈ members, isBracket c = false := fun c hc => (h c hc).1
    have all_members : members.filter (fun c => c != '!') = members := by
      rw [List.filter_eq_self]
      exact fun c hc => bne_iff_ne.mpr (h c hc).2
    cases negated with
    | false =>
      have written := WrittenAs.oneOf 0 plain
      rwa [all_members] at written
    | true =>
      have written := WrittenAs.oneOf 1 plain
      rwa [all_members] at written

/-- The written row is a reading of itself. -/
theorem readsAs_writeAll {slots : List Slot} (h : ∀ slot ∈ slots, slot.IsWritable) :
    ReadsAs (writeAll slots) slots [] := by
  induction slots with
  | nil => exact .stop 0 trivial
  | cons slot slots ih =>
    rw [List.forall_mem_cons] at h
    exact .cons h.1.writtenAs_write (ih h.2)

/-- **The reader and the notation say the same.** A row that can be written is read back with nothing
left over. Any text at all is read as a row and a rest, and as these and no others: the ones for which
the text is a written form of each slot, a run of bangs, and the rest, with which no slot begins. -/
theorem parse_exact :
    (∀ slots, (∀ slot ∈ slots, slot.IsWritable) → parse (writeAll slots) = (slots, [])) ∧
      ∀ t slots left, parse t = (slots, left) ↔ ReadsAs t slots left :=
  ⟨fun _ writable => (readsAs_writeAll writable).parse_eq, fun _ _ _ => parse_eq_iff⟩

/-- In a class the hyphen is a member and a bang is none; the last run of bangs belongs to no slot. -/
theorem parse_exact_signs :
    (∀ slot ∈ [oneOf ['а', '-'] true, wildcard, literal 'х' true], slot.IsWritable) ∧
      parse "![а-]-!х".toList = ([oneOf ['а', '-'] true, wildcard, literal 'х' true], []) ∧
      ReadsAs "!!а[!б-]!-![в[".toList [literal 'а' true, oneOf ['б', '-'] false, wildcard]
        "[в[".toList := by
  have writable : ∀ slot ∈ [oneOf ['а', '-'] true, wildcard, literal 'х' true], slot.IsWritable := by
    decide
  exact ⟨writable, parse_exact.1 _ writable, (parse_exact.2 _ _ _).mp rfl⟩

end Slot

end NameDeclension
