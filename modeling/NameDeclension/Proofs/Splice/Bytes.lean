/-
# NameDeclension.Proofs.Splice.Bytes — endings put on a stored word

A text is stored in UTF-8, where a character takes one to four bytes. A hyphen is looked for among the
bytes of the written ending, the characters before it are counted, and the word, which is another text
with other widths, is cut at the byte where the first character to go begins. So three counts meet, and
bytes that are cut anywhere else are no text.

That never happens. No other character holds the byte of a hyphen (`hyphen_not_mem_ofText`), and the
bytes before the start of a character are those of the characters before it (`take_startOf`).
`splicing_exact` says what an ending does to the characters of a word, be it shorter than the cut, and
that the same comes of it in bytes.
-/
import NameDeclension.Archive.Bytes
import NameDeclension.Proofs.Splice.Endings

namespace NameDeclension

namespace Archive

/-! ## Where characters begin -/

theorem ofText_append (a b : Text) : ofText (a ++ b) = ofText a ++ ofText b :=
  List.flatMap_append

/-- The bytes at which the characters of a text begin, if the text begins at `start`. -/
def starts (start : Nat) : Text → List Nat
  | [] => []
  | c :: t => start :: starts (start + c.utf8Size) t

/-- The **byte at which the character `i` begins**, the first one being number 0. Behind the last
character it is the end of the text. -/
def startOf (t : Text) (i : Nat) : Nat := ((starts 0 t)[i]?).getD (ofText t).length

theorem length_starts (start : Nat) (t : Text) : (starts start t).length = t.length := by
  induction t generalizing start with
  | nil => rfl
  | cons c t ih => rw [starts, List.length_cons, ih, List.length_cons]

theorem getElem?_starts {t : Text} {i : Nat} (h : i < t.length) (start : Nat) :
    (starts start t)[i]? = some (start + (ofText (t.take i)).length) := by
  induction t generalizing i start with
  | nil => exact absurd h (Nat.not_lt_zero i)
  | cons c t ih =>
    cases i with
    | zero => rfl
    | succ i =>
      have width : (ofText (c :: t.take i)).length = c.utf8Size + (ofText (t.take i)).length := by
        rw [ofText, List.flatMap_cons, List.length_append, String.length_utf8EncodeChar, ofText]
      rw [starts, List.getElem?_cons_succ, ih (Nat.lt_of_succ_lt_succ h), List.take_succ_cons,
        width, Nat.add_assoc]

theorem startOf_eq (t : Text) (i : Nat) : startOf t i = (ofText (t.take i)).length := by
  unfold startOf
  rcases Nat.lt_or_ge i t.length with inside | past
  · rw [getElem?_starts inside, Nat.zero_add, Option.getD_some]
  · have none_there : (starts 0 t)[i]? = none := List.getElem?_eq_none (by rwa [length_starts])
    rw [none_there, Option.getD_none, List.take_of_length_le past]

/-- **The bytes before the start of a character are those of the characters before it.** -/
theorem take_startOf (t : Text) (i : Nat) : (ofText t).take (startOf t i) = ofText (t.take i) := by
  have split : ofText t = ofText (t.take i) ++ ofText (t.drop i) := by
    rw [← ofText_append, List.take_append_drop]
  rw [split, startOf_eq, List.take_left]

/-! ## The hyphen among bytes -/

/-- The byte of a hyphen. -/
def hyphen : UInt8 := 0x2D

/-- The place of the last hyphen among bytes. -/
def lastHyphen? : Bytes → Option Nat
  | [] => none
  | byte :: bytes =>
    match lastHyphen? bytes with
    | some i => some (i + 1)
    | none => if byte = hyphen then some 0 else none

theorem lastHyphen?_of_not_mem {bytes : Bytes} (h : hyphen ∉ bytes) : lastHyphen? bytes = none := by
  induction bytes with
  | nil => rfl
  | cons byte bytes ih =>
    rw [List.mem_cons, not_or] at h
    rw [lastHyphen?, ih h.2]
    exact if_neg (Ne.symm h.1)

theorem lastHyphen?_append_hyphen (before : Bytes) {behind : Bytes} (h : hyphen ∉ behind) :
    lastHyphen? (before ++ hyphen :: behind) = some before.length := by
  induction before with
  | nil =>
    rw [List.nil_append, lastHyphen?, lastHyphen?_of_not_mem h]
    exact if_pos rfl
  | cons byte before ih => rw [List.cons_append, lastHyphen?, ih, List.length_cons]

/-- A character is its one byte, or has only bytes from 0x80 on. -/
theorem eq_or_le_of_mem_utf8EncodeChar {c : Char} {byte : UInt8}
    (h : byte ∈ String.utf8EncodeChar c) : byte.toNat = c.toNat ∨ 0x80 ≤ byte.toNat := by
  unfold String.utf8EncodeChar at h
  simp only at h
  split at h
  · left
    rw [List.mem_singleton.mp h, UInt8.toNat_ofNat']
    show c.val.toNat % 256 = c.val.toNat
    omega
  · -- the first byte of two or more is at least 0xC0, and the others are at least 0x80
    right
    split at h
    · simp only [List.mem_cons, List.not_mem_nil, or_false] at h
      rcases h with rfl | rfl <;> simp <;> omega
    · split at h
      · simp only [List.mem_cons, List.not_mem_nil, or_false] at h
        rcases h with rfl | rfl | rfl <;> simp <;> omega
      · simp only [List.mem_cons, List.not_mem_nil, or_false] at h
        rcases h with rfl | rfl | rfl | rfl <;> simp <;> omega

/-- **Only a hyphen holds the byte of a hyphen.** -/
theorem hyphen_not_mem_ofText {t : Text} (h : '-' ∉ t) : hyphen ∉ ofText t := by
  intro among
  obtain ⟨c, hc, hbyte⟩ := List.mem_flatMap.mp among
  rcases eq_or_le_of_mem_utf8EncodeChar hbyte with one | wide
  · have code : '-'.toNat = c.toNat := one
    exact h (Char.toNat_inj.mp code ▸ hc)
  · exact absurd wide (by decide)

theorem ofText_append_hyphen (before ending : Text) :
    ofText (before ++ '-' :: ending) = ofText before ++ hyphen :: ofText ending :=
  ofText_append before ('-' :: ending)

end Archive

open Archive (Bytes toText?)

/-! ## Endings in bytes -/

/-- The **ending that stored bytes write down**, if there is a text on both sides of the last
hyphen. -/
def Splice.ofBytes? (source : Bytes) : Option Splice :=
  match Archive.lastHyphen? source with
  | none => (toText? source).map fun ending => ⟨0, ending⟩
  | some i =>
    match toText? (source.take i), toText? (source.drop (i + 1)) with
    | some before, some ending => some ⟨before.length + 1, ending⟩
    | _, _ => none

/-- **The bytes of a written ending say what its characters say.** -/
theorem Splice.ofBytes?_ofText (source : Text) :
    ofBytes? (Archive.ofText source) = some (ofText source) := by
  rcases exists_last_hyphen source with plain | ⟨before, ending, rfl, plain⟩
  · rw [ofBytes?, Archive.lastHyphen?_of_not_mem (Archive.hyphen_not_mem_ofText plain),
      ofText_of_not_mem plain]
    simp only [Archive.toText?_ofText, Option.map_some]
  · have behind := Archive.hyphen_not_mem_ofText plain
    rw [ofBytes?, Archive.ofText_append_hyphen, Archive.lastHyphen?_append_hyphen _ behind,
      ofText_append_hyphen before plain]
    simp only [List.take_left, Archive.toText?_ofText, List.drop_length_add_append,
      List.drop_succ_cons, List.drop_zero]

/-- The hyphen is the second of these characters, so it cuts two, and the third of their bytes. -/
example :
    Archive.lastHyphen? (Archive.ofText "я-ом".toList) = some 2 ∧
      Splice.ofBytes? (Archive.ofText "я-ом".toList) = some ⟨2, "ом".toList⟩ := by
  decide +kernel

/-- The bytes of the spelling before the first of its last `n` characters. -/
def Word.truncatedBytes (w : Word) (n : Nat) : Bytes :=
  (Archive.ofText w.spelling).take (Archive.startOf w.spelling (w.spellingLength - n))

theorem Word.truncatedBytes_eq (w : Word) (n : Nat) :
    w.truncatedBytes n = Archive.ofText (w.truncated n) :=
  Archive.take_startOf w.spelling _

/-- The bytes of the word with the ending put on. -/
def Splice.applyBytes (splice : Splice) (w : Word) : Bytes :=
  w.truncatedBytes splice.drop ++ Archive.ofText splice.ending

theorem Splice.applyBytes_eq (splice : Splice) (w : Word) :
    splice.applyBytes w = Archive.ofText (splice.apply w) := by
  rw [applyBytes, Word.truncatedBytes_eq, apply, Archive.ofText_append]

/-! ## Putting endings on words -/

/-- **Endings do to every word what their written form says.** The last hyphen of the written form
divides it; it cuts one character for itself and one for each character before it, and adds what follows
it. Of the spelling as many characters are kept as are left after the cut, none if it is longer, and the
ending stands behind them. Found among bytes, the ending is the same, and the bytes kept are a text, the
characters that are kept. Each case of a paradigm gets the form with its own ending, and the longest cut
is the least number that none of its cuts exceeds. -/
theorem splicing_exact :
    (∀ (source : Text) (drop : Nat) (ending : Text), Splice.ofText source = ⟨drop, ending⟩ ↔
      '-' ∉ ending ∧ (source = ending ∧ drop = 0 ∨
        ∃ before, source = before ++ '-' :: ending ∧ drop = before.length + 1)) ∧
    (∀ source : Text, Splice.ofBytes? (Archive.ofText source) = some (Splice.ofText source)) ∧
    (∀ (w : Word) (n : Nat), w.truncated n = w.spelling.take (w.spelling.length - n) ∧
      toText? (w.truncatedBytes n) = some (w.truncated n)) ∧
    (∀ (splice : Splice) (w : Word),
      splice.apply w = w.spelling.take (w.spelling.length - splice.drop) ++ splice.ending ∧
      toText? (splice.applyBytes w) = some (splice.apply w)) ∧
    (∀ (sources : Oblique Text) (w : Word), ((Paradigm.ofTexts sources).forms w).entries =
      Case.oblique.zip (sources.toList.map fun source => (Splice.ofText source).apply w)) ∧
    ∀ (paradigm : Paradigm) (n : Nat),
      paradigm.maxDrop ≤ n ↔ ∀ splice ∈ paradigm.toList, splice.drop ≤ n := by
  refine ⟨fun _ _ _ => Splice.ofText_eq_iff, Splice.ofBytes?_ofText, fun w n => ⟨rfl, ?_⟩,
    fun splice w => ⟨rfl, ?_⟩, Paradigm.entries_forms_ofTexts, fun _ _ => Paradigm.maxDrop_le_iff⟩
  · rw [Word.truncatedBytes_eq, Archive.toText?_ofText]
  · rw [Splice.applyBytes_eq, Archive.toText?_ofText]

end NameDeclension
