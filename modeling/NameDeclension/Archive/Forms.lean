/-
# NameDeclension.Archive.Forms — archives of the forms of a name

An archive of five texts ends with five cells of eight bytes, one for each text. A text of at most
seven bytes stands in its cell, with its length in the last byte. A longer one stands before the
cells; its cell holds the length and, as a signed number of 32 bits, the way from the start of the
cell to the start of the text. The long texts come first, in order and without a gap, then zero
bytes up to a multiple of four. The way always leads backwards, so the last byte of the cell of a
long text has its top bit set, and that of a short text has not.
-/
import NameDeclension.Archive.Bytes
import NameDeclension.Grammar.Case

namespace NameDeclension

namespace Archive

/-! ## Writing -/

/-- The number of bytes in a cell. -/
def cellSize : Nat := 8

/-- Whether a text is too long to stand in its cell. -/
def isLong (content : Bytes) : Bool := cellSize - 1 < content.length

/-- The cell in which a short text stands. -/
def shortCell (content : Bytes) : Bytes :=
  content ++ List.replicate (cellSize - 1 - content.length) 0 ++ [UInt8.ofNat content.length]

/-- The cell of a long text that starts `distance` bytes before the cell. -/
def longCell (length distance : Nat) : Bytes :=
  littleEndian 4 length ++ littleEndian 4 (backwards distance)

/-- The cells of texts. The next cell stands at `position`, the next long text at `start`. -/
def cells (start position : Nat) : List Bytes → Bytes
  | [] => []
  | content :: contents =>
    if isLong content then
      longCell content.length (position - start) ++
        cells (start + content.length) (position + cellSize) contents
    else
      shortCell content ++ cells start (position + cellSize) contents

/-- The long texts in order, filled up to a multiple of four. -/
def area (contents : List Bytes) : Bytes :=
  let texts := (contents.filter isLong).flatten
  texts ++ List.replicate ((4 - texts.length % 4) % 4) 0

/-- The **archive of texts.** -/
def pack (contents : List Bytes) : Bytes :=
  area contents ++ cells 0 (area contents).length contents

/-! ## Reading -/

/-- The text of the cell at `position`; `root` is where the cells begin. -/
def cellContent? (bytes : Bytes) (root position : Nat) : Option Bytes :=
  let cell := (bytes.drop position).take cellSize
  match cell.getLast? with
  | none => none
  | some tag =>
    if tag < 128 then
      if tag.toNat < cellSize then some (cell.take tag.toNat) else none
    else
      let length := ofLittleEndian (cell.take 4)
      let distance := backwards (ofLittleEndian (cell.drop 4))
      if distance ≤ position ∧ position - distance + length ≤ root then
        some ((bytes.drop (position - distance)).take length)
      else
        none

/-- The **texts of an archive** of `count` cells. -/
def unpack? (count : Nat) (bytes : Bytes) : Option (List Bytes) :=
  if cellSize * count ≤ bytes.length then
    let root := bytes.length - cellSize * count
    (List.range count).mapM fun i => cellContent? bytes root (root + cellSize * i)
  else
    none

end Archive

/-! ## Forms -/

namespace Forms

/-- The archive of the forms of a name. -/
def toArchive (forms : Forms) : Archive.Bytes := Archive.pack (forms.toList.map Archive.ofText)

/-- The forms of an archive. -/
def ofArchive? (bytes : Archive.Bytes) : Option Forms := do
  let contents ← Archive.unpack? Case.oblique.length bytes
  let texts ← contents.mapM Archive.toText?
  Oblique.ofList? texts

end Forms

end NameDeclension
