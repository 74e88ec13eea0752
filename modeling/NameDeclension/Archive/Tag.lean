/-
# NameDeclension.Archive.Tag — archives of enumerations

A value of an enumeration is archived as one byte, its number. An archive is read from its end, so
bytes before the last do not matter.
-/
import NameDeclension.Archive.Bytes
import NameDeclension.Enumeration

namespace NameDeclension.Enumeration

variable {α : Type} [Enumeration α]

/-- The archive of a value: one byte. -/
def toArchive [BEq α] (x : α) : Archive.Bytes := [UInt8.ofNat (number x)]

/-- The value whose number is the last byte of an archive. -/
def ofArchive? (bytes : Archive.Bytes) : Option α :=
  bytes.getLast?.bind fun byte => ofNumber? byte.toNat

end NameDeclension.Enumeration
