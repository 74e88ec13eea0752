/-
# NameDeclension.Archive.Bytes — numbers and texts as bytes

Numbers take a fixed number of bytes, the least significant first. Texts are in UTF-8.
-/
import NameDeclension.Text

namespace NameDeclension.Archive

/-- A row of bytes. -/
abbrev Bytes := List UInt8

/-! ## Numbers -/

/-- The `width` bytes of a number, the least significant first; what does not fit is dropped. -/
def littleEndian : Nat → Nat → Bytes
  | 0, _ => []
  | width + 1, n => UInt8.ofNat (n % 256) :: littleEndian width (n / 256)

/-- The number that bytes stand for, the least significant first. -/
def ofLittleEndian : Bytes → Nat
  | [] => 0
  | byte :: bytes => byte.toNat + 256 * ofLittleEndian bytes

@[simp] theorem length_littleEndian (width n : Nat) : (littleEndian width n).length = width := by
  induction width generalizing n with
  | zero => rfl
  | succ width ih => simp [littleEndian, ih]

/-- Of a number that is written in `width` bytes, the remainder by 256^width is read back. -/
theorem ofLittleEndian_littleEndian (width n : Nat) :
    ofLittleEndian (littleEndian width n) = n % Nat.pow 256 width := by
  induction width generalizing n with
  | zero => simp [littleEndian, ofLittleEndian, Nat.mod_one]
  | succ width ih =>
    have byte : (UInt8.ofNat (n % 256)).toNat = n % 256 := by
      rw [UInt8.toNat_ofNat']
      exact Nat.mod_mod n 256
    show ofLittleEndian (littleEndian (width + 1) n) = n % (Nat.pow 256 width * 256)
    rw [littleEndian, ofLittleEndian, ih, byte, Nat.mul_comm (Nat.pow 256 width), Nat.mod_mul]

/-- The top part of the number stands in the last byte. -/
theorem getLast?_littleEndian (width n : Nat) :
    (littleEndian (width + 1) n).getLast? =
      some (UInt8.ofNat (n / Nat.pow 256 width % 256)) := by
  induction width generalizing n with
  | zero => simp [littleEndian]
  | succ width ih =>
    have shift : n / Nat.pow 256 (width + 1) = n / 256 / Nat.pow 256 width := by
      show n / (Nat.pow 256 width * 256) = _
      rw [Nat.mul_comm, Nat.div_div_eq_div_mul]
    rw [littleEndian, littleEndian, List.getLast?_cons_cons, ← littleEndian, ih, shift]

/-- The number of 32 bits that stands for the distance `n` backwards. -/
def backwards (n : Nat) : Nat := (UInt32.size - n % UInt32.size) % UInt32.size

theorem backwards_eq_sub {n : Nat} (pos : 0 < n) (small : n < UInt32.size) :
    backwards n = UInt32.size - n := by
  unfold backwards UInt32.size at *
  omega

theorem backwards_backwards (n : Nat) : backwards (backwards n) = n % UInt32.size := by
  unfold backwards UInt32.size
  omega

/-! ## Texts -/

/-- The bytes of a text. -/
def ofText (t : Text) : Bytes := t.flatMap String.utf8EncodeChar

/-- The text of bytes, if they are one. -/
def toText? (bytes : Bytes) : Option Text :=
  (ByteArray.utf8Decode? ⟨bytes.toArray⟩).map Array.toList

/-- A text is read back from its bytes. -/
theorem toText?_ofText (t : Text) : toText? (ofText t) = some t := by
  have bytes : (⟨(ofText t).toArray⟩ : ByteArray) = List.utf8Encode t := by
    apply ByteArray.ext
    simp [ofText, List.utf8Encode]
  simp [toText?, bytes]

end NameDeclension.Archive
