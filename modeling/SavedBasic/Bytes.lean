/-!
# Byte strings and their numbers

A byte string is a list of bytes. Saved programs store numbers of fixed width, least significant
byte first in the files of the PC family and most significant byte first in the Macintosh ones. This
module holds both readings, the writer of the first, and the packed string: a length word, the bytes,
and one byte of filling when the length is odd.
-/

namespace SavedBasic

/-- A byte string. -/
abbrev Bytes := List UInt8

namespace Bytes

/-- The number written by the bytes, least significant byte first. -/
def toNatLE : Bytes → Nat
  | [] => 0
  | b :: rest => b.toNat + 256 * toNatLE rest

/-- The number written by the bytes, most significant byte first. -/
def toNatBE (bytes : Bytes) : Nat :=
  toNatLE bytes.reverse

/-- The `width` lowest bytes of a number, least significant byte first. -/
def ofNatLE : (width : Nat) → Nat → Bytes
  | 0, _ => []
  | width + 1, n => UInt8.ofNat n :: ofNatLE width (n / 256)

/-- The `width` lowest bytes of an integer in two's complement, least significant byte first. -/
def ofIntLE (width : Nat) (n : Int) : Bytes :=
  ofNatLE width (n % Nat.pow 256 width).toNat

/-- The `width` lowest bytes of a number, most significant byte first. -/
def ofNatBE (width n : Nat) : Bytes :=
  (ofNatLE width n).reverse

/-- One byte. -/
def u8 (n : Int) : Bytes :=
  ofIntLE 1 n

/-- A word of two bytes. -/
def u16 (n : Int) : Bytes :=
  ofIntLE 2 n

/-- A double word of four bytes. -/
def u32 (n : Int) : Bytes :=
  ofIntLE 4 n

/-- A quadruple word of eight bytes. -/
def u64 (n : Int) : Bytes :=
  ofIntLE 8 n

/-- A packed string: the length word, the bytes, and one zero byte if their number is odd. -/
def packed (text : Bytes) : Bytes :=
  u16 text.length ++ text ++ List.replicate (text.length % 2) 0

@[simp] theorem length_ofNatLE (width n : Nat) : (ofNatLE width n).length = width := by
  induction width generalizing n with
  | zero => rfl
  | succ width ih => simp [ofNatLE, ih]

@[simp] theorem length_ofIntLE (width : Nat) (n : Int) : (ofIntLE width n).length = width := by
  simp [ofIntLE]

/-- Reading what was written gives the number back, up to the width. -/
theorem toNatLE_ofNatLE (width n : Nat) : toNatLE (ofNatLE width n) = n % Nat.pow 256 width := by
  induction width generalizing n with
  | zero => simp [ofNatLE, toNatLE, Nat.pow, Nat.mod_one]
  | succ width ih =>
    have hb : (UInt8.ofNat n).toNat = n % 256 := UInt8.toNat_ofNat'
    simp only [ofNatLE, toNatLE, ih, hb]
    change _ = n % (Nat.pow 256 width * 256)
    rw [Nat.mul_comm (Nat.pow 256 width), Nat.mod_mul]

end Bytes

end SavedBasic
