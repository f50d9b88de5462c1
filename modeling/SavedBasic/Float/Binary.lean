import SavedBasic.Bytes
import SavedBasic.Fault

/-!
# Binary floating point

A floating-point number is kept as its bit pattern in the 64-bit interchange format. A 32-bit pattern
is widened, which loses nothing. A rational number is rounded to the nearest number of either format,
a tie going to the even significand.
-/

namespace SavedBasic

/-- A number of the 64-bit interchange format, as its bit pattern. -/
structure Binary64 where
  /-- the bit pattern: sign, eleven bits of exponent, 52 bits of fraction -/
  bits : Nat
deriving DecidableEq

namespace Binary64

/-- What a bit pattern stands for. -/
inductive Value where
  /-- not a number -/
  | nan
  /-- an infinity -/
  | infinite (negative : Bool)
  /-- the number `significand * 2 ^ exponent`, with its sign -/
  | finite (negative : Bool) (significand : Nat) (exponent : Int)

/-- The exponent of the smallest positive number. -/
def minExponent : Int := -1074

/-- Whether the sign bit is set. -/
def isNegative (x : Binary64) : Bool :=
  x.bits / Nat.pow 2 63 % 2 == 1

/-- The meaning of a bit pattern. -/
def value (x : Binary64) : Value :=
  let biased := x.bits / Nat.pow 2 52 % Nat.pow 2 11
  let fraction := x.bits % Nat.pow 2 52
  if biased = 2047 then
    if fraction = 0 then .infinite x.isNegative else .nan
  else if biased = 0 then .finite x.isNegative fraction minExponent
  else .finite x.isNegative (Nat.pow 2 52 + fraction) (minExponent + (biased - 1 : Nat))

/-- The number of a 32-bit pattern. -/
def ofBits32 (bits : Nat) : Binary64 :=
  let sign := bits / Nat.pow 2 31 % 2 * Nat.pow 2 63
  let biased := bits / Nat.pow 2 23 % Nat.pow 2 8
  let fraction := bits % Nat.pow 2 23
  if biased = 255 then ⟨sign + 2047 * Nat.pow 2 52 + fraction * Nat.pow 2 29⟩
  else if biased = 0 then
    if fraction = 0 then ⟨sign⟩
    else
      let top := Nat.log2 fraction
      ⟨sign + (top + 874) * Nat.pow 2 52 + (fraction - Nat.pow 2 top) * Nat.pow 2 (52 - top)⟩
  else ⟨sign + (biased + 896) * Nat.pow 2 52 + fraction * Nat.pow 2 29⟩

end Binary64

/-- A binary interchange format. -/
structure BinaryFormat where
  /-- the number of bits of the fraction -/
  fractionBits : Nat
  /-- the number of bits of the exponent -/
  exponentBits : Nat

namespace BinaryFormat

/-- The 32-bit format. -/
def single : BinaryFormat := ⟨23, 8⟩

/-- The 64-bit format. -/
def double : BinaryFormat := ⟨52, 11⟩

/-- The exponent of the smallest positive number of the format. -/
def minExponent (format : BinaryFormat) : Int :=
  2 - (Nat.pow 2 (format.exponentBits - 1) : Nat) - format.fractionBits

/-- The quotient rounded to the nearest natural number, a tie to the even one. -/
def roundDiv (num den : Nat) : Nat :=
  let q := num / den
  let r := num % den
  if 2 * r < den || (2 * r == den && q % 2 == 0) then q else q + 1

/-- The largest `e` with `2 ^ e ≤ num / den`, for positive `num` and `den`. -/
def floorLog2 (num den : Nat) : Int :=
  let guess : Int := (Nat.log2 num : Int) - Nat.log2 den
  let reached : Bool :=
    if 0 ≤ guess then den * Nat.pow 2 guess.toNat ≤ num else den ≤ num * Nat.pow 2 (-guess).toNat
  if reached then guess else guess - 1

/-- The bit pattern, without sign, of the number nearest to `num / den`. -/
def round (format : BinaryFormat) (num den : Nat) : Except Fault Nat :=
  if num = 0 then .ok 0
  else
    let exponent := max (floorLog2 num den - format.fractionBits) format.minExponent
    let significand :=
      if 0 ≤ exponent then roundDiv num (den * Nat.pow 2 exponent.toNat)
      else roundDiv (num * Nat.pow 2 (-exponent).toNat) den
    let unit := Nat.pow 2 format.fractionBits
    let bits :=
      if significand < unit then significand
      else ((exponent - format.minExponent).toNat + 1) * unit + (significand - unit)
    if bits < (Nat.pow 2 format.exponentBits - 1) * unit then .ok bits else .error .tooLarge

/-- The bit pattern with sign of the decimal number `mantissa * 10 ^ exponent`. -/
def ofDecimal (format : BinaryFormat) (mantissa : Int) (exponent : Int) : Except Fault Nat :=
  let size := mantissa.natAbs
  let magnitude :=
    if 0 ≤ exponent then format.round (size * Nat.pow 10 exponent.toNat) 1
    else format.round size (Nat.pow 10 (-exponent).toNat)
  let sign := if mantissa < 0 then Nat.pow 2 (format.fractionBits + format.exponentBits) else 0
  magnitude.map (· + sign)

/-- The 32-bit pattern of the number nearest to a 64-bit one. -/
def narrow (x : Binary64) : Except Fault Nat :=
  let sign := if x.isNegative then Nat.pow 2 31 else 0
  match x.value with
  | .nan => .ok (sign + 255 * Nat.pow 2 23 + Nat.pow 2 22)
  | .infinite _ => .ok (sign + 255 * Nat.pow 2 23)
  | .finite _ significand exponent =>
    let magnitude :=
      if 0 ≤ exponent then single.round (significand * Nat.pow 2 exponent.toNat) 1
      else single.round significand (Nat.pow 2 (-exponent).toNat)
    magnitude.map (· + sign)

end BinaryFormat

end SavedBasic
