import SavedBasic.Float.Binary
import SavedBasic.Text.Numeral
import SavedBasic.Text.Blank

/-!
# The shortest decimal of a floating-point number

The text of a floating-point number has the fewest digits that read back as the same number, and of
the decimals with that many digits it is the nearest one. All arithmetic is on natural numbers: the
number and the two ends of the interval that rounds to it are brought to a common denominator, and the
two neighbours of the number on the grid of one, two, three, … digits are tried.
-/

namespace SavedBasic.Binary64

/-- A positive number with the interval of reals that round to it, all over one denominator. -/
structure Interval where
  /-- the numerator of the lower end -/
  low : Nat
  /-- the numerator of the number -/
  mid : Nat
  /-- the numerator of the upper end -/
  high : Nat
  /-- the common denominator -/
  den : Nat
  /-- whether the ends themselves round to the number -/
  closed : Bool

/-- The interval around `significand * 2 ^ exponent`. Below a power of two the numbers are twice as
dense, so the lower end is nearer there. -/
def interval (significand : Nat) (exponent : Int) : Interval :=
  let below := if significand = Nat.pow 2 52 ∧ minExponent < exponent then 1 else 2
  let shift := exponent - 2
  let scale := if 0 ≤ shift then Nat.pow 2 shift.toNat else 1
  { low := (4 * significand - below) * scale
    mid := 4 * significand * scale
    high := (4 * significand + 2) * scale
    den := if 0 ≤ shift then 1 else Nat.pow 2 (-shift).toNat
    closed := significand % 2 == 0 }

namespace Interval

/-- The numerator and denominator of `num / den` in units of `10 ^ unit`. -/
def inUnits (num den : Nat) (unit : Int) : Nat × Nat :=
  if 0 ≤ unit then (num, den * Nat.pow 10 unit.toNat) else (num * Nat.pow 10 (-unit).toNat, den)

/-- Whether `digits * 10 ^ unit` rounds to the number of the interval. -/
def contains (i : Interval) (unit : Int) (digits : Nat) : Bool :=
  let (low, den) := inUnits i.low i.den unit
  let (high, _) := inUnits i.high i.den unit
  if i.closed then low ≤ digits * den && digits * den ≤ high
  else low < digits * den && digits * den < high

/-- Of the two neighbours of the number on the grid of `10 ^ unit`, the nearest one that rounds to it;
a tie goes to the even one. -/
def onGrid? (i : Interval) (unit : Int) : Option Nat :=
  let (num, den) := inUnits i.mid i.den unit
  let lower := num / den
  match i.contains unit lower, i.contains unit (lower + 1) with
  | true, true => some (BinaryFormat.roundDiv num den)
  | true, false => some lower
  | false, true => some (lower + 1)
  | false, false => none

/-- The largest `e` with `10 ^ e ≤ 1 / n`, counted down from zero; `steps` bounds the search. -/
def negativeMagnitude (num den : Nat) : (steps : Nat) → Nat → Int
  | 0, k => -(k : Int)
  | steps + 1, k =>
    if den ≤ num * Nat.pow 10 k then -(k : Int) else negativeMagnitude num den steps (k + 1)

/-- The decimal exponent of the leading digit of the number. -/
def magnitude (i : Interval) : Int :=
  if i.den ≤ i.mid then (Nat.toDigits 10 (i.mid / i.den)).length - 1
  else negativeMagnitude i.mid i.den 400 1

end Interval

/-- A decimal `digits * 10 ^ exponent`. -/
structure Decimal where
  /-- the digits as a number -/
  digits : Nat
  /-- the power of ten of the last digit -/
  exponent : Int

/-- Tries grids with more and more digits. -/
def shortestFrom (i : Interval) (lead : Int) : (steps : Nat) → (count : Nat) → Decimal
  | 0, count => ⟨(Interval.inUnits i.mid i.den (lead - count + 1)).1, lead - count + 1⟩
  | steps + 1, count =>
    match i.onGrid? (lead - count + 1) with
    | some digits => ⟨digits, lead - count + 1⟩
    | none => shortestFrom i lead steps (count + 1)

/-- The shortest decimal of the positive number `significand * 2 ^ exponent`. Seventeen digits are
always enough. -/
def shortest (significand : Nat) (exponent : Int) : Decimal :=
  let i := interval significand exponent
  shortestFrom i i.magnitude 17 1

/-- The digits without the zeros at their end, and the position of the decimal point counted from
their front. -/
def Decimal.pointed (d : Decimal) : List Char × Int :=
  let all := Nat.toDigits 10 d.digits
  ((all.reverse.dropWhile (· == '0')).reverse, all.length + d.exponent)

/-- Digits with the decimal point at the given position: positional for magnitudes from `10 ^ -4` up
to `10 ^ 16`, otherwise with an exponent of at least two digits. -/
def layOut (digits : List Char) (point : Int) : String :=
  if -4 < point ∧ point ≤ 16 then
    if point ≤ 0 then "0." ++ String.ofList (List.replicate (-point).toNat '0' ++ digits)
    else if digits.length ≤ point.toNat then
      String.ofList (digits ++ List.replicate (point.toNat - digits.length) '0') ++ ".0"
    else String.ofList (digits.take point.toNat ++ '.' :: digits.drop point.toNat)
  else
    let exponent := point - 1
    let mantissa :=
      match digits with
      | first :: second :: rest => first :: '.' :: second :: rest
      | digits => digits
    String.ofList mantissa ++ "e" ++ (if exponent < 0 then "-" else "+") ++
      Text.Numeral.zeroPadded 2 (Text.Numeral.decimal exponent.natAbs)

/-- The text of a floating-point number. -/
def text (x : Binary64) : String :=
  match x.value with
  | .nan => "nan"
  | .infinite negative => if negative then "-inf" else "inf"
  | .finite negative significand exponent =>
    let magnitude :=
      if significand = 0 then "0.0"
      else
        let (digits, point) := (shortest significand exponent).pointed
        layOut digits point
    if negative then "-" ++ magnitude else magnitude

end SavedBasic.Binary64
