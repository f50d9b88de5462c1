import SavedBasic.Bytes

/-!
# Numerals

How integers are written in decimal, octal and hexadecimal, and which byte strings are read as an
integer: blanks around it, a sign, and decimal digits among which single underscores may stand.
-/

namespace SavedBasic.Text.Numeral

/-- The decimal numeral of a number, without leading zeros. -/
def decimal (n : Nat) : String :=
  String.ofList (Nat.toDigits 10 n)

/-- The decimal numeral of an integer. -/
def signed : Int → String
  | .ofNat n => decimal n
  | .negSucc n => "-" ++ decimal (n + 1)

/-- The octal numeral of a number. -/
def octal (n : Nat) : String :=
  String.ofList (Nat.toDigits 8 n)

/-- The hexadecimal numeral of a number, in upper case. -/
def hexadecimal (n : Nat) : String :=
  String.ofList ((Nat.toDigits 16 n).map Char.toUpper)

/-- The numeral of a number with zeros in front up to the given number of digits. -/
def zeroPadded (width : Nat) (numeral : String) : String :=
  String.ofList (List.replicate (width - numeral.length) '0') ++ numeral

/-- Space, tabulators, line feed, form feed and carriage return. -/
def isSpace (b : UInt8) : Bool :=
  b == 0x20 || (0x09 ≤ b && b ≤ 0x0D)

/-- The value of a decimal digit. -/
def digit? (b : UInt8) : Option Nat :=
  if 0x30 ≤ b && b ≤ 0x39 then some (b.toNat - 0x30) else none

/-- The digits of a numeral whose last digit has been read: a digit may follow at once or after one
underscore. -/
def moreDigits? : Bytes → Option (List Nat)
  | [] => some []
  | b :: rest =>
    match digit? b with
    | some d => (moreDigits? rest).map (d :: ·)
    | none =>
      if b == 0x5F then
        match rest with
        | [] => none
        | c :: rest => (digit? c).bind fun d => (moreDigits? rest).map (d :: ·)
      else none

/-- The digits of an unsigned numeral, of which there is at least one. -/
def digits? : Bytes → Option (List Nat)
  | [] => none
  | b :: rest => (digit? b).bind fun d => (moreDigits? rest).map (d :: ·)

/-- The longest numeral that is read as a number. -/
def maxDigits : Nat := 4300

/-- The number of an unsigned numeral. -/
def natural? (bytes : Bytes) : Option Nat :=
  (digits? bytes).bind fun digits =>
    if digits.length ≤ maxDigits then some (digits.foldl (fun n d => 10 * n + d) 0) else none

/-- The integer of a numeral with a sign in front of it, or without one. -/
def withSign? : Bytes → Option Int
  | 0x2D :: rest => (natural? rest).map fun n : Nat => -(n : Int)
  | 0x2B :: rest => (natural? rest).map fun n : Nat => (n : Int)
  | rest => (natural? rest).map fun n : Nat => (n : Int)

/-- The integer that a byte string spells, if it spells one. -/
def integer? (bytes : Bytes) : Option Int :=
  withSign? ((bytes.dropWhile isSpace).reverse.dropWhile isSpace).reverse

end SavedBasic.Text.Numeral
