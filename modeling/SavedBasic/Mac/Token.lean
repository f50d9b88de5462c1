import SavedBasic.Float.Shortest
import SavedBasic.Mac.Keyword
import SavedBasic.Source

/-!
# Tokens of the Macintosh format

A line is a sequence of tokens that ends with a zero byte. A token is a printable character, a keyword,
a literal, or a reference to the identifier table. Its text is appended to the text of the line; three
keywords look at what the line ends with.
-/

namespace SavedBasic.Mac

open Text

/-- The three forms of a reference to the identifier table. -/
inductive Reference where
  /-- a variable -/
  | variable
  /-- a label -/
  | label
  /-- a reference with a double word -/
  | wide
deriving DecidableEq

/-- The forms of a decimal number, by their widths. -/
inductive DecimalForm where
  | byte
  | word
  | dword
  /-- a double word with the suffix of long integers -/
  | long
deriving DecidableEq

/-- A token. -/
inductive Token where
  /-- a printable character -/
  | char (c : Char)
  /-- a reference to the identifier table -/
  | name (form : Reference) (index : Nat)
  /-- a mark without a text -/
  | silent (n : Nat)
  /-- an octal number -/
  | octal (n : Nat)
  /-- a hexadecimal number -/
  | hexadecimal (n : Nat)
  /-- a hexadecimal number with the suffix of long integers -/
  | longHexadecimal (n : Nat)
  /-- a decimal number -/
  | decimal (form : DecimalForm) (n : Nat)
  /-- the bit pattern of a number of single precision -/
  | single (bits : Nat)
  /-- the bit pattern of a number of double precision -/
  | double (bits : Nat)
  /-- a keyword of one byte, or a byte without a meaning -/
  | byte (code : Nat)
  /-- a keyword of two bytes, or two bytes without a meaning -/
  | pair (lead code : Nat)
deriving DecidableEq

/-- The byte at a position. -/
def byteAt (src : Source) (pos : Nat) : Except Fault Nat :=
  match src.data[pos]? with
  | some b => .ok b.toNat
  | none => .error .noByte

namespace Token

/-! ## Bytes -/

/-- A token made from a number behind its first byte, and the position behind it. -/
def withNumber (src : Source) (pos width : Nat) (make : Nat → Token) : Except Fault (Token × Nat) :=
  (src.natBE (pos + 1) width).map fun n => (make n, pos + 1 + width)

/-- A token made from a byte behind its first byte, and the position behind it. -/
def withByte (src : Source) (pos : Nat) (make : Nat → Token) : Except Fault (Token × Nat) :=
  (byteAt src (pos + 1)).map fun n => (make n, pos + 2)

/-- The token at a position that starts with the given byte, and the position behind it. -/
def read (src : Source) (pos first : Nat) : Except Fault (Token × Nat) :=
  if 32 ≤ first ∧ first ≤ 126 then .ok (char (Char.ofNat first), pos + 1)
  else
    match first with
    | 0x01 => withNumber src pos 2 (name .variable)
    | 0x02 => withNumber src pos 2 (name .label)
    | 0x03 => withNumber src pos 4 (name .wide)
    | 0x08 => withNumber src pos 4 silent
    | 0x0B => withNumber src pos 2 octal
    | 0x0C => withNumber src pos 2 hexadecimal
    | 0x0E => withNumber src pos 4 (decimal .dword)
    | 0x0F => withByte src pos (decimal .byte)
    | 0x1B => withNumber src pos 4 longHexadecimal
    | 0x1C => withNumber src pos 2 (decimal .word)
    | 0x1D => withNumber src pos 4 single
    | 0x1E => withNumber src pos 4 (decimal .long)
    | 0x1F => withNumber src pos 8 double
    | _ =>
      if (pages.lookup first).isSome then withByte src pos (pair first)
      else .ok (byte first, pos + 1)

/-- The bytes of a token. -/
def encode : Token → Bytes
  | char c => [UInt8.ofNat c.toNat]
  | name .variable index => 0x01 :: Bytes.ofNatBE 2 index
  | name .label index => 0x02 :: Bytes.ofNatBE 2 index
  | name .wide index => 0x03 :: Bytes.ofNatBE 4 index
  | silent n => 0x08 :: Bytes.ofNatBE 4 n
  | octal n => 0x0B :: Bytes.ofNatBE 2 n
  | hexadecimal n => 0x0C :: Bytes.ofNatBE 2 n
  | decimal .dword n => 0x0E :: Bytes.ofNatBE 4 n
  | decimal .byte n => 0x0F :: Bytes.ofNatBE 1 n
  | longHexadecimal n => 0x1B :: Bytes.ofNatBE 4 n
  | decimal .word n => 0x1C :: Bytes.ofNatBE 2 n
  | single bits => 0x1D :: Bytes.ofNatBE 4 bits
  | decimal .long n => 0x1E :: Bytes.ofNatBE 4 n
  | double bits => 0x1F :: Bytes.ofNatBE 8 bits
  | byte code => [UInt8.ofNat code]
  | pair lead code => [UInt8.ofNat lead, UInt8.ofNat code]

/-! ## Text -/

/-- The text of bytes without a meaning. -/
def unknown (codes : List Nat) : String :=
  "[unknown symbol " ++
    String.join (codes.map fun code => Numeral.zeroPadded 2 (Numeral.hexadecimal code)) ++ "]"

/-- Whether a text ends with another. -/
def endsWith (text tail : String) : Bool :=
  tail.toList.isSuffixOf text.toList

/-- The text without its last `n` characters. -/
def dropEnd (text : String) (n : Nat) : String :=
  String.ofList (text.toList.take (text.length - n))

/-- The line with the text of a keyword of one byte. `ELSE` takes the place of a colon, and the
apostrophe that of a remark, which are both stored in front of them; the sign behind `WHILE` is not
shown. -/
def appendByte (line : String) (code : Nat) : String :=
  if code = 0x8E ∧ endsWith line ":" then dropEnd line 1 ++ "ELSE"
  else if code = 0xE8 ∧ endsWith line ":REM" then dropEnd line 4 ++ "'"
  else if code = 0xEC ∧ endsWith line "WHILE" then line
  else line ++ (keywords.lookup code).getD (unknown [code])

/-- The line with the text of a token. -/
def append (names : Array String) (line : String) : Token → String
  | char c => line.push c
  | name _ index => line ++ names.getD index ("[unknown variable " ++ Numeral.decimal index ++ "]")
  | silent _ => line
  | octal n => line ++ "&O" ++ Numeral.octal n
  | hexadecimal n => line ++ "&H" ++ Numeral.hexadecimal n
  | longHexadecimal n => line ++ "&H" ++ Numeral.hexadecimal n ++ "&"
  | decimal form n => line ++ Numeral.decimal n ++ (if form = .long then "&" else "")
  | single bits => line ++ (Binary64.ofBits32 bits).text
  | double bits => line ++ Binary64.text ⟨bits⟩ ++ "#"
  | byte code => appendByte line code
  | pair lead code =>
    line ++ (((pages.lookup lead).bind (·.lookup code)).getD (unknown [lead, code]))

/-! ## Progress -/

theorem lt_of_withNumber {src : Source} {pos width : Nat} {make : Nat → Token} {t : Token}
    {fin : Nat} (h : withNumber src pos width make = .ok (t, fin)) : pos < fin := by
  unfold withNumber at h
  cases hn : src.natBE (pos + 1) width <;> simp [hn, Except.map] at h
  omega

theorem lt_of_withByte {src : Source} {pos : Nat} {make : Nat → Token} {t : Token} {fin : Nat}
    (h : withByte src pos make = .ok (t, fin)) : pos < fin := by
  unfold withByte at h
  cases hn : byteAt src (pos + 1) <;> simp [hn, Except.map] at h
  omega

/-- Reading a token moves forward. -/
theorem lt_of_read {src : Source} {pos first : Nat} {t : Token} {fin : Nat}
    (h : read src pos first = .ok (t, fin)) : pos < fin := by
  unfold read at h
  split at h
  · simp at h
    omega
  · split at h
    case _ => exact lt_of_withNumber h
    case _ => exact lt_of_withNumber h
    case _ => exact lt_of_withNumber h
    case _ => exact lt_of_withNumber h
    case _ => exact lt_of_withNumber h
    case _ => exact lt_of_withNumber h
    case _ => exact lt_of_withNumber h
    case _ => exact lt_of_withByte h
    case _ => exact lt_of_withNumber h
    case _ => exact lt_of_withNumber h
    case _ => exact lt_of_withNumber h
    case _ => exact lt_of_withNumber h
    case _ => exact lt_of_withNumber h
    case _ =>
      split at h
      · exact lt_of_withByte h
      · simp at h
        omega

end Token

end SavedBasic.Mac
