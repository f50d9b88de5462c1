import SavedBasic.Bytes
import SavedBasic.Fault

/-!
# Code page 437

Texts inside saved programs of the PC family are written in code page 437. Its lower half is ASCII,
control characters included; its upper half is the table below. Every byte stands for exactly one
character, and no two bytes for the same.
-/

namespace SavedBasic.Text.CodePage

/-- The characters of the bytes 128 to 255. -/
def upperHalf : Array Char :=
  #[
    'Ç', 'ü', 'é', 'â', 'ä', 'à', 'å', 'ç', 'ê', 'ë', 'è', 'ï', 'î', 'ì', 'Ä', 'Å',
    'É', 'æ', 'Æ', 'ô', 'ö', 'ò', 'û', 'ù', 'ÿ', 'Ö', 'Ü', '¢', '£', '¥', '₧', 'ƒ',
    'á', 'í', 'ó', 'ú', 'ñ', 'Ñ', 'ª', 'º', '¿', '⌐', '¬', '½', '¼', '¡', '«', '»',
    '░', '▒', '▓', '│', '┤', '╡', '╢', '╖', '╕', '╣', '║', '╗', '╝', '╜', '╛', '┐',
    '└', '┴', '┬', '├', '─', '┼', '╞', '╟', '╚', '╔', '╩', '╦', '╠', '═', '╬', '╧',
    '╨', '╤', '╥', '╙', '╘', '╒', '╓', '╫', '╪', '┘', '┌', '█', '▄', '▌', '▐', '▀',
    'α', 'ß', 'Γ', 'π', 'Σ', 'σ', 'µ', 'τ', 'Φ', 'Θ', 'Ω', 'δ', '∞', 'φ', 'ε', '∩',
    '≡', '±', '≥', '≤', '⌠', '⌡', '÷', '≈', '°', '∙', '·', '√', 'ⁿ', '²', '■', '\u00a0']

/-- The character of a byte. -/
def toChar (b : UInt8) : Char :=
  if b.toNat < 128 then Char.ofNat b.toNat else upperHalf.getD (b.toNat - 128) ' '

/-- The byte of a character, if the code page has the character. -/
def ofChar? (c : Char) : Option UInt8 :=
  if c.toNat < 128 then some (UInt8.ofNat c.toNat)
  else (upperHalf.findIdx? (· == c)).map fun i => UInt8.ofNat (i + 128)

/-- The text of a byte string. -/
def decode (bytes : Bytes) : String :=
  String.ofList (bytes.map toChar)

/-- The byte string of a text; a character outside the code page cannot be written. -/
def encode (text : String) : Except Fault Bytes :=
  match text.toList.mapM ofChar? with
  | some bytes => .ok bytes
  | none => .error .notEncodable

end SavedBasic.Text.CodePage
