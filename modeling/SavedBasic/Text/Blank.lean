/-!
# Blank characters

The white space of printed lines: the characters with the Unicode property `White_Space` and the four
separator controls U+001C to U+001F. Code page 437 has U+00A0 among its characters, so the wider class
matters for lines of text.
-/

namespace SavedBasic.Text

/-- The ranges of blank characters, in ascending order. -/
def blankRanges : List (Nat × Nat) :=
  [(0x09, 0x0D), (0x1C, 0x20), (0x85, 0x85), (0xA0, 0xA0), (0x1680, 0x1680), (0x2000, 0x200A),
   (0x2028, 0x2029), (0x202F, 0x202F), (0x205F, 0x205F), (0x3000, 0x3000)]

/-- Whether a character is blank. -/
def isBlank (c : Char) : Bool :=
  blankRanges.any fun (first, last) => first ≤ c.toNat && c.toNat ≤ last

/-- The text without the blanks at its end. -/
def trimEnd (text : String) : String :=
  String.ofList (text.toList.reverse.dropWhile isBlank).reverse

/-- A text of `n` spaces. -/
def spaces (n : Nat) : String :=
  String.ofList (List.replicate n ' ')

/-- The text followed by as many spaces as bring it to the given width. -/
def padTo (width : Nat) (text : String) : String :=
  text ++ spaces (width - text.length)

/-- The texts with `separator` between them. -/
def join (separator : String) (texts : List String) : String :=
  String.intercalate separator texts

/-- Drops the empty texts at the end of a list. -/
def dropTrailingEmpty (texts : List String) : List String :=
  (texts.reverse.dropWhile (· == "")).reverse

end SavedBasic.Text
