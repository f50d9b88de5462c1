import SavedBasic.Image
import SavedBasic.Mac.Token

/-!
# The Macintosh format

A file starts with a mark; then come the records of its lines, each with its length in front, up to a
length of zero, and behind them, at an even distance from the mark, the identifier table. The table has
to be found before a line can be written, so the records are gone through twice: once by their lengths
alone, once with their tokens.
-/

namespace SavedBasic.Mac

open Text

/-- The mark of a file that can be listed. -/
def mark : Nat := 0xF1

/-- Why a file with another mark is refused. -/
def refusal (first : Nat) : String :=
  match first with
  | 0xF0 => "Protected Macintosh BASIC file, unable to parse"
  | 0xFC => "QuickBASIC or Visual Basic for MS-DOS binary file, not supported"
  | 0xFD => "GW-BASIC memory dump, not supported"
  | 0xFE => "GW-BASIC protected file or MSX-BASIC memory dump, not supported"
  | 0xFF => "GW-BASIC or MSX-BASIC tokenized file, not supported"
  | _ => "Not a Macintosh BASIC file"

/-- The position behind the word that ends the records. -/
def recordsEnd (src : Source) (offset : Nat) : Except Fault Nat :=
  match h : src.natBE offset 2 with
  | .error fault => .error fault
  | .ok word =>
    if word % 0x8000 = 0 then .ok (offset + 2)
    else
      have := Source.le_size_of_natBE h
      recordsEnd src (offset + word % 0x8000)
termination_by src.size - offset

/-- Bytes as text, which has to be valid. -/
def textOf (bytes : Bytes) : Except Fault String :=
  match String.fromUTF8? ⟨bytes.toArray⟩ with
  | some text => .ok text
  | none => .error .notText

/-- A text with a byte of length in front, and the position behind it. -/
def shortText (src : Source) (pos : Nat) : Except Fault (String × Nat) := do
  let length ← byteAt src pos
  let bytes := src.slice (pos + 1) length
  return (← textOf bytes, pos + 1 + bytes.length)

/-- The names of the identifier table, which goes to the end of the file. -/
def readNames (src : Source) (pos : Nat) : Except Fault (List String) :=
  if _h : pos < src.size then
    match byteAt src pos with
    | .error fault => .error fault
    | .ok length => do
      let bytes := src.slice (pos + 1) length
      let name ← textOf bytes
      return name :: (← readNames src (pos + 1 + bytes.length))
  else .ok []
termination_by src.size - pos

/-- The text of the tokens from a position on, appended to the text of a line. -/
def renderTokens (src : Source) (names : Array String) (pos : Nat) (line : String) : Printed :=
  match _hb : src.data[pos]? with
  | none => .error .noByte
  | some first =>
    if first = 0 then .ok line
    else
      match h : Token.read src pos first.toNat with
      | .error fault => .error fault
      | .ok (token, fin) =>
        have := Token.lt_of_read h
        renderTokens src names fin (token.append names line)
termination_by src.size - pos
decreasing_by
  have := (Array.getElem?_eq_some_iff.1 _hb).1
  simp only [Source.size]
  omega

/-- The text of the record at an offset: its line number, its indentation, its tokens. -/
def renderRecord (src : Source) (names : Array String) (offset : Nat) (numbered : Bool) : Printed := do
  let indent ← byteAt src (offset + 2)
  if numbered then
    let number ← src.natBE (offset + 3) 2
    renderTokens src names (offset + 5) (Numeral.decimal number ++ " " ++ spaces indent)
  else renderTokens src names (offset + 3) (spaces indent)

/-- The lines from the record at an offset on. -/
def renderRecords (src : Source) (names : Array String) (offset : Nat) : Printout :=
  match h : src.natBE offset 2 with
  | .error fault => ⟨[], some fault⟩
  | .ok word =>
    if word % 0x8000 = 0 then ⟨[], none⟩
    else
      match renderRecord src names offset (word.testBit 15) with
      | .error fault => ⟨[], some fault⟩
      | .ok line =>
        have := Source.le_size_of_natBE h
        let rest := renderRecords src names (offset + word % 0x8000)
        ⟨line :: rest.lines, rest.failure⟩
termination_by src.size - offset

/-- The position of the identifier table behind the records: one byte further, or two to keep its
distance from the mark even. -/
def namesStart (fin : Nat) : Nat :=
  if fin % 2 = 0 then fin + 1 else fin + 2

/-- The listing of a file with the right mark. -/
def print (src : Source) : Printout :=
  match (recordsEnd src 1).bind fun fin => readNames src (namesStart fin) with
  | .error fault => ⟨[], some fault⟩
  | .ok names => renderRecords src names.toArray 1

end SavedBasic.Mac
