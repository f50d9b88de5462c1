import SavedBasic.Text.CodePage

/-!
# Writing identifier tables

The identifier table of a program under construction. A name that is already there keeps its offset; a
new one is written behind the others, filled up to an even length.
-/

namespace SavedBasic

/-- A name to be written. The same letters given as text and as bytes are different names. -/
inductive Key where
  /-- a name given as text -/
  | text (name : String)
  /-- a name given as bytes -/
  | bytes (name : Bytes)
  /-- a line number -/
  | number (n : Int)
deriving DecidableEq

namespace Key

/-- The entry of a name that is not a number. -/
def namedEntry (name : Bytes) : Bytes :=
  [0, 0, 0] ++ Bytes.u8 name.length ++ name ++ List.replicate (name.length % 2) 0

/-- The entry of a name. -/
def entry : Key → Except Fault Bytes
  | text name => (Text.CodePage.encode name).map namedEntry
  | bytes name => .ok (namedEntry name)
  | number n => .ok ([0, 0, 2, 2] ++ Bytes.u16 n)

end Key

/-- An identifier table under construction. -/
structure SymbolArea where
  /-- the entries -/
  bytes : Bytes := []
  /-- the offset of each name, the most recent one first -/
  offsets : List (Key × Nat) := []

/-- Finds a name or adds it. Gives its offset. -/
def SymbolArea.add (area : SymbolArea) (key : Key) : Except Fault (Nat × SymbolArea) :=
  match area.offsets.lookup key with
  | some offset => .ok (offset, area)
  | none =>
    key.entry.map fun entry =>
      (area.bytes.length,
        { bytes := area.bytes ++ entry, offsets := (key, area.bytes.length) :: area.offsets })

end SavedBasic
