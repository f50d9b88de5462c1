import SavedBasic.Identifier
import SavedBasic.Source

/-!
# The identifier table

Names are referred to by their offset in the identifier table of a file. An entry has two bytes of
link, a byte of flags, a byte of length, and the name: a number of two bytes if the flag for numbers
is set and the length is two, otherwise as many bytes as the length says. A table in memory remembers
the name of every offset that was looked up, and the last offset of every name.
-/

namespace SavedBasic

/-- The names known so far. -/
structure SymbolTable where
  /-- the name at each known offset, the most recent one first -/
  names : List (Nat × Name) := []
  /-- the last offset of each known name, the most recent one first -/
  offsets : List (Name × Nat) := []
  /-- where the next new name goes -/
  next : Nat := 0x56
  /-- the offset of the instructions, which lie behind the names -/
  codeOffset : Nat
deriving DecidableEq

namespace SymbolTable

/-- The flag of an entry whose name is a number. -/
def numberFlag : Nat := 2

/-- The name of the entry at an absolute position. -/
def entryAt (src : Source) (pos : Nat) : Except Fault Name := do
  let flags ← src.natLE (pos + 2) 1
  let length ← src.natLE (pos + 3) 1
  if flags / numberFlag % 2 = 1 ∧ length = 2 then
    return .number (← src.natLE (pos + 4) 2)
  else
    return .bytes (src.slice (pos + 4) length)

/-- The known name at an offset. -/
def name? (table : SymbolTable) (offset : Nat) : Option Name :=
  table.names.lookup offset

/-- The last known offset of a name. -/
def offset? (table : SymbolTable) (name : Name) : Option Nat :=
  table.offsets.lookup name

/-- Notes that a name stands at an offset. -/
def record (table : SymbolTable) (offset : Nat) (name : Name) : SymbolTable :=
  { table with
    names := (offset, name) :: table.names.filter (·.1 != offset)
    offsets := (name, offset) :: table.offsets.filter (·.1 != name) }

/-- The number of different names. -/
def size (table : SymbolTable) : Nat :=
  table.offsets.length

/-- The known offsets with their names, in ascending order. -/
def sorted (table : SymbolTable) : List (Nat × Name) :=
  table.names.mergeSort fun a b => a.1 ≤ b.1

/-- The number of bytes that an entry takes. -/
def entrySize : Name → Nat
  | .number _ => 6
  | .bytes text => 4 + text.length

/-- Adds a name behind the others; the instructions move up by its size. Gives the offset of the new
entry and the name as it was understood. -/
def add (table : SymbolTable) (name : Name) : Except Fault (Nat × Identifier × SymbolTable) :=
  (Identifier.ofName name none).map fun id =>
    let table' := table.record table.next id.name
    (table.next, id,
      { table' with
        next := table.next + entrySize id.name
        codeOffset := table.codeOffset + entrySize id.name })

/-- Asks for a new entry. Gives the answer and the table behind it, which is the old one when the name
was not understood. -/
def attempt (table : SymbolTable) (name : Name) : Except Fault (Nat × Identifier) × SymbolTable :=
  match table.add name with
  | .ok (offset, id, table') => (.ok (offset, id), table')
  | .error fault => (.error fault, table)

end SymbolTable

end SavedBasic
