import SavedBasic.Decode
import SavedBasic.Draft
import SavedBasic.Text.Runs

/-!
# A sample of names, comments and values

Material for everything below the level of instructions: names for an identifier table in memory, a file
with an identifier table, comments with a run in the middle, and a sequence of values. The total adds up
what comes back when all of it is read.
-/

namespace SavedBasic.Sample

open Assembly

/-- The sample of size `n`. -/
structure Names where
  /-- the names for a table in memory -/
  names : List Name
  /-- a file with an identifier table -/
  file : Bytes
  /-- the offsets of the entries of its table -/
  offsets : List Nat
  /-- shortened comments -/
  comments : List Bytes
  /-- how often the values are repeated -/
  repetitions : Nat
  /-- the values -/
  values : Bytes

namespace Names

/-- The name at a position: each seventh is a number, the others are repeated up to three times. -/
def nameAt (i : Nat) : Name :=
  if i % 7 = 0 then .number i
  else .bytes (List.replicate (1 + i % 3) (ascii ("V" ++ Text.Numeral.decimal i))).flatten

/-- The comment at a position. -/
def commentAt (i : Nat) : Bytes :=
  ascii "head " ++ [Text.runMark, UInt8.ofNat (1 + i % 200), 0x41] ++ ascii " tail"

/-- One value of each kind. -/
def record : Bytes :=
  Bytes.u8 7 ++ Bytes.u16 7 ++ Bytes.u32 7 ++ Bytes.u64 7 ++ Bytes.u32 0x3FC00000 ++
    Bytes.u64 0x4004000000000000 ++ Bytes.packed (ascii "hello")

/-- Adds names one after another. Gives their offsets. -/
def addAll : List Key → Draft → Except Fault (List Nat × Draft)
  | [], d => .ok ([], d)
  | key :: rest, d => do
    let (offset, d) ← d.addName key
    let (offsets, d) ← addAll rest d
    return (offset :: offsets, d)

/-- The largest number of names in the file. -/
def fileLimit : Nat := 200

/-- The sample of size `n`. -/
def ofSize (n : Nat) : Except Fault Names := do
  let keys := (List.range (min n fileLimit)).map fun i => Key.text ("SYM" ++ Text.Numeral.decimal i)
  let (offsets, d) ← addAll keys (.start .qb45)
  let d ← d.append [op 0]
  let repetitions := max 1 (n / 20)
  return {
    names := (List.range n).map nameAt
    file := d.bytes
    offsets := offsets
    comments := ((List.range n).filter (· % 50 = 0)).map commentAt
    repetitions := repetitions
    values := (List.replicate repetitions record).flatten }

/-- The lengths of the names that a table in memory gives back. -/
def sizeInMemory : List Name → SymbolTable → Except Fault Nat
  | [], _ => .ok 0
  | name :: rest, table => do
    let (_, id, table) ← table.add name
    return id.render.length + (← sizeInMemory rest table)

/-- The lengths of the names at the given offsets of a file. -/
def sizeInFile : List Nat → Decode Nat
  | [] => return 0
  | offset :: rest => do
    let id ← Decode.identifierAt offset
    return id.render.length + (← sizeInFile rest)

/-- The size of a number without its fraction. -/
def wholePart (x : Binary64) : Nat :=
  match x.value with
  | .finite _ significand exponent =>
    if 0 ≤ exponent then significand * Nat.pow 2 exponent.toNat
    else significand / Nat.pow 2 (-exponent).toNat
  | _ => 0

/-- The sum of the values: integers as they are, the others without their fractions, and the length of
the text. -/
def sumOfValues : Nat → Decode Nat
  | 0 => return 0
  | n + 1 => do
    let integers := (← Decode.byte) + (← Decode.word) + (← Decode.dword) + (← Decode.qword)
    let single := Binary64.ofBits32 (← Decode.dword)
    let double : Binary64 := ⟨← Decode.qword⟩
    let text ← Decode.packed
    return integers + wholePart single + wholePart double + text.length + (← sumOfValues n)

/-- What comes back when everything is read. The names of the file are looked up twice, so that those
that are already known are read as well. -/
def total (sample : Names) : Except Fault Nat := do
  let start := Decode.State.start .qb45
  let inMemory ← sizeInMemory sample.names start.symbols
  let inFile ← (sizeInFile (sample.offsets ++ sample.offsets) (.ofBytes sample.file) 0 start).result
  let comments := (sample.comments.map fun c => (Text.expandRuns c).length).foldl (· + ·) 0
  let values ← (sumOfValues sample.repetitions (.ofBytes sample.values) 0 start).result
  return inMemory + inFile + comments + values

end Names

end SavedBasic.Sample
