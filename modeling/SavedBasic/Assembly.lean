import SavedBasic.Draft.SymbolArea

/-!
# Writing instructions

An instruction is a word with an opcode and a parameter, and its operands behind it. Operands that are
names are written as offsets into the identifier table, which gets those that are new in the order in
which they are met.
-/

namespace SavedBasic.Assembly

/-- An operand of an instruction. -/
inductive Operand where
  /-- a byte -/
  | byte (n : Int)
  /-- a word -/
  | word (n : Int)
  /-- a double word -/
  | dword (n : Int)
  /-- a quadruple word -/
  | qword (n : Int)
  /-- a packed string -/
  | text (bytes : Bytes)
  /-- bytes as they are -/
  | raw (bytes : Bytes)
  /-- the offset of a name -/
  | name (id : String)
  /-- the offset of a line number -/
  | line (n : Nat)

/-- An instruction to be written. -/
structure Instr where
  /-- the opcode -/
  code : Int
  /-- the parameter -/
  parameter : Int
  /-- the operands -/
  operands : List Operand

/-- The bytes of an operand, and the table with its name. -/
def Operand.write : Operand → SymbolArea → Except Fault (Bytes × SymbolArea)
  | byte n, area => .ok (Bytes.u8 n, area)
  | word n, area => .ok (Bytes.u16 n, area)
  | dword n, area => .ok (Bytes.u32 n, area)
  | qword n, area => .ok (Bytes.u64 n, area)
  | text bytes, area => .ok (Bytes.packed bytes, area)
  | raw bytes, area => .ok (bytes, area)
  | name id, area => (area.add (.text id)).map fun (offset, area) => (Bytes.u16 offset, area)
  | line n, area => (area.add (.number n)).map fun (offset, area) => (Bytes.u16 offset, area)

/-- The bytes of operands one after another, and the table with their names. -/
def writeOperands : List Operand → SymbolArea → Except Fault (Bytes × SymbolArea)
  | [], area => .ok ([], area)
  | operand :: rest, area => do
    let (first, area) ← operand.write area
    let (rest, area) ← writeOperands rest area
    return (first ++ rest, area)

/-- The instruction word of an opcode of ten bits and a parameter of six. -/
def instructionWord (code parameter : Int) : Int :=
  code % 1024 + parameter % 64 * 1024

/-- The bytes of an instruction, and the table with its names. -/
def Instr.write (i : Instr) (area : SymbolArea) : Except Fault (Bytes × SymbolArea) := do
  let (operands, area) ← writeOperands i.operands area
  return (Bytes.u16 (instructionWord i.code i.parameter) ++ operands, area)

/-- The bytes of instructions one after another, and the table with their names. -/
def write : List Instr → SymbolArea → Except Fault (Bytes × SymbolArea)
  | [], area => .ok ([], area)
  | i :: rest, area => do
    let (first, area) ← i.write area
    let (rest, area) ← write rest area
    return (first ++ rest, area)

/-! ## Instructions by what they do -/

/-- The bytes of a text without special characters. -/
def ascii (text : String) : Bytes :=
  text.toList.map fun c => UInt8.ofNat c.toNat

/-- An opcode alone. -/
def op (code : Int) : Instr :=
  ⟨code, 0, []⟩

/-- An opcode with operands. -/
def opOf (code : Int) (operands : List Operand) : Instr :=
  ⟨code, 0, operands⟩

/-- An opcode with a parameter, which often is a type, and operands. -/
def typed (code parameter : Int) (operands : List Operand) : Instr :=
  ⟨code, parameter, operands⟩

/-- Pushes an integer. Small ones fit into the instruction word. -/
def int (n : Int) : Instr :=
  if 0 ≤ n ∧ n < 64 then ⟨0x164, n, []⟩ else ⟨0x165, 0, [.word n]⟩

/-- Pushes a string. -/
def str (text : String) : Instr :=
  ⟨0x16D, 0, [.text (ascii text)]⟩

/-- Pushes a variable. -/
def load (name : String) : Instr :=
  ⟨0x00B, 0, [.name name]⟩

/-- Assigns to a variable. -/
def store (name : String) : Instr :=
  ⟨0x00C, 0, [.name name]⟩

/-- Names a variable in a declaration. -/
def declare (name : String) : Instr :=
  ⟨0x00D, 0, [.name name]⟩

/-- A line without a label. -/
def line (instructions : List Instr) : List Instr :=
  op 0x000 :: instructions

end SavedBasic.Assembly
