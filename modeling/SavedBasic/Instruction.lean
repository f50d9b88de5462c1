import SavedBasic.Instruction.Builtins
import SavedBasic.Instruction.Control
import SavedBasic.Instruction.Graphics
import SavedBasic.Instruction.InputOutput
import SavedBasic.Instruction.Lines
import SavedBasic.Instruction.Operators
import SavedBasic.Instruction.Procedures
import SavedBasic.Instruction.Variables

/-!
# From words to instructions

From version 4.5 on, the opcode is the ten lowest bits of an instruction word and the parameter the six
others. Version 4.0 has nine and seven bits and its own numbering: the type of a variable is part of the
opcode there, and so are small integers. Its opcodes are brought into the common numbering by a table of
ranges; two of them have no counterpart.
-/

namespace SavedBasic.Instruction

open Decode

/-- All opcodes of the common numbering. -/
def table : Table :=
  lines ++ storage ++ declarations ++ procedures ++ control ++ events ++ output ++ input ++ files ++
    graphics ++ operators ++ objects ++ builtins

/-- What an instruction word asks for. -/
inductive Operation where
  /-- an opcode of the common numbering with its parameter -/
  | common (code parameter : Nat)
  /-- the declaration at the end of the line is a `DIM` -/
  | dimension
  /-- an array on the stack is declared by `DIM` -/
  | dimensionArray (type : Nat)
  /-- nothing -/
  | undefined

/-- How a range of opcodes is brought into the common numbering. -/
inductive Renumbering where
  /-- the opcodes keep their distances -/
  | shift
  /-- one opcode, with the distance as its parameter -/
  | spread
  /-- one opcode, with the given parameter -/
  | fixed (parameter : Nat)

/-- The ranges of opcodes of version 4.0: first and last opcode, the first opcode of the common
numbering, and how to get there. -/
def oldRanges : List (Nat × Nat × Nat × Renumbering) :=
  [(0x000, 0x00A, 0x000, .shift), (0x00B, 0x010, 0x00B, .spread), (0x011, 0x016, 0x00C, .spread),
   (0x017, 0x01C, 0x00D, .spread), (0x01D, 0x022, 0x00E, .spread), (0x023, 0x028, 0x00F, .spread),
   (0x029, 0x02E, 0x010, .spread), (0x02F, 0x034, 0x011, .spread), (0x035, 0x03A, 0x012, .spread),
   (0x03B, 0x041, 0x015, .shift), (0x045, 0x130, 0x01C, .shift), (0x131, 0x131, 0x108, .fixed 4),
   (0x132, 0x132, 0x109, .shift), (0x133, 0x133, 0x108, .fixed 1), (0x134, 0x134, 0x108, .fixed 2),
   (0x135, 0x136, 0x10A, .shift), (0x137, 0x137, 0x108, .fixed 3), (0x138, 0x18F, 0x10C, .shift),
   (0x190, 0x19A, 0x164, .spread), (0x19B, 0x1AF, 0x165, .shift)]

/-- The operation of an opcode of version 4.0. -/
def oldOperation (code parameter : Nat) : Operation :=
  if code = 0x042 then .dimension
  else if code = 0x044 then .dimensionArray parameter
  else
    match oldRanges.find? fun (first, last, _) => first ≤ code && code ≤ last with
    | some (first, _, target, .shift) => .common (target + (code - first)) parameter
    | some (first, _, target, .spread) => .common target (code - first)
    | some (_, _, target, .fixed parameter) => .common target parameter
    | none => .undefined

/-- The opcode of an instruction word, in the version's own numbering. -/
def codeOf (v : Version) (word : Nat) : Nat :=
  if v = .qb40 then word % 512 else word % 1024

/-- The operation of an instruction word. -/
def operation (v : Version) (word : Nat) : Operation :=
  if v.lastOpcode < codeOf v word then .undefined
  else if v = .qb40 then oldOperation (word % 512) (word / 512)
  else .common (word % 1024) (word / 1024)

/-- Performs the instruction of a word that has been read. -/
def perform (v : Version) (word : Nat) : Decode Unit :=
  match operation v word with
  | .common code parameter =>
    match table.lookup code with
    | some handler => handler v parameter
    | none => throw (.invalidOpcode (codeOf v word))
  | .dimension => dimension
  | .dimensionArray type => dimensionArray v type
  | .undefined => throw (.invalidOpcode (codeOf v word))

/-- Reads an instruction word and performs its instruction. -/
def step (v : Version) : Decode Unit := do
  perform v (← word)

end SavedBasic.Instruction
