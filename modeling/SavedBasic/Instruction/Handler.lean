import SavedBasic.Decode

/-!
# Instructions

An instruction is a word that holds an opcode and a small parameter; data words may follow it. What an
opcode does is a decoding action that depends on the version and on the parameter. The opcodes are
listed in tables, one for each family of statements.
-/

namespace SavedBasic.Instruction

/-- What an opcode does in a version, given its parameter. -/
abbrev Handler := Version → (parameter : Nat) → Decode Unit

/-- Opcodes and what they do. -/
abbrev Table := List (Nat × Handler)

/-- An action that depends neither on the version nor on the parameter. -/
def always (action : Decode Unit) : Handler :=
  fun _ _ => action

/-- The entry of a list at a position that must exist. -/
def choose {α : Type} (choices : List α) (i : Nat) : Decode α :=
  match choices[i]? with
  | some a => pure a
  | none => throw .outOfRange

/-- The value of a key that must be in a table. -/
def lookUp {α : Type} (table : List (Nat × α)) (key : Nat) : Decode α :=
  match table.lookup key with
  | some a => pure a
  | none => throw .unknownKey

end SavedBasic.Instruction
