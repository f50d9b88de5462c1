import SavedBasic.Instruction.Handler

/-!
# Operators, literals and objects

The opcodes that compute with operands: operators, literals, conversions and the marks for operands
that are present or left out. Version 1.0 of Visual Basic adds objects and their methods.
-/

namespace SavedBasic.Instruction

open Decode

/-- The operators between two operands. -/
def binaryOperators : List (Nat × String) :=
  [(0x0100, "+"), (0x0101, "AND"), (0x0102, "/"), (0x0103, "="), (0x0104, "EQV"), (0x015E, ">="),
   (0x015F, ">"), (0x0160, "\\"), (0x0161, "IMP"), (0x0162, "<="), (0x0163, "<"), (0x016F, "MOD"),
   (0x0170, "*"), (0x0171, "<>"), (0x0175, "OR"), (0x0176, "^"), (0x0177, "-"), (0x0179, "XOR")]

/-- The operators in front of one operand. -/
def unaryOperators : List (Nat × String) :=
  [(0x0174, "NOT"), (0x0178, "-")]

/-- An operator takes its two operands from the stack. -/
def binary (operator : String) : Handler := always do
  let (left, right) ← popTwo
  push (.binary operator left right)

/-- Wraps the topmost operand. -/
def wrap (make : Expr → Expr) : Handler := always do
  push (make (← pop))

/-- A conversion to the type in the parameter, which must not be the string type. -/
def convert : Handler := fun v type => do
  let operand ← pop
  let type ← given (v.scalar type)
  if type = .string then throw .conversionToString
  push (.convert operand type)

/-- The opcodes of operators and literals. -/
def operators : Table :=
  binaryOperators.map (fun (code, operator) => (code, binary operator)) ++
  unaryOperators.map (fun (code, operator) => (code, wrap (.unary operator))) ++
  [(0x0025, wrap .byValue),
   (0x0036, wrap .segmented),
   (0x0108, convert),
   (0x0164, fun _ n => push (.number n)),
   (0x0165, always do
      push (.number (← word))),
   (0x0166, always do
      push (.integer .decimal (← dword) true)),
   (0x0167, always do
      push (.integer .hexadecimal (← word) false)),
   (0x0168, always do
      push (.integer .hexadecimal (← dword) true)),
   (0x0169, always do
      push (.integer .octal (← word) false)),
   (0x016A, always do
      push (.integer .octal (← dword) true)),
   (0x016B, always do
      push (.float (.ofBits32 (← dword)) false)),
   (0x016C, always do
      push (.float ⟨← qword⟩ true)),
   (0x016D, always do
      push (.string (← packed))),
   (0x016E, wrap .parenthesized),
   (0x0172, always <| push .omitted),
   (0x0173, always <| push .mark),
   (0x0185, always do
      push (.currency (← qword)))]

/-! ## Objects -/

/-- The methods of objects. -/
def methodNames : List (Nat × String) :=
  [(0x0000, "ADDITEM"), (0x0001, "CLS"), (0x0002, "HIDE"), (0x0003, "MOVE"), (0x0004, "PRINT"),
   (0x0005, "PRINTFORM"), (0x0006, "REFRESH"), (0x0007, "REMOVEITEM"), (0x0008, "SETFOCUS"),
   (0x0009, "SHOW"), (0x000C, "DRAG"), (0x000D, "CLEAR"), (0x000E, "ENDDOC"), (0x0010, "NEWPAGE"),
   (0x0011, "SETTEXT"), (0x010A, "TEXTHEIGHT"), (0x010B, "TEXTWIDTH"), (0x010F, "GETTEXT")]

/-- A method with so many arguments above its object: the object, the name and the arguments. -/
def methodOf (count : Nat) : Decode (Expr × String × List Expr) := do
  let args ← popMany count
  let target ← pop
  let name ← lookUp methodNames (← word)
  return (target, name, args)

/-- A method called for its effect. -/
def methodCall (count : Nat) : Handler := always do
  let (target, name, args) ← methodOf count
  put (.methodCall target name args)

/-- A method called for its value. -/
def methodValue (count : Nat) : Handler := always do
  let (target, name, args) ← methodOf count
  push (.method target name args)

/-- A method without arguments; the method `PRINT` begins an output statement. -/
def plainMethod : Decode Unit := do
  let (target, name, args) ← methodOf 0
  if name = "PRINT" then put (Statement.emptyPrint .print target)
  else put (.methodCall target name args)

/-- The opcodes of objects. -/
def objects : Table :=
  [(0x01AA, always do
      let type ← identifier
      push (.typeOf (← pop) type)),
   (0x01C1, wrap .object),
   (0x01C7, always <| push .omitted),
   (0x01C8, always <| push .omitted),
   (0x01C9, always plainMethod),
   (0x01CA, methodCall 1),
   (0x01CB, methodCall 1),
   (0x01CC, methodCall 2),
   (0x01CD, methodCall 3),
   (0x01CE, methodCall 4),
   (0x01CF, methodCall 2),
   (0x01D0, methodValue 0),
   (0x01D1, methodValue 1)]

end SavedBasic.Instruction
