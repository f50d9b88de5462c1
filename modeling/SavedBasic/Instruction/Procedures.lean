import SavedBasic.Instruction.Handler

/-!
# Procedures and function definitions

The opcodes that announce, begin, end and call procedures, and those of `DEF FN`. A parameter record
holds a name, a word of modes and a type; from version 7.1 on one more word follows.
-/

namespace SavedBasic.Instruction

open Decode

/-- The word that parameter records have from version 7.1 on. -/
def skipExtraWord (v : Version) : Decode Unit :=
  if v.atLeast .qb71 then skipWords 1 else pure ()

/-- The bit of the modes that marks an array. -/
def arrayBit : Nat := 10

/-- The bit of the modes that marks a type behind `AS`. -/
def asBit : Nat := 13

/-- The bit of the modes that marks a suffix. -/
def suffixBit : Nat := 9

/-- A parameter of an announced procedure, which always shows its type. -/
def declaredParameter (v : Version) : Decode Parameter := do
  let name ← identifier
  let mode ← word
  let type ← dataType v (← word)
  skipExtraWord v
  return { name := name, type := some type, isArray := mode.testBit arrayBit }

/-- A parameter of a procedure, which shows its type if it was written behind `AS`. -/
def headerParameter (v : Version) : Decode Parameter := do
  let name ← identifier
  let mode ← word
  let type ← word
  let type ← if mode.testBit asBit then some <$> dataType v type else pure none
  skipExtraWord v
  return { name := name, type := type, isArray := mode.testBit arrayBit }

/-- A parameter of a function definition, which has a type behind `AS`, a suffix, or neither. -/
def functionParameter (v : Version) : Decode Parameter := do
  let name ← identifier
  let mode ← word
  let type ← word
  skipExtraWord v
  if mode.testBit asBit then
    return { name := name, type := some (.scalar (← given (v.scalar type))), isArray := false }
  else if mode.testBit suffixBit then
    return { name := name.withSuffix (← given (v.scalar type)), type := none, isArray := false }
  else return { name := name, type := none, isArray := false }

/-- As many parameters as the count says. -/
def parameters (one : Decode Parameter) : Nat → Decode (List Parameter)
  | 0 => return []
  | n + 1 => do
    let p ← one
    return p :: (← parameters one n)

/-- A name and its flags; the suffix is the type in the `width` lowest bits, if bit 7 is set. -/
def flaggedName (v : Version) (width : Nat) (check : Nat → Decode Unit) :
    Decode (Identifier × Nat) := do
  let name ← identifier
  let flags ← word
  check flags
  if flags.testBit 7 then
    return (name.withSuffix (← given (v.scalar (flags % Nat.pow 2 width : Nat))), flags)
  return (name, flags)

/-- The kind of an announced procedure: bit 8 marks a `SUB`, bit 9 a `FUNCTION`. -/
def kindOfFlags (flags : Nat) : Except Fault ProcedureKind :=
  match flags.testBit 8, flags.testBit 9 with
  | true, false => .ok .sub
  | false, true => .ok .function
  | _, _ => .error (.invalidFlags flags)

/-- `DECLARE`: the head, the parameters, and the name in other programs. -/
def declareProcedure (v : Version) : Decode Unit := do
  skipWords 1
  let (name, flags) ← flaggedName v 3 fun flags => do
    let _ ← given (kindOfFlags flags)
  let kind ← given (kindOfFlags flags)
  let count ← word
  let params ← if count = 0xFFFF then pure none else some <$> parameters (declaredParameter v) count
  let length := flags / 1024 % 32
  let externalName ← bytes length
  let _ ← bytes (length % 2)
  put (.declare
    { kind := kind, name := name, params := params, cdecl := flags.testBit 15
      externalName := externalName })

/-- The head of a procedure. The procedure itself learns its kind from it. -/
def procedureHeader (v : Version) (kind : ProcedureKind) (name : Identifier) : Decode Unit := do
  let params ← parameters (headerParameter v) (← word)
  modifyProcedure fun p => { p with kind := some kind }
  put (.procedure
    { kind := kind, name := name, params := params, static := (← procedure).static
      staticFirst := v.atLeast .vbdos })

/-- A call with its arguments. -/
def callWith (form : CallForm) : Decode Unit := do
  let count ← word
  let name ← identifier
  let args ← popMany count
  put (.call form name args)

/-- The opcodes of procedures. -/
def procedures : Table :=
  [(0x0026, always do
      closeFn (.value (← pop))
      skipWords 2),
   (0x0037, always <| callWith .explicit),
   (0x0038, always <| callWith .implicit),
   (0x0039, always <| callWith .far),
   (0x0044, fun v _ => declareProcedure v),
   (0x0045, fun v _ => do
      skipWords 2
      let (name, _) ← flaggedName v 4 fun _ => pure ()
      let params ← parameters (functionParameter v) (← word)
      openFn { name := name, params := params, parentheses := v = .vbdos, definition := none }),
   (0x004F, always do
      put (.endOf .defFn)
      skipWords 2),
   (0x0051, always do
      match (← procedure).kind with
      | some kind => put (.endOf (.procedure kind))
      | none => throw .brokenPromise),
   (0x0055, always do
      match ← exitBlock with
      | some block => put (.exitFrom block)
      | none => throw .brokenPromise
      skipWords 1),
   (0x0058, fun v _ => do
      skipWords 1
      let (name, _) ← flaggedName v 3 fun _ => pure ()
      procedureHeader v .function name),
   (0x0076, fun v _ => do
      skipWords 1
      let name ← identifier
      skipWords 1
      procedureHeader v .sub name)]

end SavedBasic.Instruction
