import SavedBasic.Instruction.Handler

/-!
# Input, output and files

The opcodes of `PRINT` and its kin, whose lists arrive one part at a time, of `INPUT`, `READ`, `ERASE`
and `FIELD`, which are built up in the same way, and of the statements that open, lock and rename
files.
-/

namespace SavedBasic.Instruction

open Decode

/-! ## Output -/

/-- Whether a statement is an output statement. -/
def isPrint : Statement → Bool
  | .print _ => true
  | _ => false

/-- Changes the output statement at the end of the line. -/
def amendPrint (f : Print → Print) : Decode Unit :=
  amend fun
    | .print p => some (.print (f p))
    | _ => none

/-- Goes on with an output statement, `PRINT` unless another one has begun. -/
def printing : Decode Unit :=
  continueWith isPrint (Statement.emptyPrint .print .omitted)

/-- Adds a part to the output statement at the end of the line. -/
def printPart (part : Decode PrintPart) : Handler := always do
  printing
  amendPrint id
  let part ← part
  amendPrint fun p => { p with parts := p.parts ++ [part] }

/-- The opcodes of output statements. -/
def output : Table :=
  [(0x007D, always do
      printing
      amendPrint id
      let number ← pop
      amendPrint fun p => { p with file := number }),
   (0x008A, always do
      push (.fileNumber (← pop))),
   (0x008F, printPart do
      return .control "SPC" (← pop)),
   (0x0090, printPart do
      return .control "TAB" (← pop)),
   (0x0091, printPart <| pure (.item .omitted ",")),
   (0x0092, printPart <| pure (.item .omitted ";")),
   (0x0093, always printing),
   (0x0094, printPart do
      return .item (← pop) ","),
   (0x0095, printPart do
      return .item (← pop) ";"),
   (0x0096, printPart do
      return .last (← pop)),
   (0x00C3, always <| put (Statement.emptyPrint .lprint .omitted)),
   (0x00FE, always <| put (Statement.emptyPrint .write .omitted)),
   (0x00FF, printPart do
      return .format (← pop))]

/-! ## Input and lists -/

/-- Whether a statement is an input statement. -/
def isInput : Statement → Bool
  | .input _ => true
  | _ => false

/-- Changes the input statement at the end of the line. -/
def amendInput (f : Input → Input) : Decode Unit :=
  amend fun
    | .input i => some (.input (f i))
    | _ => none

/-- The head of an input statement: the flags say whether there is a prompt and what stands around
it. -/
def inputHead : Decode Unit := do
  let count ← word
  let flags ← word
  let prompt ← if flags.testBit 2 then pop else pure .omitted
  if 2 < count then skipWords 1
  put (.input
    { kind := none, prompt := prompt, semicolon := flags.testBit 1, comma := flags.testBit 0
      args := [] })

/-- `LINE INPUT`, whose prompt lies below its variable. -/
def lineInput : Decode Unit := do
  let flags ← word
  let target ← pop
  continueWith isInput Statement.emptyInput
  amendInput fun i =>
    { i with
      args := i.args ++ [target], kind := some .lineInput
      semicolon := i.semicolon || flags.testBit 1 }
  if flags.testBit 2 then
    let prompt ← pop
    amendInput fun i => { i with prompt := prompt }

/-- Whether a statement is a `READ`. -/
def isRead : Statement → Bool
  | .read _ => true
  | _ => false

/-- Whether a statement is an `ERASE`. -/
def isErase : Statement → Bool
  | .erase _ => true
  | _ => false

/-- Whether a statement is a `FIELD`. -/
def isField : Statement → Bool
  | .field .. => true
  | _ => false

/-- `ERASE`: before version 7.0 all arrays at once, later one after another. -/
def eraseArrays (v : Version) : Decode Unit := do
  if v.atLeast .qb70 then
    let array ← pop
    continueWith isErase (.erase [])
    amend fun
      | .erase arrays => some (.erase (arrays ++ [array]))
      | _ => none
  else
    let count ← word
    put (.erase (← popMany count))

/-- Adds a width and a variable to the `FIELD` at the end of the line. -/
def fieldPart : Decode Unit := do
  let args ← popMany 2
  require isField
  match args with
  | [width, target] =>
    amend fun
      | .field file parts => some (.field file (parts ++ [(width, target)]))
      | _ => none
  | _ => throw .tooFewOperands

/-- The opcodes of input statements and of lists of variables. -/
def input : Table :=
  [(0x0085, always do
      put (.field (← pop) [])),
   (0x0086, always fieldPart),
   (0x0087, always do
      let file ← pop
      put (.input
        { kind := none, prompt := .omitted, semicolon := false, comma := false, args := [file] })),
   (0x0088, always do
      require isInput
      amendInput fun i => { i with kind := some .input }),
   (0x0089, always inputHead),
   (0x00AC, fun v _ => eraseArrays v),
   (0x00B6, always do
      let target ← pop
      require isInput
      amendInput fun i => { i with args := i.args ++ [target] }),
   (0x00C0, always lineInput),
   (0x00E2, always do
      let target ← pop
      continueWith isRead (.read [])
      amend fun
        | .read targets => some (.read (targets ++ [target]))
        | _ => none)]

/-! ## Files -/

/-- `LOCK` and `UNLOCK`: the flags say which ends of the range are on the stack. -/
def lockRange (unlock : Bool) : Handler := always do
  let flags ← word
  let ranged := flags.testBit 1
  let last ← if ranged ∧ !flags.testBit 15 then pop else pure .omitted
  let first ← if ranged then pop else pure .omitted
  let first := if flags.testBit 14 then .omitted else first
  let file ← pop
  put (.lock unlock file first last)

/-- The mode of a file, the first of five whose bit is set. -/
def openMode (flags : Nat) : Except Fault String :=
  let modes := [(0, "INPUT"), (1, "OUTPUT"), (2, "RANDOM"), (3, "APPEND"), (5, "BINARY")]
  match modes.find? fun (bit, _) => flags.testBit bit with
  | some (_, mode) => .ok mode
  | none => .error .undetermined

/-- The access to a file. -/
def openAccess (flags : Nat) : Option String :=
  [(1, "READ"), (2, "WRITE"), (3, "READ WRITE")].lookup (flags / 256 % 4)

/-- What a file is locked for. -/
def openLock (flags : Nat) : Option String :=
  match [(1, "READ WRITE"), (2, "WRITE"), (3, "READ")].lookup (flags / 4096 % 4) with
  | some lock => some lock
  | none => if flags.testBit 14 then some "SHARED" else none

/-- `OPEN` with its mode, with or without the length of a record. -/
def openFile (withLength : Bool) : Handler := always do
  let flags ← word
  let length ← if withLength then pop else pure .omitted
  match ← popMany 2 with
  | [file, number] =>
    let mode ← given (openMode flags)
    transfer (.openFile file number mode (openAccess flags) (openLock flags) length)
  | _ => throw .wrongCount

/-- An assignment that aligns a string. -/
def align (keyword : String) : Handler := always do
  let target ← pop
  let value ← pop
  transfer (.assign (some keyword) target value)

/-- `OPEN` for a table. -/
def openTable : Decode Unit := do
  skipWords 1
  let type ← identifier
  match ← popMany 3 with
  | [file, table, number] => put (.openTable file type table number)
  | _ => throw .outOfRange

/-- The statements that move in a table. -/
def moves : List (Nat × String) :=
  [(0x0000, "MOVEFIRST"), (0x0004, "MOVELAST"), (0x0008, "MOVENEXT"), (0x000C, "MOVEPREVIOUS")]

/-- The statements that search a table. -/
def searches : List (Nat × String) :=
  [(0x0000, "SEEKEQ"), (0x0004, "SEEKGE"), (0x0008, "SEEKGT")]

/-- The opcodes of files. -/
def files : Table :=
  [(0x00C2, lockRange false),
   (0x00C4, align "LSET"),
   (0x00C8, always do
      let (old, new) ← popTwo
      transfer (.rename old new)),
   (0x00C9, openFile false),
   (0x00CA, openFile true),
   (0x00E6, align "RSET"),
   (0x00F2, lockRange true),
   (0x0198, always do
      let mode ← word
      let number ← pop
      put (.command (← lookUp moves mode) [number])),
   (0x019A, always openTable),
   (0x019F, always do
      let mode ← word
      let count ← word
      let args ← popMany count
      put (.command (← lookUp searches mode) args))]

end SavedBasic.Instruction
