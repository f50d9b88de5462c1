import SavedBasic.Instruction.Handler

/-!
# Built-in functions and statements

Most opcodes stand for a built-in function or statement that takes a fixed number of operands from the
stack. A few take as many as a word says, some mark which of their operands are present, some have a
word without a meaning behind them, and some look like an assignment to a function.
-/

namespace SavedBasic.Instruction

open Decode

/-- Functions with an argument list, and the number of their arguments. -/
def functions : List (Nat × String × Nat) :=
  [(0x0105, "ABS", 1), (0x0106, "ASC", 1), (0x0107, "ATN", 1), (0x0109, "CHR$", 1),
   (0x010B, "COS", 1), (0x010D, "CVD", 1), (0x010E, "CVDMBF", 1), (0x010F, "CVI", 1),
   (0x0110, "CVL", 1), (0x0111, "CVS", 1), (0x0112, "CVSMBF", 1), (0x0114, "ENVIRON$", 1),
   (0x0115, "EOF", 1), (0x011A, "EXP", 1), (0x011B, "FILEATTR", 2), (0x011C, "FIX", 1),
   (0x011D, "FRE", 1), (0x011F, "HEX$", 1), (0x0121, "INP", 1), (0x0122, "INPUT$", 1),
   (0x0123, "INPUT$", 2), (0x0124, "INSTR", 2), (0x0125, "INSTR", 3), (0x0126, "INT", 1),
   (0x0127, "IOCTL$", 1), (0x0128, "LBOUND", 1), (0x0129, "LBOUND", 2), (0x012A, "LCASE$", 1),
   (0x012B, "LTRIM$", 1), (0x012C, "LEFT$", 2), (0x012E, "LOC", 1), (0x012F, "LOF", 1),
   (0x0130, "LOG", 1), (0x0131, "LPOS", 1), (0x0132, "MID$", 2), (0x0133, "MID$", 3),
   (0x0134, "MKD$", 1), (0x0135, "MKDMBF$", 1), (0x0136, "MKI$", 1), (0x0137, "MKL$", 1),
   (0x0138, "MKS$", 1), (0x0139, "MKSMBF$", 1), (0x013A, "OCT$", 1), (0x013B, "PEEK", 1),
   (0x013C, "PEN", 1), (0x013D, "PLAY", 1), (0x013E, "PMAP", 2), (0x013F, "POINT", 1),
   (0x0140, "POINT", 2), (0x0141, "POS", 1), (0x0142, "RIGHT$", 2), (0x0144, "RND", 1),
   (0x0145, "RTRIM$", 1), (0x0146, "SADD", 1), (0x0147, "SCREEN", 2), (0x0148, "SCREEN", 3),
   (0x0149, "SEEK", 1), (0x014A, "SETMEM", 1), (0x014B, "SGN", 1), (0x014C, "SHELL", 1),
   (0x014D, "SIN", 1), (0x014E, "SPACE$", 1), (0x014F, "SQR", 1), (0x0150, "STICK", 1),
   (0x0151, "STR$", 1), (0x0152, "STRIG", 1), (0x0153, "STRING$", 2), (0x0154, "TAN", 1),
   (0x0157, "UBOUND", 1), (0x0158, "UBOUND", 2), (0x0159, "UCASE$", 1), (0x015A, "VAL", 1),
   (0x015B, "VARPTR", 1), (0x015D, "VARSEG", 1), (0x0182, "CURDIR$", 1), (0x0184, "DIR$", 1),
   (0x0186, "BOF", 1), (0x0187, "CVC", 1), (0x0188, "GETINDEX$", 1), (0x0189, "MKC$", 1),
   (0x018B, "SSEG", 1), (0x018C, "SSEGADD", 1), (0x01A7, "TEXTCOMP", 2), (0x01AD, "DOEVENTS", 0),
   (0x01AE, "QBCOLOR", 1), (0x01AF, "RGB", 3), (0x01B1, "ERROR$", 1), (0x01B2, "FORMAT$", 1),
   (0x01B3, "FORMAT$", 2), (0x01B4, "DATESERIAL", 3), (0x01B5, "DATEVALUE", 1), (0x01B6, "DAY", 1),
   (0x01B7, "MONTH", 1), (0x01B8, "WEEKDAY", 1), (0x01B9, "YEAR", 1), (0x01BB, "TIMESERIAL", 3),
   (0x01BC, "TIMEVALUE", 1), (0x01BD, "HOUR", 1), (0x01BE, "MINUTE", 1), (0x01BF, "SECOND", 1),
   (0x01C3, "INPUTBOX$", 3), (0x01C4, "INPUTBOX$", 5), (0x01C6, "MSGBOX", 3)]

/-- Functions with an argument list and a word behind the opcode. -/
def functionsWithWord : List (Nat × String × Nat) :=
  [(0x012D, "LEN", 1), (0x015C, "VARPTR$", 1)]

/-- Functions without an argument list. -/
def plainFunctions : List (Nat × String) :=
  [(0x010A, "COMMAND$"), (0x010C, "CSRLIN"), (0x0113, "DATE$"), (0x0116, "ERDEV"),
   (0x0117, "ERDEV$"), (0x0118, "ERL"), (0x0119, "ERR"), (0x011E, "FREEFILE"), (0x0120, "INKEY$"),
   (0x0143, "RND"), (0x0155, "TIME$"), (0x0156, "TIMER"), (0x0181, "CURDIR$"), (0x0183, "DIR$"),
   (0x018A, "SAVEPOINT"), (0x018D, "STACK"), (0x01B0, "ERROR$"), (0x01BA, "NOW")]

/-- Statements, and the number of their arguments. -/
def commands : List (Nat × String × Nat) :=
  [(0x0043, "CHAIN", 1), (0x004E, "END", 0), (0x0077, "WAIT", 2), (0x0078, "WAIT", 3),
   (0x009A, "BEEP", 0), (0x009B, "BLOAD", 1), (0x009C, "BLOAD", 2), (0x009D, "BSAVE", 3),
   (0x009E, "CHDIR", 1), (0x00A8, "DEF SEG", 0), (0x00AA, "DRAW", 1), (0x00AB, "ENVIRON", 1),
   (0x00AD, "ERROR", 1), (0x00AE, "FILES", 0), (0x00AF, "FILES", 1), (0x00B0, "GET", 1),
   (0x00B1, "GET", 2), (0x00B7, "IOCTL", 2), (0x00B9, "KEY", 2), (0x00BA, "KILL", 1),
   (0x00C7, "MKDIR", 1), (0x00CB, "OPEN", 3), (0x00CC, "OPEN", 4), (0x00CD, "OPTION BASE 0", 0),
   (0x00CE, "OPTION BASE 1", 0), (0x00CF, "OUT", 2), (0x00D2, "PALETTE", 0),
   (0x00D3, "PALETTE", 2), (0x00D4, "PALETTE USING", 1), (0x00D5, "PCOPY", 2), (0x00D6, "PLAY", 1),
   (0x00D7, "POKE", 2), (0x00DC, "PUT", 1), (0x00DD, "PUT", 2), (0x00E0, "RANDOMIZE", 0),
   (0x00E1, "RANDOMIZE", 1), (0x00E4, "RESET", 0), (0x00E5, "RMDIR", 1), (0x00E8, "SEEK", 2),
   (0x00E9, "SHELL", 0), (0x00EA, "SHELL", 1), (0x00EB, "SLEEP", 0), (0x00EC, "SOUND", 2),
   (0x00EE, "SYSTEM", 0), (0x00F0, "TROFF", 0), (0x00F1, "TRON", 0), (0x00F4, "VIEW", 0),
   (0x00F9, "WIDTH LPRINT", 1), (0x00FA, "WIDTH", 2), (0x00FC, "WINDOW", 0), (0x017B, "SLEEP", 1),
   (0x017F, "CHDRIVE", 1), (0x018E, "BEGINTRANS", 0), (0x018F, "CHECKPOINT", 0),
   (0x0190, "COMMITTRANS", 0), (0x0192, "DELETE", 1), (0x0193, "DELETEINDEX", 2),
   (0x0194, "DELETETABLE", 2), (0x0195, "END", 1), (0x0197, "INSERT", 2), (0x019B, "RETRIEVE", 2),
   (0x019C, "ROLLBACK", 0), (0x019D, "ROLLBACK", 1), (0x019E, "ROLLBACK ALL", 0),
   (0x01A0, "SETINDEX", 1), (0x01A1, "SETINDEX", 2), (0x01A2, "STACK", 0), (0x01A3, "STACK", 1),
   (0x01A5, "SYSTEM", 1), (0x01A6, "UPDATE", 2), (0x01AB, "LOAD", 1), (0x01AC, "UNLOAD", 1),
   (0x01C0, "OPTION EXPLICIT", 0), (0x01C5, "MSGBOX", 3)]

/-- Statements with a word behind the opcode. -/
def commandsWithWord : List (Nat × String × Nat) :=
  [(0x0075, "STOP", 0), (0x0079, "WEND", 0), (0x007A, "WHILE", 1), (0x00B3, "GET", 3),
   (0x00DF, "PUT", 3), (0x00ED, "SWAP", 2), (0x01A4, "STOP", 1)]

/-- Statements whose second argument is left out, with a word behind the opcode. -/
def commandsWithGap : List (Nat × String × Nat) :=
  [(0x00B2, "GET", 2), (0x00DE, "PUT", 2)]

/-- Statements whose number of arguments is in a word behind the opcode. -/
def countedCommands : List (Nat × String) :=
  [(0x00A2, "CLOSE"), (0x0191, "CREATEINDEX")]

/-- Statements that mark which of their arguments are present; the word behind the opcode counts the
marks too. -/
def markedCommands : List (Nat × String) :=
  [(0x00A1, "CLEAR"), (0x00A4, "COLOR"), (0x00C1, "LOCATE"), (0x00E7, "SCREEN")]

/-- Assignments to a function without an argument list. -/
def assignments : List (Nat × String) :=
  [(0x00A7, "DATE$"), (0x00A9, "DEF SEG"), (0x00EF, "TIME$"), (0x0180, "ERR")]

/-- Assignments to a function with an argument list, and the number of its arguments. -/
def callAssignments : List (Nat × String × Nat) :=
  [(0x00C5, "MID$", 2), (0x00C6, "MID$", 3)]

/-- A function with an argument list. -/
def function (name : String) (count : Nat) : Decode Unit := do
  push (.call name (← popMany count))

/-- A statement. -/
def command (name : String) (count : Nat) : Decode Unit := do
  put (.command name (← popMany count))

/-- A statement whose second argument is left out. -/
def commandWithGap (name : String) (count : Nat) : Decode Unit := do
  let args ← popMany count
  put (.command name (args.take 1 ++ .omitted :: args.drop 1))

/-- A statement that marks which of its arguments are present. -/
def markedCommand (name : String) (count : Nat) : Decode Unit := do
  let args ← popMany count
  put (.command name (args.filter fun e => !e.isMark))

/-- The arguments and the value of an assignment to a function. The topmost operand is the first
argument, the one below it the value; a single operand is the value. -/
def splitValue? (operands : List Expr) : Option (List Expr × Expr) :=
  match operands.reverse with
  | [] => none
  | [value] => some ([], value)
  | first :: value :: rest => some (first :: rest.reverse, value)

/-- An assignment to what the other operands make. -/
def assignTo (target : List Expr → Expr) (count : Nat) : Decode Unit := do
  match splitValue? (← popMany (count + 1)) with
  | some (args, value) => transfer (.assign none (target args) value)
  | none => throw .undetermined

/-- An action with a word without a meaning behind it. -/
def thenWord (action : Decode Unit) : Decode Unit := do
  action
  skipWords 1

/-- The opcodes of built-in functions and statements. -/
def builtins : Table :=
  functions.map (fun (code, name, count) => (code, always (function name count))) ++
  functionsWithWord.map (fun (code, name, count) => (code, always (thenWord (function name count)))) ++
  plainFunctions.map (fun (code, name) => (code, always (push (.builtin name)))) ++
  commands.map (fun (code, name, count) => (code, always (command name count))) ++
  commandsWithWord.map (fun (code, name, count) => (code, always (thenWord (command name count)))) ++
  commandsWithGap.map (fun (code, name, count) =>
    (code, always (thenWord (commandWithGap name count)))) ++
  countedCommands.map (fun (code, name) => (code, always (word >>= command name))) ++
  markedCommands.map (fun (code, name) => (code, always (word >>= markedCommand name))) ++
  [(0x00A3, always (markedCommand "CLS" 1))] ++
  assignments.map (fun (code, name) => (code, always (assignTo (fun _ => .builtin name) 0))) ++
  callAssignments.map (fun (code, name, count) => (code, always (assignTo (.call name) count)))

end SavedBasic.Instruction
