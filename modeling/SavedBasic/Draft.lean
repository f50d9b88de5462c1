import SavedBasic.Assembly
import SavedBasic.Version

/-!
# Programs under construction

A draft collects the identifier table, the instructions and the procedures of a program, and writes
them as a file. Lengths are stored in words; nothing checks that they fit.
-/

namespace SavedBasic

/-- A procedure of a draft. -/
structure Draft.Procedure where
  /-- the name -/
  name : Bytes
  /-- the flags -/
  flags : Int
  /-- the instructions -/
  code : Bytes

/-- A program under construction. -/
structure Draft where
  /-- the version -/
  version : Version
  /-- the form area -/
  form : Bytes := []
  /-- the identifier table -/
  symbols : SymbolArea := {}
  /-- the instructions of the main program -/
  main : Bytes := []
  /-- the procedures behind the main program, the most recent one first -/
  procedures : List Draft.Procedure := []

namespace Draft

/-- A draft with nothing in it. -/
def start (v : Version) : Draft :=
  { version := v }

/-- Finds a name or adds it. Gives its offset. -/
def addName (d : Draft) (key : Key) : Except Fault (Nat × Draft) :=
  (d.symbols.add key).map fun (offset, symbols) => (offset, { d with symbols := symbols })

/-- Adds instructions to the main program. -/
def appendMain (d : Draft) (code : List Assembly.Instr) : Except Fault Draft :=
  (Assembly.write code d.symbols).map fun (bytes, symbols) =>
    { d with symbols := symbols, main := d.main ++ bytes }

/-- Adds instructions to the most recent procedure, which at first is the main program. -/
def append (d : Draft) (code : List Assembly.Instr) : Except Fault Draft :=
  match d.procedures with
  | [] => d.appendMain code
  | p :: rest =>
    (Assembly.write code d.symbols).map fun (bytes, symbols) =>
      { d with symbols := symbols, procedures := { p with code := p.code ++ bytes } :: rest }

/-- The instructions of the most recent procedure. -/
def currentCode (d : Draft) : Bytes :=
  match d.procedures with
  | [] => d.main
  | p :: _ => p.code

/-- Adds a procedure without instructions. -/
def addProcedure (d : Draft) (name : String) (flags : Int) : Except Fault Draft :=
  (Text.CodePage.encode name).map fun name =>
    { d with procedures := ⟨name, flags, []⟩ :: d.procedures }

/-! ## Writing -/

/-- The bytes, filled up with zeros to the given length. -/
def fillTo (length : Nat) (bytes : Bytes) : Bytes :=
  bytes ++ List.replicate (length - bytes.length) 0

/-- The form area behind its length, which only files of Visual Basic have. -/
def formArea (d : Draft) : Bytes :=
  if d.version = .vbdos then Bytes.u16 d.form.length ++ d.form else []

/-- The size of the header. -/
def headerSize (d : Draft) : Nat :=
  if d.version = .vbdos then d.version.headerSize + d.form.length else d.version.headerSize

/-- The header up to the length of the identifier table. -/
def header (d : Draft) : Bytes :=
  let opening := 0xFC :: Bytes.u16 d.version.stamp
  if d.version = .vbdos then fillTo (d.headerSize - 2) (fillTo 0x14 opening ++ d.formArea)
  else fillTo (d.headerSize - 2) opening

/-- Bytes with a word of length in front. -/
def counted (bytes : Bytes) : Bytes :=
  Bytes.u16 bytes.length ++ bytes

/-- A procedure behind the trailer of the one before. -/
def Procedure.bytes (p : Procedure) : Bytes :=
  List.replicate 17 0 ++ counted p.name ++ [0, 0] ++ Bytes.u8 p.flags ++ counted p.code

/-- The file. -/
def bytes (d : Draft) : Bytes :=
  d.header ++ counted d.symbols.bytes ++ counted d.main ++
    (d.procedures.reverse.map Procedure.bytes).flatten

end Draft

end SavedBasic
