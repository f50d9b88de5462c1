import SavedBasic.Instruction

/-!
# Saved programs

A saved program starts with a mark and a version stamp. The last word of its header says how long the
identifier table behind it is; then come the instructions of the main program, as many bytes as the word
in front of them says, and further procedures, each with a trailer of the one before, its name, its
flags and its instructions. In a file of Visual Basic the header is longer by the form area.

A fault inside a saved program does not undo what has been decoded before it.
-/

namespace SavedBasic

namespace Decode

/-- Performs instructions up to a position. Each of them takes at least its own word, so this comes to
an end. -/
def instructions (v : Version) (fin : Nat) : Decode Unit :=
  fun src pos s =>
    if pos < fin then
      match h : src.natLE pos 2 with
      | .error fault => ⟨.error fault, pos, Nat.le_refl pos, s⟩
      | .ok word =>
        let first := Instruction.perform v word src (pos + 2) s
        match first.result with
        | .error fault =>
          ⟨.error fault, first.pos, Nat.le_trans (Nat.le_add_right pos 2) first.le, first.state⟩
        | .ok () =>
          have := (Instruction.perform v word src (pos + 2) s).le
          have := Source.le_size_of_natLE h
          let rest := instructions v fin src first.pos first.state
          ⟨rest.result, rest.pos,
            Nat.le_trans (Nat.le_trans (Nat.le_add_right pos 2) first.le) rest.le, rest.state⟩
    else ⟨.ok (), pos, Nat.le_refl pos, s⟩
termination_by src pos => src.size - pos

/-- The instructions of a procedure, behind a word with their length. -/
def body (v : Version) : Decode Unit := do
  let length ← word
  instructions v ((← position) + length)

/-- A procedure behind the trailer of the one before: its name, its flags and its instructions. -/
def nextProcedure (v : Version) : Decode Unit := do
  let _ ← bytes 1
  let name ← bytes (← word)
  let _ ← bytes 2
  let flags ← byte
  modify fun s =>
    { s with
      program :=
        { earlier := s.program.current :: s.program.earlier
          current := .start (some name) (flags.testBit 7) } }
  body v

/-- The number of bytes behind each procedure. -/
def trailerSize : Nat := 16

/-- The procedures behind the main program, as long as more than a trailer is left. -/
def furtherProcedures (v : Version) : Decode Unit :=
  fun src pos s =>
    if _ : pos + trailerSize < src.size then
      let first := nextProcedure v src (pos + trailerSize) s
      match first.result with
      | .error fault =>
        ⟨.error fault, first.pos, Nat.le_trans (Nat.le_add_right pos trailerSize) first.le, first.state⟩
      | .ok () =>
        have := (nextProcedure v src (pos + trailerSize) s).le
        let rest := furtherProcedures v src first.pos first.state
        ⟨rest.result, rest.pos,
          Nat.le_trans (Nat.le_trans (Nat.le_add_right pos trailerSize) first.le) rest.le, rest.state⟩
    else ⟨.ok (), pos, Nat.le_refl pos, s⟩
termination_by src pos => src.size - pos
decreasing_by
  simp only [trailerSize] at *
  omega

/-- The form area of a file of Visual Basic, which makes the header longer. -/
def formArea : Decode Unit := do
  let src ← source
  let extra ← given (src.natLE 0x14 2)
  modify fun s => { s with headerSize := s.headerSize + extra }
  if 0 < extra then
    let (layout, fault) := Form.read src
    if !layout.controls.isEmpty then modify fun s => { s with form := some layout }
    match fault with
    | some fault => throw fault
    | none => return ()

/-- The header: the form area, and the length of the identifier table. -/
def header (v : Version) : Decode Unit := do
  if v = .vbdos then formArea
  let offset ← given ((← source).natLE ((← get).headerSize - 2) 2)
  modify fun s => { s with symbols := { s.symbols with codeOffset := offset } }

/-- A whole file, from its beginning. -/
def file (v : Version) : Decode Unit := do
  header v
  let s ← get
  advance (s.headerSize + s.symbols.codeOffset)
  body v
  furtherProcedures v

end Decode

/-- A saved program that has been decoded, as far as it could be. -/
structure Image where
  /-- the version -/
  version : Version
  /-- what decoding has built up -/
  state : Decode.State
  /-- why decoding ended early, if it did -/
  failure : Option Fault

/-- Texts that were written one after another, and why there are no more, if there should be. -/
structure Printout where
  /-- the lines -/
  lines : List String
  /-- why the next line could not be written -/
  failure : Option Fault

namespace Printout

/-- A printout of the given lines. -/
def ofLines (lines : List String) : Printout :=
  ⟨lines, none⟩

/-- One printout after another; nothing follows a failure. -/
def append (a b : Printout) : Printout :=
  match a.failure with
  | none => ⟨a.lines ++ b.lines, b.failure⟩
  | some _ => a

/-- Lines up to the first one that has no text. -/
def ofPrinted : List Printed → Printout
  | [] => ⟨[], none⟩
  | .ok text :: rest =>
    let p := ofPrinted rest
    ⟨text :: p.lines, p.failure⟩
  | .error fault :: _ => ⟨[], some fault⟩

/-- The text of a printout, each line with a line feed behind it. -/
def text (p : Printout) : String :=
  String.join (p.lines.map (· ++ "\n"))

end Printout

namespace Image

/-- The mark at the beginning of a saved program. -/
def mark : Nat := 0xFC

/-- The version of a saved program. -/
def versionOf (src : Source) : Except Fault Version := do
  if (← src.natLE 0 1) ≠ mark then throw .invalidSignature
  match Version.ofStamp? (← src.natLE 1 2) with
  | some v => return v
  | none => throw .invalidVersion

/-- Decodes a file as a saved program of a version. -/
def decodeAs (v : Version) (src : Source) : Image :=
  let outcome := Decode.file v src 0 (.start v)
  { version := v
    state := outcome.state
    failure :=
      match outcome.result with
      | .ok () => none
      | .error fault => some fault }

/-- Decodes a saved program. Without a known version there is nothing to decode. -/
def decode (src : Source) : Except Fault Image :=
  (versionOf src).map fun v => decodeAs v src

/-- The procedures in the order in which they are stored. -/
def procedures (image : Image) : List Procedure :=
  image.state.program.procedures

/-- The printed form, under the line with the version of its format. -/
def printForm (image : Image) : Printout :=
  match image.state.form with
  | none => .ofLines []
  | some layout =>
    match layout.render with
    | .ok lines => .ofLines ("Version 1.00" :: lines)
    | .error fault => ⟨["Version 1.00"], some fault⟩

/-- The printed procedure; one with a head has an empty line in front. -/
def printProcedure (p : Procedure) : Printout :=
  (Printout.ofLines (if p.kind.isSome then [""] else [])).append
    (.ofPrinted (p.listing.map Line.render))

/-- The listing of a saved program. -/
def print (image : Image) : Printout :=
  image.procedures.foldl (fun out p => out.append (printProcedure p)) image.printForm

end Image

end SavedBasic
