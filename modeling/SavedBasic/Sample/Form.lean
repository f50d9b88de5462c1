import SavedBasic.Assembly
import SavedBasic.Form.Schema

/-!
# A sample form

The form area of a program with one control of each type, a menu with a shortcut, and two more forms
whose windows are reduced and enlarged. Texts lie behind the records and the names; a record refers to
a text by its displacement from the beginning of the form area.
-/

namespace SavedBasic.Sample

open Assembly

namespace FormArea

/-- The names of the controls. -/
def names : List String :=
  ["Form1", "Chk1", "Cmb1", "Cmd1", "Dir1", "Drv1", "Fil1", "Frm1", "HScr1", "Lbl1", "Lst1", "Mnu1",
   "Opt1", "Pic1", "Txt1", "Tmr1", "VScr1", "MnuSC"]

/-- The texts that controls refer to. -/
inductive Note where
  | empty
  | tag
  | form
  | hello
  | combo
  | pattern
  | text
  | menu
  | reduced
  | enlarged
deriving DecidableEq

/-- All texts in the order in which they are stored. -/
def Note.all : List Note :=
  [empty, tag, form, hello, combo, pattern, text, menu, reduced, enlarged]

/-- The bytes of a text. -/
def Note.bytes : Note → Bytes
  | empty => ascii ""
  | tag => ascii "tag"
  | form => ascii "My Form"
  | hello => ascii "Hello"
  | combo => ascii "Combo"
  | pattern => ascii "*.BAS"
  | text => ascii "Text!"
  | menu => ascii "File\tShift+Ctrl+F1"
  | reduced => ascii "Max"
  | enlarged => ascii "Full"

/-- What a field of a record holds where it is not zero. -/
inductive Content where
  /-- bytes -/
  | bytes (data : Bytes)
  /-- a reference to a text -/
  | note (target : Note)

/-- A record: the position of its name, the number of its type, and the contents by their offsets. -/
structure Record where
  /-- the position of the name -/
  name : Nat
  /-- the number of the type -/
  type : Nat
  /-- the contents by their offsets, in ascending order -/
  contents : List (Nat × Content)

/-- The number of bytes of a record. -/
def Record.length (r : Record) : Nat :=
  (Form.controlTypes[r.type]?.map Form.ControlType.length).getD 0

/-- A form of the given state and caption. -/
def window (label : Note) (state : UInt8) (caption : Note) : Record :=
  ⟨0, 0, [(3, .bytes [0x20, 0x81]), (9, .note label), (15, .bytes [1, 1, 10, 40, 0, state, 7]),
    (24, .note caption), (26, .bytes [1]), (29, .bytes [12, 42])]⟩

/-- A control with further contents. -/
def control (name type : Nat) (contents : List (Nat × Content)) : Record :=
  ⟨name, type, [(3, .bytes [0x00, 0x81]), (6, .bytes [10]), (9, .note .empty)] ++ contents⟩

/-- The records. -/
def records : List Record :=
  [window .tag 0 .form,
   control 1 1 [(24, .note .hello)],
   control 2 2 [(36, .note .combo)],
   control 3 3 [(24, .note .hello)],
   control 4 4 [],
   control 5 5 [],
   control 6 6 [(34, .note .pattern)],
   control 7 7 [(24, .note .hello)],
   control 8 8 [],
   control 9 9 [(24, .note .hello)],
   control 10 10 [],
   control 11 11 [(24, .note .hello)],
   control 12 12 [(24, .note .hello)],
   control 13 13 [],
   control 14 14 [(28, .note .text)],
   control 15 15 [],
   control 16 16 [],
   control 17 11 [(24, .note .menu)],
   window .empty 1 .reduced,
   window .empty 2 .enlarged]

/-- The size of what stands in front of the records. -/
def headSize : Nat := 10

/-- The size of the records. -/
def recordsSize : Nat :=
  (records.map Record.length).foldl (· + ·) 0

/-- The entries of the table of names; the link of the last one is zero. -/
def nameEntries : (index : Nat) → List String → Bytes
  | _, [] => []
  | index, name :: rest =>
    Bytes.u16 (if rest.isEmpty then 0 else 1) ++ Bytes.u8 index ++ Bytes.u8 name.length ++
      ascii name ++ nameEntries (index + 1) rest

/-- The table of names. -/
def nameTable : Bytes :=
  nameEntries 0 names

/-- The displacement of a text. -/
def Note.displacement (note : Note) : Nat :=
  headSize + recordsSize + nameTable.length +
    ((Note.all.takeWhile (· != note)).map fun n => (Bytes.packed n.bytes).length).foldl (· + ·) 0

/-- The bytes of a content. -/
def Content.write : Content → Bytes
  | bytes data => data
  | note target => Bytes.u16 target.displacement

/-- The bytes from an offset on; what lies between two contents is zero. -/
def writeContents : (offset : Nat) → List (Nat × Content) → Bytes
  | _, [] => []
  | offset, (place, content) :: rest =>
    let bytes := content.write
    List.replicate (place - offset) 0 ++ bytes ++ writeContents (place + bytes.length) rest

/-- The bytes of a record. -/
def Record.write (r : Record) : Bytes :=
  let bytes := Bytes.u8 r.name ++ Bytes.u8 r.type ++ writeContents 2 r.contents
  bytes ++ List.replicate (r.length - bytes.length) 0

end FormArea

/-- The form area. -/
def formArea : Bytes :=
  List.replicate 6 0 ++ Bytes.u16 (FormArea.headSize + FormArea.recordsSize) ++
    Bytes.u16 FormArea.recordsSize ++ (FormArea.records.map FormArea.Record.write).flatten ++
    FormArea.nameTable ++ (FormArea.Note.all.map fun n => Bytes.packed n.bytes).flatten

end SavedBasic.Sample
