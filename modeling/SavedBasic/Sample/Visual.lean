import SavedBasic.Assembly

/-!
# A sample for Visual Basic

Lines that use the instructions of Visual Basic: objects and their methods, dates, and boxes on the
screen.
-/

namespace SavedBasic.Sample

open Assembly

/-- The lines that only Visual Basic understands. -/
def visual : List (List Instr) :=
  -- X = TYPEOF OBJ IS Form1
  [line [load "OBJ", opOf 0x1AA [.name "Form1"], store "X"],
   -- X = OBJ
   line [load "OBJ", op 0x1C1, store "X"],
   -- COLOR , , 3
   line [op 0x1C7, op 0x1C8, int 3, opOf 0xA4 [.word 3]],
   -- OBJ.REFRESH
   line [load "OBJ", opOf 0x1C9 [.word 6]],
   -- OBJ.PRINT
   line [load "OBJ", opOf 0x1C9 [.word 4], op 0x93],
   -- X = OBJ.GETTEXT()
   line [load "OBJ", opOf 0x1D0 [.word 0x010F], store "X"],
   -- LOAD 1
   line [int 1, op 0x1AB],
   -- UNLOAD 1
   line [int 1, op 0x1AC],
   -- X = DOEVENTS()
   line [op 0x1AD, store "X"],
   -- X = QBCOLOR(1)
   line [int 1, op 0x1AE, store "X"],
   -- X = RGB(1, 1, 1)
   line [int 1, int 1, int 1, op 0x1AF, store "X"],
   -- X = ERROR$
   line [op 0x1B0, store "X"],
   -- X = ERROR$(1)
   line [int 1, op 0x1B1, store "X"],
   -- X = FORMAT$(1)
   line [int 1, op 0x1B2, store "X"],
   -- X = FORMAT$(1, 1)
   line [int 1, int 1, op 0x1B3, store "X"],
   -- X = DATESERIAL(1, 1, 1)
   line [int 1, int 1, int 1, op 0x1B4, store "X"]] ++
    -- from X = DATEVALUE(1) to X = YEAR(1)
    ([0x1B5, 0x1B6, 0x1B7, 0x1B8, 0x1B9].map (fun code => line [int 1, op code, store "X"])) ++
    -- X = NOW
    [line [op 0x1BA, store "X"],
     -- X = TIMESERIAL(1, 1, 1)
     line [int 1, int 1, int 1, op 0x1BB, store "X"]] ++
    -- from X = TIMEVALUE(1) to X = SECOND(1)
    ([0x1BC, 0x1BD, 0x1BE, 0x1BF].map (fun code => line [int 1, op code, store "X"])) ++
    -- OPTION EXPLICIT
    [line [op 0x1C0],
     -- X = INPUTBOX$(1, 1, 1)
     line [int 1, int 1, int 1, op 0x1C3, store "X"],
     -- X = INPUTBOX$(1, 1, 1, 1, 1)
     line [int 1, int 1, int 1, int 1, int 1, op 0x1C4, store "X"],
     -- MSGBOX 1, 1, 1
     line [int 1, int 1, int 1, op 0x1C5],
     -- X = MSGBOX(1, 1, 1)
     line [int 1, int 1, int 1, op 0x1C6, store "X"]]

/-- The line that names the form of a program. -/
def formRemark : List Instr :=
  line [opOf 0xE3 [.text (ascii " ")], opOf 0x1C2 [.word 0, .name "Form1"]]

end SavedBasic.Sample
