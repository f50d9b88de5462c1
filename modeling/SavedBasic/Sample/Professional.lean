import SavedBasic.Assembly

/-!
# Samples for the professional versions

Lines that use the instructions that came with versions 7.0 and 7.1: currency, indexed files, and
arrays that keep their contents.
-/

namespace SavedBasic.Sample

open Assembly

/-- The lines that versions from 7.0 on understand. -/
def professional : List (List Instr) :=
  -- CUR = 12345.6789@
  [line [opOf 0x185 [.qword 0x00000000075BCD15], store "CUR"],
   -- ON ERROR GOTO 0
   line [opOf 0x67 [.word 0xFFFF]],
   -- ON ERROR RESUME NEXT
   line [opOf 0x67 [.word 0xFFFE]],
   -- ON LOCAL ERROR GOTO 0
   line [opOf 0x199 [.word 0xFFFF]],
   -- EVENT ON
   line [typed 0x196 1 []],
   -- MOVEFIRST 1
   line [int 1, opOf 0x198 [.word 0]],
   -- MOVELAST 1
   line [int 1, opOf 0x198 [.word 4]],
   -- MOVENEXT 1
   line [int 1, opOf 0x198 [.word 8]],
   -- MOVEPREVIOUS 1
   line [int 1, opOf 0x198 [.word 12]],
   -- SEEKEQ 1, 2
   line [int 1, int 2, opOf 0x19F [.word 0, .word 2]],
   -- SEEKGE 1, 2
   line [int 1, int 2, opOf 0x19F [.word 4, .word 2]],
   -- SEEKGT 1, 2
   line [int 1, int 2, opOf 0x19F [.word 8, .word 2]],
   -- OPEN "DB" FOR ISAM MyType "TBL" AS 1
   line [str "DB", str "TBL", int 1, opOf 0x19A [.word 0, .name "MyType"]],
   -- ERASE ARR
   line [load "ARR", op 0xAC],
   -- Fld(4)  AS INTEGER
   line [op 0x18, int 4, opOf 0x17E [.word 2, .name "Fld", .word 21, .word 1, .word 8]],
   -- Fld2(4) AS STRING * 6
   line [op 0x18, int 4, opOf 0x17E [.word 2, .name "Fld2", .word 0x017C, .word 0, .word 6,
     .word 8]],
   -- CHDRIVE 1
   line [int 1, op 0x17F],
   -- X = CURDIR$
   line [op 0x181, store "X"],
   -- X = CURDIR$(1)
   line [int 1, op 0x182, store "X"],
   -- X = DIR$
   line [op 0x183, store "X"]] ++
    -- from X = DIR$(1) to X = MKC$(1)
    ([0x184, 0x186, 0x187, 0x188, 0x189].map (fun code => line [int 1, op code, store "X"])) ++
    -- X = SAVEPOINT
    [line [op 0x18A, store "X"],
     -- X = SSEG(1)
     line [int 1, op 0x18B, store "X"],
     -- X = SSEGADD(1)
     line [int 1, op 0x18C, store "X"],
     -- X = STACK
     line [op 0x18D, store "X"]] ++
    -- from BEGINTRANS to COMMITTRANS
    ([0x18E, 0x18F, 0x190].map (fun code => line [op code])) ++
    -- DELETE 1
    [line [int 1, op 0x192],
     -- DELETEINDEX 1, 1
     line [int 1, int 1, op 0x193],
     -- DELETETABLE 1, 1
     line [int 1, int 1, op 0x194],
     -- END 1
     line [int 1, op 0x195],
     -- INSERT 1, 1
     line [int 1, int 1, op 0x197],
     -- RETRIEVE 1, 1
     line [int 1, int 1, op 0x19B],
     -- ROLLBACK
     line [op 0x19C],
     -- ROLLBACK 1
     line [int 1, op 0x19D],
     -- ROLLBACK ALL
     line [op 0x19E],
     -- SETINDEX 1
     line [int 1, op 0x1A0],
     -- SETINDEX 1, 1
     line [int 1, int 1, op 0x1A1],
     -- STACK
     line [op 0x1A2],
     -- STACK 1
     line [int 1, op 0x1A3],
     -- SYSTEM 1
     line [int 1, op 0x1A5],
     -- UPDATE 1, 1
     line [int 1, int 1, op 0x1A6],
     -- X = TEXTCOMP(1, 1)
     line [int 1, int 1, op 0x1A7, store "X"],
     -- ERR = "1"
     line [str "1", op 0x180],
     -- STOP 1
     line [int 1, opOf 0x1A4 [.word 0]],
     -- CREATEINDEX 1, 2
     line [int 1, int 2, opOf 0x191 [.word 2]],
     -- X = CCUR(1)
     line [int 1, typed 0x108 5 [], store "X"]]

/-- The lines that versions from 7.1 on understand. -/
def preserving : List (List Instr) :=
  -- REDIM PRESERVE ARR(5)
  [line [op 0x18, int 5, opOf 0xE [.word 2, .name "ARR"], op 0x1A8],
   -- DECLARE SUB Decl71 (P AS INTEGER)
   line [opOf 0x44 [.word 0, .name "Decl71", .word 0x0100, .word 1, .name "P", .word 0, .word 1,
     .word 0]]]

end SavedBasic.Sample
