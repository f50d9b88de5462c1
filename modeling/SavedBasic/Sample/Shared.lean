import SavedBasic.Assembly

/-!
# A sample for every version

Lines that use nearly every instruction that all versions share. Above each line stands the text that
it is listed as; a type with the number five is a string in older versions and a currency in newer
ones.
-/

namespace SavedBasic.Sample

open Assembly

/-- Numbers, strings and operators. -/
def expressions : List (List Instr) :=
  -- RES% = (-1234 + 99999& * &HBEEF - &O755 / 3.5 ^ 22500000000#)
  [line [opOf 0x165 [.word 0x04D2], opOf 0x166 [.dword 0x1869F], op 0x100,
     opOf 0x167 [.word 0xBEEF], op 0x170, opOf 0x169 [.word 0x01ED], op 0x177,
     opOf 0x16B [.dword 0x40600000], op 0x102, opOf 0x16C [.qword 0x4214F46B04000000], op 0x176,
     op 0x178, op 0x16E, typed 0xC 1 [.name "RES"]],
   -- LOGIC = NOT 1 AND 2 OR 3 XOR 4 EQV 5 IMP 6 MOD 7 \ 8
   line [int 1, int 2, op 0x101, int 3, op 0x175, int 4, op 0x179, int 5, op 0x104, int 6, op 0x161,
     int 7, op 0x16F, int 8, op 0x160, op 0x174, store "LOGIC"],
   -- CMP = 1 = 2 <> 3 >= 4 > 5 <= 6 < 7
   line [int 1, int 2, op 0x103, int 3, op 0x171, int 4, op 0x15E, int 5, op 0x15F, int 6, op 0x162,
     int 7, op 0x163, store "CMP"],
   -- LNG& = &HDEAD& + &O777&
   line [opOf 0x168 [.dword 0xDEAD], opOf 0x16A [.dword 0x01FF], op 0x100,
     typed 0xC 2 [.name "LNG"]],
   -- S@ = "HELLO WORLD"
   line [str "HELLO WORLD", typed 0xC 5 [.name "S"]]]

/-- The functions of every version. -/
def functions : List (List Instr) :=
  -- from TMP = ABS(3) to TMP = VARSEG(3)
  ([0x105, 0x106, 0x107, 0x109, 0x10B, 0x10D, 0x10E, 0x10F, 0x110, 0x111, 0x112, 0x114, 0x115, 0x11A,
    0x11C, 0x11D, 0x11F, 0x121, 0x122, 0x126, 0x127, 0x128, 0x12A, 0x12B, 0x12E, 0x12F, 0x130,
    0x131, 0x134, 0x135, 0x136, 0x137, 0x138, 0x139, 0x13A, 0x13B, 0x13C, 0x13D, 0x13F, 0x141,
    0x144, 0x145, 0x146, 0x149, 0x14A, 0x14B, 0x14D, 0x14E, 0x14F, 0x150, 0x151, 0x152, 0x154,
    0x157, 0x159, 0x15A, 0x15B, 0x15D].map (fun code => line [int 3, op code, store "TMP"])) ++
    -- from TMP = FILEATTR(1, 2) to TMP = UBOUND(1, 2)
    ([0x11B, 0x123, 0x124, 0x129, 0x12C, 0x132, 0x13E, 0x140, 0x142, 0x147, 0x153,
      0x158].map (fun code => line [int 1, int 2, op code, store "TMP"])) ++
    -- from TMP = INSTR(1, 2, 3) to TMP = SCREEN(1, 2, 3)
    ([0x125, 0x133, 0x148].map (fun code => line [int 1, int 2, int 3, op code, store "TMP"])) ++
    -- from TMP = COMMAND$ to TMP = TIMER
    ([0x10A, 0x10C, 0x113, 0x116, 0x117, 0x118, 0x119, 0x11E, 0x120, 0x143, 0x155,
      0x156].map (fun code => line [op code, store "TMP"])) ++
    -- TMP = LEN(1)
    [line [int 1, opOf 0x12D [.word 0], store "TMP"],
     -- TMP = VARPTR$(1)
     line [int 1, opOf 0x15C [.word 0], store "TMP"],
     -- TMP = CINT(1)
     line [int 1, typed 0x108 1 [], store "TMP"],
     -- TMP = CLNG(1)
     line [int 1, typed 0x108 2 [], store "TMP"],
     -- TMP = CSNG(1)
     line [int 1, typed 0x108 3 [], store "TMP"],
     -- TMP = CDBL(1)
     line [int 1, typed 0x108 4 [], store "TMP"]]

/-- Conditions, loops and selections. -/
def blocks : List (List Instr) :=
  -- IF 1 THEN
  [line [int 1, opOf 0x61 [.word 0]],
   -- ELSEIF 2 THEN
   line [int 2, opOf 0x4D [.word 0]],
   -- ELSE
   line [opOf 0x49 [.word 0]],
   -- END IF
   line [op 0x50],
   -- IF 1 THEN X = 5 ELSE X = 6
   line [int 1, opOf 0x5D [.word 0], int 5, store "X", int 0, opOf 0x49 [.word 0], int 6,
     store "X"],
   -- IF 1 THEN 100
   line [int 1, opOf 0x5E [.line 100]],
   -- ELSE 100
   line [int 1, opOf 0x4C [.word 0, .line 100]],
   -- DO
   line [op 0x46],
   -- EXIT DO
   line [opOf 0x53 [.word 0]],
   -- LOOP UNTIL 1
   line [int 1, opOf 0x63 [.word 0]],
   -- DO UNTIL 1
   line [int 1, opOf 0x47 [.word 0]],
   -- LOOP
   line [opOf 0x62 [.word 0]],
   -- DO WHILE 1
   line [int 1, opOf 0x48 [.word 0]],
   -- LOOP WHILE 0
   line [int 0, opOf 0x64 [.word 0]],
   -- FOR I = 1 TO 9
   line [load "I", int 1, int 9, opOf 0x56 [.word 0, .word 0]],
   -- EXIT FOR
   line [opOf 0x54 [.word 0]],
   -- NEXT
   line [opOf 0x65 [.word 0, .word 0]],
   -- FOR I = 1 TO 9 STEP 2
   line [load "I", int 1, int 9, int 2, opOf 0x57 [.word 0, .word 0]],
   -- NEXT I
   line [load "I", opOf 0x66 [.word 0, .word 0]],
   -- SELECT CASE 1
   line [int 1, opOf 0x74 [.word 0]],
   -- CASE 1
   line [int 1, op 0x3B],
   -- CASE 1 TO 3
   line [int 1, int 3, op 0x3C]] ++
    -- from CASE IS = 5 to CASE IS <> 5
    ([0x3D, 0x3E, 0x3F, 0x40, 0x41, 0x42].map (fun code => line [int 5, op code])) ++
    -- CASE ELSE
    [line [op 0x3A],
     -- END SELECT
     line [op 0x52],
     -- WHILE 1
     line [int 1, opOf 0x7A [.word 0]],
     -- WEND
     line [opOf 0x79 [.word 0]]]

/-- Jumps. -/
def jumps : List (List Instr) :=
  -- GOTO 100
  [line [opOf 0x5B [.line 100]],
   -- GOSUB 200
   line [opOf 0x59 [.line 200]],
   -- RETURN
   line [op 0x6F],
   -- RETURN 100
   line [opOf 0x70 [.line 100]],
   -- RESTORE
   line [op 0x6A],
   -- RESTORE 100
   line [opOf 0x6B [.line 100]],
   -- RESUME
   line [op 0x6C],
   -- RESUME 100
   line [opOf 0x6D [.line 100]],
   -- RESUME 0
   line [opOf 0x6D [.word 0xFFFF]],
   -- RESUME NEXT
   line [op 0x6E],
   -- RUN
   line [op 0x73],
   -- RUN "PROG"
   line [str "PROG", op 0x71],
   -- RUN 100
   line [opOf 0x72 [.line 100]],
   -- ON ERROR GOTO 100
   line [opOf 0x67 [.line 100]],
   -- ON 1 GOSUB 100, 200
   line [int 1, opOf 0x68 [.word 4, .line 100, .line 200]],
   -- ON 1 GOTO 100, 200
   line [int 1, opOf 0x69 [.word 4, .line 100, .line 200]]]

/-- Records, variables and constants. -/
def declarations : List (List Instr) :=
  -- TYPE MyType
  [line [opOf 0x20 [.word 0, .name "MyType"]],
   -- Fld() AS INTEGER
   line [opOf 0x19 [.name "Fld", .word 21, .word 1, .word 4]],
   -- Str() AS STRING * 8
   line [opOf 0x19 [.name "Str", .word 0x017C, .word 0, .word 8, .word 6]],
   -- Cust() AS MyType
   line [opOf 0x19 [.name "Cust", .word 21, .name "MyType", .word 4]],
   -- Fix() AS STRING * 5
   line [opOf 0x19 [.name "Fix", .word 21, .word 0x8005, .word 4]],
   -- AnyF() AS ANY
   line [opOf 0x19 [.name "AnyF", .word 21, .word 0, .word 4]],
   -- END TYPE
   line [opOf 0x1D [.word 0]],
   -- DIM SHARED A AS INTEGER
   line [opOf 0x17D [.word 0], opOf 0x15 [.word 1, .word 10], declare "A", op 0x1A],
   -- DIM B     AS LONG
   line [opOf 0x17D [.word 0], opOf 0x16 [.word 2, .word 10], declare "B"],
   -- DIM FS    AS STRING * 12
   line [opOf 0x17D [.word 0], opOf 0x17C [.word 0, .word 12, .word 10], declare "FS"],
   -- REDIM ARR(10)
   line [op 0x18, int 10, opOf 0xE [.word 2, .name "ARR"], op 0x1C],
   -- SHARED SV
   line [opOf 0x1E [.word 0], declare "SV"],
   -- STATIC ST
   line [opOf 0x1F [.word 0], declare "ST"],
   -- COMMON /BLK/ CV
   line [opOf 0xA5 [.word 0, .name "BLK"], declare "CV"],
   -- COMMON CV2
   line [opOf 0xA5 [.word 0, .word 0xFFFF], declare "CV2"],
   -- DIM MAT%(5, 1 TO 9)
   line [opOf 0x17D [.word 0], op 0x18, int 5, int 1, int 9, typed 0x10 1 [.word 4, .name "MAT"]],
   -- DEFINT A-F, Z
   line [opOf 0x1B [.word 0, .word 65, .word 0xFC00]],
   -- CONST PI = 42
   line [op 0x23, int 42, store "PI"]]

/-- Data, array elements and fields. -/
def assignments : List (List Instr) :=
  -- DATA 1,2,3
  [line [opOf 0xA6 [.text (ascii "\x00\x00 1,2,3\x00")]],
   -- READ X
   line [load "X", op 0xE2],
   -- ARR(5) = 3
   line [int 5, int 3, opOf 0xF [.word 1, .name "ARR"]],
   -- X = REC.Fld
   line [load "REC", opOf 0x11 [.name "Fld"], store "X"],
   -- REC.Fld = 9
   line [int 9, load "REC", opOf 0x12 [.name "Fld"]],
   -- X = 1.Arr(REC)
   line [load "REC", int 1, opOf 0x13 [.word 1, .name "Arr"], store "X"],
   -- REC.Arr(1) = 7
   line [int 7, int 1, load "REC", opOf 0x14 [.word 1, .name "Arr"]],
   line [op 0x17]]

/-- Output and input on the terminal. -/
def terminal : List (List Instr) :=
  -- PRINT "HI"; 1, TAB(2); SPC(3); USING "##"; 9
  [line [str "HI", op 0x95, int 1, op 0x94, int 2, op 0x90, op 0x92, int 3, op 0x8F, op 0x91,
     str "##", op 0xFF, int 9, op 0x96, op 0x93],
   -- PRINT
   line [int 1, op 0x8A, op 0x7D, op 0x93],
   -- LPRINT
   line [op 0xC3, op 0x93],
   -- WRITE
   line [op 0xFE, op 0x93],
   -- INPUT ; "? ", X
   line [str "? ", opOf 0x89 [.word 2, .word 7], load "X", op 0xB6, op 0x88],
   -- INPUT #1, X
   line [int 1, op 0x8A, op 0x87, load "X", op 0xB6, op 0x88],
   -- LINE INPUT ; "? "; S
   line [str "? ", load "S", opOf 0xC0 [.word 6]]]

/-- Files. -/
def files : List (List Instr) :=
  -- OPEN "F.DAT" FOR INPUT AS #1
  [line [str "F.DAT", int 1, op 0x8A, opOf 0xC9 [.word 1]],
   -- OPEN "F.DAT" FOR OUTPUT AS #1
   line [str "F.DAT", int 1, op 0x8A, opOf 0xC9 [.word 2]],
   -- OPEN "F.DAT" FOR RANDOM AS #1
   line [str "F.DAT", int 1, op 0x8A, opOf 0xC9 [.word 4]],
   -- OPEN "F.DAT" FOR APPEND AS #1
   line [str "F.DAT", int 1, op 0x8A, opOf 0xC9 [.word 8]],
   -- OPEN "F.DAT" FOR BINARY AS #1
   line [str "F.DAT", int 1, op 0x8A, opOf 0xC9 [.word 32]],
   -- OPEN "F.DAT" FOR RANDOM ACCESS READ AS #1
   line [str "F.DAT", int 1, op 0x8A, opOf 0xC9 [.word 0x0104]],
   -- OPEN "F.DAT" FOR RANDOM ACCESS WRITE AS #1
   line [str "F.DAT", int 1, op 0x8A, opOf 0xC9 [.word 0x0204]],
   -- OPEN "F.DAT" FOR RANDOM ACCESS READ WRITE AS #1
   line [str "F.DAT", int 1, op 0x8A, opOf 0xC9 [.word 0x0304]],
   -- OPEN "F.DAT" FOR RANDOM LOCK READ WRITE AS #1
   line [str "F.DAT", int 1, op 0x8A, opOf 0xC9 [.word 0x1004]],
   -- OPEN "F.DAT" FOR RANDOM LOCK WRITE AS #1
   line [str "F.DAT", int 1, op 0x8A, opOf 0xC9 [.word 0x2004]],
   -- OPEN "F.DAT" FOR RANDOM LOCK READ AS #1
   line [str "F.DAT", int 1, op 0x8A, opOf 0xC9 [.word 0x3004]],
   -- OPEN "F.DAT" FOR RANDOM SHARED AS #1
   line [str "F.DAT", int 1, op 0x8A, opOf 0xC9 [.word 0x4004]],
   -- OPEN "F.DAT" FOR RANDOM AS #1 LEN = 32
   line [str "F.DAT", int 1, op 0x8A, int 32, opOf 0xCA [.word 4]],
   -- LOCK #1
   line [int 1, op 0x8A, opOf 0xC2 [.word 0]],
   -- LOCK #1, 5 TO 9
   line [int 1, op 0x8A, int 5, int 9, opOf 0xC2 [.word 2]],
   -- LOCK #1, TO 9
   line [int 1, op 0x8A, int 5, int 9, opOf 0xC2 [.word 0x4002]],
   -- LOCK #1, 5
   line [int 1, op 0x8A, int 5, opOf 0xC2 [.word 0x8002]],
   -- UNLOCK #1, 2 TO 9
   line [int 1, op 0x8A, int 2, int 9, opOf 0xF2 [.word 2]],
   -- FIELD #1, 4 AS S@
   line [int 1, op 0x8A, op 0x85, int 4, typed 0xB 5 [.name "S"], op 0x86],
   -- NAME "OLD" AS "NEW"
   line [str "OLD", str "NEW", op 0xC8]]

/-- Graphics. -/
def graphics : List (List Instr) :=
  -- CIRCLE (1, 2), 5, 7
  [line [int 1, int 2, op 0x81, int 3, int 4, op 0x84, int 5, int 7, op 0xA0],
   -- CIRCLE STEP(1, 2), 9, , 5, 4, 3
   line [int 1, int 2, op 0x82, int 3, op 0x7E, int 4, op 0x7F, int 5, op 0x80, int 9, op 0x9F],
   -- LINE (1, 2)-(3, 4), , B
   line [int 1, int 2, op 0x81, int 3, int 4, op 0x83, opOf 0xBB [.word 1]],
   -- LINE (1, 2)-(3, 4), 7, B
   line [int 1, int 2, op 0x81, int 3, int 4, op 0x83, int 7, opOf 0xBC [.word 1]],
   -- LINE (1, 2)-(3, 4), , B, 8
   line [int 1, int 2, op 0x81, int 3, int 4, op 0x83, int 8, opOf 0xBD [.word 1]],
   -- LINE (1, 2)-(3, 4), 7, B, 8
   line [int 1, int 2, op 0x81, int 3, int 4, op 0x83, int 7, int 8, opOf 0xBE [.word 1]],
   -- PRESET (1, 2)
   line [int 1, int 2, op 0x81, op 0xD8],
   -- PRESET (1, 2), 7
   line [int 1, int 2, op 0x81, int 7, op 0xD9],
   -- PSET (1, 2)
   line [int 1, int 2, op 0x81, op 0xDA],
   -- PSET (1, 2), 7
   line [int 1, int 2, op 0x81, int 7, op 0xDB],
   -- PAINT (1, 2)
   line [int 1, int 2, op 0x81, op 0x173, op 0x173, op 0xD0],
   -- PAINT (1, 2), 3, 4, 5
   line [int 1, int 2, op 0x81, int 3, int 4, int 5, op 0xD1],
   -- GET (1, 2)-(3, 4), IMG
   line [int 1, int 2, op 0x81, int 3, int 4, op 0x83, load "IMG", op 0xB4],
   -- PUT (1, 2), IMG, PSET
   line [int 1, int 2, op 0x81, load "IMG", opOf 0xB5 [.word 3]],
   -- PUT (1, 2), IMG
   line [int 1, int 2, op 0x81, load "IMG", opOf 0xB5 [.word 0xFFFF]],
   -- VIEW (1, 1)-(1, 1), 1, 1
   line [int 1, int 1, int 1, int 1, int 1, int 1, op 0xF3],
   -- VIEW SCREEN (1, 1)-(1, 1)
   line [int 1, int 1, int 1, int 1, op 0x173, op 0x173, op 0xF7],
   -- VIEW PRINT
   line [op 0xF5],
   -- VIEW PRINT 1 TO 20
   line [int 1, int 20, op 0xF6],
   -- WINDOW (1, 1)-(1, 1)
   line [int 1, int 1, int 1, int 1, op 0xFB],
   -- WINDOW SCREEN (2, 2)-(2, 2)
   line [int 2, int 2, int 2, int 2, op 0xFD],
   -- KEY ON
   line [opOf 0xB8 [.word 1]],
   -- WIDTH , 40
   line [op 0x173, int 40, op 0xF8]]

/-- Events. -/
def events : List (List Instr) :=
  -- COM(1) ON
  [line [int 1, op 0x27, op 0x2B],
   -- KEY(1) ON
   line [int 1, op 0x29, op 0x2B],
   -- PLAY(1) ON
   line [int 1, op 0x2F, op 0x2B],
   -- SIGNAL(1) ON
   line [int 1, op 0x30, op 0x2B],
   -- STRIG(1) ON
   line [int 1, op 0x31, op 0x2B],
   -- TIMER(1) ON
   line [int 1, op 0x33, op 0x2B],
   -- PEN OFF
   line [op 0x2D, op 0x2A],
   -- PLAY OFF
   line [op 0x2E, op 0x2A],
   -- TIMER OFF
   line [op 0x32, op 0x2A],
   -- UEVENT OFF
   line [op 0x17A, op 0x2A],
   -- PEN STOP
   line [op 0x2D, op 0x2C],
   -- ON PEN GOSUB 100
   line [op 0x2D, opOf 0x28 [.line 100]]]

/-- Assignments with a keyword, statements behind colons, remarks, and text that was never
understood. -/
def remarks : List (List Instr) :=
  -- LET X = 1
  [line [op 0xBF, int 1, store "X"],
   -- LSET S@ = "HI"
   line [str "HI", typed 0xB 5 [.name "S"], op 0xC4],
   -- RSET S@ = "HI"
   line [str "HI", typed 0xB 5 [.name "S"], op 0xE6],
   -- ::
   line [op 0x6, opOf 0x7 [.word 20]],
   line [opOf 0x9 [.word 8]],
   -- REM comment text$STATIC
   line [opOf 0xE3 [.text (ascii " comment text")], opOf 0x21 [.word 0]],
   -- ' hi!!!there$DYNAMIC
   line [opOf 0x97 [.text (ascii "\x05\x00 hi\x0d\x03!there")], opOf 0x22 [.word 0]],
   -- '$INCLUDE: 'FOO.BI'
   line [opOf 0x97 [.text (ascii "\x02\x00")], opOf 0x99 [.text (ascii "FOO.BI\x00")]],
   -- SYNTAX ERREND
   line [opOf 0xA [.text (ascii "\x00\x00SYNTAX ERR")], op 0x4E]]

/-- Calls, declarations and function definitions. -/
def procedures : List (List Instr) :=
  -- CALL MySub(BYVAL 1, SEG 2)
  [line [int 1, op 0x25, int 2, op 0x36, opOf 0x37 [.word 2, .name "MySub"]],
   -- MySub 1
   line [int 1, opOf 0x38 [.word 1, .name "MySub"]],
   -- CALLS MySub(1)
   line [int 1, opOf 0x39 [.word 1, .name "MySub"]],
   -- X = ARR
   line [opOf 0xE [.word 0x8000, .name "ARR"], store "X"],
   -- DECLARE FUNCTION MyFn% ALIAS "abc" (P() AS INTEGER)
   line [opOf 0x44 [.word 0, .name "MyFn", .word 0x0E81, .word 1, .name "P", .word 0x0400, .word 1,
     .raw (ascii "abc\x00")]],
   -- DECLARE SUB MySub CDECL
   line [opOf 0x44 [.word 0, .name "MySub", .word 0x8100, .word 0xFFFF]],
   -- DEF FNX% (P AS INTEGER) = P
   line [opOf 0x45 [.word 0, .word 0, .name "FNX", .word 129, .word 1, .name "P", .word 0x2000,
     .word 1], load "P", opOf 0x26 [.word 0, .word 0]],
   -- DEF FNY
   line [opOf 0x45 [.word 0, .word 0, .name "FNY", .word 0, .word 0]],
   -- EXIT DEF
   line [opOf 0x55 [.word 0]],
   -- END DEF
   line [opOf 0x4F [.word 0, .word 0]]]

/-- Labels. -/
def labels : List (List Instr) :=
  -- 100
  [[opOf 0x5 [.word 0, .line 100, .word 2]],
   -- LBL:
   [opOf 0x4 [.word 0, .name "LBL"]],
   -- 65530
   [opOf 0x4 [.word 0, .line 65530]]]

/-- Statements with a fixed number of arguments, and the last few with their own form. -/
def statements : List (List Instr) :=
  -- BEEP
  [line [op 0x9A],
   -- BLOAD 2
   line [int 2, op 0x9B],
   -- BLOAD 2, 2
   line [int 2, int 2, op 0x9C],
   -- BSAVE 2, 2, 2
   line [int 2, int 2, int 2, op 0x9D],
   -- CHDIR 2
   line [int 2, op 0x9E],
   -- DEF SEG
   line [op 0xA8]] ++
    -- from DRAW 2 to ERROR 2
    ([0xAA, 0xAB, 0xAD].map (fun code => line [int 2, op code])) ++
    -- FILES
    [line [op 0xAE],
     -- FILES 2
     line [int 2, op 0xAF],
     -- GET 2
     line [int 2, op 0xB0]] ++
    -- from GET 2, 2 to KEY 2, 2
    ([0xB1, 0xB7, 0xB9].map (fun code => line [int 2, int 2, op code])) ++
    -- KILL 2
    [line [int 2, op 0xBA],
     -- MKDIR 2
     line [int 2, op 0xC7],
     -- OPEN 2, 2, 2
     line [int 2, int 2, int 2, op 0xCB],
     -- OPEN 2, 2, 2, 2
     line [int 2, int 2, int 2, int 2, op 0xCC],
     -- OPTION BASE 0
     line [op 0xCD],
     -- OPTION BASE 1
     line [op 0xCE],
     -- OUT 2, 2
     line [int 2, int 2, op 0xCF],
     -- PALETTE
     line [op 0xD2],
     -- PALETTE 2, 2
     line [int 2, int 2, op 0xD3],
     -- PALETTE USING 2
     line [int 2, op 0xD4],
     -- PCOPY 2, 2
     line [int 2, int 2, op 0xD5],
     -- PLAY 2
     line [int 2, op 0xD6],
     -- POKE 2, 2
     line [int 2, int 2, op 0xD7],
     -- PUT 2
     line [int 2, op 0xDC],
     -- PUT 2, 2
     line [int 2, int 2, op 0xDD],
     -- RANDOMIZE
     line [op 0xE0],
     -- RANDOMIZE 2
     line [int 2, op 0xE1],
     -- RESET
     line [op 0xE4],
     -- RMDIR 2
     line [int 2, op 0xE5],
     -- SEEK 2, 2
     line [int 2, int 2, op 0xE8],
     -- SHELL
     line [op 0xE9],
     -- SHELL 2
     line [int 2, op 0xEA],
     -- SLEEP
     line [op 0xEB],
     -- SOUND 2, 2
     line [int 2, int 2, op 0xEC]] ++
    -- from SYSTEM to VIEW
    ([0xEE, 0xF0, 0xF1, 0xF4].map (fun code => line [op code])) ++
    -- WIDTH LPRINT 2
    [line [int 2, op 0xF9],
     -- WIDTH 2, 2
     line [int 2, int 2, op 0xFA],
     -- WINDOW
     line [op 0xFC],
     -- END
     line [op 0x4E],
     -- CHAIN 2
     line [int 2, op 0x43],
     -- STOP
     line [opOf 0x75 [.word 0]],
     -- WAIT 2, 2
     line [int 2, int 2, op 0x77],
     -- WAIT 2, 2, 2
     line [int 2, int 2, int 2, op 0x78],
     -- SWAP 2, 2
     line [int 2, int 2, opOf 0xED [.word 0]],
     -- GET 2, 2, 2
     line [int 2, int 2, int 2, opOf 0xB3 [.word 0]],
     -- PUT 2, 2, 2
     line [int 2, int 2, int 2, opOf 0xDF [.word 0]],
     -- SLEEP 2
     line [int 2, op 0x17B],
     -- GET 1, , 2
     line [int 1, int 2, opOf 0xB2 [.word 0]],
     -- PUT 1, , 2
     line [int 1, int 2, opOf 0xDE [.word 0]],
     -- CLOSE 1
     line [int 1, opOf 0xA2 [.word 1]],
     -- COLOR , 1, , 2
     line [op 0x172, int 1, op 0x172, int 2, opOf 0xA4 [.word 4]],
     -- LOCATE , 1
     line [op 0x173, op 0x172, int 1, opOf 0xC1 [.word 3]],
     -- CLEAR
     line [op 0x173, opOf 0xA1 [.word 1]],
     -- CLS 1
     line [int 1, op 0xA3],
     -- SCREEN , 1
     line [op 0x172, int 1, opOf 0xE7 [.word 2]]] ++
    -- from DATE$ = "V" to TIME$ = "V"
    ([0xA7, 0xA9, 0xEF].map (fun code => line [str "V", op code])) ++
    -- MID$("V", 1) = 1
    [line [int 1, int 1, str "V", op 0xC5],
     -- MID$("V", 1, 1) = 1
     line [int 1, int 1, int 1, str "V", op 0xC6]]

/-- The lines that all versions share. -/
def common : List (List Instr) :=
  expressions ++ functions ++ blocks ++ jumps ++ declarations ++ assignments ++ terminal ++ files ++
    graphics ++ events ++ remarks ++ procedures ++ labels ++ statements

end SavedBasic.Sample
