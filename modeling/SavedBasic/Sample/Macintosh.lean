import SavedBasic.Assembly
import SavedBasic.Mac.Record

/-!
# A sample for the Macintosh

Lines that use each kind of token, references to names that do not exist and bytes without a meaning
included. A file of `n` lines goes through them again and again; each third line has a number.
-/

namespace SavedBasic.Sample

open Mac Mac.Token

/-- A token for each character of a text. -/
def chars (text : String) : List Token :=
  text.toList.map char

/-- The lines. Above each stands the text that it is listed as. -/
def macLines : List (List Token) :=
  -- PRINT "HI"
  [chars "PRINT \"HI\"",
   -- 09
   [byte 0x11, byte 0x1A],
   -- ABSVAL/
   [byte 0x80, byte 0xBC, byte 0xEF],
   -- VAR=A
   [name .variable 0] ++ chars "=A",
   -- LBL:
   [name .label 1] ++ chars ":",
   -- LoopCnt
   [name .wide 2],
   -- [unknown variable 99]
   [name .variable 99],
   [name .label 99],
   [name .wide 99],
   -- THEN
   [byte 0xE6, silent 0],
   -- &O17
   [octal 0xF],
   -- &HABCD
   [hexadecimal 0xABCD],
   -- 12345
   [decimal .dword 12345],
   -- 42
   [decimal .byte 42],
   -- &HDEAD&
   [longHexadecimal 0xDEAD],
   -- 999
   [decimal .word 999],
   -- 1.5
   [single 0x3FC00000],
   -- 70000&
   [decimal .long 70000],
   -- 2.25#
   [double 0x4002000000000000],
   -- ELSE
   chars ":" ++ [byte 0x8E],
   -- ' note
   chars ":" ++ [byte 0xAF, byte 0xE8] ++ chars " note",
   -- WHILE
   [byte 0xBE, byte 0xEC],
   -- AUTOSELECT
   [pair 0xF8 0x80, pair 0xF8 0xE3],
   -- ISALL
   [pair 0xF9 0xF2, pair 0xF9 0xFF],
   -- PICTUREPEEKL
   [pair 0xFA 0x80, pair 0xFA 0x85],
   -- TECALTEXTBACKPAT
   [pair 0xFB 0xC8, pair 0xFB 0xFF],
   -- [unknown symbol F800]
   [pair 0xF8 0x00],
   -- [unknown symbol A0]
   [byte 0xA0],
   -- VAR=1+2
   [name .variable 0, byte 0xEA, decimal .byte 1, byte 0xEC, decimal .word 2]]

/-- The names that the lines refer to. -/
def macNames : List Bytes :=
  ["VAR", "LBL", "LoopCnt"].map Assembly.ascii

/-- The record of the line at a position. -/
def macRecord (i : Nat) : Record where
  number := if i % 3 = 0 then some (10 * (i / 3 + 1)) else none
  indent := i % 4
  tokens := macLines.getD (i % macLines.length) []

/-- A file of `n` lines. -/
def macFile (n : Nat) : Bytes :=
  Mac.encode ((List.range n).map macRecord) macNames

end SavedBasic.Sample
