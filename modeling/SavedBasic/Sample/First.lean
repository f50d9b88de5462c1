import SavedBasic.Assembly

/-!
# A sample for the first version

Version 4.0 numbers its instructions in its own way: the type of a variable is part of the opcode, and
so are small integers. The sample uses each instruction that has a number of its own.
-/

namespace SavedBasic.Sample

open Assembly

/-- Pushes a small integer in version 4.0. -/
def small (n : Int) : Instr :=
  op (0x190 + n)

/-- Assigns to a variable in version 4.0. -/
def assign (name : String) : Instr :=
  opOf 0x11 [.name name]

/-- The suffixes that a name may have, none included, in the order of their numbers. -/
def suffixes : List Int :=
  [0, 1, 2, 3, 4, 5]

/-- Variables, array elements and fields with each suffix. The first lines also push a variable that
nothing takes from the stack. -/
def suffixed : List (List Instr) :=
  suffixes.map (fun t =>
      line [opOf (0xB + t) [.name "A"], small 0, opOf (0x11 + t) [.name "B"]]) ++
    suffixes.map (fun t => line [opOf (0x17 + t) [.name "D"]]) ++
    suffixes.map (fun t => line [small 0, opOf (0x1D + t) [.word 1, .name "AR"], assign "X"]) ++
    suffixes.map (fun t => line [small 0, small 0, opOf (0x23 + t) [.word 1, .name "AR"]]) ++
    suffixes.map (fun t => line [small 0, opOf (0x29 + t) [.word 1, .name "AR"], assign "X"]) ++
    suffixes.map (fun t => line [opOf 0xB [.name "R"], opOf (0x2F + t) [.name "F"], assign "X"]) ++
    suffixes.map (fun t => line [small 0, opOf 0xB [.name "R"], opOf (0x35 + t) [.name "F"]])

/-- Declarations, which say only at their end whether they are a `DIM`. -/
def dimensions : List (List Instr) :=
  [line [opOf 0x3B [.word 1, .word 0], opOf 0x17 [.name "VT"]],
   line [opOf 0x3C [.word 2, .word 0], opOf 0x17 [.name "VU"]],
   line [opOf 0x41 [.word 0, .dword 0xFC000001]],
   line [opOf 0x17 [.name "DM"], op 0x42],
   line [small 0, small 5, opOf 0x1D [.word 2, .name "DA"], op 0x44],
   line [small 0, small 5, opOf 0x1D [.word 2, .name "AR"], op 0x45]]

/-- Conversions and functions around them, where the numbering goes its own way. -/
def conversions : List (List Instr) :=
  [0x131, 0x133, 0x134, 0x137, 0x132].map (fun code => line [small 0, op code, assign "X"]) ++
    [line [op 0x135, assign "X"],
     line [small 0, op 0x136, assign "X"],
     line [op 0x138, assign "X"],
     line [small 0, op 0x156, assign "X"]]

/-- Literals. -/
def literals : List (List Instr) :=
  [0, 1, 2, 3, 4, 5, 6, 7, 8, 9, 10].map (fun n => line [small n, assign "X"]) ++
    [line [opOf 0x19B [.word 123], assign "X"],
     line [opOf 0x19D [.word 0xAB], assign "X"],
     line [opOf 0x1A3 [.text (ascii "HI")], assign "X"]]

/-- The lines that only version 4.0 understands. -/
def first : List (List Instr) :=
  suffixed ++ dimensions ++
    [line [op 0x77],
     line [small 0, opOf 0x86 [.word 0], op 0x77]] ++
    conversions ++ literals ++
    [line [],
     [opOf 0x5 [.word 0, .line 10, .word 2]]]

end SavedBasic.Sample
