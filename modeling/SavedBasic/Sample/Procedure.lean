import SavedBasic.Draft

/-!
# Sample procedures

A procedure and a function with one parameter each. In the newer form of the declaration a parameter
takes one word more.
-/

namespace SavedBasic.Sample

open Assembly

/-- A parameter: its name, its flags and its type. -/
def parameter (name : String) (flags type : Int) (newForm : Bool) : List Operand :=
  [.name name, .word flags, .word type] ++ (if newForm then [.word 0] else [])

/-- Adds a `SUB` with a parameter of an integer type. -/
def addSub (d : Draft) (name : String) (static newForm : Bool) : Except Fault Draft := do
  let d ← d.addProcedure name (if static then 0x80 else 0)
  d.append
    (line [opOf 0x76 ([.word 0, .name name, .word 0, .word 1] ++ parameter "P" 0x2000 1 newForm)] ++
     line [opOf 0x55 [.word 0]] ++
     line [op 0x51])

/-- Adds a `FUNCTION` of an integer type with an array as its parameter. -/
def addFunction (d : Draft) (name : String) (newForm : Bool) : Except Fault Draft := do
  let d ← d.addProcedure name 0
  d.append
    (line [opOf 0x58 ([.word 0, .name name, .word 0x81, .word 1] ++ parameter "Q" 0x400 1 newForm)] ++
     line [op 0x51])

end SavedBasic.Sample
