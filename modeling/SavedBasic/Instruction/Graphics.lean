import SavedBasic.Instruction.Handler

/-!
# Graphics

The opcodes of graphics statements. Points and the optional operands of `CIRCLE` are put aside under a
name by opcodes of their own and picked up by the statement.
-/

namespace SavedBasic.Instruction

open Decode

/-- A point from the two topmost operands. -/
def point (step : Bool) : Decode Point := do
  let (x, y) ← popTwo
  return { x := x, y := y, step := step }

/-- The first point of a statement. -/
def startPoint (step : Bool) : Handler := always do
  let p ← point step
  setArgument (·.start.isSome) fun a => { a with start := some p }

/-- The second point of a statement. -/
def stopPoint (step : Bool) : Handler := always do
  let p ← point step
  setArgument (·.stop.isSome) fun a => { a with stop := some p }

/-- `CIRCLE`, with or without a color above the radius. -/
def circle (withColor : Bool) : Handler := always do
  let a ← arguments
  let color ← if withColor then pop else pure .omitted
  let radius ← pop
  match a.start, radius with
  | none, _ => throw .brokenPromise
  | _, .omitted => throw .brokenPromise
  | some center, radius =>
    put (.circle center radius color (a.fromAngle.getD .omitted) (a.toAngle.getD .omitted)
      (a.aspect.getD .omitted))

/-- `LINE`, with or without a style above a color. -/
def drawLine (withColor withStyle : Bool) : Handler := always do
  let shape ← word
  let a ← arguments
  let style ← if withStyle then pop else pure .omitted
  let color ← if withColor then pop else pure .omitted
  put (.line a.start a.stop color (← choose ["", "B", "BF"] shape) style)

/-- `PAINT` with so many operands, of which some may be missing. -/
def paint (count : Nat) : Handler := always do
  let a ← arguments
  let args ← popMany count
  put (.paint a.start (args.map Expr.unmarked))

/-- `PSET` and `PRESET`, with or without a color. -/
def setPoint (keyword : String) (withColor : Bool) : Handler := always do
  let a ← arguments
  let color ← if withColor then pop else pure .omitted
  put (.pset keyword a.start color)

/-- `VIEW`: two corners, and a color and a border that may be missing. -/
def view (keyword : String) : Handler := always do
  let args ← popMany 6
  put (.view keyword (args.take 4) ((args.drop 4).map Expr.unmarked))

/-- `WINDOW` with two corners. -/
def window (keyword : String) : Handler := always do
  put (.window keyword (← popMany 4))

/-- What `PUT` does with the points that are there. -/
def imageActions : List String :=
  ["OR", "AND", "PRESET", "PSET", "XOR"]

/-- The opcodes of graphics. -/
def graphics : Table :=
  [(0x007E, always do
      let e ← pop
      setArgument (·.aspect.isSome) fun a => { a with aspect := some e }),
   (0x007F, always do
      let e ← pop
      setArgument (·.toAngle.isSome) fun a => { a with toAngle := some e }),
   (0x0080, always do
      let e ← pop
      setArgument (·.fromAngle.isSome) fun a => { a with fromAngle := some e }),
   (0x0081, startPoint false),
   (0x0082, startPoint true),
   (0x0083, stopPoint false),
   (0x0084, stopPoint true),
   (0x009F, circle false),
   (0x00A0, circle true),
   (0x00B4, always do
      let a ← arguments
      put (.getImage a.start a.stop (← pop))),
   (0x00B5, always do
      let action ← word
      let a ← arguments
      let array ← pop
      let action ← if action = 0xFFFF then pure none else some <$> choose imageActions action
      put (.putImage a.start array action)),
   (0x00B8, always do
      put (.key (← choose ["OFF", "ON", "LIST"] (← word)))),
   (0x00BB, drawLine false false),
   (0x00BC, drawLine true false),
   (0x00BD, drawLine false true),
   (0x00BE, drawLine true true),
   (0x00D0, paint 2),
   (0x00D1, paint 3),
   (0x00D8, setPoint "PRESET" false),
   (0x00D9, setPoint "PRESET" true),
   (0x00DA, setPoint "PSET" false),
   (0x00DB, setPoint "PSET" true),
   (0x00F3, view "VIEW"),
   (0x00F5, always <| put (.viewPrint .omitted .omitted)),
   (0x00F6, always do
      let args ← popMany 2
      put (.viewPrint (args.getD 0 .omitted) (args.getD 1 .omitted))),
   (0x00F7, view "VIEW SCREEN"),
   (0x00F8, always do
      put (.command "WIDTH" ((← popMany 2).map Expr.unmarked))),
   (0x00FB, window "WINDOW"),
   (0x00FD, window "WINDOW SCREEN")]

end SavedBasic.Instruction
