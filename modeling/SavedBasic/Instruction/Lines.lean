import SavedBasic.Instruction.Handler
import SavedBasic.Text.Runs

/-!
# Lines, comments and remarks

The opcodes that start a line or a statement, and those for the text between statements: comments,
remarks, commands to the compiler, and text that was never understood.
-/

namespace SavedBasic.Instruction

open Decode

/-- Starts a line; operands that are left over from the last line are forgotten. -/
def startLine (label : Decode (Option Identifier × Nat)) : Decode Unit := do
  clear
  let (label, indent) ← label
  beginLine label indent

/-- A comment: its column and its text. A line has at most one. -/
def comment : Decode Unit := do
  if (← line).comment.isSome then throw .brokenPromise
  match ← packed with
  | low :: high :: text =>
    let comment : Comment :=
      { text := Text.expandRuns text, column := low.toNat + 256 * high.toNat, command := none }
    setLine { (← line) with comment := some comment }
  | _ => throw .outOfRange

/-- The opcodes of lines. -/
def lines : Table :=
  [(0x0000, fun _ indent => startLine (pure (none, indent))),
   (0x0004, always <| startLine do
      skipWords 1
      return (some (← identifier), 0)),
   (0x0005, always <| startLine do
      skipWords 1
      let label ← identifier
      return (some label, ← word)),
   (0x0006, always <| colon none),
   (0x0007, always do
      colon (some (← word))),
   (0x0009, always <| skipWords 1),
   (0x000A, always do
      put (.misread ((← packed).drop 2))),
   (0x0017, always <| pure ()),
   (0x0021, always do
      skipWords 1
      metacommand .staticArrays),
   (0x0022, always do
      skipWords 1
      metacommand .dynamicArrays),
   (0x0097, always comment),
   (0x0099, always do
      metacommand (.includeFile (← packed).dropLast)),
   (0x00E3, always do
      put (.remark (Text.expandRuns (← packed)) none)),
   (0x01C2, always do
      skipWords 1
      metacommand (.form (← identifier)))]

end SavedBasic.Instruction
