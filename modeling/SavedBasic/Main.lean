import SavedBasic.Command

/-!
# The command line

The first argument names the family of formats, `pc` or `mac`, and the second one the file. The listing
goes to the standard output. A file that cannot be decoded to its end is reported there first; every
other failure, and the reason why a file is refused, goes to the standard error.
-/

namespace SavedBasic.Command

/-- The file of a name, if there is one. -/
def load : List String → IO Given
  | [] => return .nothing
  | name :: _ => do
    try
      return .file ⟨(← IO.FS.readBinFile name).data⟩
    catch _ =>
      return .absent

/-- Shows what a command has done. Gives the exit code. -/
def Outcome.show (outcome : Outcome) : IO UInt32 := do
  if let some fault := outcome.report then IO.println fault.message
  IO.print outcome.out
  IO.eprint outcome.messages
  match outcome.failure with
  | some fault =>
    IO.eprintln fault.message
    return 1
  | none => return if outcome.refused then 1 else 0

end SavedBasic.Command

open SavedBasic.Command in
/-- Lists the file that the arguments name. -/
def main (args : List String) : IO UInt32 := do
  let command := if args.head? = some "mac" then listMac else listImage
  (run command (← load (args.drop 1))).show
