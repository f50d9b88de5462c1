import SavedBasic.Mac

/-!
# Commands

The two commands, one for each family of formats. A command takes the name of a file and writes a
listing. A saved program that cannot be decoded to its end is reported and listed as far as it goes; a
file of another kind is refused.
-/

namespace SavedBasic.Command

/-- What the command line gives. -/
inductive Given where
  /-- no file name -/
  | nothing
  /-- the name of a file that does not exist -/
  | absent
  /-- a file -/
  | file (src : Source)

/-- What a command does. -/
structure Outcome where
  /-- why decoding ended early, which is reported in front of the listing -/
  report : Option Fault
  /-- the listing -/
  out : String
  /-- messages to the user -/
  messages : String
  /-- whether the file was refused -/
  refused : Bool
  /-- why the command failed -/
  failure : Option Fault

/-- A command that failed before it wrote anything. -/
def Outcome.failed (fault : Fault) : Outcome :=
  { report := none, out := "", messages := "", refused := false, failure := some fault }

/-- A file that was refused. -/
def Outcome.refusal (message : String) : Outcome :=
  { report := none, out := "", messages := message ++ "\n", refused := true, failure := none }

/-- A printout. -/
def Outcome.printed (report : Option Fault) (p : Printout) : Outcome :=
  { report := report, out := p.text, messages := "", refused := false, failure := p.failure }

/-- Lists a saved program of the PC family. -/
def listImage (src : Source) : Outcome :=
  match Image.decode src with
  | .error fault => .failed fault
  | .ok image => .printed image.failure image.print

/-- Lists a file of the Macintosh format. -/
def listMac (src : Source) : Outcome :=
  match Mac.byteAt src 0 with
  | .error fault => .failed fault
  | .ok first =>
    if first = Mac.mark then .printed none (Mac.print src) else .refusal (Mac.refusal first)

/-- Runs a command on what the command line gives. -/
def run (command : Source → Outcome) : Given → Outcome
  | .nothing => .failed .noArgument
  | .absent => .failed .noFile
  | .file src => command src

end SavedBasic.Command
