import SavedBasic.Command
import SavedBasic.Sample.Shared
import SavedBasic.Sample.First
import SavedBasic.Sample.Form
import SavedBasic.Sample.Macintosh
import SavedBasic.Sample.Procedure
import SavedBasic.Sample.Professional
import SavedBasic.Sample.Visual

/-!
# Surveys of sample programs

A survey builds a file from several copies of a sample, decodes and lists it, and counts what came out.
-/

namespace SavedBasic.Sample

open Assembly

/-- Something that a survey has found. -/
inductive Finding where
  /-- a count -/
  | count (n : Nat)
  /-- a text -/
  | text (text : String)
  /-- a number with a fraction -/
  | float (x : Binary64)

/-- What a survey has found. -/
structure Survey where
  /-- the findings in order -/
  findings : List Finding
  /-- the listing -/
  out : String
  /-- why decoding ended early -/
  failure : Option Fault

/-! ## Parts of a program -/

/-- A part that can be added to a draft. -/
inductive Part where
  /-- the lines that all versions share -/
  | common
  /-- the lines that versions from 7.0 on understand -/
  | professional
  /-- the lines that versions from 7.1 on understand -/
  | preserving
  /-- the lines that only Visual Basic understands -/
  | visual
  /-- the lines that only version 4.0 understands -/
  | first
  /-- one more line of the main program -/
  | line (code : List Instr)
  /-- the form -/
  | form
  /-- a `SUB` -/
  | sub (name : String) (static newForm : Bool)
  /-- a `FUNCTION` -/
  | function (name : String) (newForm : Bool)

/-- Adds a part to a draft. -/
def Part.addTo : Part → Draft → Except Fault Draft
  | common, d => d.appendMain Sample.common.flatten
  | professional, d => d.appendMain Sample.professional.flatten
  | preserving, d => d.appendMain Sample.preserving.flatten
  | visual, d => d.appendMain Sample.visual.flatten
  | first, d => d.appendMain Sample.first.flatten
  | line code, d => d.appendMain code
  | form, d => .ok { d with form := formArea }
  | sub name static newForm, d => addSub d name static newForm
  | function name newForm, d => addFunction d name newForm

/-- The draft of several parts. -/
def draft (v : Version) (parts : List Part) : Except Fault Draft :=
  parts.foldlM (fun d part => part.addTo d) (.start v)

/-- A list of parts again and again. -/
def copies (n : Nat) (parts : List Part) : List Part :=
  (List.replicate n parts).flatten

/-! ## Surveys -/

/-- Decodes and lists the draft of several parts. -/
def survey (v : Version) (parts : List Part) (findings : Image → String → List Finding) :
    Except Fault Survey := do
  let image ← Image.decode (.ofBytes (← draft v parts).bytes)
  let out := image.print.text
  return ⟨findings image out, out, image.failure⟩

/-- The number of lines of the main program. -/
def mainLines (image : Image) : Nat :=
  (image.procedures.head?.map fun p => p.lines.length).getD 0

/-- The number of characters and the number of lines. -/
def lengthAndLines (image : Image) (out : String) : List Finding :=
  [.count out.length, .count (mainLines image)]

/-- The line that erases an array in version 4.5. -/
def eraseLine : List Instr :=
  line [load "ARR", opOf 0xAC [.word 1]]

/-- The survey of version 4.5, which also counts the procedures. -/
def surveyCommon (n : Nat) : Except Fault Survey :=
  survey .qb45
    (copies n [.common, .line eraseLine] ++ [.sub "Helper" true false, .function "Compute" false])
    fun image out =>
      [.count out.length, .count image.procedures.length, .count (mainLines image)]

/-- The survey of version 7.0. -/
def surveyProfessional (n : Nat) : Except Fault Survey :=
  survey .qb70
    (copies n [.common, .professional] ++ [.sub "Helper" false false, .function "Compute" false])
    lengthAndLines

/-- The survey of version 7.1. -/
def surveyPreserving (n : Nat) : Except Fault Survey :=
  survey .qb71
    (copies n [.professional, .preserving] ++ [.sub "Helper" false true, .function "Compute" true])
    lengthAndLines

/-- The type of the main form. -/
def mainFormType (image : Image) : List Finding :=
  match image.state.form.bind fun layout => layout.controls.head? with
  | some control => [.text control.type]
  | none => []

/-- The survey of Visual Basic, which also finds the type of the main form. -/
def surveyVisual (n : Nat) : Except Fault Survey :=
  survey .vbdos
    ([.form] ++ copies n [.professional, .visual, .line formRemark] ++
      [.sub "Helper" true true, .function "Compute" true])
    fun image out => lengthAndLines image out ++ mainFormType image

/-- The survey of version 4.0. -/
def surveyFirst (n : Nat) : Except Fault Survey :=
  survey .qb40 (copies n [.first]) lengthAndLines

/-- The first bytes of the files that are refused; the last one is the mark of no format. -/
def refusedMarks : List UInt8 :=
  [0xF0, 0xFC, 0xFD, 0xFE, 0xFF, 0x00]

/-- Whether a file that starts with this byte is refused, as a count. -/
def refusals (first : UInt8) : Nat :=
  if (Command.listMac (.ofBytes [first])).refused then 1 else 0

/-- The survey of the Macintosh format: the listing, values of each width from the beginning of the
file, two numbers with a fraction and a text, and files that are refused. -/
def surveyMac (n : Nat) : Except Fault Survey := do
  let src := Source.ofBytes (macFile n)
  let printout := Mac.print src
  if let some fault := printout.failure then throw fault
  let a ← Mac.byteAt src 0
  let b ← src.natBE 1 2
  let c ← src.natBE 3 4
  let single ← (Source.ofBytes (Bytes.ofNatBE 4 0x3FC00000)).natBE 0 4
  let double ← (Source.ofBytes (Bytes.ofNatBE 8 0x4004000000000000)).natBE 0 8
  let (text, _) ← Mac.shortText (.ofBytes (Mac.encodeName (ascii "ABC"))) 0
  let findings := [.count printout.text.length, .count a, .count b, .count c,
    .float (.ofBits32 single), .float ⟨double⟩, .text text]
  return ⟨findings ++ refusedMarks.map fun first => .count (refusals first), printout.text, none⟩

end SavedBasic.Sample
