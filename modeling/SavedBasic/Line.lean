import SavedBasic.Statement.Place
import SavedBasic.Statement.Render

/-!
# Lines, procedures and programs

A line is a label, an indentation, one or more statements separated by colons, and a comment. Lines and
procedures are only ever added at the end, and only the last statement of the last line is built upon;
so all three are kept with the most recent entry in front. A place in a program is named by positions
counted from the oldest entry, which later additions do not move.
-/

namespace SavedBasic

open Text

/-- A statement and the column at which it was written, if one was stored. -/
structure Slot where
  /-- the column -/
  column : Option Nat
  /-- the statement -/
  statement : Statement

/-- A line of a program. -/
structure Line where
  /-- the label -/
  label : Option Identifier
  /-- the number of spaces in front -/
  indent : Nat
  /-- the statements before the last, most recent first -/
  earlier : List Slot
  /-- the last statement -/
  last : Slot
  /-- the comment -/
  comment : Option Comment

namespace Line

/-- A line with nothing on it. -/
def start (label : Option Identifier) (indent : Nat) : Line where
  label := label
  indent := indent
  earlier := []
  last := ⟨none, .empty⟩
  comment := none

/-- The statements with their columns, in the order in which they are written. -/
def slots (l : Line) : List Slot :=
  (l.last :: l.earlier).reverse

/-- The statements in the order in which they are written. -/
def statements (l : Line) : List Statement :=
  l.slots.map Slot.statement

/-- The columns of the statements. -/
def columns (l : Line) : List (Option Nat) :=
  l.slots.map Slot.column

/-- Starts a new statement behind a colon. -/
def colon (l : Line) (column : Option Nat) : Line :=
  { l with earlier := l.last :: l.earlier, last := ⟨column, .empty⟩ }

/-- Replaces the last statement. -/
def setLast (l : Line) (s : Statement) : Line :=
  { l with last := { l.last with statement := s } }

/-- Puts a statement into the last open place. -/
def place (l : Line) (new : Statement) : Except Fault Line :=
  match l.last.statement.place new with
  | .placed s => .ok (l.setLast s)
  | _ => .error .cannotCombine

/-- The text of the label: a number and a space, or a name, a colon and a space. -/
def labelText (l : Line) : String :=
  match l.label with
  | some id => id.stem ++ (if id.isNumber then " " else ": ")
  | none => ""

/-- Appends the text of the first statement. -/
def renderFirst (text : String) (slot : Slot) : Printed := do
  return text ++ (← slot.statement.render text.length)

/-- Appends a colon and the text of another statement, at its column or one space behind the colon.
Blanks at the end are dropped. -/
def renderNext (text : String) (slot : Slot) : Printed := do
  let text := text ++ ":"
  let column := slot.column.getD 0
  let text := if text.length < column then padTo column text else text ++ " "
  return trimEnd (text ++ (← slot.statement.render text.length))

/-- The text of a line. -/
def render (l : Line) : Printed := do
  let head := l.labelText ++ spaces l.indent
  let text ←
    match l.slots with
    | [] => pure head
    | first :: rest => do
      rest.foldlM renderNext (← renderFirst head first)
  match l.comment with
  | some comment => return padTo comment.column text ++ comment.render
  | none => return text

end Line

/-- A procedure; the main program is a procedure without a name. -/
structure Procedure where
  /-- the name -/
  name : Option Bytes
  /-- the kind, once the head has been decoded -/
  kind : Option ProcedureKind
  /-- whether the variables keep their values between calls -/
  static : Bool
  /-- the lines, most recent first -/
  lines : List Line

/-- A procedure without lines. -/
def Procedure.start (name : Option Bytes) (static : Bool) : Procedure where
  name := name
  kind := none
  static := static
  lines := []

/-- The lines in the order in which they are written. -/
def Procedure.listing (p : Procedure) : List Line :=
  p.lines.reverse

/-- A program, of which the last procedure is still being decoded. -/
structure Program where
  /-- the procedures before the last, most recent first -/
  earlier : List Procedure
  /-- the last procedure -/
  current : Procedure

/-- A place in a program; all positions are counted from the oldest entry. -/
structure Place where
  /-- the procedure -/
  procedure : Nat
  /-- the line -/
  line : Nat
  /-- the statement -/
  statement : Nat
  /-- the way into the statement -/
  way : List Statement.Branch

/-- Changes the entry at a position counted from the end of a list, where the oldest entry is. -/
def amendFromEnd {α : Type} (f : α → α) (i : Nat) (entries : List α) : List α :=
  if i < entries.length then entries.modify (entries.length - 1 - i) f else entries

namespace Line

/-- Changes the statement at a position. -/
def amendAt (f : Statement → Statement) (statement : Nat) (way : List Statement.Branch)
    (l : Line) : Line :=
  let change (slot : Slot) : Slot := { slot with statement := slot.statement.amendAt f way }
  if statement = l.earlier.length then { l with last := change l.last }
  else { l with earlier := amendFromEnd change statement l.earlier }

end Line

namespace Program

/-- A program with nothing in it. -/
def start : Program :=
  ⟨[], .start none false⟩

/-- The procedures in the order in which they are stored. -/
def procedures (p : Program) : List Procedure :=
  (p.current :: p.earlier).reverse

/-- Changes the statement at a place. -/
def amendAt (f : Statement → Statement) (place : Place) (p : Program) : Program :=
  let change (proc : Procedure) : Procedure :=
    { proc with lines := amendFromEnd (Line.amendAt f place.statement place.way) place.line proc.lines }
  if place.procedure = p.earlier.length then { p with current := change p.current }
  else { p with earlier := amendFromEnd change place.procedure p.earlier }

end Program

end SavedBasic
