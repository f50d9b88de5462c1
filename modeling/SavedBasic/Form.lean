import SavedBasic.Form.Control

/-!
# Forms

The form area of a file has a byte of flags, the place of the table of names, and the records of the
controls one after another. A name ends the table when its link is zero. The first record is the main
form; a control belongs to the one whose record its parent displacement names. Reading keeps what it
has found when it fails: the main form is known as soon as its record has been read.
-/

namespace SavedBasic

namespace Form

open Text

/-- The controls of a form. -/
structure Layout where
  /-- the controls in the order of their records; the first is the main form -/
  controls : List Control
  /-- which control contains which, as positions in the list -/
  links : List (Nat × Nat)

/-- The names of the table at a position. -/
def readNames (src : Source) (pos : Nat) : Except Fault (List String) :=
  if _h : pos + 4 ≤ src.size then do
    let link ← src.natLE pos 2
    let length ← src.natLE (pos + 3) 1
    let name := src.slice (pos + 4) length
    if link = 0 then return [CodePage.decode name]
    return CodePage.decode name :: (← readNames src (pos + 4 + name.length))
  else if pos + 2 ≤ src.size then .error (.endOfData 1)
  else .error (.endOfData 2)
termination_by src.size - pos

/-- The name and the type that a record starts with, if there is a record. -/
def recordHead? (src : Source) (names : List String) (pos : Nat) : Option (String × ControlType) :=
  match src.natLE pos 1, src.natLE (pos + 1) 1 with
  | .ok index, .ok type =>
    match controlTypes[type]?, names[index]? with
    | some type, some name => some (name, type)
    | _, _ => none
  | _, _ => none

/-- Reads the records from `pos` up to `limit`. Two bytes that are left over are no record, nor is
anything that does not start like one or goes beyond the limit. -/
def readControls (src : Source) (names : List String) (mdi : Bool) (limit pos : Nat) :
    List Control × Option Fault :=
  if pos + 2 < limit then
    match recordHead? src names pos with
    | none => ([], none)
    | some (name, type) =>
      if limit < pos + type.length then ([], none)
      else
        let typeName := if type.name = formName ∧ mdi then mdiFormName else type.name
        match readFields src (pos + 2) type.fields ⟨pos, name, typeName, []⟩ with
        | .error fault => ([], some fault)
        | .ok control =>
          match control.adjust with
          | .error fault => ([], some fault)
          | .ok control =>
            have := type.length_pos
            let (controls, fault) := readControls src names mdi limit (pos + type.length)
            (control :: controls, fault)
  else ([], none)
termination_by limit - pos

/-- Finds the parent of each control, in order, until one has no parent where it names one. -/
def link (controls : List Control) : (index : Nat) → List Control → List (Nat × Nat) × Option Fault
  | _, [] => ([], none)
  | index, c :: rest =>
    if c.parent = 0 then link controls (index + 1) rest
    else
      match controls.findIdx? fun p => (p.offset : Int) = base + c.parent with
      | none => ([], some .unknownKey)
      | some parent =>
        let (links, fault) := link controls (index + 1) rest
        ((parent, index) :: links, fault)

/-- Reads the form area. -/
def read (src : Source) : Layout × Option Fault :=
  let heading : Except Fault (Nat × Nat × List String) := do
    let flags ← src.natLE base 1
    let namesAt ← src.natLE 0x1C 2
    let length ← src.natLE 0x1E 2
    return (flags, length, ← readNames src (base + namesAt))
  match heading with
  | .error fault => (⟨[], []⟩, some fault)
  | .ok (flags, length, names) =>
    let (controls, fault) := readControls src names (flags.testBit 2) (0x20 + length) 0x20
    match fault with
    | some fault => (⟨controls, []⟩, some fault)
    | none =>
      let (links, fault) := link controls 0 controls
      (⟨controls, links⟩, fault)

/-- The positions of the controls that a control contains. -/
def Layout.members (layout : Layout) (index : Nat) : List Nat :=
  layout.links.filterMap fun (parent, child) => if parent = index then some child else none

/-- The lines of a control and of those that it contains, at most `depth` levels deep. -/
def Layout.renderFrom (layout : Layout) : (depth : Nat) → (indent : String) → (index : Nat) →
    Except Fault (List String)
  | 0, _, _ => .error .cyclicForm
  | depth + 1, indent, index =>
    match layout.controls[index]? with
    | none => .ok []
    | some c => do
      let attributes := c.shownAttributes.map fun a => indent ++ "\t" ++ a.render
      let members ← (layout.members index).mapM (layout.renderFrom depth (indent ++ "\t"))
      return (indent ++ "BEGIN " ++ c.type ++ " " ++ c.name) :: attributes ++ members.flatten ++
        [indent ++ "END"]

/-- The lines of the main form. A form of `n` controls is at most `n` levels deep, unless a control
contains itself. No other limit is set to the depth: one that a printer has because it calls itself for
each level is left out of account here. -/
def Layout.render (layout : Layout) : Except Fault (List String) :=
  layout.renderFrom layout.controls.length "" 0

end Form

end SavedBasic
