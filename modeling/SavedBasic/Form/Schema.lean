/-!
# Control types

The seventeen types of controls on a form, and how the record of each type is laid out behind its name
index and its type number: skipped bytes, words of flags, numbers of one or two bytes, and references
to strings. An attribute whose name does not start with a letter is used for decoding only.
-/

namespace SavedBasic.Form

/-- How a number is shown. -/
inductive NumberKind where
  /-- a position or size in characters -/
  | char
  /-- a plain number -/
  | plain
  /-- a plain number without sign -/
  | unsigned
  /-- a color -/
  | color
deriving DecidableEq

/-- A field of a record. -/
inductive Field where
  /-- bytes without a meaning -/
  | skip (count : Nat)
  /-- a word of flags, each with its bit and its name -/
  | flags (bits : List (Nat × String))
  /-- a number of the given width -/
  | number (width : Nat) (kind : NumberKind) (name : String)
  /-- a reference to a string -/
  | text (name : String)

/-- A type of controls. -/
structure ControlType where
  /-- the name of the type -/
  name : String
  /-- the length of a record -/
  length : Nat
  /-- the fields behind the first two bytes of a record -/
  fields : List Field
  /-- a record takes some room -/
  length_pos : 0 < length

/-- The attribute that refers to the parent of a control. -/
def parentName : String := "~"

/-- What every record starts with. -/
def Field.opening (bits : List (Nat × String)) : List Field :=
  [.skip 1, .flags bits, .skip 2, .number 2 .plain parentName, .text "Tag"]

/-- The opening of a control that can be part of a control array. -/
def Field.indexed (bits : List (Nat × String)) : List Field :=
  Field.opening ((8, "Enabled") :: (9, "&Index") :: bits) ++ [.number 2 .plain "Index", .skip 2]

/-- The corner of a control. -/
def Field.corner : List Field :=
  [.number 1 .char "Top", .number 1 .char "Left"]

/-- The position and the size of a control. -/
def Field.area : List Field :=
  Field.corner ++ [.number 1 .char "Height", .number 1 .char "Width"]

/-- The area, the mouse pointer and the place in the tabulator order. -/
def Field.focus : List Field :=
  Field.area ++ [.number 1 .plain "MousePointer", .number 1 .plain "TabIndex"]

/-- The area, the focus, the colors and the drag mode. -/
def Field.body : List Field :=
  Field.focus ++ [.number 1 .color "BackColor", .number 1 .color "ForeColor",
    .number 1 .plain "DragMode"]

/-- A control that is shown and can be reached by the tabulator key. -/
def Field.tabbed (bits : List (Nat × String)) : List Field :=
  Field.indexed ((14, "TabStop") :: (15, "Visible") :: bits)

/-- The fields of a scroll bar. -/
def Field.scrollBar : List Field :=
  Field.tabbed [(7, "Attached")] ++ Field.focus ++
    [.number 2 .plain "Value", .number 1 .plain "DragMode", .number 2 .plain "LargeChange",
     .number 2 .plain "SmallChange", .number 2 .plain "Max", .number 2 .plain "Min"]

/-- The name of the type of forms. -/
def formName : String := "Form"

/-- The name of a form that contains other forms. -/
def mdiFormName : String := "MDIForm"

/-- The name of the type of menus. -/
def menuName : String := "Menu"

/-- The types of controls in the order of their numbers. -/
def controlTypes : List ControlType :=
  [{ name := formName, length := 0x1F, length_pos := by decide
     fields := Field.opening [(1, "MaxButton"), (3, "AutoRedraw"), (5, "ControlBox"), (8, "Enabled"),
         (10, "MinButton"), (15, "Visible")] ++
       [.skip 4, .number 1 .char "*Top", .number 1 .char "*Left", .number 1 .char "*Height",
        .number 1 .char "*Width", .number 1 .plain "MousePointer", .number 1 .plain "WindowState",
        .number 1 .color "BackColor", .number 1 .color "ForeColor", .skip 1, .text "Caption",
        .number 1 .plain "BorderStyle", .skip 2, .number 1 .plain "&Height",
        .number 1 .plain "&Width"] },
   { name := "CheckBox", length := 0x1C, length_pos := by decide
     fields := Field.tabbed [] ++ Field.body ++ [.text "Caption", .number 1 .plain "Value", .skip 1] },
   { name := "ComboBox", length := 0x27, length_pos := by decide
     fields := Field.tabbed [(7, "Sorted")] ++ Field.body ++
       [.skip 12, .text "Text", .number 1 .plain "Style"] },
   { name := "CommandButton", length := 0x1C, length_pos := by decide
     fields := Field.tabbed [(2, "Default"), (12, "Cancel")] ++ Field.focus ++
       [.number 1 .color "BackColor", .skip 1, .number 1 .plain "DragMode", .text "Caption",
        .skip 2] },
   { name := "DirListBox", length := 0x20, length_pos := by decide
     fields := Field.tabbed [] ++ Field.body ++ [.skip 8] },
   { name := "DriveListBox", length := 0x20, length_pos := by decide
     fields := Field.tabbed [] ++ Field.body ++ [.skip 8] },
   { name := "FileListBox", length := 0x24, length_pos := by decide
     fields := Field.tabbed [(0, "ReadOnly"), (1, "Hidden"), (2, "System"), (5, "Archive"),
         (10, "Normal")] ++ Field.body ++ [.skip 10, .text "Pattern"] },
   { name := "Frame", length := 0x1A, length_pos := by decide
     fields := Field.indexed [(15, "Visible")] ++ Field.body ++ [.text "Caption"] },
   { name := "HScrollBar", length := 0x20, length_pos := by decide
     fields := Field.scrollBar },
   { name := "Label", length := 0x1C, length_pos := by decide
     fields := Field.indexed [(5, "AutoSize"), (15, "Visible")] ++ Field.body ++
       [.text "Caption", .number 1 .plain "BorderStyle", .number 1 .plain "Alignment"] },
   { name := "ListBox", length := 0x20, length_pos := by decide
     fields := Field.tabbed [(7, "Sorted")] ++ Field.body ++ [.skip 8] },
   { name := menuName, length := 0x1A, length_pos := by decide
     fields := Field.indexed [(0, "Separator"), (6, "Checked"), (15, "Visible")] ++
       [.skip 9, .text "Caption"] },
   { name := "OptionButton", length := 0x1C, length_pos := by decide
     fields := Field.tabbed [] ++ Field.body ++ [.text "Caption", .number 1 .plain "Value", .skip 1] },
   { name := "PictureBox", length := 0x1F, length_pos := by decide
     fields := Field.tabbed [(3, "AutoRedraw")] ++ Field.body ++
       [.skip 2, .number 1 .plain "BorderStyle", .skip 4] },
   { name := "TextBox", length := 0x22, length_pos := by decide
     fields := Field.tabbed [(11, "MultiLine")] ++ Field.body ++
       [.skip 2, .number 1 .plain "BorderStyle", .number 1 .plain "ScrollBars", .text "Text",
        .skip 2] },
   { name := "Timer", length := 0x1C, length_pos := by decide
     fields := Field.indexed [] ++ Field.corner ++
       [.skip 7, .number 2 .unsigned "Interval", .skip 2] },
   { name := "VScrollBar", length := 0x20, length_pos := by decide
     fields := Field.scrollBar }]

end SavedBasic.Form
