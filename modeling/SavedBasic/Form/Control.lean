import SavedBasic.Form.Schema
import SavedBasic.Source
import SavedBasic.Text.Blank
import SavedBasic.Text.CodePage
import SavedBasic.Text.Numeral

/-!
# Controls

A control has a name, a type and attributes. Its record gives the raw attributes; some of them are
then adjusted: the area of a form depends on the state of its window, the index is shown only in
control arrays, and the caption of a menu may contain a shortcut behind a tabulator.
-/

namespace SavedBasic.Form

open Text

/-- The value of an attribute. -/
inductive Value where
  /-- a string -/
  | text (bytes : Bytes)
  /-- a number -/
  | number (kind : NumberKind) (n : Int)
  /-- a shortcut key -/
  | shortcut (keys : String)

/-- An attribute of a control. -/
structure Attribute where
  /-- the name -/
  name : String
  /-- the value -/
  value : Value
  /-- whether the attribute is shown -/
  shown : Bool

/-- The text of an attribute. -/
def Attribute.render (a : Attribute) : String :=
  padTo 12 a.name ++ " = " ++
    match a.value with
    | .text bytes =>
      "\"" ++ String.ofList ((CodePage.decode bytes).toList.flatMap fun c =>
        if c = '"' then ['"', '"'] else [c]) ++ "\""
    | .number .char n => "Char(" ++ Numeral.signed n ++ ")"
    | .number .color n => "QBColor(" ++ Numeral.signed n ++ ")"
    | .number _ n => Numeral.signed n
    | .shortcut keys => keys

/-- A control of a form. -/
structure Control where
  /-- the position of its record in the file -/
  offset : Nat
  /-- the name -/
  name : String
  /-- the name of its type -/
  type : String
  /-- the attributes -/
  attributes : List Attribute

namespace Control

/-- The attribute of the given name. -/
def attribute? (c : Control) (name : String) : Option Attribute :=
  c.attributes.find? fun a => a.name == name

/-- The number that an attribute has as its value. -/
def number? (c : Control) (name : String) : Option Int :=
  match (c.attribute? name).map Attribute.value with
  | some (.number _ n) => some n
  | _ => none

/-- Gives the control an attribute, in place of one with the same name. -/
def set (c : Control) (name : String) (value : Value) : Control :=
  { c with attributes := c.attributes.filter (·.name != name) ++ [⟨name, value, true⟩] }

/-- Hides an attribute. -/
def hide (c : Control) (name : String) : Control :=
  { c with attributes := c.attributes.map fun a => if a.name == name then { a with shown := false } else a }

/-- Gives the control a position or size in characters. -/
def setChar (c : Control) (name : String) (n : Int) : Control :=
  c.set name (.number .char n)

/-- The parent that the control names, as a displacement; zero stands for none. -/
def parent (c : Control) : Int :=
  (c.number? parentName).getD 0

/-- The area of a form: its own one, or one that follows from the state of its window. -/
def adjustArea (c : Control) : Control :=
  let own (name : String) : Int := (c.number? ("*" ++ name)).getD 0
  let outer (name : String) : Int := (c.number? ("&" ++ name)).getD 0 + 2
  let area (left top height width : Int) : Control :=
    (((c.setChar "Left" left).setChar "Top" top).setChar "Height" height).setChar "Width" width
  match c.number? "WindowState" with
  | some 0 => area (own "Left") (own "Top") (own "Height") (own "Width")
  | some 1 => area 3 22 (outer "Height") (outer "Width")
  | some 2 => area 0 0 (outer "Height") (outer "Width")
  | _ => c

/-- Outside a control array the index is not shown. -/
def adjustIndex (c : Control) : Control :=
  if c.number? "&Index" = some 0 then c.hide "Index" else c

/-- A form that contains others does not show the state of its window. -/
def adjustState (c : Control) : Control :=
  if c.type = mdiFormName then c.hide "WindowState" else c

/-- The text behind `start`, if it starts so. -/
def afterStart? (start text : List Char) : Option (List Char) :=
  if start.isPrefixOf text then some (text.drop start.length) else none

/-- The short form of a shortcut: `Shift` is `+`, `Ctrl` is `^`, and function keys are in braces. -/
def shortcutText (text : String) : String :=
  let keys := text.toList
  let (shift, keys) :=
    match afterStart? "Shift+".toList keys with
    | some rest => ("+", rest)
    | none => ("", keys)
  let (control, keys) :=
    match afterStart? "Ctrl+".toList keys with
    | some rest => ("^", rest)
    | none => ("", keys)
  let key :=
    match keys with
    | 'F' :: _ => "\x7b" ++ String.ofList keys ++ "\x7d"
    | _ => String.ofList keys
  shift ++ control ++ key

/-- The tabulator. -/
def tab : UInt8 := 9

/-- In a menu, what stands behind a tabulator in the caption is the shortcut. There is at most one. -/
def adjustCaption (c : Control) : Except Fault Control :=
  match c.type == menuName, (c.attribute? "Caption").map Attribute.value with
  | true, some (.text caption) =>
    if tab ∈ caption then
      let before := caption.takeWhile (· != tab)
      let behind := caption.drop (before.length + 1)
      if tab ∈ behind then .error .wrongCount
      else
        .ok ((c.set "Caption" (.text before)).set "Shortcut"
          (.shortcut (shortcutText (CodePage.decode behind))))
    else .ok c
  | _, _ => .ok c

/-- All adjustments. -/
def adjust (c : Control) : Except Fault Control :=
  c.adjustArea.adjustIndex.adjustState.adjustCaption

/-- The attributes that are shown, in the order of their names. -/
def shownAttributes (c : Control) : List Attribute :=
  (c.attributes.filter fun a => a.shown && a.name.toList.head?.any Char.isAlpha).mergeSort
    fun a b => a.name ≤ b.name

end Control

/-- The number of the given width in two's complement. -/
def signedValue (width n : Nat) : Int :=
  if n < Nat.pow 2 (8 * width - 1) then n else (n : Int) - Nat.pow 2 (8 * width)

/-- The position that displacements in a form are counted from. -/
def base : Nat := 0x16

/-- Reads the fields of a record one after another. -/
def readFields (src : Source) : (pos : Nat) → List Field → Control → Except Fault Control
  | _, [], c => .ok c
  | pos, .skip count :: rest, c => readFields src (pos + count) rest c
  | pos, .flags bits :: rest, c => do
    let word ← src.natLE pos 2
    let c := bits.foldl (fun c (bit, name) =>
      c.set name (.number .plain (if word.testBit bit then -1 else 0))) c
    readFields src (pos + 2) rest c
  | pos, .number width kind name :: rest, c => do
    let n ← src.natLE pos width
    let value : Int := if kind = .unsigned then n else signedValue width n
    readFields src (pos + width) rest (c.set name (.number kind value))
  | pos, .text name :: rest, c => do
    let displacement ← src.natLE pos 2
    let (text, _) ← src.packed (base + displacement)
    readFields src (pos + 2) rest (c.set name (.text text))

end SavedBasic.Form
