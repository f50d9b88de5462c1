import SavedBasic.Bytes
import SavedBasic.Fault
import SavedBasic.Text.CodePage
import SavedBasic.Text.Numeral

/-!
# Identifiers

Names of variables, procedures, types and labels. A name is stored either as bytes or as a number; a
byte string that spells a number is that number, so that a line number reads the same in both forms.
Numbers from 65530 up are kept as the bytes of their decimal numeral, as long as it can be read back.
-/

namespace SavedBasic

/-- The types that a value can have by itself, each with a suffix character. -/
inductive Scalar where
  | integer
  | long
  | single
  | double
  | currency
  | string
deriving DecidableEq

namespace Scalar

/-- The name in an `AS` clause. -/
def name : Scalar → String
  | integer => "INTEGER"
  | long => "LONG"
  | single => "SINGLE"
  | double => "DOUBLE"
  | currency => "CURRENCY"
  | string => "STRING"

/-- The name inside `DEFINT`, `CINT` and their kin. -/
def shortName : Scalar → String
  | integer => "INT"
  | long => "LNG"
  | single => "SNG"
  | double => "DBL"
  | currency => "CUR"
  | string => "STR"

/-- The suffix that gives a variable this type. -/
def suffix : Scalar → String
  | integer => "%"
  | long => "&"
  | single => "!"
  | double => "#"
  | currency => "@"
  | string => "$"

end Scalar

/-- A name as it is stored. -/
inductive Name where
  /-- a number -/
  | number (n : Int)
  /-- a byte string -/
  | bytes (text : Bytes)
deriving DecidableEq

/-- A name that has been understood, with an optional type suffix. -/
structure Identifier where
  /-- the name in its kept form -/
  name : Name
  /-- whether the name is a number -/
  isNumber : Bool
  /-- the type suffix -/
  suffix : Option Scalar
deriving DecidableEq

namespace Identifier

/-- The first number that is kept as bytes. -/
def firstSpelled : Nat := 65530

/-- The number that a stored name is, if it is one. -/
def number? : Name → Option Int
  | .number n => some n
  | .bytes text => Text.Numeral.integer? text

/-- The kept form of a number. A numeral that is too long to be read is not written either. -/
def keep (n : Nat) : Except Fault Name :=
  let numeral := Text.Numeral.decimal n
  if n < firstSpelled then .ok (.number n)
  else if numeral.length ≤ Text.Numeral.maxDigits then
    .ok (.bytes (numeral.toList.map fun c => UInt8.ofNat c.toNat))
  else .error .tooManyDigits

/-- Understands a stored name. A negative number is no name, and a number takes no suffix. -/
def ofName (name : Name) (suffix : Option Scalar) : Except Fault Identifier :=
  match number? name with
  | none => .ok { name := name, isNumber := false, suffix := suffix }
  | some n =>
    if n < 0 ∨ suffix.isSome then .error .brokenPromise
    else (keep n.toNat).map fun name => { name := name, isNumber := true, suffix := suffix }

/-- The name without its suffix. -/
def stem (id : Identifier) : String :=
  match id.name with
  | .number n => Text.Numeral.signed n
  | .bytes text => Text.CodePage.decode text

/-- The text of an identifier. A name kept as a number shows no suffix. -/
def render (id : Identifier) : String :=
  match id.name with
  | .number n => Text.Numeral.signed n
  | .bytes text => Text.CodePage.decode text ++ (id.suffix.map Scalar.suffix).getD ""

/-- The identifier with the given suffix. -/
def withSuffix (id : Identifier) (suffix : Scalar) : Identifier :=
  { id with suffix := some suffix }

end Identifier

/-- The type named in a declaration. -/
inductive DataType where
  /-- any type -/
  | any
  /-- a built-in type -/
  | scalar (type : Scalar)
  /-- a string of the given length -/
  | fixedString (length : Nat)
  /-- a user-defined type -/
  | custom (name : Identifier)
deriving DecidableEq

namespace DataType

/-- The name in an `AS` clause. -/
def name : DataType → String
  | any => "ANY"
  | scalar type => type.name
  | fixedString length => "STRING * " ++ Text.Numeral.decimal length
  | custom name => name.render

/-- The name inside `DEFINT`, `CINT` and their kin, which only built-in types have. -/
def shortName : DataType → Except Fault String
  | any => .error .anyShortForm
  | scalar type => .ok type.shortName
  | fixedString _ => .error .fixedStringShortForm
  | custom _ => .error .customShortForm

/-- The suffix character, which only built-in types have. -/
def suffix : DataType → Except Fault String
  | any => .error .anySuffix
  | scalar type => .ok type.suffix
  | fixedString _ => .error .fixedStringSuffix
  | custom _ => .error .customSuffix

end DataType

end SavedBasic
