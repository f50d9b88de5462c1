import SavedBasic.Identifier

/-!
# Versions

The five file versions, the numbers that tell them apart, and the built-in types that each of them
numbers in its own way.
-/

namespace SavedBasic

/-- The versions of the file format. -/
inductive Version where
  /-- QuickBASIC 4.0 -/
  | qb40
  /-- QuickBASIC 4.5 -/
  | qb45
  /-- BASIC Professional Development System 7.0 -/
  | qb70
  /-- BASIC Professional Development System 7.1 -/
  | qb71
  /-- Visual Basic for MS-DOS -/
  | vbdos
deriving DecidableEq

namespace Version

/-- All versions, oldest first. -/
def all : List Version :=
  [qb40, qb45, qb70, qb71, vbdos]

/-- The stamp at the beginning of a file. Stamps grow from version to version. -/
def stamp : Version → Nat
  | qb40 => 0x0013
  | qb45 => 0x0100
  | qb70 => 0x0101
  | qb71 => 0x0102
  | vbdos => 0x0108

/-- The number of bytes in front of the identifier table, forms not counted. -/
def headerSize : Version → Nat
  | qb40 => 0x0E
  | qb45 => 0x1C
  | qb70 => 0x1D
  | qb71 => 0x1D
  | vbdos => 0x20

/-- The offset of the instructions in versions that do not say otherwise. -/
def usualCodeOffset : Nat := 0x159

/-- The offset of the instructions behind the header, before any name is added. -/
def codeOffset : Version → Nat
  | qb40 => 0x82
  | vbdos => 0x56
  | _ => usualCodeOffset

/-- The last opcode, in the version's own numbering. -/
def lastOpcode : Version → Nat
  | qb40 => 0x01AF
  | qb45 => 0x017D
  | qb70 => 0x01A7
  | qb71 => 0x01A8
  | vbdos => 0x01D1

/-- The built-in types in the order of their numbers, from one on. -/
def scalars : Version → List Scalar
  | qb40 => [.integer, .long, .single, .double, .string]
  | qb45 => [.integer, .long, .single, .double, .string]
  | qb70 => [.integer, .long, .single, .double, .currency, .string]
  | qb71 => [.integer, .long, .single, .double, .currency, .string]
  | vbdos => [.integer, .long, .single, .double, .currency, .double, .string]

/-- The number of the last built-in type. -/
def lastScalar (v : Version) : Nat :=
  v.scalars.length

/-- The built-in type of a number. -/
def scalar (v : Version) (index : Int) : Except Fault Scalar :=
  match v.scalars[(index - 1).toNat]? with
  | some type => if 1 ≤ index then .ok type else .error .invalidBuiltinType
  | none => .error .invalidBuiltinType

/-- Whether this version came with or after the other. -/
def atLeast (v w : Version) : Bool :=
  w.stamp ≤ v.stamp

/-- The version of a stamp. -/
def ofStamp? (stamp : Nat) : Option Version :=
  all.find? fun v => v.stamp == stamp

/-- The short names of the versions. -/
def shortNames : List (String × Version) :=
  [("40", qb40), ("45", qb45), ("70", qb70), ("71", qb71), ("vb", vbdos)]

/-- The version of a short name. -/
def ofShortName (name : String) : Except Fault Version :=
  match shortNames.lookup name with
  | some v => .ok v
  | none => .error .unknownVersion

/-- The version of a short name in letters of either case. -/
def ofName (name : String) : Except Fault Version :=
  ofShortName (String.ofList (name.toList.map Char.toLower))

end Version

/-- The characteristic numbers of a version. -/
structure Profile where
  /-- the stamp at the beginning of a file -/
  stamp : Except Fault Nat
  /-- the size of the header -/
  headerSize : Except Fault Nat
  /-- the offset of the instructions -/
  codeOffset : Except Fault Nat
  /-- the last opcode -/
  lastOpcode : Except Fault Nat
  /-- the number of the last built-in type -/
  lastScalar : Except Fault Nat

/-- What all versions have in common: nothing but the usual offset of the instructions. -/
def Profile.common : Profile where
  stamp := .error .unspecified
  headerSize := .error .unspecified
  codeOffset := .ok Version.usualCodeOffset
  lastOpcode := .error .unspecified
  lastScalar := .error .unspecified

/-- The characteristic numbers of a version. -/
def Version.profile (v : Version) : Profile where
  stamp := .ok v.stamp
  headerSize := .ok v.headerSize
  codeOffset := .ok v.codeOffset
  lastOpcode := .ok v.lastOpcode
  lastScalar := .ok v.lastScalar

/-- The profile of a short name in letters of either case, or of the common base. -/
def Profile.ofName (name : String) : Except Fault Profile :=
  if name = "base" then .ok .common
  else (Version.ofName name).map Version.profile

end SavedBasic
