/-!
# Faults

Everything that can go wrong while a saved program is read, decoded, printed or written, as causes.
The wording of those that are reported to the user is in `Fault.message`.
-/

namespace SavedBasic

/-- Why an operation failed. -/
inductive Fault where
  /-- the file ends inside a number of the given width -/
  | endOfData (width : Nat)
  /-- the file ends where a single byte is needed -/
  | noByte
  /-- the file does not begin with the mark of a saved program -/
  | invalidSignature
  /-- the version stamp is not one of the known ones -/
  | invalidVersion
  /-- a characteristic that only a particular version has -/
  | unspecified
  /-- a version name that does not exist -/
  | unknownVersion
  /-- the instruction does not exist in this version -/
  | invalidOpcode (code : Nat)
  /-- the number is not that of a built-in type -/
  | invalidBuiltinType
  /-- a procedure declaration that is neither a `SUB` nor a `FUNCTION` -/
  | invalidFlags (flags : Nat)
  /-- the instruction continues a statement that is not there -/
  | invalidStatement
  /-- the statement finds no place on the line -/
  | cannotCombine
  /-- a conversion function to the string type -/
  | conversionToString
  /-- the `ANY` type has no short name -/
  | anyShortForm
  /-- the `ANY` type has no suffix -/
  | anySuffix
  /-- a string of fixed length has no short name -/
  | fixedStringShortForm
  /-- a string of fixed length has no suffix -/
  | fixedStringSuffix
  /-- a user-defined type has no short name -/
  | customShortForm
  /-- a user-defined type has no suffix -/
  | customSuffix
  /-- an operand is needed and the stack is empty -/
  | emptyStack
  /-- there is no line yet -/
  | noLine
  /-- a selector word or a position is outside the list it selects from -/
  | outOfRange
  /-- a key is not in the table it is looked up in -/
  | unknownKey
  /-- a fixed number of values is needed and another number was found -/
  | wrongCount
  /-- too few operands for a construct -/
  | tooFewOperands
  /-- a part is asked of something that has no such part, or no text -/
  | noSuchPart
  /-- text is appended to a statement whose kind was never set -/
  | kindNotSet
  /-- a condition that the format promises does not hold -/
  | brokenPromise
  /-- a value is used that no earlier word has determined -/
  | undetermined
  /-- a character that the code page lacks -/
  | notEncodable
  /-- bytes that are not valid text -/
  | notText
  /-- a number too large for its format -/
  | tooLarge
  /-- a number with more digits than a numeral may have -/
  | tooManyDigits
  /-- the form contains itself -/
  | cyclicForm
  /-- no file name was given -/
  | noArgument
  /-- the named file does not exist -/
  | noFile
deriving DecidableEq

/-- Upper-case hexadecimal digits, at least four of them. -/
def hexWord (n : Nat) : String :=
  let digits := (Nat.toDigits 16 n).map Char.toUpper
  String.ofList (List.replicate (4 - digits.length) '0' ++ digits)

/-- The wording of a fault. -/
def Fault.message : Fault → String
  | .endOfData width => s!"unpack requires a buffer of {width} bytes"
  | .noByte => "the file ends where a byte is needed"
  | .invalidSignature => "Invalid signature"
  | .invalidVersion => "Invalid file version"
  | .unspecified => ""
  | .unknownVersion => "no version of this name"
  | .invalidOpcode code => "Invalid opcode " ++ hexWord code
  | .invalidBuiltinType => "Invalid built-in type"
  | .invalidFlags flags => "Invalid flags " ++ hexWord flags
  | .invalidStatement => "Invalid statement"
  | .cannotCombine => "Statements cannot be combined"
  | .conversionToString => "Invalid opcode parameter: conversion to string"
  | .anyShortForm => "Any-type has no short form"
  | .anySuffix => "Any-type has no type suffix"
  | .fixedStringShortForm => "Fixed string has no short form"
  | .fixedStringSuffix => "Fixed string has no type suffix"
  | .customShortForm => "Custom type has no short form"
  | .customSuffix => "Custom type has no type suffix"
  | .emptyStack => "the operand stack is empty"
  | .noLine => "there is no line yet"
  | .outOfRange => "a selector is out of range"
  | .unknownKey => "a key is not in its table"
  | .wrongCount => "a wrong number of values"
  | .tooFewOperands => "too few operands"
  | .noSuchPart => "there is no such part"
  | .kindNotSet => "the kind of the statement was never set"
  | .brokenPromise => "a condition of the format does not hold"
  | .undetermined => "a value was never determined"
  | .notEncodable => "a character is not in the code page"
  | .notText => "the bytes are not valid text"
  | .tooLarge => "a number is too large for its format"
  | .tooManyDigits => "a numeral has too many digits"
  | .cyclicForm => "the form contains itself"
  | .noArgument => "no file name was given"
  | .noFile => "there is no such file"

end SavedBasic
