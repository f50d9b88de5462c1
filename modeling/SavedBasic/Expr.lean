import SavedBasic.Identifier
import SavedBasic.Float.Binary

/-!
# Expressions

The operands that instructions push and pop. Next to expressions proper there are two markers: an
operand that was left out, and the mark in front of an operand that is present. Both may turn up as
operands of anything; then the expression has no text.
-/

namespace SavedBasic

/-- The bases in which integers are written. -/
inductive Radix where
  | decimal
  | octal
  | hexadecimal
deriving DecidableEq

/-- An operand. -/
inductive Expr where
  /-- an operand that was left out -/
  | omitted
  /-- the mark in front of an operand that is present -/
  | mark
  /-- a variable -/
  | var (name : Identifier)
  /-- an array element or the call of a function -/
  | element (name : Identifier) (args : List Expr)
  /-- an array as a whole -/
  | array (name : Identifier)
  /-- a field of a record -/
  | field (record selector : Expr)
  /-- an integer, with the suffix of long integers or without -/
  | integer (radix : Radix) (value : Nat) (long : Bool)
  /-- a floating-point number of single or double precision -/
  | float (value : Binary64) (double : Bool)
  /-- an amount of money in ten-thousandths -/
  | currency (value : Nat)
  /-- a string -/
  | string (text : Bytes)
  /-- an expression in parentheses -/
  | parenthesized (inner : Expr)
  /-- an operator in front of its operand -/
  | unary (operator : String) (operand : Expr)
  /-- an operator between its operands -/
  | binary (operator : String) (left right : Expr)
  /-- a test for the type of a control -/
  | typeOf (object : Expr) (type : Identifier)
  /-- a method called for its value -/
  | method (target : Expr) (name : String) (args : List Expr)
  /-- a built-in function with an argument list -/
  | call (name : String) (args : List Expr)
  /-- a built-in function without an argument list -/
  | builtin (name : String)
  /-- a conversion to a built-in type -/
  | convert (operand : Expr) (type : Scalar)
  /-- an argument passed by value -/
  | byValue (arg : Expr)
  /-- an argument passed as a far address -/
  | segmented (arg : Expr)
  /-- a file number -/
  | fileNumber (number : Expr)
  /-- an object outside the program -/
  | object (name : Expr)
  /-- a source of events, with or without its number -/
  | event (name : String) (number : Expr)

namespace Expr

/-- Whether the operand was left out. -/
def isOmitted : Expr → Bool
  | omitted => true
  | _ => false

/-- Whether the operand is the mark in front of another. -/
def isMark : Expr → Bool
  | mark => true
  | _ => false

/-- A mark counts as an operand that was left out. -/
def unmarked : Expr → Expr
  | mark => omitted
  | e => e

/-- A plain decimal number. -/
def number (n : Nat) : Expr :=
  integer .decimal n false

end Expr

/-- The name part of something with a name and arguments. -/
inductive Head where
  /-- an identifier -/
  | identifier (name : Identifier)
  /-- the name of a built-in function or of a method -/
  | word (name : String)

/-- The name and the arguments of an operand that has both; an array as a whole and a built-in
function without parentheses have no arguments. -/
def Expr.parts? : Expr → Option (Head × Option (List Expr))
  | .element name args => some (.identifier name, some args)
  | .array name => some (.identifier name, none)
  | .method _ name args => some (.word name, some args)
  | .call name args => some (.word name, some args)
  | .builtin name => some (.word name, none)
  | _ => none

end SavedBasic
