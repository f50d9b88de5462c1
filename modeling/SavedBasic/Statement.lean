import SavedBasic.Expr

/-!
# Statements

The statements of a line. A statement that an instruction finishes in one go holds its operands; those
that several instructions build together (`PRINT`, `INPUT`, declarations, lists) hold what has arrived
so far. Three statements contain others: the single-line `IF`, its `ELSE`, and a piece of text that was
never understood, which may stand in front of a statement.
-/

namespace SavedBasic

/-- The kinds of procedures. -/
inductive ProcedureKind where
  | sub
  | function
deriving DecidableEq

/-- The keyword of a kind of procedure. -/
def ProcedureKind.word : ProcedureKind → String
  | sub => "SUB"
  | function => "FUNCTION"

/-- The blocks that an `END` or an `EXIT` may name. -/
inductive Block where
  | defFn
  | doLoop
  | forLoop
  | conditional
  | selection
  | record
  | procedure (kind : ProcedureKind)
deriving DecidableEq

/-- The keyword of a block. -/
def Block.word : Block → String
  | defFn => "DEF"
  | doLoop => "DO"
  | forLoop => "FOR"
  | conditional => "IF"
  | selection => "SELECT"
  | record => "TYPE"
  | procedure kind => kind.word

/-- A point of a graphics statement, absolute or relative to the last point. -/
structure Point where
  /-- the horizontal coordinate -/
  x : Expr
  /-- the vertical coordinate -/
  y : Expr
  /-- whether the point is relative -/
  step : Bool

/-- A command to the compiler inside a comment. -/
inductive MetaCommand where
  /-- `$STATIC` -/
  | staticArrays
  /-- `$DYNAMIC` -/
  | dynamicArrays
  /-- `$INCLUDE` with a file name -/
  | includeFile (name : Bytes)
  /-- `$FORM` with the name of a form -/
  | form (name : Identifier)

/-- A comment at the end of a line. -/
structure Comment where
  /-- the text behind the apostrophe -/
  text : Bytes
  /-- the column of the apostrophe -/
  column : Nat
  /-- the command behind the text -/
  command : Option MetaCommand

/-- How a procedure is called. -/
inductive CallForm where
  /-- with the keyword `CALL` and parentheses -/
  | explicit
  /-- by its name alone -/
  | implicit
  /-- with the keyword `CALLS`, passing far addresses -/
  | far

/-- The statements that give something a new value or name, and can stand in a `CONST` list. -/
inductive Transfer where
  /-- an assignment, with an optional keyword such as `LET` -/
  | assign (keyword : Option String) (target value : Expr)
  /-- the renaming of a file -/
  | rename (old new : Expr)
  /-- the opening of a file -/
  | openFile (file number : Expr) (mode : String) (access lock : Option String) (length : Expr)

/-- Whether an assignment is only the keyword `LET` so far. -/
def Transfer.isLetAlone : Transfer → Bool
  | .assign (some "LET") .omitted .omitted => true
  | _ => false

/-- The assignment under the keyword `LET`; the other statements have no keyword. -/
def Transfer.underLet : Transfer → Transfer
  | .assign _ target value => .assign (some "LET") target value
  | t => t

/-- The kinds of output statements. -/
inductive PrintKind where
  | print
  | lprint
  | write
deriving DecidableEq

/-- One part of an output list. -/
inductive PrintPart where
  /-- an expression and the separator behind it; the expression may be left out -/
  | item (value : Expr) (separator : String)
  /-- `TAB` or `SPC` -/
  | control (word : String) (value : Expr)
  /-- a format -/
  | format (picture : Expr)
  /-- the last expression, without a separator -/
  | last (value : Expr)

/-- An output statement. -/
structure Print where
  /-- the kind of statement -/
  kind : PrintKind
  /-- the object that is printed on -/
  target : Expr
  /-- the file number -/
  file : Expr
  /-- the output list -/
  parts : List PrintPart

/-- The kinds of input statements. -/
inductive InputKind where
  | input
  | lineInput
deriving DecidableEq

/-- An input statement. Its kind is known only when it ends. -/
structure Input where
  /-- the kind of statement -/
  kind : Option InputKind
  /-- the prompt -/
  prompt : Expr
  /-- whether a semicolon stands behind the keyword -/
  semicolon : Bool
  /-- whether a comma, rather than a semicolon, follows the prompt -/
  comma : Bool
  /-- the file number and the variables -/
  args : List Expr

/-- A test of a `CASE`. -/
inductive CaseOption where
  /-- equality with a value -/
  | value (e : Expr)
  /-- a range -/
  | range (lower upper : Expr)
  /-- a comparison -/
  | compare (operator : String) (e : Expr)

/-- A parameter of a procedure. -/
structure Parameter where
  /-- the name -/
  name : Identifier
  /-- the type behind `AS` -/
  type : Option DataType
  /-- whether the parameter is an array -/
  isArray : Bool

/-- The announcement of a procedure. -/
structure Declare where
  /-- the kind of procedure -/
  kind : ProcedureKind
  /-- the name -/
  name : Identifier
  /-- the parameters, if they are listed -/
  params : Option (List Parameter)
  /-- whether the arguments are passed from right to left -/
  cdecl : Bool
  /-- the name in other programs -/
  externalName : Bytes

/-- The first line of a procedure. -/
structure ProcedureHeader where
  /-- the kind of procedure -/
  kind : ProcedureKind
  /-- the name -/
  name : Identifier
  /-- the parameters -/
  params : List Parameter
  /-- whether the variables keep their values between calls -/
  static : Bool
  /-- whether `STATIC` stands in front, rather than at the end -/
  staticFirst : Bool

/-- What closes the definition of a function. -/
inductive Closing where
  /-- an expression, the value of the function -/
  | value (e : Expr)
  /-- the end of a block -/
  | endOf (block : Block)

/-- The definition of a function. -/
structure DefFn where
  /-- the name -/
  name : Identifier
  /-- the parameters -/
  params : List Parameter
  /-- whether parentheses are written around no parameters -/
  parentheses : Bool
  /-- the value, once it is known -/
  definition : Option Closing

/-- A field of a record type. -/
structure TypeField where
  /-- the name -/
  name : Identifier
  /-- the type -/
  type : DataType
  /-- the bounds, lower and upper in turn -/
  bounds : List Expr
  /-- the column of the `AS` clause -/
  column : Nat

/-- The declaration of one variable. -/
structure VariableDeclaration where
  /-- the name -/
  name : Head
  /-- the type behind `AS` -/
  type : Option DataType
  /-- the column of the `AS` clause -/
  column : Nat
  /-- the bounds, lower and upper in turn -/
  bounds : Option (List Expr)

/-- A declaration whose name has not arrived yet. -/
structure PendingDeclaration where
  /-- the type behind `AS` -/
  type : Option DataType
  /-- the column of the `AS` clause -/
  column : Nat

/-- The statements that declare variables. -/
inductive DeclarationKind where
  | common
  | dim
  | redim
  | static
  | shared
deriving DecidableEq

/-- The keyword of a declaration. -/
def DeclarationKind.word : DeclarationKind → String
  | common => "COMMON"
  | dim => "DIM"
  | redim => "REDIM"
  | static => "STATIC"
  | shared => "SHARED"

/-- A statement that declares variables. -/
structure Declarations where
  /-- the statement, once it is known -/
  kind : Option DeclarationKind
  /-- the name of the common block -/
  block : Option Identifier
  /-- `SHARED` or `PRESERVE` -/
  mode : Option String
  /-- the declarations with a name -/
  items : List VariableDeclaration
  /-- the declaration that waits for its name -/
  pending : Option PendingDeclaration

/-- Where a program goes on after an error. -/
inductive Recovery where
  /-- at the statement that follows -/
  | next
  /-- at line zero, which stands for no line -/
  | zero
  /-- at a label -/
  | label (target : Identifier)

/-- A statement. -/
inductive Statement where
  /-- nothing -/
  | empty
  /-- text that was never understood -/
  | misread (text : Bytes)
  /-- text that was never understood, in front of a statement -/
  | misreadBefore (text : Bytes) (rest : Statement)
  /-- a remark -/
  | remark (text : Bytes) (command : Option MetaCommand)
  /-- a built-in statement -/
  | command (name : String) (args : List Expr)
  /-- the call of a procedure -/
  | call (form : CallForm) (name : Identifier) (args : List Expr)
  /-- a method called for its effect -/
  | methodCall (target : Expr) (name : String) (args : List Expr)
  /-- an assignment, a renaming, the opening of a file -/
  | transfer (t : Transfer)
  /-- constants -/
  | const (items : List Transfer)
  /-- `CIRCLE` -/
  | circle (center : Point) (radius color start stop aspect : Expr)
  /-- `LOCK` and `UNLOCK` -/
  | lock (unlock : Bool) (file first last : Expr)
  /-- `GET` for pictures -/
  | getImage (corner opposite : Option Point) (array : Expr)
  /-- `PUT` for pictures -/
  | putImage (corner : Option Point) (array : Expr) (action : Option String)
  /-- `LINE` -/
  | line (start stop : Option Point) (color : Expr) (shape : String) (style : Expr)
  /-- `KEY` with a mode -/
  | key (mode : String)
  /-- `PAINT` -/
  | paint (point : Option Point) (args : List Expr)
  /-- `PSET` and `PRESET` -/
  | pset (keyword : String) (point : Option Point) (color : Expr)
  /-- `VIEW` -/
  | view (keyword : String) (corners extras : List Expr)
  /-- `VIEW PRINT` -/
  | viewPrint (top bottom : Expr)
  /-- `WINDOW` -/
  | window (keyword : String) (corners : List Expr)
  /-- `FIELD` with widths and variables -/
  | field (file : Expr) (parts : List (Expr × Expr))
  /-- `INPUT` and `LINE INPUT` -/
  | input (i : Input)
  /-- `PRINT`, `LPRINT` and `WRITE` -/
  | print (p : Print)
  /-- `OPEN` for a table -/
  | openTable (file : Expr) (type : Identifier) (table number : Expr)
  /-- the end of a block -/
  | endOf (block : Block)
  /-- the way out of a block -/
  | exitFrom (block : Block)
  /-- `GOTO` -/
  | goto (target : Identifier)
  /-- a label alone, behind `THEN` or `ELSE` -/
  | jump (target : Identifier)
  /-- `GOSUB` -/
  | gosub (target : Identifier)
  /-- `RETURN` -/
  | returnTo (target : Option Identifier)
  /-- `RESTORE` -/
  | restore (target : Option Identifier)
  /-- `RESUME` -/
  | resume (target : Option Recovery)
  /-- `RUN` -/
  | run (target : Expr)
  /-- events are let in, kept out or kept waiting -/
  | event (source : Expr) (state : String)
  /-- `ERASE` -/
  | erase (arrays : List Expr)
  /-- `READ` -/
  | read (targets : List Expr)
  /-- `ON ERROR` -/
  | onError (within : Bool) (target : Recovery)
  /-- `ON` an event -/
  | onEvent (source : Expr) (target : Identifier)
  /-- `ON` a value, with `GOSUB` or `GOTO` -/
  | onValue (verb : String) (value : Expr) (targets : List Identifier)
  /-- `DO` or `LOOP`, with an optional test -/
  | loop (word test : String) (condition : Expr)
  /-- a single-line `IF` without an `ELSE` so far -/
  | ifThen (condition : Expr) (action : Statement)
  /-- a single-line `IF` with its `ELSE` -/
  | ifThenElse (condition : Expr) (action alternative : Statement)
  /-- the head of a block `IF` -/
  | ifBlock (condition : Expr)
  /-- `ELSEIF` -/
  | elseIf (condition : Expr)
  /-- an `ELSE` by itself, and the statement behind it -/
  | otherwise (action : Statement)
  /-- `FOR` -/
  | forLoop (counter first last step : Expr)
  /-- `NEXT` -/
  | next (counters : Option (List Expr))
  /-- `SELECT CASE` -/
  | select (value : Expr)
  /-- `CASE` -/
  | caseOf (options : List CaseOption)
  /-- `CASE ELSE` -/
  | caseElse
  /-- `DECLARE` -/
  | declare (d : Declare)
  /-- the head of a procedure -/
  | procedure (h : ProcedureHeader)
  /-- the head of a record type -/
  | typeHead (name : Identifier)
  /-- a field of a record type -/
  | typeField (f : TypeField)
  /-- `DATA` -/
  | data (text : Bytes)
  /-- `DEF FN` -/
  | defFn (d : DefFn)
  /-- `DEFINT` and its kin, with the letters they are for -/
  | defType (type : Scalar) (letters : List Char)
  /-- the declaration of variables -/
  | declarations (d : Declarations)

namespace Statement

/-- An output statement without anything in it. -/
def emptyPrint (kind : PrintKind) (target : Expr) : Statement :=
  print { kind := kind, target := target, file := .omitted, parts := [] }

/-- A declaration without anything in it. -/
def emptyDeclarations : Statement :=
  declarations { kind := none, block := none, mode := none, items := [], pending := none }

/-- A line input statement without anything in it. -/
def emptyInput : Statement :=
  input { kind := none, prompt := .omitted, semicolon := false, comma := false, args := [] }

/-- The keyword `LET` without an assignment. -/
def letAlone : Statement :=
  transfer (.assign (some "LET") .omitted .omitted)

end Statement

end SavedBasic
