import SavedBasic.Form
import SavedBasic.Line
import SavedBasic.SymbolTable
import SavedBasic.Version

/-!
# Decoding

Decoding runs over a source from front to back and builds up a program. `Decode α` is the type of its
actions: they read from a source at a position, change the state, and give a value or a fault. A fault
keeps what was stored before it. By construction no action moves the position backwards, so a loop that
reads something in each round comes to its end.
-/

namespace SavedBasic

namespace Decode

/-- Operands that travel to their statement under a name, not on the stack. -/
structure Arguments where
  /-- the first point -/
  start : Option Point
  /-- the second point -/
  stop : Option Point
  /-- the first angle -/
  fromAngle : Option Expr
  /-- the last angle -/
  toAngle : Option Expr
  /-- the ratio of the axes -/
  aspect : Option Expr

/-- No operands. -/
def Arguments.none : Arguments :=
  ⟨.none, .none, .none, .none, .none⟩

/-- What decoding has built up so far. -/
structure State where
  /-- the number of bytes in front of the identifier table -/
  headerSize : Nat
  /-- the names read so far -/
  symbols : SymbolTable
  /-- the operands, the topmost first -/
  stack : List Expr
  /-- the operands under a name -/
  arguments : Arguments
  /-- the program -/
  program : Program
  /-- the places of the open function definitions, the innermost first -/
  openFns : List Place
  /-- the form -/
  form : Option Form.Layout

/-- The state before anything has been decoded. -/
def State.start (v : Version) : State where
  headerSize := v.headerSize
  symbols := { codeOffset := v.codeOffset }
  stack := []
  arguments := .none
  program := .start
  openFns := []
  form := .none

/-- What an action that starts at a position leaves behind. -/
structure Outcome (α : Type) (start : Nat) where
  /-- the value, or why there is none -/
  result : Except Fault α
  /-- the position behind what was read -/
  pos : Nat
  /-- the position has not moved backwards -/
  le : start ≤ pos
  /-- the state -/
  state : State

end Decode

/-- An action on a source, a position and a state. -/
def Decode (α : Type) : Type :=
  Source → (pos : Nat) → Decode.State → Decode.Outcome α pos

namespace Decode

variable {α β : Type}

/-- Gives a value and does nothing. -/
protected def pure (a : α) : Decode α :=
  fun _ pos s => ⟨.ok a, pos, Nat.le_refl pos, s⟩

/-- One action after another; a fault of the first is the fault of both. -/
protected def bind (m : Decode α) (f : α → Decode β) : Decode β :=
  fun src pos s =>
    let first := m src pos s
    match first.result with
    | .ok a =>
      let second := f a src first.pos first.state
      ⟨second.result, second.pos, Nat.le_trans first.le second.le, second.state⟩
    | .error fault => ⟨.error fault, first.pos, first.le, first.state⟩

/-- Fails. -/
protected def fail (fault : Fault) : Decode α :=
  fun _ pos s => ⟨.error fault, pos, Nat.le_refl pos, s⟩

instance : Monad Decode where
  pure := Decode.pure
  bind := Decode.bind

instance : MonadExceptOf Fault Decode where
  throw := Decode.fail
  tryCatch m handler := fun src pos s =>
    let first := m src pos s
    match first.result with
    | .ok a => ⟨.ok a, first.pos, first.le, first.state⟩
    | .error fault =>
      let second := handler fault src first.pos first.state
      ⟨second.result, second.pos, Nat.le_trans first.le second.le, second.state⟩

/-- The state. -/
def get : Decode State :=
  fun _ pos s => ⟨.ok s, pos, Nat.le_refl pos, s⟩

/-- Changes the state. -/
def modify (f : State → State) : Decode Unit :=
  fun _ pos s => ⟨.ok (), pos, Nat.le_refl pos, f s⟩

/-- The source. -/
def source : Decode Source :=
  fun src pos s => ⟨.ok src, pos, Nat.le_refl pos, s⟩

/-- The position. -/
def position : Decode Nat :=
  fun _ pos s => ⟨.ok pos, pos, Nat.le_refl pos, s⟩

/-- A value that was computed without reading. -/
def given : Except Fault α → Decode α
  | .ok a => Decode.pure a
  | .error fault => Decode.fail fault

/-! ## Reading -/

/-- A number of the given width. -/
def number (width : Nat) : Decode Nat :=
  fun src pos s =>
    match src.natLE pos width with
    | .ok n => ⟨.ok n, pos + width, Nat.le_add_right pos width, s⟩
    | .error fault => ⟨.error fault, pos, Nat.le_refl pos, s⟩

/-- A byte. -/
def byte : Decode Nat :=
  number 1

/-- A word. -/
def word : Decode Nat :=
  number 2

/-- A double word. -/
def dword : Decode Nat :=
  number 4

/-- A quadruple word. -/
def qword : Decode Nat :=
  number 8

/-- As many bytes as there are, up to `n`. -/
def bytes (n : Nat) : Decode Bytes :=
  fun src pos s =>
    let text := src.slice pos n
    ⟨.ok text, pos + text.length, Nat.le_add_right pos _, s⟩

/-- A packed string. -/
def packed : Decode Bytes := do
  let length ← word
  let text ← bytes length
  let _ ← bytes (length % 2)
  return text

/-- Moves forward, also beyond the end. -/
def advance (n : Nat) : Decode Unit :=
  fun _ pos s => ⟨.ok (), pos + n, Nat.le_add_right pos n, s⟩

/-- Reads words without a meaning. -/
def skipWords : Nat → Decode Unit
  | 0 => return ()
  | n + 1 => do
    let _ ← word
    skipWords n

/-- The name at an offset of the identifier table. -/
def identifierAt (offset : Nat) : Decode Identifier := do
  let s ← get
  match s.symbols.name? offset with
  | some name => given (Identifier.ofName name none)
  | none =>
    let name ← given (SymbolTable.entryAt (← source) (s.headerSize + offset))
    modify fun s => { s with symbols := s.symbols.record offset name }
    given (Identifier.ofName name none)

/-- A name, given by a word with its offset. -/
def identifier : Decode Identifier := do
  identifierAt (← word)

/-- Names, given by words with their offsets. -/
def identifiers : Nat → Decode (List Identifier)
  | 0 => return []
  | n + 1 => do
    let id ← identifier
    return id :: (← identifiers n)

/-- A name with the suffix of the given built-in type; zero stands for no suffix. -/
def identifierOf (v : Version) (type : Nat) : Decode Identifier := do
  let id ← identifier
  if type = 0 then return id
  return id.withSuffix (← given (v.scalar type))

/-- The type of a number: any type, a built-in type, a string of fixed length, or the offset of the
name of a user-defined type. -/
def dataType (v : Version) (index : Int) : Decode DataType := do
  if index = 0 then return .any
  if index ≤ v.lastScalar then return .scalar (← given (v.scalar index))
  if index.toNat.testBit 15 then return .fixedString (index.toNat % 0x8000)
  return .custom (← identifierAt index.toNat)

/-! ## Operands -/

/-- Pushes an operand. -/
def push (e : Expr) : Decode Unit :=
  modify fun s => { s with stack := e :: s.stack }

/-- Pops the topmost operand. -/
def pop : Decode Expr := do
  match (← get).stack with
  | [] => throw .emptyStack
  | e :: rest => do
    modify fun s => { s with stack := rest }
    return e

/-- Pops the `n` topmost operands, or all if there are fewer, in the order in which they were
pushed. -/
def popMany (n : Nat) : Decode (List Expr) := do
  let stack := (← get).stack
  modify fun s => { s with stack := s.stack.drop n }
  return (stack.take n).reverse

/-- Pops exactly two operands. -/
def popTwo : Decode (Expr × Expr) := do
  match ← popMany 2 with
  | [a, b] => return (a, b)
  | _ => throw .tooFewOperands

/-- The operands under a name. -/
def arguments : Decode Arguments := do
  return (← get).arguments

/-- Gives an operand under a name; it must not have been given before. -/
def setArgument (isGiven : Arguments → Bool) (set : Arguments → Arguments) : Decode Unit := do
  if isGiven (← arguments) then throw .brokenPromise
  modify fun s => { s with arguments := set s.arguments }

/-! ## Lines and statements -/

/-- The procedure that is being decoded. -/
def procedure : Decode Procedure := do
  return (← get).program.current

/-- Changes the procedure that is being decoded. -/
def modifyProcedure (f : Procedure → Procedure) : Decode Unit :=
  modify fun s => { s with program := { s.program with current := f s.program.current } }

/-- Forgets all operands. -/
def clear : Decode Unit :=
  modify fun s => { s with stack := [], arguments := .none }

/-- Starts a line. -/
def beginLine (label : Option Identifier) (indent : Nat) : Decode Unit :=
  modifyProcedure fun p => { p with lines := Line.start label indent :: p.lines }

/-- The line that is being decoded. -/
def line : Decode Line := do
  match (← procedure).lines with
  | [] => throw .noLine
  | l :: _ => return l

/-- Replaces the line that is being decoded. -/
def setLine (l : Line) : Decode Unit :=
  modifyProcedure fun p =>
    match p.lines with
    | [] => p
    | _ :: rest => { p with lines := l :: rest }

/-- Starts a statement behind a colon. -/
def colon (column : Option Nat) : Decode Unit := do
  let l ← line
  setLine (l.colon column)

/-- Puts a statement into the last open place of the line. -/
def put (new : Statement) : Decode Unit := do
  let l ← line
  setLine (← given (l.place new))

/-- The last statement of the line. -/
def lastStatement : Decode Statement := do
  return (← line).last.statement

/-- Changes the last statement of the line, if it is of the right kind. -/
def amend (f : Statement → Option Statement) : Decode Unit := do
  let l ← line
  match f l.last.statement with
  | some s => setLine (l.setLast s)
  | none => throw .noSuchPart

/-- Makes sure that the line goes on with a statement of a kind: puts a fresh one, unless the last
statement is of this kind already. -/
def continueWith (isKind : Statement → Bool) (fresh : Statement) : Decode Unit := do
  if !isKind (← lastStatement) then put fresh

/-- The last statement must be of a kind. -/
def require (isKind : Statement → Bool) : Decode Unit := do
  if !isKind (← lastStatement) then throw .invalidStatement

/-- Puts an assignment or its like: into a list of constants, in the place of a bare `LET`, or as a
statement. -/
def transfer (t : Transfer) : Decode Unit := do
  let l ← line
  match l.last.statement with
  | .const items => setLine (l.setLast (.const (items ++ [t])))
  | .transfer old =>
    if old.isLetAlone then setLine (l.setLast (.transfer t.underLet)) else put (.transfer t)
  | _ => put (.transfer t)

/-- Gives a remark or the comment of the line a command to the compiler. -/
def metacommand (command : MetaCommand) : Decode Unit := do
  let l ← line
  match l.last.statement with
  | .remark text none => setLine (l.setLast (.remark text (some command)))
  | .misreadBefore misread (.remark text none) =>
    setLine (l.setLast (.misreadBefore misread (.remark text (some command))))
  | .remark _ (some _) => throw .brokenPromise
  | .misreadBefore _ (.remark _ (some _)) => throw .brokenPromise
  | _ =>
    match l.comment with
    | some comment =>
      if comment.command.isSome then throw .brokenPromise
      setLine { l with comment := some { comment with command := some command } }
    | none => throw .brokenPromise

/-! ## Function definitions -/

/-- The place that a new statement will take. -/
def nextPlace (s : State) (l : Line) : Place where
  procedure := s.program.earlier.length
  line := s.program.current.lines.length - 1
  statement := l.earlier.length
  way := l.last.statement.openPlace

/-- Opens a function definition. -/
def openFn (d : DefFn) : Decode Unit := do
  let s ← get
  let l ← line
  put (.defFn d)
  modify fun s' => { s' with openFns := nextPlace s l :: s'.openFns }

/-- Closes the innermost open function definition. `END DEF` is a statement of its own; anything else
becomes the value of the function. -/
def closeFn (closing : Closing) : Decode Unit := do
  match closing with
  | .endOf .defFn => put (.endOf .defFn)
  | _ => pure ()
  match (← get).openFns with
  | [] => throw .brokenPromise
  | place :: rest =>
    let program := (← get).program
    let program :=
      match closing with
      | .endOf .defFn => program
      | closing => program.amendAt (Statement.define closing) place
    modify fun s => { s with program := program, openFns := rest }

/-- The block that an `EXIT` without a name leaves: the innermost open function definition, or else
the procedure. -/
def exitBlock : Decode (Option Block) := do
  let s ← get
  if s.openFns.isEmpty then return s.program.current.kind.map .procedure
  return some .defFn

end Decode

end SavedBasic
