import SavedBasic.Instruction.Handler

/-!
# Variables and declarations

The opcodes that read and write variables, array elements and fields, and those of the statements that
declare them. A declaration is assembled by several instructions: its type may arrive before its name,
and the statement it belongs to is often known only at the end.
-/

namespace SavedBasic.Instruction

open Decode

/-! ## Declarations under construction -/

/-- Whether a statement declares variables. -/
def isDeclarations : Statement → Bool
  | .declarations _ => true
  | _ => false

/-- Goes on with a declaration of variables. -/
def declaring : Decode Unit :=
  continueWith isDeclarations Statement.emptyDeclarations

/-- Changes the declaration of variables at the end of the line. -/
def amendDeclarations (f : Declarations → Declarations) : Decode Unit :=
  amend fun
    | .declarations d => some (.declarations (f d))
    | _ => none

/-- Goes on with a declaration that waits for its name. -/
def declaration : Decode Unit := do
  declaring
  amendDeclarations fun d => { d with pending := some (d.pending.getD ⟨none, 0⟩) }

/-- Names the waiting declaration. -/
def nameDeclaration (name : Head) (bounds : Option (List Expr)) : Decode Unit :=
  amendDeclarations fun d =>
    match d.pending with
    | some p =>
      { d with items := d.items ++ [⟨name, p.type, p.column, bounds⟩], pending := none }
    | none => d

/-- Gives the waiting declaration a type; it must not have one. -/
def typeDeclaration (type : DataType) (column : Nat) : Decode Unit := do
  match ← lastStatement with
  | .declarations { pending := some { type := some _, .. }, .. } => throw .brokenPromise
  | _ => amendDeclarations fun d => { d with pending := some ⟨some type, column⟩ }

/-- Sets the kind of the declaration at the end of the line; it must not have another one. -/
def setKind (kind : DeclarationKind) : Decode Unit := do
  match ← lastStatement with
  | .declarations d =>
    if d.kind.any (· != kind) then throw .brokenPromise
    amendDeclarations fun d => { d with kind := some kind }
  | _ => throw .noSuchPart

/-- Goes on with a declaration of the given kind. -/
def declareAs (kind : DeclarationKind) : Decode Unit := do
  declaring
  setKind kind

/-- Marks a declaration as `SHARED` or `PRESERVE`; inside another statement the mark is lost. -/
def setMode (mode : String) : Decode Unit := do
  declaring
  match ← lastStatement with
  | .declarations _ => amendDeclarations fun d => { d with mode := some mode }
  | _ => return ()

/-! ## Variables -/

/-- An array element on the stack, or the array as a whole if the count has its highest bit set. -/
def element (v : Version) (type : Nat) : Decode Unit := do
  let count ← word
  let name ← identifierOf v type
  if count.testBit 15 then push (.array name)
  else push (.element name (← popMany count))

/-- An array in a declaration. -/
def declaredArray (v : Version) (type : Nat) : Decode Unit := do
  let count ← word
  let name ← identifierOf v type
  let bounds ← popMany count
  declaration
  nameDeclaration (.identifier name) (some bounds)

/-- Whether a statement declares variables that exist elsewhere. -/
def declaresElsewhere : Statement → Bool
  | .declarations { kind := some kind, .. } => kind = .common ∨ kind = .static ∨ kind = .shared
  | _ => false

/-- The opcodes of variables, array elements and fields. -/
def storage : Table :=
  [(0x000B, fun v type => do
      push (.var (← identifierOf v type))),
   (0x000C, fun v type => do
      let name ← identifierOf v type
      let value ← pop
      transfer (.assign none (.var name) value)),
   (0x000D, fun v type => do
      let name ← identifierOf v type
      declaration
      nameDeclaration (.identifier name) none),
   (0x000E, element),
   (0x000F, fun v type => do
      let count ← word
      let name ← identifierOf v type
      let value ← pop
      let args ← popMany count
      put (.transfer (.assign none (.element name args) value))),
   (0x0010, fun v type => do
      if v = .qb40 then
        if declaresElsewhere (← lastStatement) then declaredArray v type else element v type
      else declaredArray v type),
   (0x0011, fun v type => do
      let name ← identifierOf v type
      let record ← pop
      push (.field record (.var name))),
   (0x0012, fun v type => do
      let name ← identifierOf v type
      let record ← pop
      let value ← pop
      put (.transfer (.assign none (.field record (.var name)) value))),
   (0x0013, fun v type => do
      let count ← word
      let name ← identifierOf v type
      let record ← pop
      let args ← popMany count
      push (.field record (.element name args))),
   (0x0014, fun v type => do
      let count ← word
      let name ← identifierOf v type
      let record ← pop
      let args ← popMany count
      let value ← pop
      put (.transfer (.assign none (.field record (.element name args)) value)))]

/-! ## Statements that declare -/

/-- The word that announces a string of fixed length. -/
def fixedStringMark : Nat := 0x017C

/-- The type of a field, behind a word that tells how it is given. -/
def fieldType (v : Version) : Decode DataType := do
  if (← word) = fixedStringMark then
    skipWords 1
    return .fixedString (← word)
  else dataType v (← word)

/-- The letters whose bits are set, `A` being the highest of 32 bits. -/
def lettersOf (data : Nat) : List Char :=
  (List.range 26).filterMap fun i => if data.testBit (31 - i) then some (Char.ofNat (65 + i)) else none

/-- An array on the stack becomes a declaration. -/
def declareArray (withSuffix : Head → Decode Head) (array : Expr) : Decode Unit := do
  match array.parts? with
  | none => throw .noSuchPart
  | some (name, bounds) =>
    let name ← withSuffix name
    declaration
    nameDeclaration name bounds

/-- An array is given new bounds. -/
def redimension : Decode Unit := do
  let array ← pop
  declaration
  match array.parts? with
  | none => throw .noSuchPart
  | some (name, bounds) => nameDeclaration name bounds
  declareAs .redim

/-- The opcodes of declarations. -/
def declarations : Table :=
  [(0x0015, fun v _ => do
      let type ← word
      let column ← word
      declaration
      typeDeclaration (← dataType v type) column),
   (0x0016, fun v _ => do
      let type ← word
      let column ← word
      declaration
      typeDeclaration (.scalar (← given (v.scalar type))) column),
   (0x0018, always <| push .omitted),
   (0x0019, fun v _ => do
      let name ← identifier
      let type ← fieldType v
      let column ← word
      put (.typeField { name := name, type := type, bounds := [], column := column })),
   (0x001A, always <| setMode "SHARED"),
   (0x001B, fun v _ => do
      skipWords 1
      let data ← dword
      let type ← given (v.scalar (data % 64 : Nat))
      put (.defType type (lettersOf data))),
   (0x001C, always redimension),
   (0x001D, always do
      skipWords 1
      put (.endOf .record)),
   (0x001E, always do
      skipWords 1
      declareAs .shared),
   (0x001F, always do
      skipWords 1
      declareAs .static),
   (0x0020, always do
      skipWords 1
      put (.typeHead (← identifier))),
   (0x0023, always <| put (.const [])),
   (0x00A5, always do
      skipWords 1
      let offset ← word
      let name ← if offset = 0xFFFF then pure none else some <$> identifierAt offset
      declareAs .common
      amendDeclarations fun d => { d with block := name }),
   (0x00A6, always do
      put (.data ((← packed).drop 2).dropLast)),
   (0x00BF, always <| put Statement.letAlone),
   (0x017C, always do
      skipWords 1
      let length ← word
      let column ← word
      declaration
      typeDeclaration (.fixedString length) column),
   (0x017D, always do
      declareAs .dim
      skipWords 1),
   (0x017E, fun v _ => do
      let count ← word
      let name ← identifier
      let bounds ← popMany count
      let type ← fieldType v
      let column ← word
      put (.typeField { name := name, type := type, bounds := bounds, column := column })),
   (0x01A8, always do
      redimension
      setMode "PRESERVE")]

/-! ## Declarations in version 4.0 -/

/-- Marks the declaration at the end of the line as `DIM`; there must be one. -/
def dimension : Decode Unit := do
  require isDeclarations
  setKind .dim

/-- Gives a name a suffix, which only identifiers take; zero stands for no suffix. -/
def suffixed (v : Version) (type : Nat) (name : Head) : Decode Head := do
  if type = 0 then return name
  let suffix ← given (v.scalar type)
  match name with
  | .identifier name => return .identifier (name.withSuffix suffix)
  | .word _ => throw .noSuchPart

/-- An array on the stack is declared by `DIM`. -/
def dimensionArray (v : Version) (type : Nat) : Decode Unit := do
  declareArray (suffixed v type) (← pop)
  dimension

end SavedBasic.Instruction
