import SavedBasic.Statement
import SavedBasic.Expr.Render

/-!
# The text of a statement

The text of a statement depends on the column where it starts, because the `AS` clauses of
declarations are brought to a stored column. The column of a statement inside another is that of the
outer one.
-/

namespace SavedBasic

open Text

/-- The text of a point. -/
def Point.render (p : Point) : Printed := do
  return (if p.step then "STEP" else "") ++ "(" ++ (← p.x.render) ++ ", " ++ (← p.y.render) ++ ")"

/-- The text of a point that has to be there. -/
def renderPoint : Option Point → Printed
  | some p => p.render
  | none => .error .noSuchPart

/-- The text of a command to the compiler. -/
def MetaCommand.render : MetaCommand → String
  | staticArrays => "$STATIC"
  | dynamicArrays => "$DYNAMIC"
  | includeFile name => "$INCLUDE: '" ++ CodePage.decode name ++ "'"
  | form name => "$FORM " ++ name.render

/-- The text of a comment. -/
def Comment.render (c : Comment) : String :=
  "'" ++ CodePage.decode c.text ++ (c.command.map MetaCommand.render).getD ""

/-- Arguments behind the fixed part of a graphics statement: those left out at the end are not written,
nor is a list whose text is empty. -/
def renderTail (args : List Expr) : Printed := do
  let present := (args.reverse.dropWhile Expr.isOmitted).reverse
  let text := join ", " (← renderOptional present)
  return if text == "" then "" else ", " ++ text

/-- The two corners that four coordinates give. -/
def renderCorners (coordinates : List Expr) : Printed := do
  let coordinate (i : Nat) : Printed :=
    match coordinates[i]? with
    | some e => e.render
    | none => .error .outOfRange
  return "(" ++ (← coordinate 0) ++ ", " ++ (← coordinate 1) ++ ")-(" ++ (← coordinate 2) ++ ", " ++
    (← coordinate 3) ++ ")"

/-- The text of an assignment, a renaming or the opening of a file. -/
def Transfer.render : Transfer → Printed
  | assign keyword target value => do
    return (keyword.map (· ++ " ")).getD "" ++ (← target.render) ++ " = " ++ (← value.render)
  | rename old new => do
    return "NAME " ++ (← old.render) ++ " AS " ++ (← new.render)
  | openFile file number mode access lock length => do
    let lockText :=
      match lock with
      | some "SHARED" => " SHARED"
      | some word => " LOCK " ++ word
      | none => ""
    return "OPEN " ++ (← file.render) ++ " FOR " ++ mode ++ (access.map (" ACCESS " ++ ·)).getD "" ++
      lockText ++ " AS " ++ (← number.render) ++ (← length.renderAfter " LEN = ")

/-- The keyword of an output statement. -/
def PrintKind.word : PrintKind → String
  | print => "PRINT"
  | lprint => "LPRINT"
  | write => "WRITE"

/-- The text of one part of an output list. -/
def PrintPart.render : PrintPart → Printed
  | item value separator => do
    return (← value.renderAfter "") ++ separator
  | control word value => do
    return word ++ "(" ++ (← value.render) ++ ");"
  | format picture => do
    return "USING " ++ (← picture.render) ++ ";"
  | last value => value.render

/-- Whether a part is `TAB` or `SPC`, which bring their own separator. -/
def PrintPart.isControl : PrintPart → Bool
  | control .. => true
  | _ => false

/-- Whether a part is a separator alone. -/
def PrintPart.isBare : PrintPart → Bool
  | item .omitted _ => true
  | _ => false

/-- The parts that are written: a separator alone is not, when it follows `TAB` or `SPC`. -/
def shownParts : (afterControl : Bool) → List PrintPart → List PrintPart
  | _, [] => []
  | afterControl, part :: rest =>
    if afterControl && part.isBare then shownParts part.isControl rest
    else part :: shownParts part.isControl rest

/-- The text of an output statement. The file number is written in front of a list only. -/
def Print.render (p : Print) : Printed := do
  let head ←
    match p.target with
    | .omitted => pure p.kind.word
    | target => do
      pure ((← target.render) ++ "." ++ p.kind.word)
  if p.parts.isEmpty then return head
  let file ←
    match p.file with
    | .omitted => pure ""
    | number => do
      pure ((← number.render) ++ ", ")
  let texts ← (shownParts false p.parts).mapM PrintPart.render
  return head ++ " " ++ file ++ join " " texts

/-- The keyword of an input statement. -/
def InputKind.word : InputKind → String
  | input => "INPUT"
  | lineInput => "LINE INPUT"

/-- The text of an input statement. -/
def Input.render (i : Input) : Printed := do
  let some kind := i.kind | throw .kindNotSet
  let prompt ←
    match i.prompt with
    | .omitted => pure ""
    | prompt => do
      pure (" " ++ (← prompt.render) ++ (if i.comma then "," else ";"))
  return kind.word ++ (if i.semicolon then " ;" else "") ++ prompt ++ " " ++
    join ", " (← renderAll i.args)

/-- The text of a test of a `CASE`. -/
def CaseOption.render : CaseOption → Printed
  | value e => e.render
  | range lower upper => do
    return (← lower.render) ++ " TO " ++ (← upper.render)
  | compare operator e => do
    return "IS " ++ operator ++ " " ++ (← e.render)

/-- The text of a parameter. -/
def Parameter.render (p : Parameter) : String :=
  p.name.render ++ (if p.isArray then "()" else "") ++ (p.type.map (" AS " ++ ·.name)).getD ""

/-- The text of parameters in parentheses. -/
def renderParameters (params : List Parameter) : String :=
  " (" ++ join ", " (params.map Parameter.render) ++ ")"

/-- The text of the announcement of a procedure. -/
def Declare.render (d : Declare) : String :=
  "DECLARE " ++ d.kind.word ++ " " ++ d.name.render ++ (if d.cdecl then " CDECL" else "") ++
    (if d.externalName.isEmpty then "" else " ALIAS " ++ quoted d.externalName) ++
    (d.params.map renderParameters).getD ""

/-- The text of the head of a procedure. -/
def ProcedureHeader.render (h : ProcedureHeader) : String :=
  (if h.static && h.staticFirst then "STATIC " else "") ++ h.kind.word ++ " " ++ h.name.render ++
    (if h.params.isEmpty then "" else renderParameters h.params) ++
    (if h.static && !h.staticFirst then " STATIC" else "")

/-- The text of what closes the definition of a function; a value left out has none. -/
def Closing.render : Closing → Printed
  | value .omitted => .ok ""
  | value e => do
    return " = " ++ (← e.render)
  | endOf block => .ok (" = END " ++ block.word)

/-- The text of the definition of a function. -/
def DefFn.render (d : DefFn) : Printed := do
  let definition ←
    match d.definition with
    | some closing => closing.render
    | none => pure ""
  return "DEF " ++ d.name.render ++
    (if d.params.isEmpty && !d.parentheses then "" else renderParameters d.params) ++ definition

/-- The texts of bounds, which come in pairs; a lower bound may be left out. -/
def renderBounds : List Expr → Except Fault (List String)
  | [] => .ok []
  | [.omitted] => .error .outOfRange
  | [lower] => do
    let _ ← lower.render
    throw .outOfRange
  | .omitted :: upper :: rest => do
    let text ← upper.render
    return text :: (← renderBounds rest)
  | lower :: upper :: rest => do
    let text := (← lower.render) ++ " TO " ++ (← upper.render)
    return text :: (← renderBounds rest)

/-- The text of bounds in parentheses. -/
def renderDimensions (bounds : List Expr) : Printed := do
  return "(" ++ join ", " (← renderBounds bounds) ++ ")"

/-- A declared name with its type: `AS` starts at the stored column, counted from the start of the
line, or one space behind the name. -/
def renderTyped (column : Nat) (name : String) (type : Option DataType) (asColumn : Nat) : String :=
  match type with
  | some type => name ++ spaces (max 1 (asColumn - (column + name.length))) ++ "AS " ++ type.name
  | none => name

/-- The text of a field of a record type. -/
def TypeField.render (column : Nat) (f : TypeField) : Printed := do
  let dimensions ← renderDimensions f.bounds
  return renderTyped column (f.name.render ++ dimensions) (some f.type) f.column

/-- The text of the name of a declared variable, which has to be an identifier. -/
def Head.render : Head → Printed
  | identifier name => .ok name.render
  | word _ => .error .noSuchPart

/-- The text of the declaration of a variable. -/
def VariableDeclaration.render (column : Nat) (d : VariableDeclaration) : Printed := do
  let dimensions ←
    match d.bounds with
    | some bounds => renderDimensions bounds
    | none => pure ""
  return renderTyped column ((← d.name.render) ++ dimensions) d.type d.column

/-- Declarations behind a text that starts at `column`. -/
def renderDeclarations (column : Nat) (text : String) (first : Bool) :
    List VariableDeclaration → Printed
  | [] => .ok text
  | d :: rest => do
    let text := if first then text else text ++ ", "
    renderDeclarations column (text ++ (← d.render (column + text.length))) false rest

/-- The text of a statement that declares variables. A declaration without a name has no text. -/
def Declarations.render (column : Nat) (d : Declarations) : Printed := do
  let head := (d.kind.map DeclarationKind.word).getD "????" ++ " " ++
    (d.mode.map (· ++ " ")).getD "" ++
    (d.block.map fun name => "/" ++ name.render ++ "/ ").getD ""
  let text ← renderDeclarations column head true d.items
  if d.pending.isSome then throw .noSuchPart
  return text

/-- The text of where a program goes on after an error. -/
def Recovery.render : Recovery → String
  | next => "NEXT"
  | zero => "0"
  | label target => target.render

/-- Adds a letter to runs of neighbouring letters, of which the most recent one comes first: the next
letter makes this run longer, and any other letter begins a run of its own. -/
def addLetter (runs : List (Char × Char)) (c : Char) : List (Char × Char) :=
  match runs with
  | [] => [(c, c)]
  | (first, last) :: before =>
    if last.toNat + 1 = c.toNat then (first, c) :: before else (c, c) :: (first, last) :: before

/-- The runs of neighbouring letters, as pairs of first and last letter. -/
def letterRuns (letters : List Char) : List (Char × Char) :=
  (letters.foldl addLetter []).reverse

/-- The text of the letters of a type definition. -/
def renderLetters (letters : List Char) : String :=
  join ", " ((letterRuns letters).map fun (first, last) =>
    if first = last then String.singleton first else String.ofList [first, '-', last])

/-- The text of the arguments of a call, with something in front of them and behind them. -/
def renderArguments (before after : String) (args : List Expr) : Printed := do
  let texts ← renderAll args
  return if args.isEmpty then "" else before ++ join ", " texts ++ after

/-- The text of an operand that may be left out. -/
def Expr.renderOption : Expr → Except Fault (Option String)
  | .omitted => .ok none
  | e => do
    return some (← e.render)

/-- The color, the shape and the style of `LINE`: those left out at the end are not written. -/
def renderLineTail (color : Expr) (shape : String) (style : Expr) : Printed := do
  let color ← color.renderOption
  let style ← style.renderOption
  let shown :=
    match style with
    | some style => [color.getD "", shape, style]
    | none => if shape == "" then color.toList else [color.getD "", shape]
  let text := join ", " shown
  return if text == "" then "" else ", " ++ text

/-- The text of a statement that starts at the given column. -/
def Statement.render (column : Nat) : Statement → Printed
  | empty => .ok ""
  | misread text => .ok (CodePage.decode text)
  | misreadBefore text rest => do
    return CodePage.decode text ++ (← rest.render column)
  | remark text order =>
    .ok ("REM" ++ CodePage.decode text ++ (order.map MetaCommand.render).getD "")
  | command name args => do
    let texts := dropTrailingEmpty (← renderOptional args)
    return if texts.isEmpty then name else name ++ " " ++ join ", " texts
  | call .explicit name args => do
    return "CALL " ++ name.render ++ (← renderArguments "(" ")" args)
  | call .implicit name args => do
    return name.render ++ (← renderArguments " " "" args)
  | call .far name args => do
    return "CALLS " ++ name.render ++ (← renderArguments "(" ")" args)
  | methodCall target name args => do
    let texts ← renderOptional args
    let target ← target.render
    -- a method call has a text only without arguments
    if texts.isEmpty then return target ++ "." ++ name else throw .noSuchPart
  | transfer t => t.render
  | const items => do
    return "CONST " ++ join ", " (← items.mapM Transfer.render)
  | circle center radius color start stop aspect => do
    return "CIRCLE " ++ (← center.render) ++ ", " ++ (← radius.render) ++
      (← renderTail [color, start, stop, aspect])
  | lock unlock file first last => do
    let file ← file.render
    let range ←
      match first, last with
      | .omitted, .omitted => pure ""
      | first, .omitted => first.renderAfter ", "
      | .omitted, last => last.renderAfter ", TO "
      | first, last => do
        pure (", " ++ (← first.render) ++ " TO " ++ (← last.render))
    return (if unlock then "UNLOCK " else "LOCK ") ++ file ++ range
  | getImage corner opposite array => do
    return "GET " ++ (← renderPoint corner) ++ "-" ++ (← renderPoint opposite) ++ ", " ++
      (← array.render)
  | putImage corner array action => do
    return "PUT " ++ (← renderPoint corner) ++ ", " ++ (← array.render) ++
      (action.map (", " ++ ·)).getD ""
  | line start stop color shape style => do
    let start ←
      match start with
      | some p => p.render
      | none => pure ""
    return "LINE " ++ start ++ "-" ++ (← renderPoint stop) ++ (← renderLineTail color shape style)
  | key mode => .ok ("KEY " ++ mode)
  | paint point args => do
    return "PAINT " ++ (← renderPoint point) ++ (← renderTail args)
  | pset keyword point color => do
    return keyword ++ " " ++ (← renderPoint point) ++ (← color.renderAfter ", ")
  | view keyword corners extras => do
    let corners ← renderCorners corners
    let extras ← renderOptional extras
    return keyword ++ " " ++ join ", " (dropTrailingEmpty (corners :: extras))
  | viewPrint .omitted _ => .ok "VIEW PRINT"
  | viewPrint top bottom => do
    return "VIEW PRINT " ++ (← top.render) ++ " TO " ++ (← bottom.render)
  | window keyword corners => do
    return keyword ++ " " ++ (← renderCorners corners)
  | field file parts => do
    let file ← file.render
    let parts ← parts.mapM fun (width, target) => do
      return (← width.render) ++ " AS " ++ (← target.render)
    return "FIELD " ++ file ++ ", " ++ join ", " parts
  | input i => i.render
  | print p => p.render
  | openTable file type table number => do
    return "OPEN " ++ (← file.render) ++ " FOR ISAM " ++ type.render ++ " " ++ (← table.render) ++
      " AS " ++ (← number.render)
  | endOf block => .ok ("END " ++ block.word)
  | exitFrom block => .ok ("EXIT " ++ block.word)
  | goto target => .ok ("GOTO " ++ target.render)
  | jump target => .ok target.render
  | gosub target => .ok ("GOSUB " ++ target.render)
  | returnTo target => .ok ("RETURN" ++ (target.map (" " ++ ·.render)).getD "")
  | restore target => .ok ("RESTORE" ++ (target.map (" " ++ ·.render)).getD "")
  | resume target => .ok ("RESUME" ++ (target.map (" " ++ ·.render)).getD "")
  | run target => do
    return "RUN" ++ (← target.renderAfter " ")
  | event .omitted state => .ok ("EVENT " ++ state)
  | event source state => do
    return (← source.render) ++ " " ++ state
  | erase arrays => do
    return "ERASE " ++ join ", " (← renderAll arrays)
  | read targets => do
    return "READ " ++ join ", " (← renderAll targets)
  | onError within target =>
    let goal :=
      match target with
      | .next => "RESUME NEXT"
      | target => "GOTO " ++ target.render
    .ok ("ON " ++ (if within then "LOCAL " else "") ++ "ERROR " ++ goal)
  | onEvent source target => do
    return "ON " ++ (← source.render) ++ " GOSUB " ++ target.render
  | onValue verb value targets => do
    return "ON " ++ (← value.render) ++ " " ++ verb ++ " " ++
      join ", " (targets.map Identifier.render)
  | loop word test condition => do
    return word ++ (← condition.renderAfter (" " ++ test ++ " "))
  | ifThen condition action => do
    return "IF " ++ (← condition.render) ++ " THEN " ++ (← action.render column)
  | ifThenElse condition action .empty => do
    return "IF " ++ (← condition.render) ++ " THEN " ++ (← action.render column) ++ " ELSE"
  | ifThenElse condition action alternative => do
    return "IF " ++ (← condition.render) ++ " THEN " ++ (← action.render column) ++ " ELSE " ++
      (← alternative.render column)
  | ifBlock condition => do
    return "IF " ++ (← condition.render) ++ " THEN"
  | elseIf condition => do
    return "ELSEIF " ++ (← condition.render) ++ " THEN"
  | otherwise .empty => .ok "ELSE"
  | otherwise action => do
    return "ELSE " ++ (← action.render column)
  | forLoop counter first last step => do
    return "FOR " ++ (← counter.render) ++ " = " ++ (← first.render) ++ " TO " ++ (← last.render) ++
      (← step.renderAfter " STEP ")
  | next none => .ok "NEXT"
  | next (some counters) => do
    return "NEXT " ++ join ", " (← renderAll counters)
  | select value => do
    return "SELECT CASE " ++ (← value.render)
  | caseOf options => do
    return "CASE " ++ join ", " (← options.mapM CaseOption.render)
  | caseElse => .ok "CASE ELSE"
  | declare d => .ok d.render
  | procedure h => .ok h.render
  | typeHead name => .ok ("TYPE " ++ name.render)
  | typeField f => f.render column
  | data text => .ok ("DATA" ++ CodePage.decode text)
  | defFn d => d.render
  | defType type letters => .ok ("DEF" ++ type.shortName ++ " " ++ renderLetters letters)
  | declarations d => d.render column

end SavedBasic
