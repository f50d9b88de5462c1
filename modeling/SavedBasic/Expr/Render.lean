import SavedBasic.Expr
import SavedBasic.Text.Blank
import SavedBasic.Float.Shortest

/-!
# The text of an expression

An expression is written from left to right. The two markers have no text of their own; where an
argument may be left out, an omitted one is written as nothing.
-/

namespace SavedBasic

open Text

/-- A text, or the reason why there is none. -/
abbrev Printed := Except Fault String

/-- Characters without those at their end that are the given one. -/
def dropAtEnd (c : Char) (text : List Char) : List Char :=
  (text.reverse.dropWhile (· == c)).reverse

/-- An amount of `value` ten-thousandths: with a point in front of the last four digits, without the
zeros at the end, and then without a point at the end. -/
def currencyText (value : Nat) : String :=
  let digits := (Numeral.zeroPadded 5 (Numeral.decimal value)).toList
  let text := digits.take (digits.length - 4) ++ '.' :: digits.drop (digits.length - 4)
  String.ofList (dropAtEnd '.' (dropAtEnd '0' text)) ++ "@"

/-- A floating-point literal. The point and zero of a whole number and the zero in front of the point
are left out. In double precision the exponent is marked by `D`; single precision shows its suffix only
where neither a point nor an exponent tells it from an integer. -/
def floatText (value : Binary64) (double : Bool) : String :=
  let text := value.text.toList.map Char.toUpper
  let text := if ['.', '0'].isSuffixOf text then text.take (text.length - 2) else text
  let text := if ['0', '.'].isPrefixOf text then text.drop 1 else text
  if double then
    if text.contains 'E' then String.ofList (text.map fun c => if c == 'E' then 'D' else c)
    else String.ofList text ++ "#"
  else if text.contains '.' || text.contains 'E' then String.ofList text
  else String.ofList text ++ "!"

/-- An integer literal in its base. -/
def integerText (radix : Radix) (value : Nat) (long : Bool) : String :=
  let numeral :=
    match radix with
    | .decimal => Numeral.decimal value
    | .octal => "&O" ++ Numeral.octal value
    | .hexadecimal => "&H" ++ Numeral.hexadecimal value
  numeral ++ (if long then "&" else "")

/-- The text of a byte string in quotation marks. -/
def quoted (text : Bytes) : String :=
  "\"" ++ CodePage.decode text ++ "\""

mutual

/-- The text of an expression. -/
def Expr.render : Expr → Printed
  | .omitted => .error .noSuchPart
  | .mark => .error .noSuchPart
  | .var name => .ok name.render
  | .element name args => do
    return name.render ++ "(" ++ join ", " (← renderAll args) ++ ")"
  | .array name => .ok name.render
  | .field record selector => do
    return (← record.render) ++ "." ++ (← selector.render)
  | .integer radix value long => .ok (integerText radix value long)
  | .float value double => .ok (floatText value double)
  | .currency value => .ok (currencyText value)
  | .string text => .ok (quoted text)
  | .parenthesized inner => do
    return "(" ++ (← inner.render) ++ ")"
  | .unary operator operand => do
    return operator ++ (if operator == "-" then "" else " ") ++ (← operand.render)
  | .binary operator left right => do
    return (← left.render) ++ " " ++ operator ++ " " ++ (← right.render)
  | .typeOf object type => do
    return "TYPEOF " ++ (← object.render) ++ " IS " ++ type.render
  | .method target name args => do
    let texts ← renderOptional args
    let target ← target.render
    -- a method call has a text only without arguments
    if texts.isEmpty then return target ++ "." ++ name ++ "()" else throw .noSuchPart
  | .call name args => do
    return name ++ "(" ++ join ", " (dropTrailingEmpty (← renderOptional args)) ++ ")"
  | .builtin name => .ok name
  | .convert operand type => do
    return "C" ++ type.shortName ++ "(" ++ (← operand.render) ++ ")"
  | .byValue arg => do
    return "BYVAL " ++ (← arg.render)
  | .segmented arg => do
    return "SEG " ++ (← arg.render)
  | .fileNumber number => do
    return "#" ++ (← number.render)
  | .object name => name.render
  | .event name .omitted => .ok name
  | .event name number => do
    return name ++ "(" ++ (← number.render) ++ ")"

/-- The texts of expressions none of which may be missing. -/
def renderAll : List Expr → Except Fault (List String)
  | [] => .ok []
  | e :: rest => do
    let text ← e.render
    return text :: (← renderAll rest)

/-- The texts of expressions of which some may be left out. -/
def renderOptional : List Expr → Except Fault (List String)
  | [] => .ok []
  | .omitted :: rest => do
    return "" :: (← renderOptional rest)
  | e :: rest => do
    let text ← e.render
    return text :: (← renderOptional rest)

end

/-- The text of an expression that may be left out, with something in front of it. -/
def Expr.renderAfter (before : String) : Expr → Printed
  | .omitted => .ok ""
  | e => do
    return before ++ (← e.render)

end SavedBasic
