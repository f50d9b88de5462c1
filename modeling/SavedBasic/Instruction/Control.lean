import SavedBasic.Instruction.Handler

/-!
# Control flow and events

The opcodes of jumps, loops, conditions and selections, and those that let a program wait for events
and errors.
-/

namespace SavedBasic.Instruction

open Decode

/-! ## Selections and loops -/

/-- Whether a statement is a `CASE`. -/
def isCase : Statement → Bool
  | .caseOf _ => true
  | _ => false

/-- Adds a test to the `CASE` at the end of the line. -/
def caseOption (option : Except Fault CaseOption) : Decode Unit := do
  continueWith isCase (.caseOf [])
  match ← lastStatement with
  | .caseOf _ => do
    let option ← given option
    amend fun
      | .caseOf options => some (.caseOf (options ++ [option]))
      | _ => none
  | _ => throw .noSuchPart

/-- A comparison in a `CASE`. -/
def caseCompare (operator : String) : Handler := always do
  caseOption (.ok (.compare operator (← pop)))

/-- A statement from the topmost operand, with a word behind it. -/
def withOperand (make : Expr → Statement) : Handler := always do
  put (make (← pop))
  skipWords 1

/-- The head of a counting loop; the step may be missing. -/
def forLoop (count : Nat) : Handler := always do
  match ← popMany count with
  | [counter, first, last] => put (.forLoop counter first last .omitted)
  | [counter, first, last, step] => put (.forLoop counter first last step)
  | _ => throw .tooFewOperands
  skipWords 2

/-- Whether a statement is a `NEXT`. -/
def isNext : Statement → Bool
  | .next _ => true
  | _ => false

/-- Adds a variable to the `NEXT` at the end of the line; one without variables takes none. -/
def nextCounter : Decode Unit := do
  let counter ← pop
  continueWith isNext (.next (some []))
  amend fun
    | .next (some counters) => some (.next (some (counters ++ [counter])))
    | _ => none
  skipWords 2

/-- `ON` a value: the word in front of the labels counts two for each of them. -/
def onValue (verb : String) : Handler := always do
  let value ← pop
  let count ← word
  let targets ← identifiers ((count + 1) / 2)
  put (.onValue verb value targets)

/-- Where `ON ERROR` goes. From version 7.0 on two offsets have a meaning of their own. -/
def errorTarget (v : Version) : Decode Recovery := do
  let offset ← word
  if v.atLeast .qb70 ∧ offset = 0xFFFF then return .zero
  if v.atLeast .qb70 ∧ offset = 0xFFFE then return .next
  return .label (← identifierAt offset)

/-- The opcodes of control flow. -/
def control : Table :=
  [(0x003A, always <| put .caseElse),
   (0x003B, always do
      caseOption (.ok (.value (← pop)))),
   (0x003C, always do
      match ← popMany 2 with
      | [lower, upper] => caseOption (.ok (.range lower upper))
      | _ => caseOption (.error .tooFewOperands)),
   (0x003D, caseCompare "="),
   (0x003E, caseCompare "<"),
   (0x003F, caseCompare ">"),
   (0x0040, caseCompare "<="),
   (0x0041, caseCompare ">="),
   (0x0042, caseCompare "<>"),
   (0x0046, always <| put (.loop "DO" "" .omitted)),
   (0x0047, withOperand (.loop "DO" "UNTIL")),
   (0x0048, withOperand (.loop "DO" "WHILE")),
   (0x0049, always do
      put (.otherwise .empty)
      skipWords 1),
   (0x004C, always do
      let _ ← pop
      skipWords 1
      put (.otherwise (.jump (← identifier)))),
   (0x004D, withOperand .elseIf),
   (0x0050, always <| put (.endOf .conditional)),
   (0x0052, always <| put (.endOf .selection)),
   (0x0053, always do
      put (.exitFrom .doLoop)
      skipWords 1),
   (0x0054, always do
      put (.exitFrom .forLoop)
      skipWords 1),
   (0x0056, forLoop 3),
   (0x0057, forLoop 4),
   (0x0059, always do
      put (.gosub (← identifier))),
   (0x005B, always do
      put (.goto (← identifier))),
   (0x005D, withOperand fun condition => .ifThen condition .empty),
   (0x005E, always do
      let condition ← pop
      put (.ifThen condition (.jump (← identifier)))),
   (0x0061, withOperand .ifBlock),
   (0x0062, always do
      put (.loop "LOOP" "" .omitted)
      skipWords 1),
   (0x0063, withOperand (.loop "LOOP" "UNTIL")),
   (0x0064, withOperand (.loop "LOOP" "WHILE")),
   (0x0065, always do
      put (.next none)
      skipWords 2),
   (0x0066, always nextCounter),
   (0x0067, fun v _ => do
      put (.onError false (← errorTarget v))),
   (0x0068, onValue "GOSUB"),
   (0x0069, onValue "GOTO"),
   (0x006A, always <| put (.restore none)),
   (0x006B, always do
      put (.restore (some (← identifier)))),
   (0x006C, always <| put (.resume none)),
   (0x006D, always do
      let offset ← word
      if offset = 0xFFFF then put (.resume (some .zero))
      else put (.resume (some (.label (← identifierAt offset))))),
   (0x006E, always <| put (.resume (some .next))),
   (0x006F, always <| put (.returnTo none)),
   (0x0070, always do
      put (.returnTo (some (← identifier)))),
   (0x0071, always do
      put (.run (← pop))),
   (0x0072, always do
      put (.run (.var (← identifier)))),
   (0x0073, always <| put (.run .omitted)),
   (0x0074, withOperand .select),
   (0x0199, fun v _ => do
      put (.onError true (← errorTarget v)))]

/-! ## Events -/

/-- A source of events with its number on the stack. -/
def eventWith (name : String) : Handler := always do
  push (.event name (← pop))

/-- A source of events without a number. -/
def eventAlone (name : String) : Handler :=
  always <| push (.event name .omitted)

/-- Events are let in, kept out or kept waiting. -/
def eventState (state : String) : Handler := always do
  put (.event (← pop) state)

/-- The opcodes of events. -/
def events : Table :=
  [(0x0027, eventWith "COM"),
   (0x0028, always do
      let source ← pop
      put (.onEvent source (← identifier))),
   (0x0029, eventWith "KEY"),
   (0x002A, eventState "OFF"),
   (0x002B, eventState "ON"),
   (0x002C, eventState "STOP"),
   (0x002D, eventAlone "PEN"),
   (0x002E, eventAlone "PLAY"),
   (0x002F, eventWith "PLAY"),
   (0x0030, eventWith "SIGNAL"),
   (0x0031, eventWith "STRIG"),
   (0x0032, eventAlone "TIMER"),
   (0x0033, eventWith "TIMER"),
   (0x017A, eventAlone "UEVENT"),
   (0x0196, fun _ state => do
      put (.event .omitted (← choose ["OFF", "ON"] state)))]

end SavedBasic.Instruction
