import SavedBasic.Proofs.Running

/-!
# What instructions are made of

Every instruction is put together from a small number of elementary actions: it reads from the
source, looks up names, pushes and pops operands, puts a statement into the open place of the line,
and opens function definitions. Some instructions go beyond this, each in one way only: they look at
the last statement of the line and build it up further, give a function definition its value, start a
line, start a statement behind a colon, write a comment, or put operands aside under a name.
`Composed` says so of an action, and `composed_perform` says it of all instructions of all versions.

A property that elementary actions have and that passes through one action after another is thereby
a property of all instructions. Its proof does not have to go through the opcodes one by one.
-/

namespace SavedBasic

/-- Whether a statement is one that several instructions build up. -/
def Statement.isAssembled : Statement → Bool
  | print _ | input _ | declarations _ | caseOf _ | next _ | read _ | erase _ | field .. | const _
  | transfer _ => true
  | _ => false

/-- The statements that a command to the compiler can be written into. -/
def Statement.holdsRemark : Statement → Bool
  | remark .. | misreadBefore _ (remark ..) => true
  | _ => false

namespace Decode

variable {α β : Type}

/-- The ways in which an instruction may go beyond operands, the last statement of the line and
function definitions. -/
inductive Effect where
  /-- it starts a line -/
  | line
  /-- it starts a statement behind a colon -/
  | colon
  /-- it writes a comment, or a command to the compiler into one -/
  | comment
  /-- it puts aside operands under a name, or picks them up -/
  | arguments
deriving DecidableEq

/-- All that an instruction may do beyond reading, moving operands and putting statements into the open
place of the line. -/
inductive Power where
  /-- it has an effect beyond the last statement -/
  | effect (e : Effect)
  /-- it looks at the last statement and builds it up further -/
  | build
  /-- it opens a function definition -/
  | opens
  /-- it gives a function definition its value -/
  | close
  /-- it leaves a block, which is a function definition if one is open -/
  | exits
deriving DecidableEq

/-- The procedure that is being decoded learns its kind. -/
def setProcedureKind (kind : ProcedureKind) : Decode Unit :=
  modifyProcedure fun p => { p with kind := some kind }

/-- Changes the operands under a name. -/
def modifyArguments (f : Arguments → Arguments) : Decode Unit :=
  modify fun s => { s with arguments := f s.arguments }

/-- Replaces the line that is being decoded by what becomes of it. -/
def amendLine (f : Line → Except Fault Line) : Decode Unit := do
  let l ← line
  setLine (← given (f l))

/-- An action that is put together from elementary ones, of which those that need a power need the
given one. A statement that is built up further is one of those that several instructions build up,
and a comment leaves all statements alone but a remark at the end of the line. -/
inductive Composed (e : Option Power) : {α : Type} → Decode α → Prop where
  | pure {α : Type} (a : α) : Composed e (Pure.pure a : Decode α)
  | throw {α : Type} (fault : Fault) : Composed e (throw fault : Decode α)
  | bind {α β : Type} {m : Decode α} {f : α → Decode β} (hm : Composed e m)
    (hf : ∀ a, Composed e (f a)) : Composed e (m >>= f)
  | number (width : Nat) (h : 0 < width) : Composed e (number width)
  | bytes (n : Nat) : Composed e (bytes n)
  | identifierAt (offset : Nat) : Composed e (identifierAt offset)
  | push (x : Expr) : Composed e (push x)
  | pop : Composed e pop
  | popMany (n : Nat) : Composed e (popMany n)
  | lastStatement (h : e = some .build) : Composed e lastStatement
  | put (new : Statement) : Composed e (put new)
  | amend (h : e = some .build) (f : Statement → Option Statement)
    (hf : ∀ st st', f st = some st' → st.isAssembled) : Composed e (amend f)
  | isOpen (h : e = some .exits) : Composed e isOpen
  | openFn (h : e = some .opens) (d : DefFn) : Composed e (openFn d)
  | closeFn (h : e = some .close) (x : Expr) : Composed e (closeFn (.value x))
  | currentKind : Composed e currentKind
  | currentStatic : Composed e currentStatic
  | setProcedureKind (kind : ProcedureKind) : Composed e (setProcedureKind kind)
  | clear (h : e = some (.effect .line)) : Composed e clear
  | beginLine (h : e = some (.effect .line)) (label : Option Identifier) (indent : Nat) :
    Composed e (beginLine label indent)
  | colon (h : e = some (.effect .colon)) (column : Option Nat) : Composed e (colon column)
  | line (h : e = some (.effect .comment)) : Composed e line
  | amendLine (h : e = some (.effect .comment)) (f : Line → Except Fault Line)
    (hf : ∀ l l', f l = .ok l' → l'.earlier = l.earlier ∧
      (l'.last = l.last ∨ l.last.statement.holdsRemark = true)) : Composed e (amendLine f)
  | arguments (h : e = some (.effect .arguments)) : Composed e arguments
  | modifyArguments (h : e = some (.effect .arguments)) (f : Arguments → Arguments) :
    Composed e (modifyArguments f)

namespace Composed

variable {e : Option Power}

attribute [simp] pure throw bytes identifierAt push pop popMany put currentKind currentStatic
  setProcedureKind

/-! ## Actions that instructions share -/

@[simp] theorem map {m : Decode α} (f : α → β) (hm : Composed e m) : Composed e (f <$> m) := by
  rw [map_eq_pure_bind]
  exact .bind hm fun a => .pure (f a)

@[simp] theorem given (r : Except Fault α) : Composed e (given r) := by
  cases r with
  | ok a => exact .pure a
  | error fault => exact .throw fault

@[simp] theorem byte : Composed e byte := .number 1 (by decide)

@[simp] theorem word : Composed e word := .number 2 (by decide)

@[simp] theorem dword : Composed e dword := .number 4 (by decide)

@[simp] theorem qword : Composed e qword := .number 8 (by decide)

@[simp] theorem packed : Composed e packed :=
  .bind word fun _ => .bind (.bytes _) fun _ => .bind (.bytes _) fun _ => .pure _

@[simp] theorem skipWords (n : Nat) : Composed e (skipWords n) := by
  induction n with
  | zero => exact .pure ()
  | succ n ih => exact .bind word fun _ => ih

@[simp] theorem identifier : Composed e identifier :=
  .bind word fun offset => .identifierAt offset

@[simp] theorem identifiers (n : Nat) : Composed e (identifiers n) := by
  induction n with
  | zero => exact .pure []
  | succ n ih => exact .bind identifier fun _ => .bind ih fun _ => .pure _

@[simp] theorem identifierOf (v : Version) (type : Nat) : Composed e (identifierOf v type) := by
  refine .bind identifier fun id => ?_
  split
  · exact .pure id
  · exact .bind (given _) fun _ => .pure _

@[simp] theorem dataType (v : Version) (index : Int) : Composed e (dataType v index) := by
  unfold Decode.dataType
  repeat' split
  · exact .pure _
  · exact .bind (given _) fun _ => .pure _
  · exact .pure _
  · exact .bind (.identifierAt _) fun _ => .pure _

@[simp] theorem popTwo : Composed e popTwo := by
  refine .bind (.popMany 2) fun operands => ?_
  split
  · exact .pure _
  · exact .throw _

@[simp] theorem continueWith (isKind : Statement → Bool) (fresh : Statement) :
    Composed (some .build) (continueWith isKind fresh) := by
  refine .bind (.lastStatement rfl) fun st => ?_
  split
  · exact .put fresh
  · exact .pure ()

@[simp] theorem require (isKind : Statement → Bool) : Composed (some .build) (require isKind) := by
  refine .bind (.lastStatement rfl) fun st => ?_
  split
  · exact .throw _
  · exact .pure ()

@[simp] theorem exitBlock : Composed (some .exits) exitBlock := by
  rw [exitBlock_eq]
  refine .bind (.isOpen rfl) fun b => ?_
  split
  · exact .pure _
  · exact .bind .currentKind fun _ => .pure _

/-- An assignment goes into a list of constants, into the place of a bare `LET`, or where any
statement goes. The first two build up a statement that is already there. -/
theorem transfer_eq (t : Transfer) :
    transfer t = (Decode.lastStatement >>= fun st =>
      match st with
      | .const _ => Decode.amend fun
        | .const items => some (.const (items ++ [t]))
        | _ => none
      | .transfer old =>
        if old.isLetAlone then Decode.amend fun
          | .transfer _ => some (.transfer t.underLet)
          | _ => none
        else Decode.put (.transfer t)
      | _ => Decode.put (.transfer t)) := by
  apply ext_run
  intro src pos s
  simp only [transfer, run_bind, run_line, run_lastStatement, State.last?]
  rcases hl : s.program.current.lines with _ | ⟨l, rest⟩
  · rfl
  · have hlast : s.last? = some l.last.statement := by rw [State.last?, hl]; rfl
    simp only [List.head?_cons, Option.map_some]
    generalize l.last.statement = st at hlast
    split
    · rw [amend_eq, run_bind, run_lastStatement, hlast, run_setLine_setLast hl]
      rfl
    · rename_i old
      by_cases hlet : old.isLetAlone
      · simp only [hlet, if_true]
        rw [amend_eq, run_bind, run_lastStatement, hlast, run_setLine_setLast hl]
        rfl
      · simp only [hlet]
        rfl
    · rename_i hconst htransfer
      cases st with
      | const items => exact absurd rfl (hconst items)
      | transfer old => exact absurd rfl (htransfer old)
      | _ => rfl

@[simp] theorem transfer (t : Transfer) : Composed (some .build) (transfer t) := by
  rw [transfer_eq]
  refine .bind (.lastStatement rfl) fun st => ?_
  split
  · refine .amend rfl _ fun st st' h => ?_
    split at h
    · rfl
    · cases h
  · split
    · refine .amend rfl _ fun st st' h => ?_
      split at h
      · rfl
      · cases h
    · exact .put _
  · exact .put _

end Composed

end Decode

namespace Instruction

open Decode

variable {e : Option Power}

/-! ## What opcodes may do -/

/-- The opcodes that go beyond operands, the last statement and function definitions, and how. -/
def effects : List (Nat × Effect) :=
  [(0x0000, .line), (0x0004, .line), (0x0005, .line), (0x0006, .colon), (0x0007, .colon),
   (0x0021, .comment), (0x0022, .comment), (0x0097, .comment), (0x0099, .comment),
   (0x01C2, .comment),
   (0x007E, .arguments), (0x007F, .arguments), (0x0080, .arguments), (0x0081, .arguments),
   (0x0082, .arguments), (0x0083, .arguments), (0x0084, .arguments), (0x009F, .arguments),
   (0x00A0, .arguments), (0x00B4, .arguments), (0x00B5, .arguments), (0x00BB, .arguments),
   (0x00BC, .arguments), (0x00BD, .arguments), (0x00BE, .arguments), (0x00D0, .arguments),
   (0x00D1, .arguments), (0x00D8, .arguments), (0x00D9, .arguments), (0x00DA, .arguments),
   (0x00DB, .arguments)]

/-- The effect of an opcode of the common numbering. -/
def effect? (code : Nat) : Option Effect := effects.lookup code

/-- The effect of an operation. -/
def Operation.effect? : Operation → Option Effect
  | .common code _ => Instruction.effect? code
  | _ => none

/-- The opcodes that look at the last statement of the line. All but a few build it up further; an
assignment does so behind `CONST` and a bare `LET`. -/
def builders : List Nat :=
  [0x000C, 0x000D, 0x0010, 0x0015, 0x0016, 0x001A, 0x001C, 0x001E, 0x001F, 0x003B, 0x003C, 0x003D,
   0x003E, 0x003F, 0x0040, 0x0041, 0x0042, 0x0066, 0x007D, 0x0086, 0x0088, 0x008F, 0x0090, 0x0091,
   0x0092, 0x0093, 0x0094, 0x0095, 0x0096, 0x00A5, 0x00A7, 0x00A9, 0x00AC, 0x00B6, 0x00C0, 0x00C4,
   0x00C5, 0x00C6, 0x00C8, 0x00C9, 0x00CA, 0x00E2, 0x00E6, 0x00EF, 0x00FF, 0x017C, 0x017D, 0x0180,
   0x01A8]

/-- The opcode that opens a function definition. -/
def opener : Nat := 0x0045

/-- The opcode that gives a function definition its value. -/
def closer : Nat := 0x0026

/-- The opcode that leaves a block without a name. -/
def exiter : Nat := 0x0055

/-- The power of an opcode of the common numbering. -/
def power? (code : Nat) : Option Power :=
  match effect? code with
  | some e => some (.effect e)
  | none =>
    if code = closer then some .close
    else if code = opener then some .opens
    else if code = exiter then some .exits
    else if builders.contains code then some .build
    else none

/-- The power of an operation. -/
def Operation.power? : Operation → Option Power
  | .common code _ => Instruction.power? code
  | .dimension | .dimensionArray _ => some .build
  | .undefined => none

/-- A power that is an effect is the effect that the operation has. -/
theorem Operation.effect?_of_power? {op : Operation} {effect : Effect}
    (h : op.power? = some (.effect effect)) : op.effect? = some effect := by
  cases op with
  | common code parameter =>
    dsimp only [Operation.power?, Operation.effect?] at h ⊢
    unfold Instruction.power? at h
    split at h
    · rename_i e he
      cases h
      exact he
    · split at h
      · cases h
      · split at h
        · cases h
        · split at h
          · cases h
          · split at h <;> cases h
  | dimension | dimensionArray type => cases h
  | undefined => cases h

@[simp] theorem composed_lastStatement : Composed (some .build) lastStatement := .lastStatement rfl

@[simp] theorem composed_openFn (d : DefFn) : Composed (some .opens) (openFn d) := .openFn rfl d

@[simp] theorem composed_closeFn (x : Expr) : Composed (some .close) (closeFn (.value x)) :=
  .closeFn rfl x

/-! ## Variables and declarations -/

@[simp] theorem composed_amendDeclarations (f : Declarations → Declarations) :
    Composed (some .build) (amendDeclarations f) := by
  refine .amend rfl _ fun st st' h => ?_
  split at h
  · rfl
  · cases h

@[simp] theorem composed_declaration : Composed (some .build) declaration :=
  .bind (.continueWith _ _) fun _ => composed_amendDeclarations _

@[simp] theorem composed_nameDeclaration (name : Head) (bounds : Option (List Expr)) :
    Composed (some .build) (nameDeclaration name bounds) :=
  composed_amendDeclarations _

@[simp] theorem composed_typeDeclaration (type : DataType) (column : Nat) :
    Composed (some .build) (typeDeclaration type column) := by
  refine .bind (.lastStatement rfl) fun st => ?_
  split
  · exact .throw _
  · exact composed_amendDeclarations _

@[simp] theorem composed_setKind (kind : DeclarationKind) : Composed (some .build) (setKind kind) := by
  refine .bind (.lastStatement rfl) fun st => ?_
  split
  · split
    · exact .throw _
    · exact composed_amendDeclarations _
  · exact .throw _

@[simp] theorem composed_declareAs (kind : DeclarationKind) : Composed (some .build) (declareAs kind) :=
  .bind (.continueWith _ _) fun _ => composed_setKind kind

@[simp] theorem composed_setMode (mode : String) : Composed (some .build) (setMode mode) := by
  refine .bind (.continueWith _ _) fun _ => .bind (.lastStatement rfl) fun st => ?_
  split
  · exact composed_amendDeclarations _
  · exact .pure ()

@[simp] theorem composed_element (v : Version) (type : Nat) : Composed e (element v type) := by
  refine .bind .word fun count => .bind (.identifierOf v type) fun name => ?_
  split
  · exact .push _
  · exact .bind (.popMany _) fun _ => .push _

@[simp] theorem composed_declaredArray (v : Version) (type : Nat) :
    Composed (some .build) (declaredArray v type) :=
  .bind .word fun _ => .bind (.identifierOf v type) fun _ => .bind (.popMany _) fun _ =>
    .bind composed_declaration fun _ => composed_nameDeclaration _ _

theorem composed_storage :
    ∀ entry ∈ storage, ∀ v p, Composed (power? entry.1) (entry.2 v p) := by
  simp only [storage, List.forall_mem_cons, List.not_mem_nil, false_implies, implies_true,
    and_true]
  repeat' apply And.intro
  all_goals
    intro v p
    first | change Composed (some .build) _ | change Composed none _
    repeat' first | with_reducible refine .bind ?_ fun _ => ?_ | split
  all_goals simp

@[simp] theorem composed_fieldType (v : Version) : Composed e (fieldType v) := by
  refine .bind .word fun mark => ?_
  split
  · exact .bind (.skipWords 1) fun _ => .bind .word fun _ => .pure _
  · exact .bind .word fun type => .dataType v type

@[simp] theorem composed_redimension : Composed (some .build) redimension := by
  refine .bind .pop fun array => .bind composed_declaration fun _ => ?_
  split
  · exact .bind (.throw _) fun _ => composed_declareAs _
  · exact .bind (composed_nameDeclaration _ _) fun _ => composed_declareAs _

theorem composed_declarations :
    ∀ entry ∈ declarations, ∀ v p, Composed (power? entry.1) (entry.2 v p) := by
  simp only [declarations, always, List.forall_mem_cons, List.not_mem_nil, false_implies, implies_true,
    and_true]
  repeat' apply And.intro
  all_goals
    intro v p
    first | change Composed (some .build) _ | change Composed none _
    repeat' first | with_reducible refine .bind ?_ fun _ => ?_ | split
  all_goals simp

@[simp] theorem composed_dimension : Composed (some .build) dimension :=
  .bind (.require _) fun _ => composed_setKind _

@[simp] theorem composed_suffixed (v : Version) (type : Nat) (name : Head) :
    Composed e (suffixed v type name) := by
  unfold suffixed
  split
  · exact .pure name
  · refine .bind (.given _) fun suffix => ?_
    split
    · exact .pure _
    · exact .throw _

@[simp] theorem composed_dimensionArray (v : Version) (type : Nat) :
    Composed (some .build) (dimensionArray v type) := by
  refine .bind .pop fun array => .bind ?_ fun _ => composed_dimension
  unfold declareArray
  split
  · exact .throw _
  · exact .bind (composed_suffixed _ _ _) fun _ => .bind composed_declaration fun _ =>
      composed_nameDeclaration _ _

/-! ## Procedures, control flow and events -/

@[simp] theorem composed_skipExtraWord (v : Version) : Composed e (skipExtraWord v) := by
  unfold skipExtraWord
  split
  · exact .skipWords 1
  · exact .pure ()

@[simp] theorem composed_parameters {one : Decode Parameter} (h : Composed e one) (n : Nat) :
    Composed e (parameters one n) := by
  induction n with
  | zero => exact .pure []
  | succ n ih => exact .bind h fun _ => .bind ih fun _ => .pure _

@[simp] theorem composed_declaredParameter (v : Version) : Composed e (declaredParameter v) :=
  .bind .identifier fun _ => .bind .word fun _ => .bind .word fun _ => .bind (.dataType v _) fun _ =>
    .bind (composed_skipExtraWord v) fun _ => .pure _

@[simp] theorem composed_headerParameter (v : Version) : Composed e (headerParameter v) := by
  refine .bind .identifier fun _ => .bind .word fun mode => .bind .word fun type => ?_
  dsimp only
  split
  · exact .bind (.map _ (.dataType v _)) fun _ => .bind (composed_skipExtraWord v) fun _ => .pure _
  · exact .bind (.pure none) fun _ => .bind (composed_skipExtraWord v) fun _ => .pure _

@[simp] theorem composed_functionParameter (v : Version) : Composed e (functionParameter v) := by
  refine .bind .identifier fun _ => .bind .word fun mode => .bind .word fun type => ?_
  refine .bind (composed_skipExtraWord v) fun _ => ?_
  split
  · exact .bind (.given _) fun _ => .pure _
  · split
    · exact .bind (.given _) fun _ => .pure _
    · exact .pure _

@[simp] theorem composed_flaggedName (v : Version) (width : Nat) {check : Nat → Decode Unit}
    (h : ∀ flags, Composed e (check flags)) : Composed e (flaggedName v width check) := by
  refine .bind .identifier fun name => .bind .word fun flags => .bind (h flags) fun _ => ?_
  split
  · exact .bind (.given _) fun _ => .pure _
  · exact .pure _

@[simp] theorem composed_declareProcedure (v : Version) : Composed e (declareProcedure v) := by
  refine .bind (.skipWords 1) fun _ => ?_
  refine .bind (composed_flaggedName v 3 fun _ => .bind (.given _) fun _ => .pure ()) fun x => ?_
  refine .bind (.given _) fun _ => .bind .word fun count => ?_
  dsimp only
  split
  · exact .bind (.pure none) fun _ => .bind (.bytes _) fun _ => .bind (.bytes _) fun _ => .put _
  · exact .bind (.map _ (composed_parameters (composed_declaredParameter v) _)) fun _ =>
      .bind (.bytes _) fun _ => .bind (.bytes _) fun _ => .put _

/-- The procedure learns its kind between the parameters and the statement. -/
@[simp] theorem composed_procedureHeader (v : Version) (kind : ProcedureKind) (name : Identifier) :
    Composed e (procedureHeader v kind name) := by
  refine .bind .word fun count => ?_
  refine .bind (composed_parameters (composed_headerParameter v) _) fun params => ?_
  refine .bind (.setProcedureKind kind) fun _ => ?_
  have hstatic : ∀ f : Bool → Statement, Composed e (procedure >>= fun p => put (f p.static)) := by
    intro f
    have := Composed.bind (e := e) .currentStatic fun static => .put (f static)
    rwa [currentStatic, bind_assoc] at this
  exact hstatic fun static => .procedure
    { kind := kind, name := name, params := params, static := static, staticFirst := v.atLeast .vbdos }

@[simp] theorem composed_callWith (form : CallForm) : Composed e (callWith form) :=
  .bind .word fun _ => .bind .identifier fun _ => .bind (.popMany _) fun _ => .put _

/-- The end of a procedure asks for the kind of the procedure, and for nothing else of it. -/
theorem composed_endProcedure :
    Composed e (procedure >>= fun p =>
      match p.kind with
      | some kind => put (.endOf (.procedure kind))
      | none => throw .brokenPromise) := by
  have := Composed.bind (e := e) .currentKind (f := fun
      | some kind => put (.endOf (.procedure kind))
      | none => throw .brokenPromise) fun kind => by
    cases kind with
    | none => exact .throw _
    | some kind => exact .put _
  rwa [currentKind, bind_assoc] at this

theorem composed_procedures :
    ∀ entry ∈ procedures, ∀ v p, Composed (power? entry.1) (entry.2 v p) := by
  simp only [procedures, always, List.forall_mem_cons, List.not_mem_nil, false_implies, implies_true,
    and_true]
  repeat' apply And.intro
  all_goals
    intro v p
    first
      | change Composed (some .close) _
      | change Composed (some .opens) _
      | change Composed (some .exits) _
      | change Composed none _
    repeat' first
      | exact composed_endProcedure
      | with_reducible refine .bind ?_ fun _ => ?_
      | split
  all_goals simp

@[simp] theorem composed_caseOption (option : Except Fault CaseOption) :
    Composed (some .build) (caseOption option) := by
  refine .bind (.continueWith _ _) fun _ => .bind (.lastStatement rfl) fun st => ?_
  split
  · refine .bind (.given _) fun _ => .amend rfl _ fun st st' h => ?_
    split at h
    · rfl
    · cases h
  · exact .throw _

@[simp] theorem composed_caseCompare (operator : String) (v : Version) (p : Nat) :
    Composed (some .build) (caseCompare operator v p) :=
  .bind .pop fun _ => composed_caseOption _

@[simp] theorem composed_withOperand (make : Expr → Statement) (v : Version) (p : Nat) :
    Composed e (withOperand make v p) :=
  .bind .pop fun _ => .bind (.put _) fun _ => .skipWords 1

@[simp] theorem composed_forLoop (count : Nat) (v : Version) (p : Nat) :
    Composed e (forLoop count v p) := by
  refine .bind (.popMany count) fun operands => ?_
  split
  · exact .bind (.put _) fun _ => .skipWords 2
  · exact .bind (.put _) fun _ => .skipWords 2
  · exact .bind (.throw _) fun _ => .skipWords 2

@[simp] theorem composed_nextCounter : Composed (some .build) nextCounter := by
  refine .bind .pop fun _ => .bind (.continueWith _ _) fun _ => .bind ?_ fun _ => .skipWords 2
  refine .amend rfl _ fun st st' h => ?_
  split at h
  · rfl
  · cases h

@[simp] theorem composed_onValue (verb : String) (v : Version) (p : Nat) :
    Composed e (onValue verb v p) :=
  .bind .pop fun _ => .bind .word fun _ => .bind (.identifiers _) fun _ => .put _

@[simp] theorem composed_errorTarget (v : Version) : Composed e (errorTarget v) := by
  refine .bind .word fun offset => ?_
  split
  · exact .pure _
  · split
    · exact .pure _
    · exact .bind (.identifierAt _) fun _ => .pure _

theorem composed_control :
    ∀ entry ∈ control, ∀ v p, Composed (power? entry.1) (entry.2 v p) := by
  simp only [control, always, List.forall_mem_cons, List.not_mem_nil, false_implies, implies_true,
    and_true]
  repeat' apply And.intro
  all_goals
    intro v p
    first | change Composed (some .build) _ | change Composed none _
    repeat' first | with_reducible refine .bind ?_ fun _ => ?_ | split
  all_goals simp

@[simp] theorem composed_choose {α : Type} (choices : List α) (i : Nat) :
    Composed e (choose choices i) := by
  unfold choose
  split
  · exact .pure _
  · exact .throw _

@[simp] theorem composed_lookUp {α : Type} (entries : List (Nat × α)) (key : Nat) :
    Composed e (lookUp entries key) := by
  unfold lookUp
  split
  · exact .pure _
  · exact .throw _

theorem composed_events : ∀ entry ∈ events, ∀ v p, Composed e (entry.2 v p) := by
  simp only [events, eventWith, eventAlone, eventState, always, List.forall_mem_cons,
    List.not_mem_nil, false_implies, implies_true, and_true]
  repeat' apply And.intro
  all_goals
    intro v p
    repeat' first | with_reducible refine .bind ?_ fun _ => ?_ | split
  all_goals simp

/-! ## Input, output and files -/

@[simp] theorem composed_amendPrint (f : Print → Print) : Composed (some .build) (amendPrint f) := by
  refine .amend rfl _ fun st st' h => ?_
  split at h
  · rfl
  · cases h

@[simp] theorem composed_printing : Composed (some .build) printing :=
  .continueWith _ _

@[simp] theorem composed_printPart {part : Decode PrintPart} (h : Composed (some .build) part)
    (v : Version) (p : Nat) : Composed (some .build) (printPart part v p) :=
  .bind composed_printing fun _ => .bind (composed_amendPrint _) fun _ => .bind h fun _ =>
    composed_amendPrint _

theorem composed_output :
    ∀ entry ∈ output, ∀ v p, Composed (power? entry.1) (entry.2 v p) := by
  simp only [output, always, List.forall_mem_cons, List.not_mem_nil, false_implies, implies_true,
    and_true]
  repeat' apply And.intro
  all_goals
    intro v p
    first | change Composed (some .build) _ | change Composed none _
    repeat' first
      | with_reducible refine .bind ?_ fun _ => ?_
      | with_reducible refine composed_printPart ?_ v p
  all_goals simp

@[simp] theorem composed_amendInput (f : Input → Input) : Composed (some .build) (amendInput f) := by
  refine .amend rfl _ fun st st' h => ?_
  split at h
  · rfl
  · cases h

@[simp] theorem composed_inputHead : Composed e inputHead := by
  refine .bind .word fun count => .bind .word fun flags => ?_
  dsimp only
  repeat' first | with_reducible refine .bind ?_ fun _ => ?_ | split
  all_goals simp

@[simp] theorem composed_lineInput : Composed (some .build) lineInput := by
  refine .bind .word fun flags => .bind .pop fun _ => .bind (.continueWith _ _) fun _ => ?_
  refine .bind (composed_amendInput _) fun _ => ?_
  split
  · exact .bind .pop fun _ => composed_amendInput _
  · exact .pure ()

@[simp] theorem composed_eraseArrays (v : Version) : Composed (some .build) (eraseArrays v) := by
  unfold eraseArrays
  split
  · refine .bind .pop fun _ => .bind (.continueWith _ _) fun _ => .amend rfl _ fun st st' h => ?_
    split at h
    · rfl
    · cases h
  · exact .bind .word fun _ => .bind (.popMany _) fun _ => .put _

@[simp] theorem composed_fieldPart : Composed (some .build) fieldPart := by
  refine .bind (.popMany 2) fun args => .bind (.require _) fun _ => ?_
  split
  · refine .amend rfl _ fun st st' h => ?_
    split at h
    · rfl
    · cases h
  · exact .throw _

theorem composed_amendRead (target : Expr) :
    Composed (some .build) (amend fun
      | .read targets => some (.read (targets ++ [target]))
      | _ => none) := by
  refine .amend rfl _ fun st st' h => ?_
  split at h
  · rfl
  · cases h

theorem composed_input :
    ∀ entry ∈ input, ∀ v p, Composed (power? entry.1) (entry.2 v p) := by
  simp only [input, always, List.forall_mem_cons, List.not_mem_nil, false_implies, implies_true,
    and_true]
  repeat' apply And.intro
  all_goals
    intro v p
    first | change Composed (some .build) _ | change Composed none _
    repeat' first
      | exact composed_amendRead _
      | with_reducible refine .bind ?_ fun _ => ?_
      | split
  all_goals simp

@[simp] theorem composed_lockRange (unlock : Bool) (v : Version) (p : Nat) :
    Composed e (lockRange unlock v p) := by
  refine .bind .word fun flags => ?_
  dsimp only
  repeat' first | with_reducible refine .bind ?_ fun _ => ?_ | split
  all_goals simp

@[simp] theorem composed_openFile (withLength : Bool) (v : Version) (p : Nat) :
    Composed (some .build) (openFile withLength v p) := by
  refine .bind .word fun flags => ?_
  dsimp only
  repeat' first | with_reducible refine .bind ?_ fun _ => ?_ | split
  all_goals simp

@[simp] theorem composed_align (keyword : String) (v : Version) (p : Nat) :
    Composed (some .build) (align keyword v p) :=
  .bind .pop fun _ => .bind .pop fun _ => .transfer _

@[simp] theorem composed_openTable : Composed e openTable := by
  refine .bind (.skipWords 1) fun _ => .bind .identifier fun _ => .bind (.popMany 3) fun operands => ?_
  split
  · exact .put _
  · exact .throw _

theorem composed_files :
    ∀ entry ∈ files, ∀ v p, Composed (power? entry.1) (entry.2 v p) := by
  simp only [files, always, List.forall_mem_cons, List.not_mem_nil, false_implies, implies_true,
    and_true]
  repeat' apply And.intro
  all_goals
    intro v p
    first | change Composed (some .build) _ | change Composed none _
    repeat' first | with_reducible refine .bind ?_ fun _ => ?_ | split
  all_goals simp

/-! ## Operators, objects and built-in functions -/

@[simp] theorem composed_binary (operator : String) (v : Version) (p : Nat) :
    Composed e (binary operator v p) :=
  .bind .popTwo fun _ => .push _

@[simp] theorem composed_wrap (make : Expr → Expr) (v : Version) (p : Nat) :
    Composed e (wrap make v p) :=
  .bind .pop fun _ => .push _

@[simp] theorem composed_convert (v : Version) (type : Nat) : Composed e (convert v type) := by
  refine .bind .pop fun _ => .bind (.given _) fun type => ?_
  split
  · exact .throw _
  · exact .push _

theorem composed_operators : ∀ entry ∈ operators, ∀ v p, Composed e (entry.2 v p) := by
  simp only [operators, always, List.forall_mem_append, List.forall_mem_map, List.forall_mem_cons,
    List.not_mem_nil, false_implies, implies_true, and_true, composed_binary, composed_wrap, true_and]
  repeat' apply And.intro
  all_goals
    intro v p
    repeat' first | with_reducible refine .bind ?_ fun _ => ?_ | split
  all_goals simp

@[simp] theorem composed_methodOf (count : Nat) : Composed e (methodOf count) :=
  .bind (.popMany count) fun _ => .bind .pop fun _ => .bind .word fun _ =>
    .bind (composed_lookUp _ _) fun _ => .pure _

@[simp] theorem composed_methodCall (count : Nat) (v : Version) (p : Nat) :
    Composed e (methodCall count v p) :=
  .bind (composed_methodOf count) fun _ => .put _

@[simp] theorem composed_methodValue (count : Nat) (v : Version) (p : Nat) :
    Composed e (methodValue count v p) :=
  .bind (composed_methodOf count) fun _ => .push _

@[simp] theorem composed_plainMethod : Composed e plainMethod := by
  refine .bind (composed_methodOf 0) fun x => ?_
  dsimp only
  split
  · exact .put _
  · exact .put _

theorem composed_objects : ∀ entry ∈ objects, ∀ v p, Composed e (entry.2 v p) := by
  simp only [objects, always, List.forall_mem_cons, List.not_mem_nil, false_implies, implies_true,
    and_true]
  repeat' apply And.intro
  all_goals
    intro v p
    repeat' first | with_reducible refine .bind ?_ fun _ => ?_ | split
  all_goals simp

@[simp] theorem composed_function (name : String) (count : Nat) : Composed e (function name count) :=
  .bind (.popMany count) fun _ => .push _

@[simp] theorem composed_command (name : String) (count : Nat) : Composed e (command name count) :=
  .bind (.popMany count) fun _ => .put _

@[simp] theorem composed_commandWithGap (name : String) (count : Nat) :
    Composed e (commandWithGap name count) :=
  .bind (.popMany count) fun _ => .put _

@[simp] theorem composed_markedCommand (name : String) (count : Nat) :
    Composed e (markedCommand name count) :=
  .bind (.popMany count) fun _ => .put _

@[simp] theorem composed_assignTo (target : List Expr → Expr) (count : Nat) :
    Composed (some .build) (assignTo target count) := by
  refine .bind (.popMany _) fun operands => ?_
  split
  · exact .transfer _
  · exact .throw _

@[simp] theorem composed_thenWord {action : Decode Unit} (h : Composed e action) :
    Composed e (thenWord action) :=
  .bind h fun _ => .skipWords 1

theorem composed_builtins :
    ∀ entry ∈ builtins, ∀ v p, Composed (power? entry.1) (entry.2 v p) := by
  have hassign : ∀ entry ∈ assignments, power? entry.1 = some .build := by decide
  have hcall : ∀ entry ∈ callAssignments, power? entry.1 = some .build := by decide
  simp only [builtins, always, List.forall_mem_append, List.forall_mem_map, List.forall_mem_singleton]
  repeat' apply And.intro
  all_goals intros
  all_goals repeat' with_reducible refine .bind ?_ fun _ => ?_
  all_goals simp [*]

/-! ## Graphics, lines and comments -/

@[simp] theorem composed_setArgument (isGiven : Arguments → Bool) (set : Arguments → Arguments) :
    Composed (some (.effect .arguments)) (setArgument isGiven set) := by
  refine .bind (.arguments rfl) fun a => ?_
  split
  · exact .throw _
  · exact .modifyArguments rfl set

@[simp] theorem composed_arguments : Composed (some (.effect .arguments)) arguments := .arguments rfl

@[simp] theorem composed_point (step : Bool) : Composed e (point step) :=
  .bind .popTwo fun _ => .pure _

@[simp] theorem composed_startPoint (step : Bool) (v : Version) (p : Nat) :
    Composed (some (.effect .arguments)) (startPoint step v p) :=
  .bind (composed_point step) fun _ => composed_setArgument _ _

@[simp] theorem composed_stopPoint (step : Bool) (v : Version) (p : Nat) :
    Composed (some (.effect .arguments)) (stopPoint step v p) :=
  .bind (composed_point step) fun _ => composed_setArgument _ _

@[simp] theorem composed_circle (withColor : Bool) (v : Version) (p : Nat) :
    Composed (some (.effect .arguments)) (circle withColor v p) := by
  refine .bind composed_arguments fun a => ?_
  dsimp only
  repeat' first | with_reducible refine .bind ?_ fun _ => ?_ | split
  all_goals simp

@[simp] theorem composed_drawLine (withColor withStyle : Bool) (v : Version) (p : Nat) :
    Composed (some (.effect .arguments)) (drawLine withColor withStyle v p) := by
  refine .bind .word fun _ => .bind composed_arguments fun a => ?_
  dsimp only
  repeat' first | with_reducible refine .bind ?_ fun _ => ?_ | split
  all_goals simp

@[simp] theorem composed_paint (count : Nat) (v : Version) (p : Nat) :
    Composed (some (.effect .arguments)) (paint count v p) :=
  .bind composed_arguments fun _ => .bind (.popMany count) fun _ => .put _

@[simp] theorem composed_setPoint (keyword : String) (withColor : Bool) (v : Version) (p : Nat) :
    Composed (some (.effect .arguments)) (setPoint keyword withColor v p) := by
  refine .bind composed_arguments fun a => ?_
  dsimp only
  repeat' first | with_reducible refine .bind ?_ fun _ => ?_ | split
  all_goals simp

@[simp] theorem composed_view (keyword : String) (v : Version) (p : Nat) :
    Composed e (view keyword v p) :=
  .bind (.popMany 6) fun _ => .put _

@[simp] theorem composed_window (keyword : String) (v : Version) (p : Nat) :
    Composed e (window keyword v p) :=
  .bind (.popMany 4) fun _ => .put _

theorem composed_graphics :
    ∀ entry ∈ graphics, ∀ v p, Composed (power? entry.1) (entry.2 v p) := by
  simp only [graphics, always, List.forall_mem_cons, List.not_mem_nil, false_implies, implies_true,
    and_true]
  repeat' apply And.intro
  all_goals
    intro v p
    first | change Composed (some (.effect .arguments)) _ | change Composed none _
    repeat' first | with_reducible refine .bind ?_ fun _ => ?_ | split
  all_goals simp

@[simp] theorem composed_startLine {label : Decode (Option Identifier × Nat)}
    (h : Composed (some (.effect .line)) label) : Composed (some (.effect .line)) (startLine label) :=
  .bind (.clear rfl) fun _ => .bind h fun _ => .beginLine rfl _ _

theorem composed_setComment (comment : Comment) :
    Composed (some (.effect .comment)) (line >>= fun l => setLine { l with comment := some comment }) :=
  .amendLine rfl (fun l => .ok { l with comment := some comment }) fun l l' h => by
    cases h
    exact ⟨rfl, .inl rfl⟩

@[simp] theorem composed_comment : Composed (some (.effect .comment)) comment := by
  refine .bind (.line rfl) fun l => ?_
  split
  · exact .throw _
  · refine .bind .packed fun text => ?_
    split
    · exact composed_setComment _
    · exact .throw _

/-- The line with a command to the compiler in its remark or in its comment. -/
def withCommand (command : MetaCommand) (l : Line) : Except Fault Line :=
  match l.last.statement with
  | .remark text none => .ok (l.setLast (.remark text (some command)))
  | .misreadBefore misread (.remark text none) =>
    .ok (l.setLast (.misreadBefore misread (.remark text (some command))))
  | .remark _ (some _) => .error .brokenPromise
  | .misreadBefore _ (.remark _ (some _)) => .error .brokenPromise
  | _ =>
    match l.comment with
    | some comment =>
      if comment.command.isSome then .error .brokenPromise
      else .ok { l with comment := some { comment with command := some command } }
    | none => .error .brokenPromise

theorem metacommand_eq (command : MetaCommand) :
    metacommand command = amendLine (withCommand command) := by
  unfold metacommand amendLine withCommand
  congr 1
  funext l
  dsimp only
  generalize l.last.statement = st
  split
  case h_5 =>
    rcases l.comment with _ | comment
    · simp only [*]
      rfl
    · simp only [*]
      split <;> rfl
  all_goals rfl

@[simp] theorem composed_metacommand (command : MetaCommand) :
    Composed (some (.effect .comment)) (metacommand command) := by
  rw [metacommand_eq]
  refine .amendLine rfl _ fun l l' h => ?_
  unfold withCommand at h
  split at h
  · rename_i hst
    cases h
    exact ⟨rfl, .inr (by rw [hst]; rfl)⟩
  · rename_i hst
    cases h
    exact ⟨rfl, .inr (by rw [hst]; rfl)⟩
  · cases h
  · cases h
  · split at h
    · split at h
      · cases h
      · cases h
        exact ⟨rfl, .inl rfl⟩
    · cases h

theorem composed_lines : ∀ entry ∈ lines, ∀ v p, Composed (power? entry.1) (entry.2 v p) := by
  simp only [lines, always, List.forall_mem_cons, List.not_mem_nil, false_implies, implies_true,
    and_true]
  refine ⟨fun v p => ?_, fun v p => ?_, fun v p => ?_, fun v p => ?_, fun v p => ?_, fun v p => ?_,
    fun v p => ?_, fun v p => ?_, fun v p => ?_, fun v p => ?_, fun v p => ?_, fun v p => ?_,
    fun v p => ?_, fun v p => ?_⟩
  · exact composed_startLine (.pure _)
  · exact composed_startLine (.bind (.skipWords 1) fun _ => .bind .identifier fun _ => .pure _)
  · exact composed_startLine
      (.bind (.skipWords 1) fun _ => .bind .identifier fun _ => .bind .word fun _ => .pure _)
  · exact .colon rfl none
  · exact .bind .word fun _ => .colon rfl _
  · exact .skipWords 1
  · exact .bind .packed fun _ => .put _
  · exact .pure ()
  · exact .bind (.skipWords 1) fun _ => composed_metacommand _
  · exact .bind (.skipWords 1) fun _ => composed_metacommand _
  · exact composed_comment
  · exact .bind .packed fun _ => composed_metacommand _
  · exact .bind .packed fun _ => .put _
  · exact .bind (.skipWords 1) fun _ => .bind .identifier fun _ => composed_metacommand _

/-! ## All instructions -/

theorem composed_table : ∀ entry ∈ table, ∀ v p, Composed (power? entry.1) (entry.2 v p) := by
  simp only [table, List.forall_mem_append]
  exact ⟨⟨⟨⟨⟨⟨⟨⟨⟨⟨⟨⟨composed_lines, composed_storage⟩, composed_declarations⟩,
    composed_procedures⟩, composed_control⟩, fun x hx => composed_events x hx⟩, composed_output⟩,
    composed_input⟩, composed_files⟩, composed_graphics⟩, fun x hx => composed_operators x hx⟩,
    fun x hx => composed_objects x hx⟩, composed_builtins⟩

/-- What is found for an opcode stands beside it in the table. -/
theorem mem_of_lookup_eq_some {α : Type} {code : Nat} {a : α} {t : List (Nat × α)}
    (h : t.lookup code = some a) : (code, a) ∈ t := by
  obtain ⟨t₁, t₂, rfl, -⟩ := List.lookup_eq_some_iff.mp h
  exact List.mem_append_right t₁ List.mem_cons_self

/-- Every instruction of every version is put together from elementary actions, and its power is the
one that its opcode has. -/
theorem composed_perform (v : Version) (word : Nat) :
    Composed (operation v word).power? (perform v word) := by
  unfold perform
  cases operation v word with
  | common code parameter =>
    dsimp only [Operation.power?]
    cases h : table.lookup code with
    | none => exact .throw _
    | some handler => exact composed_table _ (mem_of_lookup_eq_some h) v parameter
  | dimension => exact composed_dimension
  | dimensionArray type => exact composed_dimensionArray v type
  | undefined => exact .throw _

end Instruction

end SavedBasic
