import SavedBasic.Proofs.Workspace

/-!
# Statements that are lists

Seven statements are built up one item after another. `CASE`, `READ`, `NEXT` and, from version 7.0 on,
`ERASE` begin with their first item: its instruction puts the statement, and those of all others find
it at the end of the line and go on with it. `CONST`, `FIELD` and `INPUT` have an instruction of their
own in front, and those of their items do not do without it. In either way, every instruction adds its
item behind the others, so what comes out is one statement with exactly the items that were written,
in their order.
-/

namespace SavedBasic

open Decode Instruction

variable {v : Version} {src : Source} {names : Nat → Except Fault Identifier} {p q : Nat}

/-! ## How lists are written -/

/-- A constant of a `CONST`. -/
structure NamedConstant where
  /-- the name -/
  name : Identifier
  /-- the value -/
  value : Expr

/-- The constant as it stands in the statement. -/
def NamedConstant.assignment (c : NamedConstant) : Transfer :=
  .assign none (.var c.name) c.value

/-- Where an `INPUT` reads from. -/
inductive InputOrigin where
  /-- a file -/
  | file (number : Expr)
  /-- the keyboard, with a prompt or without one -/
  | keyboard (prompt : Option Expr) (semicolon comma : Bool)

/-- The statement before its first variable. -/
def InputOrigin.start : InputOrigin → Input
  | file number => ⟨none, .omitted, false, false, [number]⟩
  | keyboard prompt semicolon comma => ⟨none, prompt.getD .omitted, semicolon, comma, []⟩

/-- A statement that is a list. -/
inductive ItemList where
  /-- the tests of a `CASE` -/
  | caseOf (options : List CaseOption)
  /-- the variables of a `READ` -/
  | read (targets : List Expr)
  /-- the variables of a `NEXT` -/
  | next (counters : List Expr)
  /-- the arrays of an `ERASE` -/
  | erase (arrays : List Expr)
  /-- the constants of a `CONST` -/
  | const (constants : List NamedConstant)
  /-- the widths and the variables of a `FIELD` -/
  | field (file : Expr) (parts : List (Expr × Expr))
  /-- the variables of an `INPUT` -/
  | input (origin : InputOrigin) (targets : List Expr)

/-- The statement with exactly these items. -/
def ItemList.statement : ItemList → Statement
  | caseOf options => .caseOf options
  | read targets => .read targets
  | next counters => .next (some counters)
  | erase arrays => .erase arrays
  | const constants => .const (constants.map NamedConstant.assignment)
  | field file parts => .field file parts
  | input origin targets =>
    .input { origin.start with kind := some .input, args := origin.start.args ++ targets }

/-- The opcodes of the comparisons of a `CASE`. -/
def caseComparisons : List (Nat × String) :=
  [(0x003D, "="), (0x003E, "<"), (0x003F, ">"), (0x0040, "<="), (0x0041, ">="), (0x0042, "<>")]

/-- From `p` to `q` a file has the instructions of a test of a `CASE`. -/
inductive CaseOptionAt (v : Version) (src : Source) (names : Nat → Except Fault Identifier) (p : Nat) :
    (q : Nat) → CaseOption → Prop where
  | value {q parameter : Nat} {e : Expr} (he : Pushed v src names p q [e])
    (h : InstructionAt v src q 0x003B parameter) : CaseOptionAt v src names p (q + 2) (.value e)
  | range {q parameter : Nat} {lower upper : Expr} (hends : Pushed v src names p q [lower, upper])
    (h : InstructionAt v src q 0x003C parameter) :
    CaseOptionAt v src names p (q + 2) (.range lower upper)
  | compare {q code parameter : Nat} {operator : String} {e : Expr} (he : Pushed v src names p q [e])
    (hoperator : (code, operator) ∈ caseComparisons) (h : InstructionAt v src q code parameter) :
    CaseOptionAt v src names p (q + 2) (.compare operator e)

/-- From `p` to `q` a file has an operand and the instruction that takes it. -/
inductive OperandAt (v : Version) (src : Source) (names : Nat → Except Fault Identifier)
    (code p : Nat) : (q : Nat) → Expr → Prop where
  | intro {q parameter : Nat} {e : Expr} (he : Pushed v src names p q [e])
    (h : InstructionAt v src q code parameter) : OperandAt v src names code p (q + 2) e

/-- From `p` to `q` a file has a variable of a `NEXT`, with two words behind the opcode. -/
inductive CounterAt (v : Version) (src : Source) (names : Nat → Except Fault Identifier) (p : Nat) :
    (q : Nat) → Expr → Prop where
  | intro {q parameter ignored ignored' : Nat} {e : Expr} (he : Pushed v src names p q [e])
    (h : InstructionAt v src q 0x0066 parameter) (hword : src.natLE (q + 2) 2 = .ok ignored)
    (hword' : src.natLE (q + 4) 2 = .ok ignored') : CounterAt v src names p (q + 6) e

/-- From `p` to `q` a file has the value of a constant, and the assignment to its name. -/
inductive ConstantAt (v : Version) (src : Source) (names : Nat → Except Fault Identifier) (p : Nat) :
    (q : Nat) → NamedConstant → Prop where
  | intro {q type offset : Nat} {name : Identifier} {value : Expr}
    (hvalue : Pushed v src names p q [value]) (h : InstructionAt v src q 0x000C type)
    (hname : Named v names type offset name) (hsrc : src.Holds (q + 2) (Bytes.u16 offset)) :
    ConstantAt v src names p (q + 4) ⟨name, value⟩

/-- From `p` to `q` a file has a width and a variable of a `FIELD`. -/
inductive FieldPartAt (v : Version) (src : Source) (names : Nat → Except Fault Identifier) (p : Nat) :
    (q : Nat) → Expr × Expr → Prop where
  | intro {q parameter : Nat} {part : Expr × Expr} (hpart : Pushed v src names p q [part.1, part.2])
    (h : InstructionAt v src q 0x0086 parameter) : FieldPartAt v src names p (q + 2) part

/-- From `p` to `q` a file has another word if a count tells so. -/
inductive CountedWordAt (src : Source) (count p : Nat) : (q : Nat) → Prop where
  | missing (h : count ≤ 2) : CountedWordAt src count p p
  | given {ignored : Nat} (h : 2 < count) (hword : src.natLE p 2 = .ok ignored) :
    CountedWordAt src count p (p + 2)

/-- From `p` to `q` a file has the instruction that begins an `INPUT`, with the operands that it
takes. -/
inductive InputOriginAt (v : Version) (src : Source) (names : Nat → Except Fault Identifier)
    (p : Nat) : (q : Nat) → InputOrigin → Prop where
  | file {q parameter : Nat} {number : Expr} (hnumber : Pushed v src names p q [number])
    (h : InstructionAt v src q 0x0087 parameter) : InputOriginAt v src names p (q + 2) (.file number)
  | keyboard {q r parameter count flags : Nat} {prompt : Option Expr}
    (hprompt : Pushed v src names p r prompt.toList) (h : InstructionAt v src r 0x0089 parameter)
    (hcount : src.natLE (r + 2) 2 = .ok count) (hflags : src.natLE (r + 4) 2 = .ok flags)
    (hflag : flags.testBit 2 = prompt.isSome) (hword : CountedWordAt src count (r + 6) q) :
    InputOriginAt v src names p q (.keyboard prompt (flags.testBit 1) (flags.testBit 0))

/-- From `p` to `q` a file has the instructions of a list. A list that begins with its first item has
one. -/
inductive ItemListAt (v : Version) (src : Source) (names : Nat → Except Fault Identifier) (p : Nat) :
    (q : Nat) → ItemList → Prop where
  | caseOf {q : Nat} {options : List CaseOption}
    (h : SequenceAt (CaseOptionAt v src names) p q options) (hne : options ≠ []) :
    ItemListAt v src names p q (.caseOf options)
  | read {q : Nat} {targets : List Expr} (h : SequenceAt (OperandAt v src names 0x00E2) p q targets)
    (hne : targets ≠ []) : ItemListAt v src names p q (.read targets)
  | next {q : Nat} {counters : List Expr} (h : SequenceAt (CounterAt v src names) p q counters)
    (hne : counters ≠ []) : ItemListAt v src names p q (.next counters)
  | erase {q : Nat} {arrays : List Expr} (hv : v.atLeast .qb70 = true)
    (h : SequenceAt (OperandAt v src names 0x00AC) p q arrays) (hne : arrays ≠ []) :
    ItemListAt v src names p q (.erase arrays)
  | const {q parameter : Nat} {constants : List NamedConstant}
    (h : InstructionAt v src p 0x0023 parameter)
    (hconstants : SequenceAt (ConstantAt v src names) (p + 2) q constants) :
    ItemListAt v src names p q (.const constants)
  | field {q r : Nat} {file : Expr} {parts : List (Expr × Expr)}
    (hfile : OperandAt v src names 0x0085 p r file)
    (hparts : SequenceAt (FieldPartAt v src names) r q parts) :
    ItemListAt v src names p q (.field file parts)
  | input {q r parameter : Nat} {origin : InputOrigin} {targets : List Expr}
    (horigin : InputOriginAt v src names p r origin)
    (htargets : SequenceAt (OperandAt v src names 0x00B6) r q targets)
    (hend : InstructionAt v src q 0x0088 parameter) :
    ItemListAt v src names p (q + 2) (.input origin targets)

/-! ## One item after another -/

/-- The workspace with a statement and nothing else. -/
def Decode.Workspace.lone (st : Statement) : Workspace :=
  ⟨st, [], .none⟩

section Sequences

variable {α : Type} {At : Nat → Nat → α → Prop} {xs : List α} (make : List α → Statement)

/-- Where each item is added behind those that are there, all of them are. -/
theorem SequenceAt.carries_items (h : SequenceAt At p q xs)
    (hitem : ∀ {p q : Nat} {x : α} (done : List α), At p q x →
      Carries v src names p q (.lone (make done)) (.lone (make (done ++ [x]))))
    (done : List α) : Carries v src names p q (.lone (make done)) (.lone (make (done ++ xs))) := by
  have hstep : ∀ {p q : Nat} {x : α} {done : List α} {a : Workspace}, At p q x →
      a = .lone (make done) → ∃ b, b = .lone (make (done ++ [x])) ∧ Carries v src names p q a b := by
    rintro p q x done _ hx rfl
    exact ⟨_, rfl, hitem done hx⟩
  obtain ⟨_, rfl, hcarries⟩ := h.carries (fun done a => a = .lone (make done)) hstep rfl
  exact hcarries

/-- Where each item is added to a statement of its kind, and to a new one if there is none, the first
one begins a list and the others go on with it. -/
theorem SequenceAt.carries_list (isKind : Statement → Bool) (h : SequenceAt At p q xs) (hne : xs ≠ [])
    (hkind : ∀ done, isKind (make done) = true) (hempty : isKind .empty = false)
    (hitem : ∀ {p q : Nat} {x : α} {st : Statement} (done : List α), At p q x →
      Continues isKind (make []) st (make done) →
      Carries v src names p q (.lone st) (.lone (make (done ++ [x])))) :
    Carries v src names p q .fresh (.lone (make xs)) := by
  cases h with
  | nil => exact absurd rfl hne
  | cons hx hxs =>
    have hfirst := hitem [] hx (.placed hempty rfl)
    exact hfirst.trans (hxs.carries_items make (fun done hx => hitem done hx (.same (hkind done))) [_])

end Sequences

/-! ## What one item does -/

section Items

variable {st : Statement}

theorem OperandAt.carries {code : Nat} {handler : Handler} {e : Expr} {st' : Statement}
    (h : OperandAt v src names code p q e) (hlookup : table.lookup code = some handler)
    (hturns : ∀ r parameter, Turns src names (handler v parameter) r r (.ok ()) ⟨st, [e], .none⟩
      (.lone st')) : Carries v src names p q (.lone st) (.lone st') := by
  cases h with
  | intro he h => exact h.takes he hlookup (hturns _ _)

theorem lookup_caseCompare {code : Nat} {operator : String} (h : (code, operator) ∈ caseComparisons) :
    table.lookup code = some (caseCompare operator) := by
  simp only [caseComparisons, List.mem_cons, List.not_mem_nil, or_false, Prod.mk.injEq] at h
  obtain ⟨rfl, rfl⟩ | ⟨rfl, rfl⟩ | ⟨rfl, rfl⟩ | ⟨rfl, rfl⟩ | ⟨rfl, rfl⟩ | ⟨rfl, rfl⟩ := h <;> rfl

theorem turns_caseOption {done : List CaseOption} (option : CaseOption)
    (h : Continues isCase (.caseOf []) st (.caseOf done)) :
    Turns src names (caseOption (.ok option)) p p (.ok ()) (.lone st)
      (.lone (.caseOf (done ++ [option]))) :=
  (turns_continueWith h).bind (turns_lastStatement.bind
    ((turns_given (.ok option)).bind (turns_amend rfl)))

theorem CaseOptionAt.carries {option : CaseOption} {done : List CaseOption}
    (hoption : CaseOptionAt v src names p q option)
    (h : Continues isCase (.caseOf []) st (.caseOf done)) :
    Carries v src names p q (.lone st) (.lone (.caseOf (done ++ [option]))) := by
  cases hoption with
  | value he hcode =>
    exact hcode.takes he rfl ((turns_pop _).bind (turns_caseOption _ h))
  | range hends hcode =>
    exact hcode.takes hends rfl ((turns_popMany [_, _]).bind (turns_caseOption _ h))
  | compare he hoperator hcode =>
    exact hcode.takes he (lookup_caseCompare hoperator) ((turns_pop _).bind (turns_caseOption _ h))

theorem CounterAt.carries {counter : Expr} {done : List Expr}
    (hcounter : CounterAt v src names p q counter)
    (h : Continues isNext (.next (some [])) st (.next (some done))) :
    Carries v src names p q (.lone st) (.lone (.next (some (done ++ [counter])))) := by
  cases hcounter with
  | intro he hcode hword hword' =>
    exact hcode.takes he rfl ((turns_pop _).bind ((turns_continueWith h).bind
      ((turns_amend (by rfl)).bind ((turns_word hword).bind ((turns_word hword').bind
        (turns_pure ()))))))

theorem turns_eraseArrays {array : Expr} {done : List Expr} (hv : v.atLeast .qb70 = true)
    (h : Continues isErase (.erase []) st (.erase done)) :
    Turns src names (eraseArrays v) p p (.ok ()) ⟨st, [array], .none⟩
      (.lone (.erase (done ++ [array]))) := by
  rw [eraseArrays, if_pos hv]
  exact (turns_pop array).bind ((turns_continueWith h).bind (turns_amend rfl))

/-- Behind `CONST`, an assignment is one more constant. -/
theorem turns_transfer_const (items : List Transfer) (t : Transfer) :
    Turns src names (transfer t) p p (.ok ()) (.lone (.const items)) (.lone (.const (items ++ [t]))) := by
  rw [Composed.transfer_eq]
  exact turns_lastStatement.bind (turns_amend rfl)

theorem ConstantAt.carries {c : NamedConstant} (h : ConstantAt v src names p q c)
    (items : List Transfer) :
    Carries v src names p q (.lone (.const items)) (.lone (.const (items ++ [c.assignment]))) := by
  cases h with
  | intro hvalue h hname hsrc =>
    exact h.takes hvalue rfl
      ((turns_identifierOf hname hsrc).bind ((turns_pop _).bind (turns_transfer_const items _)))

theorem FieldPartAt.carries {part : Expr × Expr} (h : FieldPartAt v src names p q part) (file : Expr)
    (parts : List (Expr × Expr)) :
    Carries v src names p q (.lone (.field file parts)) (.lone (.field file (parts ++ [part]))) := by
  cases h with
  | intro hpart h =>
    exact h.takes hpart rfl ((turns_popMany [part.1, part.2]).bind
      ((turns_require rfl).bind (turns_amend rfl)))

theorem turns_inputHead {count flags : Nat} {prompt : Option Expr} (hcount : src.natLE p 2 = .ok count)
    (hflags : src.natLE (p + 2) 2 = .ok flags) (hflag : flags.testBit 2 = prompt.isSome)
    (hword : CountedWordAt src count (p + 4) q) :
    Turns src names inputHead p q (.ok ()) ⟨.empty, prompt.toList ++ [], .none⟩
      (.lone (.input (InputOrigin.start (.keyboard prompt (flags.testBit 1) (flags.testBit 0))))) := by
  refine (turns_word hcount).bind ((turns_word hflags).bind ?_)
  rw [hflag]
  refine turns_popOptional ?_
  dsimp only
  cases hword with
  | missing hle =>
    rw [if_neg (Nat.not_lt.mpr hle)]
    exact turns_put rfl
  | given hlt hword =>
    rw [if_pos hlt]
    exact (turns_skipWord hword).bind (turns_put rfl)

theorem InputOriginAt.carries {origin : InputOrigin} (h : InputOriginAt v src names p q origin) :
    Carries v src names p q .fresh (.lone (.input origin.start)) := by
  cases h with
  | file hnumber h =>
    exact h.takes hnumber rfl ((turns_pop _).bind (turns_put rfl))
  | @keyboard _ r _ count flags prompt hprompt h hcount hflags hflag hword =>
    have hreverse : prompt.toList.reverse = prompt.toList := by
      cases prompt <;> rfl
    refine h.takes hprompt rfl ?_
    rw [hreverse]
    exact turns_inputHead hcount hflags hflag hword

/-- Behind the head of an `INPUT`, an operand is one more variable. -/
theorem OperandAt.carries_input {target : Expr} (h : OperandAt v src names 0x00B6 p q target)
    (i : Input) :
    Carries v src names p q (.lone (.input i)) (.lone (.input { i with args := i.args ++ [target] })) :=
  h.carries rfl fun _ _ => (turns_pop target).bind ((turns_require rfl).bind (turns_amend rfl))

end Items

/-! ## Lists on a line -/

theorem ItemListAt.carries {list : ItemList} (h : ItemListAt v src names p q list) :
    Carries v src names p q .fresh (.lone list.statement) := by
  cases h with
  | caseOf h hne =>
    exact h.carries_list .caseOf isCase hne (fun _ => rfl) rfl fun done hx hst => hx.carries hst
  | read h hne =>
    refine h.carries_list .read isRead hne (fun _ => rfl) rfl fun done hx hst => ?_
    exact hx.carries rfl fun _ _ =>
      (turns_pop _).bind ((turns_continueWith hst).bind (turns_amend rfl))
  | next h hne =>
    exact h.carries_list (fun counters => .next (some counters)) isNext hne (fun _ => rfl) rfl
      fun done hx hst => hx.carries hst
  | erase hv h hne =>
    refine h.carries_list .erase isErase hne (fun _ => rfl) rfl fun done hx hst => ?_
    exact hx.carries rfl fun _ _ => turns_eraseArrays hv hst
  | const h hconstants =>
    refine (h.carries rfl (turns_put rfl)).trans (hconstants.carries_items
      (fun constants => .const (constants.map NamedConstant.assignment)) (fun done hx => ?_) [])
    rw [List.map_append]
    exact hx.carries (done.map NamedConstant.assignment)
  | @field _ _ file parts hfile hparts =>
    refine Carries.trans ?_ (hparts.carries_items (.field file) (fun done hx => hx.carries file done) [])
    exact hfile.carries rfl fun _ _ => (turns_pop file).bind (turns_put rfl)
  | @input _ _ _ origin targets horigin htargets hend =>
    have hall := htargets.carries_items (fun args => .input { origin.start with args := args })
      (fun done hx => hx.carries_input { origin.start with args := done }) origin.start.args
    exact (horigin.carries.trans hall).trans
      (hend.carries rfl ((turns_require rfl).bind (turns_amend rfl)))

/-- **Statements that are lists.** Let a new line have the instructions of a `CASE`, `READ`, `NEXT`,
`CONST`, `FIELD`, `INPUT` or, from version 7.0 on, `ERASE`, with any number of items. Decoding succeeds
and leaves nothing on the stack, and the line has one statement and no other: that of the instructions,
with exactly these items in their order. -/
theorem itemList_on_line {s : State} {pos indent : Nat} {label : Option Identifier} {list : ItemList}
    (hline : LineAt v src (s.identifierAt src) pos p label indent)
    (h : ItemListAt v src (s.identifierAt src) p q list) :
    ∃ t l, (instructions v q).run src pos s = (.ok (), q, t) ∧ t.stack = [] ∧
      t.program.current.lines = l :: s.program.current.lines ∧ l.statements = [list.statement] := by
  obtain ⟨t, hrun, hstack, hlines⟩ := h.carries.adds_line hline
  exact ⟨t, _, hrun, hstack, hlines, rfl⟩

/-- The variable `A` stands at a position, and the instruction that takes it behind it. -/
theorem operandAt_A {code : Nat} (hv : v ≠ .qb40) (hA : names 0 = .ok nameA)
    (hpush : src.Holds p (Assembly.codeBytes [⟨0x000B, 0, [.word 0]⟩]))
    (h : InstructionAt v src (p + 4) code 0) : OperandAt v src names code p (p + 6) (.var nameA) :=
  .intro ((Postfix.cons .nil (.var (.plain (by decide) rfl hA)) .nil).pushed hv hpush) h

/-- A line with a `CASE` that has a value, a range and a comparison. -/
def caseFile : Source :=
  lineFile [0x64, 0x05, 0x3B, 0x00, 0x64, 0x09, 0x64, 0x0D, 0x3C, 0x00, 0x64, 0x11, 0x3E, 0x00]

/-- A line that reads two variables from a file. -/
def inputFile : Source :=
  lineFile [0x64, 0x05, 0x8A, 0x00, 0x87, 0x00, 0x0B, 0x00, 0x00, 0x00, 0xB6, 0x00, 0x0B, 0x00, 0x00,
    0x00, 0xB6, 0x00, 0x88, 0x00]

/-- A line of version 7.0 that erases two arrays. -/
def eraseFile : Source :=
  laterFile [0x00, 0x00, 0x0B, 0x00, 0x00, 0x00, 0xAC, 0x00, 0x0B, 0x00, 0x00, 0x00, 0xAC, 0x00]

theorem itemLists_decoded :
    (∃ t l, (instructions .qb45 0x32).run caseFile 0x22 (.start .qb45) = (.ok (), 0x32, t) ∧
      t.stack = [] ∧ t.program.current.lines = [l] ∧ l.statements = [.caseOf
        [.value (.number 1), .range (.number 2) (.number 3), .compare "<" (.number 4)]]) ∧
    (∃ t l, (instructions .qb45 0x38).run inputFile 0x22 (.start .qb45) = (.ok (), 0x38, t) ∧
      t.stack = [] ∧ t.program.current.lines = [l] ∧ l.statements = [.input
        ⟨some .input, .omitted, false, false, [.fileNumber (.number 1), .var nameA, .var nameA]⟩]) ∧
    ∃ t l, (instructions .qb70 0x31).run eraseFile 0x23 (.start .qb70) = (.ok (), 0x31, t) ∧
      t.stack = [] ∧ t.program.current.lines = [l] ∧
      l.statements = [.erase [.var nameA, .var nameA]] := by
  refine ⟨?_, ?_, ?_⟩
  · have hcase : ItemListAt .qb45 caseFile ((State.start .qb45).identifierAt caseFile) 0x24 0x32
        (.caseOf [.value (.number 1), .range (.number 2) (.number 3), .compare "<" (.number 4)]) :=
      .caseOf (.cons (.value (pushed_small (by decide) ⟨_, rfl⟩) ⟨_, rfl, rfl⟩)
        (.cons (.range ((pushed_small (by decide) ⟨_, rfl⟩).append (pushed_small (by decide) ⟨_, rfl⟩))
          ⟨_, rfl, rfl⟩)
        (.cons (.compare (pushed_small (by decide) ⟨_, rfl⟩) (by decide) ⟨_, rfl, rfl⟩) .nil)))
        (by simp)
    exact itemList_on_line (.plain ⟨_, rfl, rfl⟩) hcase
  · have hinput : ItemListAt .qb45 inputFile ((State.start .qb45).identifierAt inputFile) 0x24 0x38
        (.input (.file (.fileNumber (.number 1))) [.var nameA, .var nameA]) :=
      .input (.file ((pushed_small (by decide) ⟨_, rfl⟩).fileNumber ⟨_, rfl, rfl⟩) ⟨_, rfl, rfl⟩)
        (.cons (operandAt_A (by decide) rfl ⟨_, rfl⟩ ⟨_, rfl, rfl⟩)
          (.cons (operandAt_A (by decide) rfl ⟨_, rfl⟩ ⟨_, rfl, rfl⟩) .nil)) ⟨_, rfl, rfl⟩
    exact itemList_on_line (.plain ⟨_, rfl, rfl⟩) hinput
  · have herase : ItemListAt .qb70 eraseFile ((State.start .qb70).identifierAt eraseFile) 0x25 0x31
        (.erase [.var nameA, .var nameA]) :=
      .erase rfl (.cons (operandAt_A (by decide) rfl ⟨_, rfl⟩ ⟨_, rfl, rfl⟩)
        (.cons (operandAt_A (by decide) rfl ⟨_, rfl⟩ ⟨_, rfl, rfl⟩) .nil)) (by simp)
    exact itemList_on_line (.plain ⟨_, rfl, rfl⟩) herase

end SavedBasic
