import SavedBasic.Proofs.Conditionals
import SavedBasic.Proofs.NamedOperands

/-!
# What the instructions of a statement work on

The instructions of one statement work on the statement at the end of the line, on the operands on the
stack and on those under a name. These three are a workspace. `Turns` says of an action that it turns
one workspace into another, with the value or the fault that it gives, in every state that has the
first one; of such a state nothing else changes but for names that have been looked up, which stay
what they were. There is one rule for each way of putting actions together and one for each action
that instructions are made of.

`Carries` says the same of a stretch of a file. Behind the instruction of a line, a stretch that
carries the workspace of a new line to another one adds one line, and the statement of that workspace
is all that stands on it.
-/

namespace SavedBasic

open Decode Instruction

namespace Decode

variable {α β : Type}

/-- What the instructions of a statement work on. -/
structure Workspace where
  /-- the statement at the end of the line -/
  statement : Statement
  /-- the operands on the stack, the topmost first -/
  stack : List Expr
  /-- the operands under a name -/
  arguments : Arguments

/-- The workspace on a new line. -/
def Workspace.fresh : Workspace :=
  ⟨.empty, [], .none⟩

/-- A state has a workspace. -/
structure State.Has (s : State) (a : Workspace) : Prop where
  last : s.last? = some a.statement
  stack : s.stack = a.stack
  arguments : s.arguments = a.arguments

/-- The state with another workspace, when names have been looked up. -/
def State.turned (s : State) (a : Workspace) (symbols : SymbolTable) : State :=
  { s.setLast a.statement with stack := a.stack, arguments := a.arguments, symbols := symbols }

theorem setLast_of_last? {s : State} {st : Statement} (h : s.last? = some st) : s.setLast st = s := by
  rcases hlines : s.program.current.lines with _ | ⟨l, rest⟩
  · exact absurd hlines (lines_ne_nil_of_last? h)
  · rw [State.last?, hlines] at h
    cases h
    rw [State.setLast, hlines, List.modifyHead_cons]
    change { s with program := { s.program with current :=
      { s.program.current with lines := l :: rest } } } = s
    rw [← hlines]

variable {s : State} {a b c : Workspace}

theorem State.Has.turned (h : s.Has a) (b : Workspace) (symbols : SymbolTable) :
    (s.turned b symbols).Has b :=
  ⟨last?_setLast b.statement h.last, rfl, rfl⟩

theorem State.turned_turned (s : State) (b c : Workspace) (symbols symbols' : SymbolTable) :
    (s.turned b symbols).turned c symbols' = s.turned c symbols' :=
  congrArg (fun t : State =>
    { t with stack := c.stack, arguments := c.arguments, symbols := symbols' })
    (setLast_setLast s b.statement c.statement)

/-- A state that has a workspace already differs in the names only that have been looked up. -/
theorem State.Has.turned_self (h : s.Has a) (symbols : SymbolTable) :
    s.turned a symbols = { s with symbols := symbols } := by
  rw [State.turned, setLast_of_last? h.last, ← h.stack, ← h.arguments]

/-- Another statement alone makes another workspace. -/
theorem State.Has.turned_statement (h : s.Has a) (st : Statement) :
    s.turned ⟨st, a.stack, a.arguments⟩ s.symbols = s.setLast st := by
  rw [State.turned, ← h.stack, ← h.arguments]
  rfl

/-! ## Actions on a workspace -/

/-- An action between two positions turns one workspace into another and gives a value or a fault. -/
def Turns (src : Source) (names : Nat → Except Fault Identifier) (m : Decode α) (p q : Nat)
    (r : Except Fault α) (a b : Workspace) : Prop :=
  ∀ s : State, s.identifierAt src = names → s.Has a → ∃ symbols,
    m.run src p s = (r, q, s.turned b symbols) ∧ (s.turned b symbols).identifierAt src = names

variable {src : Source} {names : Nat → Except Fault Identifier} {p q : Nat}

theorem Turns.bind {m : Decode α} {f : α → Decode β} {p₁ : Nat} {x : α} {r : Except Fault β}
    (hm : Turns src names m p p₁ (.ok x) a b) (hf : Turns src names (f x) p₁ q r b c) :
    Turns src names (m >>= f) p q r a c := by
  intro s hnames ha
  obtain ⟨symbols, hrun, hnames'⟩ := hm s hnames ha
  obtain ⟨symbols', hrun', hnames''⟩ := hf _ hnames' (ha.turned b symbols)
  rw [State.turned_turned] at hrun' hnames''
  exact ⟨symbols', by rw [run_bind_ok hrun, hrun'], hnames''⟩

theorem Turns.bind_error {m : Decode α} {f : α → Decode β} {fault : Fault}
    (hm : Turns src names m p q (.error fault) a b) :
    Turns src names (m >>= f) p q (.error fault) a b := by
  intro s hnames ha
  obtain ⟨symbols, hrun, hnames'⟩ := hm s hnames ha
  exact ⟨symbols, run_bind_error hrun, hnames'⟩

/-- What looks up no name leaves the names alone. -/
theorem turns_of_run {m : Decode α} {r : Except Fault α}
    (h : ∀ s : State, s.Has a → m.run src p s = (r, q, s.turned b s.symbols)) :
    Turns src names m p q r a b := by
  intro s hnames ha
  exact ⟨s.symbols, h s ha, hnames⟩

/-- What changes nothing leaves the workspace alone. -/
theorem turns_of_run_self {m : Decode α} {r : Except Fault α}
    (h : ∀ s : State, s.Has a → m.run src p s = (r, q, s)) : Turns src names m p q r a a := by
  refine turns_of_run fun s ha => ?_
  rw [h s ha, ha.turned_self]

theorem turns_pure (x : α) : Turns src names (pure x) p p (.ok x) a a :=
  turns_of_run_self fun s _ => run_pure x src p s

theorem turns_throw (fault : Fault) :
    Turns src names (throw fault : Decode α) p p (.error fault) a a :=
  turns_of_run_self fun s _ => run_throw fault src p s

theorem turns_given (r : Except Fault α) : Turns src names (given r) p p r a a :=
  turns_of_run_self fun s _ => run_given r src p s

theorem turns_word {n : Nat} (h : src.natLE p 2 = .ok n) :
    Turns src names word p (p + 2) (.ok n) a a :=
  turns_of_run_self fun s _ => run_word_ok h s

theorem turns_skipWord {ignored : Nat} (h : src.natLE p 2 = .ok ignored) :
    Turns src names (skipWords 1) p (p + 2) (.ok ()) a a :=
  turns_of_run_self fun s _ => run_skipWord h s

theorem turns_bytes {text : Bytes} (h : src.Holds p text) :
    Turns src names (bytes text.length) p (p + text.length) (.ok text) a a :=
  turns_of_run_self fun s _ => run_bytes_holds h s

/-! ### Names -/

theorem turns_identifierAt {offset : Nat} {id : Identifier} (hid : names offset = .ok id) :
    Turns src names (identifierAt offset) p p (.ok id) a a := by
  intro s hnames ha
  subst hnames
  refine ⟨(s.noting src offset).symbols, ?_⟩
  rw [run_identifierAt, hid, ha.turned_self, ← State.noting_eq]
  exact ⟨rfl, identifierAt_congr (State.nameAt_noting src s offset)⟩

theorem turns_identifier {offset : Nat} {id : Identifier} (hoffset : src.natLE p 2 = .ok offset)
    (hid : names offset = .ok id) : Turns src names identifier p (p + 2) (.ok id) a a :=
  (turns_word hoffset).bind (turns_identifierAt hid)

theorem turns_identifierOf {v : Version} {type offset : Nat} {id : Identifier}
    (hid : Named v names type offset id) (hsrc : src.Holds p (Bytes.u16 offset)) :
    Turns src names (identifierOf v type) p (p + 2) (.ok id) a a := by
  intro s hnames ha
  subst hnames
  refine ⟨(s.noting src offset).symbols, ?_⟩
  rw [hid.run_identifierOf hsrc, ha.turned_self, ← State.noting_eq]
  exact ⟨rfl, identifierAt_congr (State.nameAt_noting src s offset)⟩

/-! ### Operands -/

section Operands

variable {st : Statement} {below : List Expr} {arguments : Arguments}

theorem turns_push (e : Expr) :
    Turns src names (push e) p p (.ok ()) ⟨st, below, arguments⟩ ⟨st, e :: below, arguments⟩ := by
  refine turns_of_run fun s ha => ?_
  rw [run_push, State.turned, setLast_of_last? ha.last, ha.stack, ← ha.arguments]

theorem turns_pop (e : Expr) :
    Turns src names pop p p (.ok e) ⟨st, e :: below, arguments⟩ ⟨st, below, arguments⟩ := by
  refine turns_of_run fun s ha => ?_
  rw [run_pop_operand ha.stack, State.turned, setLast_of_last? ha.last, ← ha.arguments]

/-- An operand that may be left out is popped if it is there. -/
theorem turns_popOptional {operand : Option Expr} {k : Expr → Decode Unit} {r : Except Fault Unit}
    (h : Turns src names (k (operand.getD .omitted)) p q r ⟨st, below, arguments⟩ b) :
    Turns src names (if operand.isSome then pop >>= k else pure .omitted >>= k) p q r
      ⟨st, operand.toList ++ below, arguments⟩ b := by
  cases operand with
  | none => exact (turns_pure _).bind h
  | some e => exact (turns_pop e).bind h

theorem turns_pop_nil :
    Turns src names pop p p (.error .emptyStack) ⟨st, [], arguments⟩ ⟨st, [], arguments⟩ := by
  refine turns_of_run_self fun s ha => ?_
  rw [run_pop, ha.stack]

theorem turns_popMany (es : List Expr) :
    Turns src names (popMany es.length) p p (.ok es) ⟨st, es.reverse ++ below, arguments⟩
      ⟨st, below, arguments⟩ := by
  refine turns_of_run fun s ha => ?_
  rw [run_popMany_operands ha.stack, State.turned, setLast_of_last? ha.last, ← ha.arguments]

theorem turns_arguments :
    Turns src names Decode.arguments p p (.ok arguments) ⟨st, below, arguments⟩
      ⟨st, below, arguments⟩ := by
  refine turns_of_run_self fun s ha => ?_
  rw [run_arguments, ha.arguments]

theorem turns_setArgument {isGiven : Arguments → Bool} (set : Arguments → Arguments)
    (h : isGiven arguments = false) :
    Turns src names (setArgument isGiven set) p p (.ok ()) ⟨st, below, arguments⟩
      ⟨st, below, set arguments⟩ := by
  refine turns_of_run fun s ha => ?_
  rw [run_setArgument, ha.arguments, h, if_neg (by decide), State.turned, setLast_of_last? ha.last,
    ← ha.stack]

end Operands

/-! ### The statement at the end of the line -/

section Statements

variable {st st' : Statement} {stack : List Expr} {arguments : Arguments}

theorem turns_put {new : Statement} (h : st.place new = .placed st') :
    Turns src names (put new) p p (.ok ()) ⟨st, stack, arguments⟩ ⟨st', stack, arguments⟩ := by
  refine turns_of_run fun s ha => ?_
  rw [run_put_placed ha.last h, ← ha.turned_statement]

theorem turns_lastStatement :
    Turns src names lastStatement p p (.ok st) ⟨st, stack, arguments⟩ ⟨st, stack, arguments⟩ := by
  refine turns_of_run_self fun s ha => ?_
  rw [run_lastStatement, ha.last]

theorem turns_amend {f : Statement → Option Statement} (h : f st = some st') :
    Turns src names (amend f) p p (.ok ()) ⟨st, stack, arguments⟩ ⟨st', stack, arguments⟩ := by
  refine turns_of_run fun s ha => ?_
  rw [amend_eq, run_bind, run_lastStatement, ha.last]
  dsimp only
  rw [h]
  exact congrArg (fun t => (Except.ok (), p, t)) (ha.turned_statement st').symm

theorem turns_require {isKind : Statement → Bool} (h : isKind st = true) :
    Turns src names (require isKind) p p (.ok ()) ⟨st, stack, arguments⟩ ⟨st, stack, arguments⟩ := by
  refine turns_lastStatement.bind ?_
  rw [h]
  exact turns_pure ()

/-- A statement of the right kind is gone on with; otherwise a new one is put. -/
inductive Continues (isKind : Statement → Bool) (new : Statement) : Statement → Statement → Prop where
  | same {st : Statement} (h : isKind st = true) : Continues isKind new st st
  | placed {st st' : Statement} (h : isKind st = false) (hplace : st.place new = .placed st') :
    Continues isKind new st st'

theorem turns_continueWith {isKind : Statement → Bool} {new : Statement}
    (h : Continues isKind new st st') :
    Turns src names (continueWith isKind new) p p (.ok ()) ⟨st, stack, arguments⟩
      ⟨st', stack, arguments⟩ := by
  refine turns_lastStatement.bind ?_
  cases h with
  | same h =>
    rw [h]
    exact turns_pure ()
  | placed h hplace =>
    rw [h]
    exact turns_put hplace

end Statements

end Decode

/-! ## Stretches of a file -/

variable {v : Version} {src : Source} {names : Nat → Except Fault Identifier} {p q : Nat}
  {a b c : Workspace}

/-- From `p` to `q` a file has instructions that carry one workspace to another. -/
def Carries (v : Version) (src : Source) (names : Nat → Except Fault Identifier) (p q : Nat)
    (a b : Workspace) : Prop :=
  ∀ s : State, s.identifierAt src = names → s.Has a → ∃ symbols,
    Proceeds v src (p, s) (q, s.turned b symbols)

theorem Carries.refl : Carries v src names p p a a := by
  intro s _ ha
  refine ⟨s.symbols, ?_⟩
  rw [ha.turned_self]
  exact .refl

theorem Carries.trans {r : Nat} (h : Carries v src names p q a b) (h' : Carries v src names q r b c) :
    Carries v src names p r a c := by
  intro s hnames ha
  obtain ⟨symbols, hab⟩ := h s hnames ha
  obtain ⟨symbols', hbc⟩ := h' _ (hab.identifierAt_eq.trans hnames) (ha.turned b symbols)
  rw [State.turned_turned] at hbc
  exact ⟨symbols', hab.trans hbc⟩

/-- Expressions that are pushed come to lie on the stack. -/
theorem Pushed.carries {es : List Expr} (h : Pushed v src names p q es) (st : Statement)
    (below : List Expr) (arguments : Arguments) :
    Carries v src names p q ⟨st, below, arguments⟩ ⟨st, es.reverse ++ below, arguments⟩ := by
  intro s hnames ha
  obtain ⟨symbols, hpush⟩ := h s hnames
  refine ⟨symbols, ?_⟩
  rw [ha.stack] at hpush
  rwa [State.turned, setLast_of_last? ha.last, ← ha.arguments]

theorem Pushed.nil : Pushed v src names p p [] := by
  intro s _
  exact ⟨s.symbols, .refl⟩

theorem Pushed.append {r : Nat} {es fs : List Expr} (h : Pushed v src names p q es)
    (h' : Pushed v src names q r fs) : Pushed v src names p r (es ++ fs) := by
  intro s hnames
  obtain ⟨symbols, hes⟩ := h s hnames
  obtain ⟨symbols', hfs⟩ := h' _ (hes.identifierAt_eq.trans hnames)
  refine ⟨symbols', ?_⟩
  rw [List.reverse_append, List.append_assoc]
  exact hes.trans hfs

theorem Pushed.fileNumber {parameter : Nat} {e : Expr} (h : Pushed v src names p q [e])
    (hcode : InstructionAt v src q 0x008A parameter) :
    Pushed v src names p (q + 2) [.fileNumber e] := by
  intro s hnames
  obtain ⟨symbols, hpush⟩ := h s hnames
  exact ⟨symbols, hpush.step ((hcode.run_step rfl _).trans rfl)⟩

theorem pushed_number (hv : v ≠ .qb40) {n : Nat} (hn : n < 64)
    (hsrc : src.Holds p (Assembly.codeBytes [⟨0x0164, n, []⟩])) :
    Pushed v src names p (p + 2) [.number n] :=
  (Postfix.cons .nil (.small hn) .nil).pushed hv hsrc

theorem pushed_small {n : Nat} (hn : n < 64)
    (hsrc : src.Holds p (Assembly.codeBytes [⟨0x0164, n, []⟩])) :
    Pushed .qb45 src names p (p + 2) [.number n] :=
  pushed_number (by decide) hn hsrc

/-- An instruction that does nothing else pushes its operand. -/
theorem InstructionAt.pushed {code parameter : Nat} {e : Expr}
    (h : InstructionAt v src p code parameter)
    (hlookup : table.lookup code = some (always (push e))) : Pushed v src names p (p + 2) [e] := by
  intro s _
  exact ⟨s.symbols, .step .refl ((h.run_step hlookup s).trans rfl)⟩

/-- An instruction carries what its handler turns. -/
theorem InstructionAt.carries {code parameter : Nat} {handler : Handler}
    (h : InstructionAt v src p code parameter) (hlookup : table.lookup code = some handler)
    (hturns : Turns src names (handler v parameter) (p + 2) q (.ok ()) a b) :
    Carries v src names p q a b := by
  intro s hnames ha
  obtain ⟨symbols, hrun, -⟩ := hturns s hnames ha
  exact ⟨symbols, .step .refl ((h.run_step hlookup s).trans hrun)⟩

/-- An instruction behind operands carries what its handler turns once they lie on the stack. -/
theorem InstructionAt.takes {r code parameter : Nat} {handler : Handler} {es below : List Expr}
    {st : Statement} {arguments : Arguments} (h : InstructionAt v src r code parameter)
    (hes : Pushed v src names p r es) (hlookup : table.lookup code = some handler)
    (hturns : Turns src names (handler v parameter) (r + 2) q (.ok ())
      ⟨st, es.reverse ++ below, arguments⟩ b) :
    Carries v src names p q ⟨st, below, arguments⟩ b :=
  (hes.carries st below arguments).trans (h.carries hlookup hturns)

/-- From `p` to `q` a file has what stands for each of a list of things, one behind the other. -/
inductive SequenceAt {α : Type} (At : Nat → Nat → α → Prop) : Nat → Nat → List α → Prop where
  | nil {p : Nat} : SequenceAt At p p []
  | cons {p q r : Nat} {x : α} {xs : List α} (hx : At p q x) (hxs : SequenceAt At q r xs) :
    SequenceAt At p r (x :: xs)

/-- What each of a list of things pushes, all of them push. -/
theorem SequenceAt.pushed {α : Type} {At : Nat → Nat → α → Prop} {operands : α → List Expr}
    {xs : List α} (h : SequenceAt At p q xs)
    (hone : ∀ {p q : Nat} {x : α}, At p q x → Pushed v src names p q (operands x)) :
    Pushed v src names p q (xs.flatMap operands) := by
  induction h with
  | nil => exact .nil
  | cons hx _ ih => exact (hone hx).append ih

/-- What each of a list of things does to a workspace, all of them do. -/
theorem SequenceAt.carries {α : Type} {At : Nat → Nat → α → Prop} (Holds : List α → Workspace → Prop)
    (hstep : ∀ {p q : Nat} {x : α} {done : List α} {a : Workspace}, At p q x → Holds done a →
      ∃ b, Holds (done ++ [x]) b ∧ Carries v src names p q a b)
    {xs done : List α} (h : SequenceAt At p q xs) (ha : Holds done a) :
    ∃ b, Holds (done ++ xs) b ∧ Carries v src names p q a b := by
  induction h generalizing done a with
  | nil => exact ⟨a, by rwa [List.append_nil], .refl⟩
  | @cons p q r x xs hx _ ih =>
    obtain ⟨b, hb, hab⟩ := hstep hx ha
    obtain ⟨c, hc, hbc⟩ := ih hb
    exact ⟨c, by rwa [List.append_cons], hab.trans hbc⟩

/-! ## New lines -/

/-- At `p` a file has the instruction of a line with a label and an indentation; `q` is the position
behind it. -/
inductive LineAt (v : Version) (src : Source) (names : Nat → Except Fault Identifier) (p : Nat) :
    (q : Nat) → (label : Option Identifier) → (indent : Nat) → Prop where
  | plain {indent : Nat} (h : InstructionAt v src p 0x0000 indent) :
    LineAt v src names p (p + 2) none indent
  | labelled {parameter ignored offset : Nat} {id : Identifier}
    (h : InstructionAt v src p 0x0004 parameter) (hword : src.natLE (p + 2) 2 = .ok ignored)
    (hoffset : src.natLE (p + 4) 2 = .ok offset) (hid : names offset = .ok id) :
    LineAt v src names p (p + 6) (some id) 0
  | indented {parameter ignored offset indent : Nat} {id : Identifier}
    (h : InstructionAt v src p 0x0005 parameter) (hword : src.natLE (p + 2) 2 = .ok ignored)
    (hoffset : src.natLE (p + 4) 2 = .ok offset) (hid : names offset = .ok id)
    (hindent : src.natLE (p + 6) 2 = .ok indent) :
    LineAt v src names p (p + 8) (some id) indent

/-- The state in which all operands have been forgotten. -/
def Decode.State.cleared (s : State) : State :=
  { s with stack := [], arguments := .none }

/-- What a state is like in which an empty line has been added. -/
def StartsLine (src : Source) (s : State) (label : Option Identifier) (indent : Nat) (t : State) :
    Prop :=
  t.Has .fresh ∧ t.identifierAt src = s.identifierAt src ∧
    t.program.current.lines = Line.start label indent :: s.program.current.lines

/-- A line is started once its label and its indentation have been read. -/
theorem startsLine_of_read {s : State} {read : Decode (Option Identifier × Nat)}
    {label : Option Identifier} {indent offset : Nat}
    (h : read.run src p s.cleared = (.ok (label, indent), q, s.cleared.noting src offset)) :
    ∃ t, (startLine read).run src p s = (.ok (), q, t) ∧ StartsLine src s label indent t := by
  have hclear : clear.run src p s = (.ok (), p, s.cleared) := rfl
  let t := s.cleared.noting src offset
  refine ⟨t.withLines (Line.start label indent :: t.program.current.lines), ?_, ⟨rfl, ?_, ?_⟩, ?_, ?_⟩
  · rw [startLine, run_bind_ok hclear, run_bind_ok h]
    rfl
  · exact s.cleared.stack_noting src offset
  · exact s.cleared.arguments_noting src offset
  · exact identifierAt_congr (s.cleared.nameAt_noting src offset)
  · exact congrArg (fun program : Program => Line.start label indent :: program.current.lines)
      (s.cleared.program_noting src offset)

/-- A line instruction adds an empty line, whatever was there before. -/
theorem LineAt.run_step {s : State} {label : Option Identifier} {indent : Nat}
    (h : LineAt v src (s.identifierAt src) p q label indent) :
    ∃ t, (step v).run src p s = (.ok (), q, t) ∧ StartsLine src s label indent t := by
  -- the operands are forgotten first, and names do not depend on them
  have hname : ∀ {offset : Nat} {id : Identifier}, src.natLE (p + 4) 2 = .ok offset →
      s.identifierAt src offset = .ok id →
      identifier.run src (p + 4) s.cleared = (.ok id, p + 6, s.cleared.noting src offset) := by
    intro offset id hoffset hid
    rw [identifier, run_bind_ok (run_word_ok hoffset _), run_identifierAt]
    exact congrArg (fun r => (r, p + 6, s.cleared.noting src offset)) hid
  cases h with
  | plain h => exact ⟨_, (h.run_step rfl s).trans rfl, ⟨rfl, rfl, rfl⟩, rfl, rfl⟩
  | labelled h hword hoffset hid =>
    rw [h.run_step rfl]
    apply startsLine_of_read
    rw [run_bind_ok (run_skipWord hword _), run_bind_ok (hname hoffset hid)]
    rfl
  | indented h hword hoffset hid hindent =>
    rw [h.run_step rfl]
    apply startsLine_of_read
    rw [run_bind_ok (run_skipWord hword _), run_bind_ok (hname hoffset hid),
      run_bind_ok (run_word_ok hindent _)]
    rfl

/-- Instructions behind that of a line which carry the workspace of a new line to another one are
performed before anything behind them. -/
theorem Carries.run_instructions {s : State} {pos fin : Nat} {label : Option Identifier} {indent : Nat}
    (h : Carries v src (s.identifierAt src) p q .fresh b)
    (hline : LineAt v src (s.identifierAt src) pos p label indent) (hfin : q ≤ fin) :
    ∃ t, (instructions v fin).run src pos s = (instructions v fin).run src q t ∧ t.Has b ∧
      t.identifierAt src = s.identifierAt src ∧ pos < q ∧
      t.program.current.lines =
        (Line.start label indent).setLast b.statement :: s.program.current.lines := by
  obtain ⟨t, hstep, hfresh, hnames, hlines⟩ := hline.run_step
  obtain ⟨symbols, hproceeds⟩ := h t hnames hfresh
  have hlt := lt_pos_of_run_step hstep
  have hle := hproceeds.le
  dsimp only at hle
  refine ⟨t.turned b symbols, ?_, hfresh.turned b symbols, hproceeds.identifierAt_eq.trans hnames,
    by omega, ?_⟩
  · rw [run_instructions_step (by omega) hstep, hproceeds.run_instructions hfin]
  · change t.program.current.lines.modifyHead _ = _
    rw [hlines, List.modifyHead_cons]

/-- A line whose instructions carry the workspace of a new line to another one is decoded, and has
the statement of that workspace alone. -/
theorem Carries.adds_line {s : State} {pos : Nat} {label : Option Identifier} {indent : Nat}
    (h : Carries v src (s.identifierAt src) p q .fresh b)
    (hline : LineAt v src (s.identifierAt src) pos p label indent) :
    ∃ t, (instructions v q).run src pos s = (.ok (), q, t) ∧ t.stack = b.stack ∧
      t.program.current.lines =
        (Line.start label indent).setLast b.statement :: s.program.current.lines := by
  obtain ⟨t, hrun, ht, -, -, hlines⟩ := h.run_instructions hline (Nat.le_refl q)
  rw [run_instructions_of_le (Nat.le_refl q)] at hrun
  exact ⟨t, hrun, ht.stack, hlines⟩

/-- A line with an instruction that fails is decoded up to there. -/
theorem Carries.fails_on_line {s : State} {pos q' fin code parameter : Nat}
    {label : Option Identifier} {indent : Nat} {handler : Handler} {fault : Fault}
    (h : Carries v src (s.identifierAt src) p q .fresh b)
    (hline : LineAt v src (s.identifierAt src) pos p label indent)
    (hcode : InstructionAt v src q code parameter) (hlookup : table.lookup code = some handler)
    (hfault : Turns src (s.identifierAt src) (handler v parameter) (q + 2) q' (.error fault) b c)
    (hfin : q < fin) :
    ∃ t, (instructions v fin).run src pos s = (.error fault, q', t) ∧
      t.program.current.lines =
        (Line.start label indent).setLast c.statement :: s.program.current.lines := by
  obtain ⟨t, hrun, ht, hnames, -, hlines⟩ := h.run_instructions hline (Nat.le_of_lt hfin)
  obtain ⟨symbols, hstep, -⟩ := hfault t hnames ht
  refine ⟨t.turned c symbols, ?_, ?_⟩
  · rw [hrun, run_instructions_fault hfin ((hcode.run_step hlookup t).trans hstep)]
  · change t.program.current.lines.modifyHead _ = _
    rw [hlines, List.modifyHead_cons]
    rfl

/-- A file of version 7.0 or 7.1 with a name, `A`, and the given instructions at `0x23`. -/
def laterFile (code : Bytes) : Source :=
  .ofBytes (List.replicate 0x1D 0 ++ Key.namedEntry [0x41] ++ code)

/-! ## Texts -/

theorem Text.join_singleton (separator text : String) : Text.join separator [text] = text := rfl

theorem Text.join_cons_cons (separator text text' : String) (texts : List String) :
    Text.join separator (text :: text' :: texts) =
      text ++ separator ++ Text.join separator (text' :: texts) := by
  simp only [Text.join, String.ext_iff, String.toList_intercalate, String.toList_append, List.map_cons,
    List.intercalate_cons_cons]

/-- The text of an expression, or nothing. -/
def Expr.textOf (e : Expr) : String :=
  e.render.toOption.getD ""

/-- What stands in front of the first statement of a line. -/
def Line.margin (label : Option Identifier) (indent : Nat) : String :=
  (Line.start label indent).labelText ++ Text.spaces indent

/-- A line with one statement is written as its label, its indentation and the statement. -/
theorem Line.render_setLast_start (label : Option Identifier) (indent : Nat) (st : Statement) :
    ((Line.start label indent).setLast st).render =
      (st.render (Line.margin label indent).length).map (Line.margin label indent ++ ·) := by
  change (Except.bind (Except.bind (st.render (Line.margin label indent).length) _) _) = _
  rcases st.render (Line.margin label indent).length with fault | text <;> rfl

end SavedBasic
