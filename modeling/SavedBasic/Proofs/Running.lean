import SavedBasic.Image
import SavedBasic.Proofs.Reading

/-!
# Running actions

What an action leaves behind is a value or a fault, a position and a state; `Decode.run` gives the
three without the fact that the position has not moved backwards. Proofs about actions go through
`run`: there is one equation for each way of putting actions together and one for each action that
others are made of, so that no proof has to open an action again.

The names of a file enter a state only through `State.nameAt`, the name that a look-up at an offset
gives. It is the same whether or not the name has been looked up before, and no look-up changes it.
-/

namespace SavedBasic

theorem bind_eq_ok_iff {α β : Type} {e : Except Fault α} {f : α → Except Fault β} {b : β} :
    e >>= f = .ok b ↔ ∃ a, e = .ok a ∧ f a = .ok b := by
  cases e <;> simp [bind, Except.bind]

theorem map_eq_ok_iff {α β : Type} {e : Except Fault α} {f : α → β} {b : β} :
    e.map f = .ok b ↔ ∃ a, e = .ok a ∧ f a = b := by
  cases e <;> simp [Except.map]

namespace Decode

variable {α β : Type}

/-- What an action leaves behind: the value or the fault, the position and the state. -/
def run (m : Decode α) (src : Source) (pos : Nat) (s : State) : Except Fault α × Nat × State :=
  ((m src pos s).result, (m src pos s).pos, (m src pos s).state)

/-- Actions that leave the same behind are the same. -/
theorem ext_run {m m' : Decode α} (h : ∀ src pos s, m.run src pos s = m'.run src pos s) : m = m' := by
  funext src pos s
  have := h src pos s
  simp only [run, Prod.mk.injEq] at this
  obtain ⟨hr, hp, hs⟩ := this
  rcases ho : m src pos s with ⟨r, p, le, t⟩
  rcases ho' : m' src pos s with ⟨r', p', le', t'⟩
  rw [ho, ho'] at hr hp hs
  cases hr; cases hp; cases hs
  rfl

/-- No action moves backwards. -/
theorem le_pos_run (m : Decode α) (src : Source) (pos : Nat) (s : State) :
    pos ≤ (m.run src pos s).2.1 :=
  (m src pos s).le

theorem le_of_run {m : Decode α} {src : Source} {pos pos' : Nat} {s s' : State} {r : Except Fault α}
    (h : m.run src pos s = (r, pos', s')) : pos ≤ pos' := by
  have hle := le_pos_run m src pos s
  rwa [h] at hle

/-! ## One action after another -/

@[simp] theorem run_pure (a : α) (src : Source) (pos : Nat) (s : State) :
    (pure a : Decode α).run src pos s = (.ok a, pos, s) := rfl

@[simp] theorem run_throw (fault : Fault) (src : Source) (pos : Nat) (s : State) :
    (throw fault : Decode α).run src pos s = (.error fault, pos, s) := rfl

/-- The second action starts where the first has ended; a fault of the first is the fault of both. -/
theorem run_bind (m : Decode α) (f : α → Decode β) (src : Source) (pos : Nat) (s : State) :
    (m >>= f).run src pos s =
      match m.run src pos s with
      | (.ok a, pos', s') => (f a).run src pos' s'
      | (.error fault, pos', s') => (.error fault, pos', s') := by
  change (Decode.bind m f).run src pos s = _
  simp only [run, Decode.bind]
  rcases h : (m src pos s).result with fault | a <;> rfl

theorem run_bind_ok {m : Decode α} {f : α → Decode β} {src : Source} {pos pos' : Nat} {s s' : State}
    {a : α} (h : m.run src pos s = (.ok a, pos', s')) :
    (m >>= f).run src pos s = (f a).run src pos' s' := by
  rw [run_bind, h]

theorem run_bind_error {m : Decode α} {f : α → Decode β} {src : Source} {pos pos' : Nat}
    {s s' : State} {fault : Fault} (h : m.run src pos s = (.error fault, pos', s')) :
    (m >>= f).run src pos s = (.error fault, pos', s') := by
  rw [run_bind, h]

/-- Two actions in a row end well exactly if both do. -/
theorem run_bind_eq_ok {m : Decode α} {f : α → Decode β} {src : Source} {pos pos₂ : Nat}
    {s s₂ : State} {b : β} :
    (m >>= f).run src pos s = (.ok b, pos₂, s₂) ↔
      ∃ a pos₁ s₁, m.run src pos s = (.ok a, pos₁, s₁) ∧
        (f a).run src pos₁ s₁ = (.ok b, pos₂, s₂) := by
  rw [run_bind]
  rcases m.run src pos s with ⟨fault | a, pos₁, s₁⟩
  · simp
  · constructor
    · exact fun h => ⟨a, pos₁, s₁, rfl, h⟩
    · rintro ⟨a, pos₁, s₁, h, hf⟩
      cases h
      exact hf

instance : LawfulMonad Decode := LawfulMonad.mk' Decode
  (fun m => ext_run fun src pos s => by
    change (m >>= fun a => pure a).run src pos s = _
    rw [run_bind]
    rcases m.run src pos s with ⟨fault | a, pos', s'⟩ <;> rfl)
  (fun _ _ => ext_run fun _ _ _ => by rw [run_bind, run_pure])
  (fun m f g => ext_run fun src pos s => by
    rw [run_bind, run_bind, run_bind]
    rcases m.run src pos s with ⟨fault | a, pos', s'⟩
    · rfl
    · exact (run_bind ..).symm)

/-! ## Reading -/

@[simp] theorem run_get (src : Source) (pos : Nat) (s : State) :
    get.run src pos s = (.ok s, pos, s) := rfl

@[simp] theorem run_modify (f : State → State) (src : Source) (pos : Nat) (s : State) :
    (modify f).run src pos s = (.ok (), pos, f s) := rfl

@[simp] theorem run_source (src : Source) (pos : Nat) (s : State) :
    source.run src pos s = (.ok src, pos, s) := rfl

@[simp] theorem run_position (src : Source) (pos : Nat) (s : State) :
    position.run src pos s = (.ok pos, pos, s) := rfl

@[simp] theorem run_advance (n : Nat) (src : Source) (pos : Nat) (s : State) :
    (advance n).run src pos s = (.ok (), pos + n, s) := rfl

@[simp] theorem run_given (r : Except Fault α) (src : Source) (pos : Nat) (s : State) :
    (given r).run src pos s = (r, pos, s) := by
  cases r <;> rfl

theorem run_number (width : Nat) (src : Source) (pos : Nat) (s : State) :
    (number width).run src pos s =
      match src.natLE pos width with
      | .ok n => (.ok n, pos + width, s)
      | .error fault => (.error fault, pos, s) := by
  simp only [run, number]
  rcases src.natLE pos width with fault | n <;> rfl

theorem run_number_ok {width n : Nat} {src : Source} {pos : Nat} (h : src.natLE pos width = .ok n)
    (s : State) : (number width).run src pos s = (.ok n, pos + width, s) := by
  rw [run_number, h]

theorem run_word_ok {n : Nat} {src : Source} {pos : Nat} (h : src.natLE pos 2 = .ok n) (s : State) :
    word.run src pos s = (.ok n, pos + 2, s) :=
  run_number_ok h s

theorem run_bytes (n : Nat) (src : Source) (pos : Nat) (s : State) :
    (bytes n).run src pos s = (.ok (src.slice pos n), pos + (src.slice pos n).length, s) := rfl

/-- A run of bytes that stands in the source is read whole. -/
theorem run_bytes_holds {src : Source} {pos : Nat} {text : Bytes} (h : src.Holds pos text)
    (s : State) :
    (bytes text.length).run src pos s = (.ok text, pos + text.length, s) := by
  rw [run_bytes, h.slice_eq]

/-! ## Names -/

/-- The name that a look-up at an offset gives: the one that was looked up before, or else the one
in the file. -/
def State.nameAt (src : Source) (s : State) (offset : Nat) : Except Fault Name :=
  match s.symbols.name? offset with
  | some name => .ok name
  | none => SymbolTable.entryAt src (s.headerSize + offset)

/-- The identifier that a look-up at an offset gives. -/
def State.identifierAt (src : Source) (s : State) (offset : Nat) : Except Fault Identifier :=
  (s.nameAt src offset).bind fun name => Identifier.ofName name none

theorem identifierAt_congr {src src' : Source} {s s' : State} (h : s.nameAt src = s'.nameAt src') :
    s.identifierAt src = s'.identifierAt src' := by
  funext offset
  rw [State.identifierAt, h, ← State.identifierAt]

/-- The state after a look-up at an offset, which remembers the name. -/
def State.noting (src : Source) (s : State) (offset : Nat) : State :=
  match s.symbols.name? offset, SymbolTable.entryAt src (s.headerSize + offset) with
  | none, .ok name => { s with symbols := s.symbols.record offset name }
  | _, _ => s

theorem run_identifierAt (offset : Nat) (src : Source) (pos : Nat) (s : State) :
    (identifierAt offset).run src pos s =
      (s.identifierAt src offset, pos, s.noting src offset) := by
  simp only [identifierAt, run_bind, run_get, State.identifierAt, State.nameAt, State.noting]
  rcases hname : s.symbols.name? offset with _ | name
  · rcases hentry : SymbolTable.entryAt src (s.headerSize + offset) with fault | name
    · simp only [run_bind, run_source, run_given, hentry]
      rfl
    · simp only [run_bind, run_source, run_given, run_modify, hentry]
      rfl
  · rw [run_given]
    rfl

/-- A look-up changes nothing but the names that were looked up. -/
theorem State.noting_eq (src : Source) (s : State) (offset : Nat) :
    s.noting src offset = { s with symbols := (s.noting src offset).symbols } := by
  unfold State.noting
  split <;> rfl

@[simp] theorem State.stack_noting (src : Source) (s : State) (offset : Nat) :
    (s.noting src offset).stack = s.stack := by
  rw [State.noting_eq]

@[simp] theorem State.arguments_noting (src : Source) (s : State) (offset : Nat) :
    (s.noting src offset).arguments = s.arguments := by
  rw [State.noting_eq]

@[simp] theorem State.program_noting (src : Source) (s : State) (offset : Nat) :
    (s.noting src offset).program = s.program := by
  rw [State.noting_eq]

@[simp] theorem State.openFns_noting (src : Source) (s : State) (offset : Nat) :
    (s.noting src offset).openFns = s.openFns := by
  rw [State.noting_eq]

/-- Dropping the entries of another key does not change what is found. -/
theorem lookup_filter_ne {κ γ : Type} [DecidableEq κ] {key key' : κ} (h : key' ≠ key)
    (entries : List (κ × γ)) :
    (entries.filter (·.1 != key)).lookup key' = entries.lookup key' := by
  induction entries with
  | nil => rfl
  | cons entry entries ih =>
    obtain ⟨k, value⟩ := entry
    by_cases hk : k = key
    · have hne : (key' == key) = false := beq_eq_false_iff_ne.mpr h
      simp [hk, List.lookup_cons, ih, hne]
    · simp [hk, List.lookup_cons, ih]

theorem name?_record (table : SymbolTable) (offset : Nat) (name : Name) (offset' : Nat) :
    (table.record offset name).name? offset' =
      if offset' = offset then some name else table.name? offset' := by
  by_cases h : offset' = offset
  · subst h
    simp [SymbolTable.record, SymbolTable.name?]
  · have hne : (offset' == offset) = false := beq_eq_false_iff_ne.mpr h
    rw [if_neg h]
    simp only [SymbolTable.record, SymbolTable.name?, List.lookup_cons, hne, lookup_filter_ne h]

/-- No look-up changes what a look-up gives. -/
@[simp] theorem State.nameAt_noting (src : Source) (s : State) (offset : Nat) :
    (s.noting src offset).nameAt src = s.nameAt src := by
  funext offset'
  unfold State.noting
  split
  · rename_i name hname hentry
    simp only [State.nameAt, name?_record]
    by_cases h : offset' = offset
    · subst h
      rw [if_pos rfl, hname]
      exact hentry.symm
    · rw [if_neg h]
  · rfl

/-! ## Operands -/

theorem run_pop (src : Source) (pos : Nat) (s : State) :
    pop.run src pos s =
      match s.stack with
      | [] => (.error .emptyStack, pos, s)
      | e :: rest => (.ok e, pos, { s with stack := rest }) := by
  simp only [pop, run_bind, run_get]
  rcases s.stack with _ | ⟨e, rest⟩
  · rw [run_throw]
  · simp only [run_bind, run_modify, run_pure]

@[simp] theorem run_push (e : Expr) (src : Source) (pos : Nat) (s : State) :
    (push e).run src pos s = (.ok (), pos, { s with stack := e :: s.stack }) := rfl

@[simp] theorem run_popMany (n : Nat) (src : Source) (pos : Nat) (s : State) :
    (popMany n).run src pos s =
      (.ok (s.stack.take n).reverse, pos, { s with stack := s.stack.drop n }) := rfl

/-! ## The statement that is being decoded

An instruction sees of the program only the last statement of the last line, and only this statement
does it replace. -/

/-- The last statement of the last line. -/
def State.last? (s : State) : Option Statement :=
  s.program.current.lines.head?.map fun l => l.last.statement

/-- The state with another last statement. -/
def State.setLast (s : State) (st : Statement) : State :=
  { s with
    program :=
      { s.program with
        current :=
          { s.program.current with
            lines := s.program.current.lines.modifyHead fun l => l.setLast st } } }

/-- Replaces the last statement. -/
def setLast (st : Statement) : Decode Unit :=
  modify fun s => s.setLast st

theorem run_line (src : Source) (pos : Nat) (s : State) :
    line.run src pos s =
      match s.program.current.lines with
      | [] => (.error .noLine, pos, s)
      | l :: _ => (.ok l, pos, s) := by
  simp only [line, procedure, run_bind, run_get, run_pure]
  rcases s.program.current.lines with _ | ⟨l, rest⟩ <;> rfl

theorem run_lastStatement (src : Source) (pos : Nat) (s : State) :
    lastStatement.run src pos s =
      match s.last? with
      | none => (.error .noLine, pos, s)
      | some st => (.ok st, pos, s) := by
  simp only [lastStatement, run_bind, run_line, State.last?]
  rcases s.program.current.lines with _ | ⟨l, rest⟩ <;> rfl

/-- Replacing the whole line by one that differs in the last statement. -/
theorem run_setLine_setLast {s : State} {l : Line} {rest : List Line}
    (h : s.program.current.lines = l :: rest) (st : Statement) (src : Source) (pos : Nat) :
    (setLine (l.setLast st)).run src pos s = (.ok (), pos, s.setLast st) := by
  simp only [setLine, modifyProcedure, run_modify, State.setLast, h, List.modifyHead_cons]

/-- A statement is put into the last open place of the last statement. -/
theorem put_eq (new : Statement) :
    put new = (lastStatement >>= fun st =>
      match st.place new with
      | .placed st' => setLast st'
      | _ => throw .cannotCombine) := by
  apply ext_run
  intro src pos s
  simp only [put, run_bind, run_line, run_lastStatement, State.last?]
  rcases hl : s.program.current.lines with _ | ⟨l, rest⟩
  · rfl
  · simp only [run_given, Line.place, List.head?_cons, Option.map_some]
    rcases l.last.statement.place new with st' | _ | _
    · exact run_setLine_setLast hl st' src pos
    · rfl
    · rfl

theorem run_put (new : Statement) (src : Source) (pos : Nat) (s : State) :
    (put new).run src pos s =
      match s.last? with
      | none => (.error .noLine, pos, s)
      | some st =>
        match st.place new with
        | .placed st' => (.ok (), pos, s.setLast st')
        | _ => (.error .cannotCombine, pos, s) := by
  rw [put_eq, run_bind, run_lastStatement]
  rcases s.last? with _ | st
  · rfl
  · simp only
    rcases st.place new with st' | _ | _ <;> rfl

theorem amend_eq (f : Statement → Option Statement) :
    amend f = (lastStatement >>= fun st =>
      match f st with
      | some st' => setLast st'
      | none => throw .noSuchPart) := by
  apply ext_run
  intro src pos s
  simp only [amend, run_bind, run_line, run_lastStatement, State.last?]
  rcases hl : s.program.current.lines with _ | ⟨l, rest⟩
  · rfl
  · simp only [List.head?_cons, Option.map_some]
    rcases f l.last.statement with _ | st'
    · rfl
    · exact run_setLine_setLast hl st' src pos

/-! ## Function definitions -/

/-- The place that a new statement will take inside the last one, on the way that leads there. -/
def State.placeOn (s : State) (way : List Statement.Branch) : Place where
  procedure := s.program.earlier.length
  line := s.program.current.lines.length - 1
  statement := (s.program.current.lines.head?.map fun l => l.earlier.length).getD 0
  way := way

/-- The state in which a function definition has been opened. -/
def State.openOn (s : State) (way : List Statement.Branch) : State :=
  { s with openFns := s.placeOn way :: s.openFns }

/-- The state in which the innermost open function definition has its value. -/
def State.closeTop (s : State) (closing : Closing) : State :=
  match s.openFns with
  | [] => s
  | place :: rest =>
    { s with program := s.program.amendAt (Statement.define closing) place, openFns := rest }

/-- Whether a function definition is open. -/
def isOpen : Decode Bool := do
  return !(← get).openFns.isEmpty

theorem openFn_eq (d : DefFn) :
    openFn d = (lastStatement >>= fun st => put (.defFn d) >>= fun _ =>
      modify fun s => s.openOn st.openPlace) := by
  apply ext_run
  intro src pos s
  simp only [openFn, run_bind, run_get, run_line, run_lastStatement, run_put]
  rcases hl : s.program.current.lines with _ | ⟨l, rest⟩
  · simp only [State.last?, hl, List.head?_nil, Option.map_none]
  · have hlast : s.last? = some l.last.statement := by simp only [State.last?, hl]; rfl
    simp only [hlast]
    rcases hp : l.last.statement.place (.defFn d) with st' | _ | _
    · simp only [run_modify, State.openOn, State.placeOn, nextPlace, State.setLast, hl]
      rfl
    · rfl
    · rfl

/-- The value of a function goes to the innermost open definition; there must be one. -/
theorem closeFn_value_eq (e : Expr) :
    closeFn (.value e) = (isOpen >>= fun b =>
      if b then modify fun s => s.closeTop (.value e) else throw .brokenPromise) := by
  apply ext_run
  intro src pos s
  simp only [closeFn, isOpen, run_bind, run_get, run_pure]
  rcases ho : s.openFns with _ | ⟨place, rest⟩
  · rfl
  · simp only [run_bind, run_get, run_modify, State.closeTop, ho, List.isEmpty_cons, Bool.not_false,
      if_true]

/-- The kind of the procedure that is being decoded. -/
def currentKind : Decode (Option ProcedureKind) := do
  return (← procedure).kind

/-- Whether the procedure that is being decoded keeps its variables between calls. -/
def currentStatic : Decode Bool := do
  return (← procedure).static

theorem exitBlock_eq :
    exitBlock = (isOpen >>= fun b =>
      if b then pure (some .defFn) else currentKind >>= fun kind => pure (kind.map .procedure)) := by
  apply ext_run
  intro src pos s
  simp only [exitBlock, isOpen, currentKind, procedure, run_bind, run_get, run_pure]
  rcases s.openFns with _ | ⟨place, rest⟩ <;> rfl

/-! ## Instructions in a row -/

theorem run_instructions_of_le {v : Version} {fin pos : Nat} (h : fin ≤ pos) (src : Source)
    (s : State) : (instructions v fin).run src pos s = (.ok (), pos, s) := by
  unfold run instructions
  rw [if_neg (Nat.not_lt.mpr h)]

/-- Before the end, one instruction is performed and then the others. -/
theorem run_instructions_of_lt {v : Version} {fin pos : Nat} (h : pos < fin) (src : Source)
    (s : State) :
    (instructions v fin).run src pos s =
      (Instruction.step v >>= fun _ => instructions v fin).run src pos s := by
  rw [Instruction.step, bind_assoc, run_bind]
  rcases hw : src.natLE pos 2 with fault | w
  · rw [word, run_number, hw]
    unfold run instructions
    rw [if_pos h]
    split
    · rename_i hw'
      rw [hw] at hw'
      cases hw'
      rfl
    · rename_i hw'
      rw [hw] at hw'
      cases hw'
  · rw [run_word_ok hw]
    simp only [run_bind]
    conv => lhs; unfold run instructions
    rw [if_pos h]
    split
    · rename_i hw'
      rw [hw] at hw'
      cases hw'
    · rename_i hw'
      rw [hw] at hw'
      cases hw'
      simp only [run]
      rcases (Instruction.perform v w src (pos + 2) s).result with fault | u <;> rfl

/-- An instruction that succeeds is done before the others. -/
theorem run_instructions_step {v : Version} {src : Source} {fin pos pos₁ : Nat} {s s₁ : State}
    (h : pos < fin) (hstep : (Instruction.step v).run src pos s = (.ok (), pos₁, s₁)) :
    (instructions v fin).run src pos s = (instructions v fin).run src pos₁ s₁ := by
  rw [run_instructions_of_lt h, run_bind_ok hstep]

/-- One that fails is the last one. -/
theorem run_instructions_fault {v : Version} {src : Source} {fin pos pos₁ : Nat} {s s₁ : State}
    {fault : Fault} (h : pos < fin)
    (hstep : (Instruction.step v).run src pos s = (.error fault, pos₁, s₁)) :
    (instructions v fin).run src pos s = (.error fault, pos₁, s₁) := by
  rw [run_instructions_of_lt h, run_bind_error hstep]

/-- Instructions that were performed one after another up to a position, none of them failing, with
what each of them asked for. -/
inductive Trace (v : Version) (src : Source) (fin : Nat) :
    List Instruction.Operation → Nat → State → Nat → State → Prop where
  /-- the end has been reached -/
  | done {pos : Nat} {s : State} (h : fin ≤ pos) : Trace v src fin [] pos s pos s
  /-- one instruction, and the others behind it -/
  | step {w pos pos₁ pos₂ : Nat} {s s₁ s₂ : State} {ops : List Instruction.Operation}
    (h : pos < fin) (hw : src.natLE pos 2 = .ok w)
    (hp : (Instruction.perform v w).run src (pos + 2) s = (.ok (), pos₁, s₁))
    (rest : Trace v src fin ops pos₁ s₁ pos₂ s₂) :
    Trace v src fin (Instruction.operation v w :: ops) pos s pos₂ s₂

/-- An instruction that succeeds has read its word. -/
theorem run_step_eq_ok {v : Version} {src : Source} {pos pos₁ : Nat} {s s₁ : State} :
    (Instruction.step v).run src pos s = (.ok (), pos₁, s₁) ↔
      ∃ w, src.natLE pos 2 = .ok w ∧
        (Instruction.perform v w).run src (pos + 2) s = (.ok (), pos₁, s₁) := by
  rw [Instruction.step, run_bind, word, run_number]
  rcases src.natLE pos 2 with fault | w <;> simp

/-- An instruction that succeeds has moved on. -/
theorem lt_pos_of_run_step {v : Version} {src : Source} {pos pos₁ : Nat} {s s₁ : State}
    (h : (Instruction.step v).run src pos s = (.ok (), pos₁, s₁)) : pos < pos₁ := by
  obtain ⟨w, -, hp⟩ := run_step_eq_ok.mp h
  have hle := le_of_run hp
  omega

/-- Performing instructions succeeds exactly if there is a trace of it. -/
theorem run_instructions_eq_ok {v : Version} {src : Source} {fin pos pos' : Nat} {s s' : State} :
    (instructions v fin).run src pos s = (.ok (), pos', s') ↔
      ∃ ops, Trace v src fin ops pos s pos' s' := by
  constructor
  · -- every instruction takes its own word, so the distance to the end shrinks
    induction hd : fin - pos using Nat.strongRecOn generalizing pos s with
    | _ n ih =>
      intro h
      by_cases hlt : pos < fin
      · rw [run_instructions_of_lt hlt, run_bind_eq_ok] at h
        obtain ⟨_, pos₁, s₁, hstep, hrest⟩ := h
        obtain ⟨w, hw, hp⟩ := run_step_eq_ok.mp hstep
        have hlt₁ := lt_pos_of_run_step hstep
        obtain ⟨ops, ht⟩ := ih (fin - pos₁) (by omega) rfl hrest
        exact ⟨_, .step hlt hw hp ht⟩
      · rw [run_instructions_of_le (Nat.not_lt.mp hlt)] at h
        cases h
        exact ⟨[], .done (Nat.not_lt.mp hlt)⟩
  · rintro ⟨ops, ht⟩
    induction ht with
    | done h => exact run_instructions_of_le h src _
    | step h hw hp _ ih =>
      rw [run_instructions_step h (run_step_eq_ok.mpr ⟨_, hw, hp⟩)]
      exact ih

/-! ## Procedures in a row -/

theorem run_furtherProcedures_of_le {src : Source} {pos : Nat} (h : src.size ≤ pos + trailerSize)
    (v : Version) (s : State) : (furtherProcedures v).run src pos s = (.ok (), pos, s) := by
  unfold run furtherProcedures
  rw [dif_neg (Nat.not_lt.mpr h)]

theorem run_furtherProcedures_of_lt {src : Source} {pos : Nat} (h : pos + trailerSize < src.size)
    (v : Version) (s : State) :
    (furtherProcedures v).run src pos s =
      (nextProcedure v >>= fun _ => furtherProcedures v).run src (pos + trailerSize) s := by
  rw [run_bind]
  conv => lhs; unfold run furtherProcedures
  rw [dif_pos h]
  simp only [run]
  rcases (nextProcedure v src (pos + trailerSize) s).result with fault | u <;> rfl

end Decode

end SavedBasic
