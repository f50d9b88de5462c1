import Mathlib.Logic.Relation
import SavedBasic.Proofs.Ways

/-!
# What instructions change

Whatever an instruction does to a state, and whether or not it fails, it does by elementary
changes. It notes a name or changes operands. It adds a line to the last procedure, or a statement
to the last line; it puts a statement into the open place of the last one, builds that one up
further, or writes a comment. It gives the last procedure its kind, opens a function definition
there, or gives the innermost open one its value. `Change` lists these changes with what holds when
they are made and with the power that it takes to make them; `Composed.changesBy` says that an
instruction makes only those that it has the power for, and `changes_instructions` that instructions
in a row do nothing else.

Two consequences carry the comparison of whole files. No look-up ever gives another name than
before. And the procedures before the last one stay as they are, except that function definitions
that were left open in them may get their values.
-/

namespace SavedBasic

open Relation

namespace Decode

variable {α : Type} {e : Option Power}

/-- The state with other lines in the procedure that is being decoded. -/
def State.withLines (s : State) (lines : List Line) : State :=
  { s with program := { s.program with current := { s.program.current with lines := lines } } }

/-- The state in which the procedure that is being decoded has a kind. -/
def State.withKind (s : State) (kind : ProcedureKind) : State :=
  { s with program := { s.program with current := { s.program.current with kind := some kind } } }

/-- The state in which a further procedure begins. -/
def State.enter (s : State) (name : Bytes) (static : Bool) : State :=
  { s with
    program :=
      { earlier := s.program.current :: s.program.earlier
        current := .start (some name) static } }

/-- The statement at the end of a way into the last statement. -/
def State.lastAt (s : State) (way : List Statement.Branch) : Option Statement :=
  s.last?.bind (Statement.at? way)

/-- An elementary change of a state that a power allows. -/
inductive Change (src : Source) (e : Option Power) : State → State → Prop where
  /-- a name has been looked up -/
  | noted (s : State) (offset : Nat) : Change src e s (s.noting src offset)
  /-- there are other operands -/
  | operands (s : State) (stack : List Expr) (arguments : Arguments) :
    Change src e s { s with stack := stack, arguments := arguments }
  /-- there is a further line -/
  | line (s : State) (he : e = some (.effect .line)) (l : Line) :
    Change src e s (s.withLines (l :: s.program.current.lines))
  /-- a statement has been put into the open place of the last one -/
  | placed {s : State} {st st' new : Statement} (hlast : s.last? = some st)
    (h : st.place new = .placed st') : Change src e s (s.setLast st')
  /-- the last statement, which several instructions build up, has been built up further -/
  | amended {s : State} (he : e = some .build) {st : Statement} (st' : Statement)
    (hlast : s.last? = some st) (h : st.isAssembled = true) : Change src e s (s.setLast st')
  /-- there is a further statement on the last line -/
  | colon (s : State) (he : e = some (.effect .colon)) (column : Option Nat) :
    Change src e s (s.withLines (s.program.current.lines.modifyHead fun l => l.colon column))
  /-- there is a comment on the last line, or a command to the compiler in it or in a remark -/
  | commented {s : State} (he : e = some (.effect .comment)) {l l' : Line} {rest : List Line}
    (hlines : s.program.current.lines = l :: rest) (hearlier : l'.earlier = l.earlier)
    (hlast : l'.last = l.last ∨ l.last.statement.holdsRemark = true) :
    Change src e s (s.withLines (l' :: rest))
  /-- the kind of the procedure is known -/
  | kind (s : State) (kind : ProcedureKind) : Change src e s (s.withKind kind)
  /-- a function definition has been opened -/
  | opened {s : State} (he : e = some .opens) {way : List Statement.Branch} {d : DefFn}
    (h : s.lastAt way = some (.defFn d)) : Change src e s (s.openOn way)
  /-- a function definition has its value -/
  | closed (s : State) (he : e = some .close) (x : Expr) : Change src e s (s.closeTop (.value x))

/-- Elementary changes that a power allows, one after another. -/
abbrev ChangesBy (src : Source) (e : Option Power) : State → State → Prop :=
  ReflTransGen (Change src e)

/-- Elementary changes, one after another. -/
abbrev Changes (src : Source) : State → State → Prop :=
  ReflTransGen fun s s' => ∃ e, Change src e s s'

theorem ChangesBy.changes {src : Source} {s s' : State} (h : ChangesBy src e s s') :
    Changes src s s' :=
  ReflTransGen.mono (fun _ _ hstep => ⟨e, hstep⟩) _ _ h

theorem last?_setLast {s : State} {st : Statement} (st' : Statement) (h : s.last? = some st) :
    (s.setLast st').last? = some st' := by
  rcases hl : s.program.current.lines with _ | ⟨l, rest⟩
  · rw [State.last?, hl] at h
    cases h
  · simp only [State.last?, State.setLast, hl, List.modifyHead_cons, List.head?_cons, Option.map_some]
    rfl

theorem setLast_setLast (s : State) (st st' : Statement) :
    (s.setLast st).setLast st' = s.setLast st' := by
  simp only [State.setLast]
  rcases s.program.current.lines with _ | ⟨l, rest⟩ <;> rfl

theorem lines_ne_nil_of_last? {s : State} {st : Statement} (h : s.last? = some st) :
    s.program.current.lines ≠ [] := by
  intro hl
  rw [State.last?, hl] at h
  cases h

theorem lines_ne_nil_of_lastAt {s : State} {st : Statement} {way : List Statement.Branch}
    (h : s.lastAt way = some st) : s.program.current.lines ≠ [] := by
  obtain ⟨last, hlast, -⟩ := Option.bind_eq_some_iff.mp h
  exact lines_ne_nil_of_last? hlast

/-! ## The changes that elementary actions make -/

theorem changes_put (new : Statement) (src : Source) (pos : Nat) (s : State) :
    ChangesBy src e s ((put new).run src pos s).2.2 := by
  rw [run_put]
  rcases hlast : s.last? with _ | st
  · exact .refl
  · dsimp only
    split
    · rename_i st' hplace
      exact .single (.placed hlast hplace)
    · exact .refl

theorem changes_amend (he : e = some .build) {f : Statement → Option Statement}
    (hf : ∀ st st', f st = some st' → st.isAssembled) (src : Source) (pos : Nat) (s : State) :
    ChangesBy src e s ((amend f).run src pos s).2.2 := by
  rw [amend_eq, run_bind, run_lastStatement]
  rcases hlast : s.last? with _ | st
  · exact .refl
  · dsimp only
    split
    · rename_i st' hst'
      exact .single (.amended he st' hlast (hf st st' hst'))
    · exact .refl

theorem changes_openFn (he : e = some .opens) (d : DefFn) (src : Source) (pos : Nat) (s : State) :
    ChangesBy src e s ((openFn d).run src pos s).2.2 := by
  rw [openFn_eq, run_bind, run_lastStatement]
  rcases h : s.last? with _ | st
  · exact .refl
  · simp only [run_bind, run_put, h]
    rcases hplace : st.place (.defFn d) with st' | _ | _
    · refine .tail (.single (.placed h hplace)) (.opened he (d := d) ?_)
      rw [State.lastAt, last?_setLast st' h]
      exact Statement.at?_openPlace_of_place rfl hplace
    · exact .refl
    · exact .refl

theorem changes_closeFn (he : e = some .close) (x : Expr) (src : Source) (pos : Nat) (s : State) :
    ChangesBy src e s ((closeFn (.value x)).run src pos s).2.2 := by
  rw [closeFn_value_eq, isOpen, bind_assoc, run_bind, run_get]
  simp only [run_bind, run_pure]
  split
  · exact .single (.closed s he x)
  · exact .refl

/-- Replacing the last line is what `setLine` does; without a line it does nothing. -/
theorem run_setLine (l : Line) (src : Source) (pos : Nat) (s : State) :
    (setLine l).run src pos s =
      (.ok (), pos, s.withLines (s.program.current.lines.modifyHead fun _ => l)) := by
  rw [setLine, modifyProcedure, run_modify, State.withLines]
  rcases h : s.program.current.lines with _ | ⟨l', rest⟩
  · have hsame : { s.program.current with lines := [] } = s.program.current := by rw [← h]
    simp only [List.modifyHead_nil, hsame]
  · simp only [List.modifyHead_cons]

theorem changes_colon (he : e = some (.effect .colon)) (column : Option Nat) (src : Source)
    (pos : Nat) (s : State) : ChangesBy src e s ((colon column).run src pos s).2.2 := by
  rw [colon, run_bind, run_line]
  rcases hlines : s.program.current.lines with _ | ⟨l, rest⟩
  · exact .refl
  · have hcolon : Change src e s
        (s.withLines (s.program.current.lines.modifyHead fun l => l.colon column)) := .colon s he column
    dsimp only
    rw [run_setLine, hlines]
    rw [hlines] at hcolon
    exact .single hcolon

theorem changes_amendLine (he : e = some (.effect .comment)) {f : Line → Except Fault Line}
    (hf : ∀ l l', f l = .ok l' → l'.earlier = l.earlier ∧
      (l'.last = l.last ∨ l.last.statement.holdsRemark = true)) (src : Source) (pos : Nat)
    (s : State) : ChangesBy src e s ((amendLine f).run src pos s).2.2 := by
  rw [amendLine, run_bind, run_line]
  rcases hlines : s.program.current.lines with _ | ⟨l, rest⟩
  · exact .refl
  · dsimp only
    rw [run_bind, run_given]
    rcases hl : f l with fault | l'
    · exact .refl
    · dsimp only
      rw [run_setLine, hlines]
      exact .single (.commented he hlines (hf l l' hl).1 (hf l l' hl).2)

/-- What is put together from elementary actions makes only elementary changes that its power allows,
also if it fails. -/
theorem Composed.changesBy {m : Decode α} (h : Composed e m) (src : Source) (pos : Nat) (s : State) :
    ChangesBy src e s (m.run src pos s).2.2 := by
  induction h generalizing pos s with
  | pure a => exact .refl
  | throw fault => exact .refl
  | @bind _ _ m f _ _ ihm ihf =>
    rw [run_bind]
    have hm := ihm pos s
    rcases hrun : m.run src pos s with ⟨fault | a, pos', s'⟩ <;> rw [hrun] at hm
    · exact hm
    · exact hm.trans (ihf a pos' s')
  | number width h =>
    rw [run_number]
    rcases src.natLE pos width with fault | n <;> exact .refl
  | bytes n => exact .refl
  | identifierAt offset =>
    rw [run_identifierAt]
    exact .single (.noted s offset)
  | push x => exact .single (.operands s _ s.arguments)
  | pop =>
    rw [run_pop]
    split
    · exact .refl
    · exact .single (.operands s _ s.arguments)
  | popMany n => exact .single (.operands s _ s.arguments)
  | lastStatement _ =>
    rw [run_lastStatement]
    split <;> exact .refl
  | put new => exact changes_put new src pos s
  | amend he f hf => exact changes_amend he hf src pos s
  | isOpen _ => exact .refl
  | openFn he d => exact changes_openFn he d src pos s
  | closeFn he x => exact changes_closeFn he x src pos s
  | currentKind => exact .refl
  | currentStatic => exact .refl
  | setProcedureKind kind => exact .single (.kind s kind)
  | clear _ => exact .single (.operands s [] .none)
  | beginLine he label indent => exact .single (.line s he _)
  | colon he column => exact changes_colon he column src pos s
  | line _ =>
    rw [run_line]
    split <;> exact .refl
  | amendLine he f hf => exact changes_amendLine he hf src pos s
  | arguments _ => exact .refl
  | modifyArguments _ f => exact .single (.operands s s.stack _)

theorem changes_perform (v : Version) (w : Nat) (src : Source) (pos : Nat) (s : State) :
    Changes src s ((Instruction.perform v w).run src pos s).2.2 :=
  ((Instruction.composed_perform v w).changesBy src pos s).changes

theorem changes_step (v : Version) (src : Source) (pos : Nat) (s : State) :
    Changes src s ((Instruction.step v).run src pos s).2.2 := by
  rw [Instruction.step, run_bind, word, run_number]
  rcases src.natLE pos 2 with fault | w
  · exact .refl
  · exact changes_perform v w src (pos + 2) s

/-- Instructions in a row make elementary changes only, also if one of them fails. -/
theorem changes_instructions (v : Version) (fin : Nat) (src : Source) (pos : Nat) (s : State) :
    Changes src s ((instructions v fin).run src pos s).2.2 := by
  -- every instruction takes its own word, so the distance to the end shrinks
  induction hd : fin - pos using Nat.strongRecOn generalizing pos s with
  | _ n ih =>
    by_cases hlt : pos < fin
    · rw [run_instructions_of_lt hlt, run_bind]
      have hstep := changes_step v src pos s
      rcases hrun : (Instruction.step v).run src pos s with ⟨fault | _, pos₁, s₁⟩
        <;> rw [hrun] at hstep
      · exact hstep
      · have hle := lt_pos_of_run_step hrun
        exact hstep.trans (ih (fin - pos₁) (by omega) pos₁ s₁ rfl)
    · rw [run_instructions_of_le (Nat.not_lt.mp hlt)]

/-! ## Names -/

theorem Change.nameAt {src : Source} {s s' : State} (h : Change src e s s') :
    s'.nameAt src = s.nameAt src := by
  cases h with
  | noted offset => exact s.nameAt_noting src offset
  | operands stack arguments => rfl
  | line he l => rfl
  | placed hlast h => rfl
  | amended he st' hlast h => rfl
  | colon he column => rfl
  | commented he hlines hearlier hlast => rfl
  | kind kind => rfl
  | opened he h => rfl
  | closed he x =>
    unfold State.closeTop
    split <;> rfl

/-- No change of a state changes the name at an offset. -/
theorem Changes.nameAt {src : Source} {s s' : State} (h : Changes src s s') :
    s'.nameAt src = s.nameAt src := by
  induction h with
  | refl => rfl
  | tail _ hstep ih =>
    obtain ⟨e, hstep⟩ := hstep
    rw [hstep.nameAt, ih]

end Decode

/-! ## Amending in the order of writing

Entries are kept with the most recent one in front and counted from the oldest one. In the order in
which they are written, amending one of them is changing the entry at its position. -/

theorem reverse_amendFromEnd {α : Type} (f : α → α) (i : Nat) (entries : List α) :
    (amendFromEnd f i entries).reverse = entries.reverse.modify i f := by
  unfold amendFromEnd
  split
  · rename_i hi
    apply List.ext_getElem?
    intro j
    by_cases hj : j < entries.length
    · rw [List.getElem?_reverse (by rwa [List.length_modify]), List.getElem?_modify,
        List.getElem?_modify, List.getElem?_reverse hj, List.length_modify]
      have : entries.length - 1 - i = entries.length - 1 - j ↔ i = j := by omega
      simp only [this]
    · rw [List.getElem?_eq_none (by simp; omega), List.getElem?_eq_none (by simp; omega)]
  · rename_i hi
    rw [List.modify_eq_self (by rw [List.length_reverse]; omega)]

theorem amendFromEnd_nil {α : Type} (f : α → α) (i : Nat) : amendFromEnd f i [] = [] :=
  if_neg (Nat.not_lt_zero i)

theorem amendFromEnd_cons {α : Type} (f : α → α) (i : Nat) (a : α) (entries : List α) :
    amendFromEnd f i (a :: entries) =
      if i = entries.length then f a :: entries else a :: amendFromEnd f i entries := by
  unfold amendFromEnd
  rw [List.length_cons]
  by_cases heq : i = entries.length
  · rw [if_pos heq, if_pos (by omega), heq, Nat.add_sub_cancel, Nat.sub_self]
    rfl
  · rw [if_neg heq]
    by_cases hlt : i < entries.length
    · have hi : entries.length + 1 - 1 - i = (entries.length - 1 - i) + 1 := by omega
      rw [if_pos hlt, if_pos (by omega), hi, List.modify_succ_cons]
    · rw [if_neg hlt, if_neg (by omega)]

theorem length_amendFromEnd {α : Type} (f : α → α) (i : Nat) (entries : List α) :
    (amendFromEnd f i entries).length = entries.length := by
  rw [← List.length_reverse, reverse_amendFromEnd, List.length_modify, List.length_reverse]

/-- A procedure in which the statement at a place has been changed. -/
def Procedure.amendAt (f : Statement → Statement) (place : Place) (p : Procedure) : Procedure :=
  { p with lines := amendFromEnd (Line.amendAt f place.statement place.way) place.line p.lines }

namespace Program

/-- The procedures of a program in which the statement at a place has been changed. -/
theorem procedures_amendAt (f : Statement → Statement) (place : Place) (p : Program) :
    (p.amendAt f place).procedures =
      p.procedures.modify place.procedure (Procedure.amendAt f place) := by
  unfold procedures
  rw [← reverse_amendFromEnd, amendFromEnd_cons, amendAt]
  split <;> rfl

theorem length_earlier_amendAt (f : Statement → Statement) (place : Place) (p : Program) :
    (p.amendAt f place).earlier.length = p.earlier.length := by
  unfold amendAt
  split
  · rfl
  · exact length_amendFromEnd ..

theorem name_amendAt (f : Statement → Statement) (place : Place) (p : Program) :
    (p.amendAt f place).current.name = p.current.name := by
  unfold amendAt
  split <;> rfl

theorem kind_amendAt (f : Statement → Statement) (place : Place) (p : Program) :
    (p.amendAt f place).current.kind = p.current.kind := by
  unfold amendAt
  split <;> rfl

theorem static_amendAt (f : Statement → Statement) (place : Place) (p : Program) :
    (p.amendAt f place).current.static = p.current.static := by
  unfold amendAt
  split <;> rfl

theorem length_procedures (p : Program) : p.procedures.length = p.earlier.length + 1 := by
  rw [procedures, List.length_reverse, List.length_cons]

theorem getElem?_procedures_length (p : Program) :
    p.procedures[p.earlier.length]? = some p.current := by
  rw [procedures, List.reverse_cons, List.getElem?_append_right (Nat.le_of_eq List.length_reverse),
    List.length_reverse, Nat.sub_self]
  rfl

/-- The procedures before the last one do not depend on it. -/
theorem getElem?_procedures_of_lt {p : Program} {i : Nat} (h : i < p.earlier.length) :
    p.procedures[i]? = p.earlier.reverse[i]? := by
  rw [procedures, List.reverse_cons, List.getElem?_append_left (by rwa [List.length_reverse])]

end Program

/-! ## Procedures before the last one -/

/-- A statement without the values of function definitions. -/
def Statement.undefined : Statement → Statement
  | misreadBefore text rest => misreadBefore text rest.undefined
  | ifThen condition action => ifThen condition action.undefined
  | ifThenElse condition action alternative =>
    ifThenElse condition action.undefined alternative.undefined
  | defFn d => defFn { d with definition := none }
  | st => st

/-- A line without the values of function definitions. -/
def Line.undefined (l : Line) : Line :=
  { l with
    earlier := l.earlier.map fun slot => { slot with statement := slot.statement.undefined }
    last := { l.last with statement := l.last.statement.undefined } }

/-- A procedure without the values of function definitions. -/
def Procedure.undefined (p : Procedure) : Procedure :=
  { p with lines := p.lines.map Line.undefined }

theorem Statement.undefined_define (closing : Closing) (st : Statement) :
    (st.define closing).undefined = st.undefined := by
  cases st <;> rfl

theorem Statement.undefined_amendAt_define (closing : Closing) (way : List Branch)
    (st : Statement) : (st.amendAt (define closing) way).undefined = st.undefined := by
  fun_induction amendAt (define closing) way st with
  | case1 st => exact undefined_define closing st
  | case2 way text rest ih => rw [undefined, undefined, ih]
  | case3 way condition action ih => rw [undefined, undefined, ih]
  | case4 way condition action alternative ih => rw [undefined, undefined, ih]
  | case5 way condition action alternative ih => rw [undefined, undefined, ih]
  | case6 => rfl

theorem map_amendFromEnd {α β : Type} {f : α → α} {g : α → β} (h : ∀ a, g (f a) = g a) (i : Nat)
    (entries : List α) : (amendFromEnd f i entries).map g = entries.map g := by
  induction entries with
  | nil => rfl
  | cons a entries ih =>
    rw [amendFromEnd_cons]
    split
    · rw [List.map_cons, h, List.map_cons]
    · rw [List.map_cons, ih, List.map_cons]

theorem Line.undefined_amendAt_define (closing : Closing) (i : Nat) (way : List Statement.Branch)
    (l : Line) : (l.amendAt (Statement.define closing) i way).undefined = l.undefined := by
  unfold amendAt
  split
  · simp only [undefined, Statement.undefined_amendAt_define]
  · simp only [undefined]
    rw [map_amendFromEnd]
    exact fun slot => by rw [Statement.undefined_amendAt_define]

/-- Giving a function definition its value changes nothing but values of function definitions. -/
theorem Procedure.undefined_amendAt_define (closing : Closing) (place : Place) (p : Procedure) :
    (p.amendAt (Statement.define closing) place).undefined = p.undefined := by
  simp only [amendAt, undefined]
  rw [map_amendFromEnd]
  exact fun l => l.undefined_amendAt_define closing place.statement place.way

namespace Program

/-- A program becomes another one when some of the function definitions at given places get values. -/
inductive Given (places : List Place) (p : Program) : Program → Prop where
  | none : Given places p p
  | value {p' : Program} (h : Given places p p') {place : Place} (hplace : place ∈ places) (x : Expr) :
    Given places p (p'.amendAt (Statement.define (.value x)) place)

namespace Given

variable {places places' : List Place} {p p' p'' : Program}

theorem trans (h : p.Given places p') (h' : p'.Given places p'') : p.Given places p'' := by
  induction h' with
  | none => exact h
  | value _ hplace x ih => exact ih.value hplace x

/-- Values change nothing but values of function definitions. -/
theorem undefined_eq (h : p.Given places p') (i : Nat) :
    p'.procedures[i]?.map Procedure.undefined = p.procedures[i]?.map Procedure.undefined := by
  induction h with
  | none => rfl
  | @value _ _ place _ x ih =>
    rw [procedures_amendAt, List.getElem?_modify, ← ih]
    split
    · simp [Function.comp_def, Procedure.undefined_amendAt_define]
    · simp

/-- What is given to some procedures of a program can be given to the same procedures of another
program, provided the places in them are open there too. -/
theorem follow {r : Program} {I : Nat → Prop} (h : p.Given places p')
    (hopen : ∀ place ∈ places, I place.procedure → place ∈ places')
    (hsame : ∀ i, I i → p.procedures[i]? = r.procedures[i]?) :
    ∃ r', r.Given places' r' ∧ ∀ i, I i → p'.procedures[i]? = r'.procedures[i]? := by
  induction h with
  | none => exact ⟨r, .none, hsame⟩
  | @value _ _ place hplace x ih =>
    obtain ⟨r', hr', hsame'⟩ := ih
    by_cases hI : I place.procedure
    · refine ⟨_, hr'.value (hopen place hplace hI) x, fun i hi => ?_⟩
      rw [procedures_amendAt, procedures_amendAt, List.getElem?_modify, List.getElem?_modify,
        hsame' i hi]
    · refine ⟨r', hr', fun i hi => ?_⟩
      have hne : place.procedure ≠ i := fun heq => hI (heq ▸ hi)
      rw [procedures_amendAt, List.getElem?_modify_ne _ _ hne, hsame' i hi]

end Given

end Program

namespace Decode

/-- What stays of a program while its last procedure is decoded: how many procedures there are, the
name and the variables of the last one, and the others but for values of function definitions that
are open in them. No function definition of the others is opened again. -/
structure State.Keeps (s s' : State) : Prop where
  length : s'.program.earlier.length = s.program.earlier.length
  name : s'.program.current.name = s.program.current.name
  static : s'.program.current.static = s.program.current.static
  given : ∃ p, s.program.Given s.openFns p ∧ ∀ i < s.program.earlier.length,
    s'.program.procedures[i]? = p.procedures[i]?
  opened : ∀ place ∈ s'.openFns, place.procedure < s.program.earlier.length → place ∈ s.openFns

theorem State.Keeps.refl (s : State) : s.Keeps s where
  length := rfl
  name := rfl
  static := rfl
  given := ⟨s.program, .none, fun _ _ => rfl⟩
  opened _ hplace _ := hplace

theorem State.Keeps.trans {s₁ s₂ s₃ : State} (h : s₁.Keeps s₂) (h' : s₂.Keeps s₃) :
    s₁.Keeps s₃ where
  length := h'.length.trans h.length
  name := h'.name.trans h.name
  static := h'.static.trans h.static
  given := by
    obtain ⟨p, hp, hsame⟩ := h.given
    obtain ⟨p', hp', hsame'⟩ := h'.given
    obtain ⟨r, hr, hr'⟩ := hp'.follow h.opened hsame
    exact ⟨r, hp.trans hr, fun i hi => (hsame' i (h.length ▸ hi)).trans (hr' i hi)⟩
  opened place hplace hlt := h.opened place (h'.opened place hplace (h.length ▸ hlt)) hlt

/-- The procedures before the last one stay, but for values of function definitions. -/
theorem State.Keeps.undefined {s s' : State} (h : s.Keeps s') (i : Nat)
    (hi : i < s.program.earlier.length) :
    s'.program.procedures[i]?.map Procedure.undefined =
      s.program.procedures[i]?.map Procedure.undefined := by
  obtain ⟨p, hp, hsame⟩ := h.given
  rw [hsame i hi, hp.undefined_eq]

/-- Changes of the last procedure do not reach the others. -/
theorem State.Keeps.of_earlier {s s' : State} (hearlier : s'.program.earlier = s.program.earlier)
    (hname : s'.program.current.name = s.program.current.name)
    (hstatic : s'.program.current.static = s.program.current.static)
    (hopen : ∀ place ∈ s'.openFns,
      place ∈ s.openFns ∨ place.procedure = s.program.earlier.length) : s.Keeps s' where
  length := by rw [hearlier]
  name := hname
  static := hstatic
  given := ⟨s.program, .none, fun i hi => by
    rw [Program.getElem?_procedures_of_lt hi, Program.getElem?_procedures_of_lt (hearlier ▸ hi),
      hearlier]⟩
  opened place hplace hlt := (hopen place hplace).resolve_right (Nat.ne_of_lt hlt)

/-- The function definition that was opened last gets its value, wherever it stands. -/
theorem keeps_closeTop (s : State) (x : Expr) : s.Keeps (s.closeTop (.value x)) := by
  unfold State.closeTop
  split
  · exact .refl s
  · rename_i place rest hopen
    have hplace : place ∈ s.openFns := by
      rw [hopen]
      exact List.mem_cons_self
    refine ⟨Program.length_earlier_amendAt .., Program.name_amendAt .., Program.static_amendAt ..,
      ⟨_, Program.Given.none.value hplace x, fun _ _ => rfl⟩, fun p hp _ => ?_⟩
    rw [hopen]
    exact List.mem_cons_of_mem _ hp

theorem Change.keeps {src : Source} {s s' : State} (h : Change src e s s') : s.Keeps s' := by
  cases h with
  | noted offset =>
    rw [State.noting_eq]
    exact .of_earlier rfl rfl rfl fun _ => .inl
  | operands stack arguments => exact .of_earlier rfl rfl rfl fun _ => .inl
  | line he l => exact .of_earlier rfl rfl rfl fun _ => .inl
  | placed hlast h => exact .of_earlier rfl rfl rfl fun _ => .inl
  | amended he st' hlast h => exact .of_earlier rfl rfl rfl fun _ => .inl
  | colon he column => exact .of_earlier rfl rfl rfl fun _ => .inl
  | commented he hlines hearlier hlast => exact .of_earlier rfl rfl rfl fun _ => .inl
  | kind kind => exact .of_earlier rfl rfl rfl fun _ => .inl
  | opened he h =>
    refine .of_earlier rfl rfl rfl fun place hplace => ?_
    rcases List.mem_cons.mp hplace with rfl | hold
    · exact .inr rfl
    · exact .inl hold
  | closed he x => exact keeps_closeTop s x

theorem Changes.keeps {src : Source} {s s' : State} (h : Changes src s s') : s.Keeps s' := by
  induction h with
  | refl => exact .refl s
  | tail _ hstep ih =>
    obtain ⟨e, hstep⟩ := hstep
    exact ih.trans hstep.keeps

end Decode

end SavedBasic
