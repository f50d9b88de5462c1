import SavedBasic.Proofs.Circles

/-!
# Arguments that may be left out

The arguments of `CLEAR`, `COLOR`, `LOCATE` and `SCREEN` may each be left out. Two marks tell which are
there: one lies on the stack below an argument that is there, the other one stands for an argument that
is not. The word behind the opcode counts all that lies on the stack, and what is left once the marks
of the first kind are taken away has every argument in its place. In the text of the statement, an
argument that is left out is an empty place between two commas, and the places behind the last argument
that is there are not written.
-/

namespace SavedBasic

open Decode Instruction

variable {v : Version} {src : Source} {names : Nat → Except Fault Identifier} {p q : Nat}

/-! ## How such statements are written -/

/-- A statement whose arguments may be left out. -/
inductive MarkedStatement where
  /-- memory is cleared -/
  | clear
  /-- the colors of the screen are set -/
  | color
  /-- the cursor is moved -/
  | locate
  /-- the mode of the screen is set -/
  | screen

namespace MarkedStatement

/-- The opcode of the statement. -/
def code : MarkedStatement → Nat
  | clear => 0x00A1
  | color => 0x00A4
  | locate => 0x00C1
  | screen => 0x00E7

/-- The keyword of the statement. -/
def keyword : MarkedStatement → String
  | clear => "CLEAR"
  | color => "COLOR"
  | locate => "LOCATE"
  | screen => "SCREEN"

/-- The text of the statement, given those of its arguments. -/
def text (kind : MarkedStatement) (texts : List (Option String)) : String :=
  match Circle.upToLast texts with
  | [] => kind.keyword
  | shown => kind.keyword ++ " " ++ Text.join ", " shown

end MarkedStatement

/-- From `p` to `q` a file has an argument with the mark in front of it, or the mark of an argument that
is left out. -/
inductive OptionalArgumentAt (v : Version) (src : Source) (names : Nat → Except Fault Identifier)
    (p : Nat) : (q : Nat) → Option Expr → Prop where
  | present {q parameter : Nat} {e : Expr} (h : InstructionAt v src p 0x0173 parameter)
    (he : Pushed v src names (p + 2) q [e]) : OptionalArgumentAt v src names p q (some e)
  | absent {parameter : Nat} (h : InstructionAt v src p 0x0172 parameter) :
    OptionalArgumentAt v src names p (p + 2) none

/-- From `p` to `q` a file has the instructions of a statement with arguments that may be left out. -/
inductive MarkedStatementAt (v : Version) (src : Source) (names : Nat → Except Fault Identifier)
    (p : Nat) : (q : Nat) → MarkedStatement → List (Option Expr) → Prop where
  | intro {q parameter : Nat} {kind : MarkedStatement} {args : List (Option Expr)}
    (hargs : SequenceAt (OptionalArgumentAt v src names) p q args)
    (h : InstructionAt v src q kind.code parameter)
    (hcount : src.natLE (q + 2) 2 = .ok (args.length + args.countP Option.isSome)) :
    MarkedStatementAt v src names p (q + 4) kind args

/-! ## What lies on the stack -/

/-- What an argument leaves on the stack. -/
def markedOperands : Option Expr → List Expr
  | some e => [.mark, e]
  | none => [.omitted]

theorem OptionalArgumentAt.pushed {arg : Option Expr} (h : OptionalArgumentAt v src names p q arg) :
    Pushed v src names p q (markedOperands arg) := by
  cases h with
  | present h he => exact (h.pushed rfl).append he
  | absent h => exact h.pushed rfl

theorem length_markedOperands (args : List (Option Expr)) :
    (args.flatMap markedOperands).length = args.length + args.countP Option.isSome := by
  induction args with
  | nil => rfl
  | cons arg args ih =>
    rw [List.flatMap_cons, List.length_append, ih, List.length_cons]
    cases arg with
    | none =>
      rw [List.countP_cons_of_neg (by simp), markedOperands, List.length_singleton]
      omega
    | some e =>
      rw [List.countP_cons_of_pos rfl, markedOperands, List.length_cons, List.length_singleton]
      omega

/-! ## The text of the statement -/

section Texts

variable {args : List (Option Expr)} {texts : List (Option String)}

theorem not_isMark_of_render {e : Expr} {text : String} (h : e.render = .ok text) :
    e.isMark = false := by
  cases e with
  | mark => cases h
  | _ => rfl

/-- Without the marks of those that are there, each argument stands in its place. -/
theorem filter_markedOperands (h : Circle.Shows args texts) :
    (args.flatMap markedOperands).filter (fun e => !e.isMark) =
      args.map fun arg => arg.getD .omitted := by
  induction h with
  | nil => rfl
  | cons harg _ ih =>
    rw [List.flatMap_cons, List.filter_append, ih, List.map_cons]
    cases harg with
    | none => rfl
    | some hrender =>
      rw [markedOperands, List.filter_cons_of_neg (by simp [Expr.isMark]),
        List.filter_cons_of_pos (by simp [not_isMark_of_render hrender])]
      rfl

theorem renderOptional_getD (h : Circle.Shows args texts) :
    renderOptional (args.map fun arg => arg.getD .omitted) =
      .ok (texts.map fun text => text.getD "") := by
  induction h with
  | nil => rfl
  | cons harg _ ih =>
    rw [List.map_cons, List.map_cons]
    cases harg with
    | none =>
      rw [Option.getD_none, renderOptional, ih]
      rfl
    | some hrender =>
      rw [Option.getD_some, Circle.renderOptional_cons hrender, ih]
      rfl

/-- No text that is there is taken for one that is left out. -/
theorem all_getD_eq_empty (h : some "" ∉ texts) :
    (texts.map fun text => text.getD "").all (· == "") = texts.all Option.isNone := by
  induction texts with
  | nil => rfl
  | cons text texts ih =>
    obtain ⟨hne, hrest⟩ := List.ne_and_not_mem_of_not_mem_cons h
    rw [List.map_cons, List.all_cons, List.all_cons, ih hrest]
    cases text with
    | none => rfl
    | some text =>
      have hfalse : (text == "") = false := by
        rw [beq_eq_false_iff_ne]
        rintro rfl
        exact hne rfl
      rw [Option.getD_some, hfalse]
      rfl

theorem dropTrailingEmpty_getD (h : some "" ∉ texts) :
    Text.dropTrailingEmpty (texts.map fun text => text.getD "") = Circle.upToLast texts := by
  induction texts with
  | nil => rfl
  | cons text texts ih =>
    have hall := all_getD_eq_empty h
    rw [Text.dropTrailingEmpty] at ih ⊢
    rw [List.map_cons] at hall ⊢
    rw [Circle.trim_cons, hall, ih (List.not_mem_of_not_mem_cons h), Circle.upToLast]

theorem MarkedStatement.render_command (kind : MarkedStatement) (h : Circle.Shows args texts)
    (hne : some "" ∉ texts) (column : Nat) :
    (Statement.command kind.keyword (args.map fun arg => arg.getD .omitted)).render column =
      .ok (kind.text texts) := by
  change (renderOptional _ >>= fun texts => _) = _
  rw [renderOptional_getD h]
  change Except.ok (if (Text.dropTrailingEmpty _).isEmpty then _ else _) = _
  rw [dropTrailingEmpty_getD hne, MarkedStatement.text]
  rcases Circle.upToLast texts with _ | ⟨shown, rest⟩ <;> rfl

end Texts

/-! ## Such statements on a line -/

theorem MarkedStatement.lookup_code (kind : MarkedStatement) :
    table.lookup kind.code = some (always (word >>= markedCommand kind.keyword)) := by
  have hmem : (kind.code, kind.keyword) ∈ markedCommands := by
    cases kind <;> decide
  apply lookup_builtins
  simp only [builtins, List.mem_append, List.mem_map]
  exact .inl (.inl (.inl (.inr ⟨_, hmem, rfl⟩)))

theorem MarkedStatementAt.carries {kind : MarkedStatement} {args : List (Option Expr)}
    {texts : List (Option String)} (h : MarkedStatementAt v src names p q kind args)
    (htexts : Circle.Shows args texts) :
    Carries v src names p q .fresh
      ⟨.command kind.keyword (args.map fun arg => arg.getD .omitted), [], .none⟩ := by
  cases h with
  | intro hargs h hcount =>
    rw [← length_markedOperands] at hcount
    rw [← filter_markedOperands htexts]
    exact h.takes (hargs.pushed OptionalArgumentAt.pushed) kind.lookup_code
      ((turns_word hcount).bind ((turns_popMany _).bind (turns_put rfl)))

/-- **Arguments that may be left out.** Let a new line have the instructions of `CLEAR`, `COLOR`,
`LOCATE` or `SCREEN` with arguments of which any may be left out, and let no argument that is there have
an empty text. Decoding succeeds and leaves nothing on the stack. The line has exactly this statement,
with every argument in its place, and its text shows the arguments up to the last one that is there,
with nothing between the commas of one that is left out. -/
theorem optionalArguments_on_line {s : State} {pos indent : Nat} {label : Option Identifier}
    {kind : MarkedStatement} {args : List (Option Expr)} {texts : List (Option String)}
    (hline : LineAt v src (s.identifierAt src) pos p label indent)
    (h : MarkedStatementAt v src (s.identifierAt src) p q kind args)
    (htexts : Circle.Shows args texts) (hne : some "" ∉ texts) :
    ∃ t l, (instructions v q).run src pos s = (.ok (), q, t) ∧ t.stack = [] ∧
      t.program.current.lines = l :: s.program.current.lines ∧
      l.statements = [.command kind.keyword (args.map fun arg => arg.getD .omitted)] ∧
      l.render = .ok (Line.margin label indent ++ kind.text texts) := by
  obtain ⟨t, hrun, hstack, hlines⟩ := (h.carries htexts).adds_line hline
  refine ⟨t, _, hrun, hstack, hlines, rfl, ?_⟩
  rw [Line.render_setLast_start, kind.render_command htexts hne]
  rfl

/-- A line that moves the cursor, with the second and the fourth of five arguments. -/
def locateFile : Source :=
  lineFile [0x72, 0x01, 0x73, 0x01, 0x64, 0x09, 0x72, 0x01, 0x73, 0x01, 0x64, 0x0D, 0x72, 0x01, 0xC1,
    0x00, 0x07, 0x00]

theorem locateFile_decoded :
    ∃ t l, (instructions .qb45 0x36).run locateFile 0x22 (.start .qb45) = (.ok (), 0x36, t) ∧
      t.stack = [] ∧ t.program.current.lines = [l] ∧
      l.statements =
        [.command "LOCATE" [.omitted, .number 2, .omitted, .number 3, .omitted]] ∧
      l.render = .ok "LOCATE , 2, , 3" := by
  have hargs : SequenceAt (OptionalArgumentAt .qb45 locateFile
      ((State.start .qb45).identifierAt locateFile)) 0x24 0x32
      [none, some (.number 2), none, some (.number 3), none] :=
    .cons (.absent ⟨_, rfl, rfl⟩)
      (.cons (.present ⟨_, rfl, rfl⟩ (pushed_small (by decide) ⟨_, rfl⟩))
        (.cons (.absent ⟨_, rfl, rfl⟩)
          (.cons (.present ⟨_, rfl, rfl⟩ (pushed_small (by decide) ⟨_, rfl⟩))
            (.cons (.absent ⟨_, rfl, rfl⟩) .nil))))
  have htexts : Circle.Shows [none, some (.number 2), none, some (.number 3), none]
      [none, some "2", none, some "3", none] :=
    .cons .none (.cons (.some rfl) (.cons .none (.cons (.some rfl) (.cons .none .nil))))
  have hlocate : MarkedStatementAt .qb45 locateFile ((State.start .qb45).identifierAt locateFile) 0x24
      0x36 .locate [none, some (.number 2), none, some (.number 3), none] :=
    .intro hargs ⟨_, rfl, rfl⟩ rfl
  exact optionalArguments_on_line (.plain ⟨_, rfl, rfl⟩) hlocate htexts (by decide)

end SavedBasic
