import SavedBasic.Proofs.OptionalArguments

/-!
# Methods

A method of an object is called for its effect or for its value. The object is pushed first, then the
arguments, and the opcode says how many there are; the word behind it stands for the name. An argument
may be left out, and a mark takes its place on the stack. However many arguments a call has, decoding
succeeds and keeps them all. Only a call without arguments has a text, though.
-/

namespace SavedBasic

open Decode Instruction

variable {v : Version} {src : Source} {names : Nat → Except Fault Identifier} {p q : Nat}

/-! ## How calls are written -/

/-- The opcodes that call a method for its effect, with the number of arguments. -/
def methodStatements : List (Nat × Nat) :=
  [(0x01C9, 0), (0x01CA, 1), (0x01CB, 1), (0x01CC, 2), (0x01CD, 3), (0x01CE, 4), (0x01CF, 2)]

/-- The opcodes that call a method for its value, with the number of arguments. -/
def methodValues : List (Nat × Nat) :=
  [(0x01D0, 0), (0x01D1, 1)]

/-- A call of a method. -/
structure Method where
  /-- the object -/
  target : Expr
  /-- the name of the method -/
  name : String
  /-- the arguments, of which some may be left out -/
  args : List (Option Expr)

/-- What the arguments leave on the stack. -/
def Method.operands (m : Method) : List Expr :=
  m.args.map fun arg => arg.getD .omitted

/-- From `p` to `q` a file has an argument, or the mark of one that is left out. -/
inductive MethodArgumentAt (v : Version) (src : Source) (names : Nat → Except Fault Identifier)
    (p : Nat) : (q : Nat) → Option Expr → Prop where
  | present {q : Nat} {e : Expr} (h : Pushed v src names p q [e]) :
    MethodArgumentAt v src names p q (some e)
  | absent {code parameter : Nat} (hcode : code = 0x01C7 ∨ code = 0x01C8)
    (h : InstructionAt v src p code parameter) : MethodArgumentAt v src names p (p + 2) none

/-- From `p` to `q` a file calls a method with one of the given opcodes. The method `PRINT` is left out:
it begins an output statement. -/
inductive MethodAt (v : Version) (src : Source) (names : Nat → Except Fault Identifier)
    (codes : List (Nat × Nat)) (p : Nat) : (q : Nat) → Method → Prop where
  | intro {p₁ q code parameter number : Nat} {m : Method}
    (htarget : Pushed v src names p p₁ [m.target])
    (hargs : SequenceAt (MethodArgumentAt v src names) p₁ q m.args)
    (hcode : (code, m.args.length) ∈ codes) (h : InstructionAt v src q code parameter)
    (hnumber : src.natLE (q + 2) 2 = .ok number) (hname : methodNames.lookup number = some m.name)
    (hprint : m.name ≠ "PRINT") : MethodAt v src names codes p (q + 4) m

/-! ## What lies on the stack -/

theorem MethodArgumentAt.pushed {arg : Option Expr} (h : MethodArgumentAt v src names p q arg) :
    Pushed v src names p q [arg.getD .omitted] := by
  cases h with
  | present h => exact h
  | absent hcode h => rcases hcode with rfl | rfl <;> exact h.pushed rfl

/-- The object and the arguments are pushed, one behind the other. -/
theorem pushed_method {m : Method} {p₁ : Nat} (htarget : Pushed v src names p p₁ [m.target])
    (hargs : SequenceAt (MethodArgumentAt v src names) p₁ q m.args) :
    Pushed v src names p q (m.target :: m.operands) := by
  have hoperands := hargs.pushed MethodArgumentAt.pushed
  rw [← List.map_eq_flatMap] at hoperands
  exact htarget.append hoperands

theorem run_methodOf {m : Method} {s : State} {pos number : Nat} {below : List Expr}
    (hstack : s.stack = (m.target :: m.operands).reverse ++ below)
    (hnumber : src.natLE pos 2 = .ok number) (hname : methodNames.lookup number = some m.name) :
    (methodOf m.args.length).run src pos s =
      (.ok (m.target, m.name, m.operands), pos + 2, { s with stack := below }) := by
  rw [List.reverse_cons, List.append_assoc] at hstack
  have hlength : m.args.length = m.operands.length := by
    rw [Method.operands, List.length_map]
  rw [methodOf, hlength, run_bind_ok (run_popMany_operands hstack src pos),
    run_bind_ok (run_pop_operand rfl src pos), run_bind_ok (run_word_ok hnumber _), lookUp, hname]
  rfl

theorem turns_methodOf {m : Method} {pos number : Nat} {st : Statement} {below : List Expr}
    {arguments : Arguments} (hnumber : src.natLE pos 2 = .ok number)
    (hname : methodNames.lookup number = some m.name) :
    Turns src names (methodOf m.args.length) pos (pos + 2) (.ok (m.target, m.name, m.operands))
      ⟨st, (m.target :: m.operands).reverse ++ below, arguments⟩ ⟨st, below, arguments⟩ := by
  refine turns_of_run fun s ha => ?_
  rw [run_methodOf ha.stack hnumber hname, State.turned, setLast_of_last? ha.last, ← ha.arguments]

/-! ## The text of a call -/

section Texts

variable {m : Method} {text : String} {texts : List (Option String)}

/-- The texts of the arguments are found, but a call has no text unless there are none of them. -/
theorem Method.render_statement (hargs : Circle.Shows m.args texts) (htarget : m.target.render = .ok text)
    (column : Nat) :
    (Statement.methodCall m.target m.name m.operands).render column =
      if m.args.isEmpty then .ok (text ++ "." ++ m.name) else .error .noSuchPart := by
  change (renderOptional _ >>= fun texts => m.target.render >>= fun target => _) = _
  rw [Method.operands, renderOptional_getD hargs, htarget]
  generalize m.args = args at hargs
  cases hargs <;> rfl

theorem Method.render_value (hargs : Circle.Shows m.args texts) (htarget : m.target.render = .ok text) :
    (Expr.method m.target m.name m.operands).render =
      if m.args.isEmpty then .ok (text ++ "." ++ m.name ++ "()") else .error .noSuchPart := by
  rw [Expr.render, Method.operands, renderOptional_getD hargs, htarget]
  generalize m.args = args at hargs
  cases hargs <;> rfl

end Texts

/-! ## Calls on a line -/

/-- The handler finds the object, the name and so many arguments, and puts the call of the method
unless the method is `PRINT`. -/
def CallsMethod (handler : Handler) (count : Nat) : Prop :=
  ∃ k : Expr × String × List Expr → Decode Unit,
    (∀ v parameter, handler v parameter = methodOf count >>= k) ∧
      ∀ target name args, name ≠ "PRINT" → k (target, name, args) = put (.methodCall target name args)

theorem callsMethod_methodCall (count : Nat) : CallsMethod (methodCall count) count :=
  ⟨_, fun _ _ => rfl, fun _ _ _ _ => rfl⟩

theorem callsMethod_plainMethod : CallsMethod (always plainMethod) 0 :=
  ⟨_, fun _ _ => rfl, fun _ _ _ hprint => if_neg hprint⟩

theorem lookup_methodStatements {code count : Nat} (h : (code, count) ∈ methodStatements) :
    ∃ handler, table.lookup code = some handler ∧ CallsMethod handler count := by
  simp only [methodStatements, List.mem_cons, Prod.mk.injEq, List.not_mem_nil, or_false] at h
  rcases h with ⟨rfl, rfl⟩ | ⟨rfl, rfl⟩ | ⟨rfl, rfl⟩ | ⟨rfl, rfl⟩ | ⟨rfl, rfl⟩ | ⟨rfl, rfl⟩ | ⟨rfl, rfl⟩
  · exact ⟨_, rfl, callsMethod_plainMethod⟩
  all_goals exact ⟨_, rfl, callsMethod_methodCall _⟩

theorem lookup_methodValues {code count : Nat} (h : (code, count) ∈ methodValues) :
    table.lookup code = some (methodValue count) := by
  simp only [methodValues, List.mem_cons, Prod.mk.injEq, List.not_mem_nil, or_false] at h
  rcases h with ⟨rfl, rfl⟩ | ⟨rfl, rfl⟩ <;> rfl

/-- A call for its effect becomes the statement of its line. -/
theorem MethodAt.carries {m : Method} (h : MethodAt v src names methodStatements p q m) :
    Carries v src names p q .fresh ⟨.methodCall m.target m.name m.operands, [], .none⟩ := by
  cases h with
  | intro htarget hargs hcode h hnumber hname hprint =>
    obtain ⟨handler, hlookup, k, hhandler, hk⟩ := lookup_methodStatements hcode
    refine h.takes (pushed_method htarget hargs) hlookup ?_
    rw [hhandler]
    refine (turns_methodOf hnumber hname).bind ?_
    rw [hk _ _ _ hprint]
    exact turns_put rfl

/-- A call for its value is pushed. -/
theorem MethodAt.pushed {m : Method} (h : MethodAt v src names methodValues p q m) :
    Pushed v src names p q [.method m.target m.name m.operands] := by
  cases h with
  | intro htarget hargs hcode h hnumber hname _ =>
    intro s hnames
    obtain ⟨symbols, hrun⟩ := pushed_method htarget hargs s hnames
    refine ⟨symbols, hrun.step ?_⟩
    rw [h.run_step (lookup_methodValues hcode), methodValue, always,
      run_bind_ok (run_methodOf rfl hnumber hname), run_push]
    rfl

/-- **Calls of methods.** Take a known method other than `PRINT`, an object and any arguments, some of
which may be left out, such that the object and the arguments have texts.

On a new line with the instructions of the call, decoding succeeds and leaves nothing on the stack, and
the line has exactly this statement, with every argument in its place. Its text is the object's and the
name behind a period if there is no argument. With arguments there is no text: rendering fails.

A call for its value is pushed, with every argument in its place. Its text ends in `()` if there is no
argument, and with arguments there is none. -/
theorem methodCall_text {s : State} {m : Method} {text : String}
    {texts : List (Option String)} (htarget : m.target.render = .ok text)
    (htexts : Circle.Shows m.args texts) :
    (∀ (pos indent : Nat) (label : Option Identifier),
      LineAt v src (s.identifierAt src) pos p label indent →
      MethodAt v src (s.identifierAt src) methodStatements p q m →
      ∃ t l, (instructions v q).run src pos s = (.ok (), q, t) ∧ t.stack = [] ∧
        t.program.current.lines = l :: s.program.current.lines ∧
        l.statements = [.methodCall m.target m.name m.operands] ∧
        l.render = if m.args.isEmpty then .ok (Line.margin label indent ++ (text ++ "." ++ m.name))
          else .error .noSuchPart) ∧
    (MethodAt v src (s.identifierAt src) methodValues p q m →
      Pushed v src (s.identifierAt src) p q [.method m.target m.name m.operands] ∧
      (Expr.method m.target m.name m.operands).render =
        if m.args.isEmpty then .ok (text ++ "." ++ m.name ++ "()") else .error .noSuchPart) := by
  refine ⟨fun pos indent label hline h => ?_, fun h => ⟨h.pushed, m.render_value htexts htarget⟩⟩
  obtain ⟨t, hrun, hstack, hlines⟩ := h.carries.adds_line hline
  refine ⟨t, _, hrun, hstack, hlines, rfl, ?_⟩
  rw [Line.render_setLast_start, m.render_statement htexts htarget]
  cases m.args.isEmpty <;> rfl

/-- A file of Visual Basic that has one name, `A`. -/
def objectFile (code : Bytes) : Source :=
  .ofBytes (List.replicate 0x20 0 ++ Key.namedEntry [0x41] ++ code)

/-- The object `A` is pushed. -/
theorem pushed_A (hA : names 0 = .ok nameA)
    (hpush : src.Holds p (Assembly.codeBytes [⟨0x000B, 0, [.word 0]⟩])) :
    Pushed .vbdos src names p (p + 4) [.var nameA] :=
  (Postfix.cons .nil (.var (.plain (by decide) rfl hA)) .nil).pushed (by decide) hpush

/-- The argument 1 is pushed. -/
theorem pushed_one (hpush : src.Holds p (Assembly.codeBytes [⟨0x0164, 1, []⟩])) :
    Pushed .vbdos src names p (p + 2) [.number 1] :=
  (Postfix.cons .nil (.small (by decide)) .nil).pushed (by decide) hpush

/-- A line with `A.CLS`. -/
def clearFile : Source :=
  objectFile [0x00, 0x00, 0x0B, 0x00, 0x00, 0x00, 0xC9, 0x01, 0x01, 0x00]

/-- A line that calls the method `MOVE` of `A`, with the second of two arguments. -/
def moveFile : Source :=
  objectFile [0x00, 0x00, 0x0B, 0x00, 0x00, 0x00, 0xC7, 0x01, 0x64, 0x05, 0xCC, 0x01, 0x03, 0x00]

/-- The value of `A.GETTEXT()`. -/
def textFile : Source :=
  objectFile [0x0B, 0x00, 0x00, 0x00, 0xD0, 0x01, 0x0F, 0x01]

theorem methodCalls_decoded :
    (∃ t l, (instructions .vbdos 0x30).run clearFile 0x26 (.start .vbdos) = (.ok (), 0x30, t) ∧
      t.stack = [] ∧ t.program.current.lines = [l] ∧
      l.statements = [.methodCall (.var nameA) "CLS" []] ∧ l.render = .ok "A.CLS") ∧
    (∃ t l, (instructions .vbdos 0x34).run moveFile 0x26 (.start .vbdos) = (.ok (), 0x34, t) ∧
      t.stack = [] ∧ t.program.current.lines = [l] ∧
      l.statements = [.methodCall (.var nameA) "MOVE" [.omitted, .number 1]] ∧
      l.render = .error .noSuchPart) ∧
    Pushed .vbdos textFile ((State.start .vbdos).identifierAt textFile) 0x26 0x2E
      [.method (.var nameA) "GETTEXT" []] ∧
    (Expr.method (.var nameA) "GETTEXT" []).render = .ok "A.GETTEXT()" := by
  have hclear : MethodAt .vbdos clearFile ((State.start .vbdos).identifierAt clearFile)
      methodStatements 0x28 0x30 ⟨.var nameA, "CLS", []⟩ :=
    .intro (pushed_A rfl ⟨_, rfl⟩) .nil (by decide) ⟨_, rfl, rfl⟩ rfl rfl (by decide)
  have hmove : MethodAt .vbdos moveFile ((State.start .vbdos).identifierAt moveFile)
      methodStatements 0x28 0x34 ⟨.var nameA, "MOVE", [none, some (.number 1)]⟩ :=
    .intro (pushed_A rfl ⟨_, rfl⟩)
      (.cons (.absent (.inl rfl) ⟨_, rfl, rfl⟩)
        (.cons (.present (pushed_one ⟨_, rfl⟩)) .nil))
      (by decide) ⟨_, rfl, rfl⟩ rfl rfl (by decide)
  have htext : MethodAt .vbdos textFile ((State.start .vbdos).identifierAt textFile)
      methodValues 0x26 0x2E ⟨.var nameA, "GETTEXT", []⟩ :=
    .intro (pushed_A rfl ⟨_, rfl⟩) .nil (by decide) ⟨_, rfl, rfl⟩ rfl rfl (by decide)
  refine ⟨?_, ?_, ?_⟩
  · exact (methodCall_text rfl .nil).1 _ _ _ (.plain ⟨_, rfl, rfl⟩) hclear
  · exact (methodCall_text rfl (.cons .none (.cons (.some rfl) .nil))).1 _ _ _
      (.plain ⟨_, rfl, rfl⟩) hmove
  · exact (methodCall_text rfl .nil).2 htext

/-- A line that calls the method `ADDITEM` of `A`, with the argument 1. -/
def addItemFile : Source :=
  objectFile [0x00, 0x00, 0x0B, 0x00, 0x00, 0x00, 0x64, 0x05, 0xCA, 0x01, 0x00, 0x00]

/-- The line is decoded, the object and the argument have texts, and the line has none. -/
theorem addItem_without_text :
    MethodAt .vbdos addItemFile ((State.start .vbdos).identifierAt addItemFile) methodStatements
      0x28 0x32 ⟨.var nameA, "ADDITEM", [some (.number 1)]⟩ ∧
    (Expr.var nameA).render = .ok "A" ∧ (Expr.number 1).render = .ok "1" ∧
    ∃ t l, (instructions .vbdos 0x32).run addItemFile 0x26 (.start .vbdos) = (.ok (), 0x32, t) ∧
      t.program.current.lines = [l] ∧ l.render = .error .noSuchPart := by
  have hcall : MethodAt .vbdos addItemFile ((State.start .vbdos).identifierAt addItemFile)
      methodStatements 0x28 0x32 ⟨.var nameA, "ADDITEM", [some (.number 1)]⟩ :=
    .intro (pushed_A rfl ⟨_, rfl⟩) (.cons (.present (pushed_one ⟨_, rfl⟩)) .nil)
      (by decide) ⟨_, rfl, rfl⟩ rfl rfl (by decide)
  obtain ⟨t, hrun, -, hlines⟩ := hcall.carries.adds_line (.plain ⟨_, rfl, rfl⟩)
  exact ⟨hcall, rfl, rfl, t, _, hrun, hlines, rfl⟩

end SavedBasic
