import SavedBasic.Proofs.Workspace

/-!
# A label behind `ELSE`

A single-line `IF` may have a label alone in its other branch. The instruction of such an `ELSE` is
placed like any other `ELSE`, but takes an operand from the stack first and drops it. Behind an `IF`
whose first branch is an assignment or a label, written on a line of its own, no operand is left: then
the instruction fails, and the `IF` stays without its `ELSE`. The conditional is complete exactly if
something else has pushed an operand that nothing needs.
-/

namespace SavedBasic

open Decode Instruction

variable {v : Version} {src : Source} {names : Nat → Except Fault Identifier} {p q : Nat}

/-- From `p` to `q` a file has an `IF` whose first branch is an assignment or a label. -/
inductive PlainIf (v : Version) (src : Source) (names : Nat → Except Fault Identifier) (p : Nat) :
    (q : Nat) → (condition : Expr) → (action : Statement) → Prop where
  | assign {q r u parameter ignored : Nat} {condition : Expr} {es : List Expr} {t : Transfer}
    (hcondition : Pushed v src names p q [condition]) (hthen : InstructionAt v src q 0x005D parameter)
    (hword : src.natLE (q + 2) 2 = .ok ignored) (hes : Pushed v src names (q + 4) r es)
    (ht : Assigns v src names r u es t) : PlainIf v src names p u condition (.transfer t)
  | jump {q parameter offset : Nat} {condition : Expr} {target : Identifier}
    (hcondition : Pushed v src names p q [condition]) (hthen : InstructionAt v src q 0x005E parameter)
    (hoffset : src.natLE (q + 2) 2 = .ok offset) (htarget : names offset = .ok target) :
    PlainIf v src names p (q + 4) condition (.jump target)

/-- The instruction of an assignment puts it into the open place. -/
theorem Assigns.carries {r : Nat} {es : List Expr} {t : Transfer} {st st' : Statement}
    (h : Assigns v src names q r es t) (htakes : st.takesTransfer = false)
    (hplace : st.place (.transfer t) = .placed st') (below : List Expr) (arguments : Arguments) :
    Carries v src names q r ⟨st, es.reverse ++ below, arguments⟩ ⟨st', below, arguments⟩ := by
  intro s hnames ha
  subst hnames
  obtain ⟨symbols, hstep⟩ := h.run_step ha.stack ha.last htakes hplace
  refine ⟨symbols, .step .refl ?_⟩
  rw [hstep, State.turned, ← ha.arguments]
  rfl

/-- On a new line, an `IF` with its first branch leaves no operand. -/
theorem PlainIf.carries {condition : Expr} {action : Statement}
    (h : PlainIf v src names p q condition action) :
    Carries v src names p q .fresh ⟨.ifThen condition action, [], .none⟩ := by
  cases h with
  | @assign q r u parameter ignored condition es t hcondition hthen hword hes ht =>
    have hif : Carries v src names q (q + 4) ⟨.empty, [condition], .none⟩
        ⟨.ifThen condition .empty, [], .none⟩ :=
      hthen.carries rfl ((turns_pop condition).bind ((turns_put rfl).bind (turns_skipWord hword)))
    exact ((hcondition.carries _ _ _).trans hif).trans
      ((hes.carries _ _ _).trans (ht.carries rfl rfl [] .none))
  | jump hcondition hthen hoffset htarget =>
    exact hthen.takes hcondition rfl
      ((turns_pop _).bind ((turns_identifier hoffset htarget).bind (turns_put rfl)))

/-- An `ELSE` with a label is put behind the first branch, once an operand has been dropped. -/
theorem carries_else {r parameter ignored offset : Nat} {condition dropped : Expr}
    {action : Statement} {target : Identifier} {below : List Expr}
    (hfull : ∀ new, action.place new = .full)
    (helse : InstructionAt v src r 0x004C parameter) (hword : src.natLE (r + 2) 2 = .ok ignored)
    (hoffset : src.natLE (r + 4) 2 = .ok offset) (htarget : names offset = .ok target) :
    Carries v src names r (r + 6) ⟨.ifThen condition action, dropped :: below, .none⟩
      ⟨.ifThenElse condition action (.jump target), below, .none⟩ := by
  have hplace : (Statement.ifThen condition action).place (.otherwise (.jump target)) =
      .placed (.ifThenElse condition action (.jump target)) := by
    rw [Statement.place, hfull]
  exact helse.carries rfl ((turns_pop dropped).bind ((turns_skipWord hword).bind
    ((turns_identifier hoffset htarget).bind (turns_put hplace))))

/-- Neither an assignment nor a label takes another statement. -/
theorem PlainIf.place_action {condition : Expr} {action : Statement}
    (h : PlainIf v src names p q condition action) (new : Statement) : action.place new = .full := by
  cases h <;> rfl

theorem Statement.render_ifThenElse_jump (column : Nat) (condition : Expr) (action : Statement)
    (target : Identifier) :
    (Statement.ifThenElse condition action (.jump target)).render column = do
      return "IF " ++ (← condition.render) ++ " THEN " ++ (← action.render column) ++ " ELSE " ++
        target.render := rfl

/-- **A label behind `ELSE` needs an operand.** Let a new line have an `IF` whose first branch is an
assignment or a label, operands that are pushed behind it, and an `ELSE` with a label. If there are no
such operands, decoding fails at the `ELSE`, because the stack is empty, and the line keeps the `IF`
without it. If there are, it succeeds, drops the topmost of them, and the line has exactly the `IF`
with both branches, and its text. -/
theorem else_label_on_line {s : State} {pos r indent parameter ignored offset : Nat}
    {label : Option Identifier} {condition : Expr} {action : Statement} {es : List Expr}
    {target : Identifier} (hline : LineAt v src (s.identifierAt src) pos p label indent)
    (hif : PlainIf v src (s.identifierAt src) p q condition action)
    (hes : Pushed v src (s.identifierAt src) q r es)
    (helse : InstructionAt v src r 0x004C parameter) (hword : src.natLE (r + 2) 2 = .ok ignored)
    (hoffset : src.natLE (r + 4) 2 = .ok offset) (htarget : s.identifierAt src offset = .ok target) :
    (es = [] → ∃ t l, (instructions v (r + 6)).run src pos s = (.error .emptyStack, r + 2, t) ∧
      t.program.current.lines = l :: s.program.current.lines ∧
      l.statements = [.ifThen condition action]) ∧
    ∀ below dropped, es = below ++ [dropped] →
      ∃ t l, (instructions v (r + 6)).run src pos s = (.ok (), r + 6, t) ∧
        t.stack = below.reverse ∧ t.program.current.lines = l :: s.program.current.lines ∧
        l.statements = [.ifThenElse condition action (.jump target)] ∧
        ∀ first second, condition.render = .ok first →
          action.render (Line.margin label indent).length = .ok second →
          l.render = .ok (Line.margin label indent ++
            ("IF " ++ first ++ " THEN " ++ second ++ " ELSE " ++ target.render)) := by
  have hoperands := hif.carries.trans (hes.carries _ _ _)
  constructor
  · rintro rfl
    obtain ⟨t, hrun, hlines⟩ := hoperands.fails_on_line hline helse rfl turns_pop_nil.bind_error
      (by omega : r < r + 6)
    exact ⟨t, _, hrun, hlines, rfl⟩
  · rintro below dropped rfl
    rw [List.append_nil, List.reverse_append, List.reverse_singleton, List.singleton_append]
      at hoperands
    obtain ⟨t, hrun, hstack, hlines⟩ := (hoperands.trans
      (carries_else hif.place_action helse hword hoffset htarget)).adds_line hline
    refine ⟨t, _, hrun, hstack, hlines, rfl, fun first second hfirst hsecond => ?_⟩
    rw [Line.render_setLast_start, Statement.render_ifThenElse_jump, hfirst, hsecond]
    rfl

/-- A line with `IF 1 THEN A = 2 ELSE A`, and instructions in front of the `ELSE`. -/
def elseLabelFile (code : Bytes) : Source :=
  lineFile ([0x64, 0x05, 0x5D, 0x00, 0x00, 0x00, 0x64, 0x09, 0x0C, 0x00, 0x00, 0x00] ++ code ++
    [0x4C, 0x00, 0x00, 0x00, 0x00, 0x00])

/-- The assignment of a number to `A` behind `IF` and another number. -/
theorem plainIf_assignA {m n : Nat} (hA : names 0 = .ok nameA) (hm : m < 64) (hn : n < 64)
    (hcondition : src.Holds p (Assembly.codeBytes [⟨0x0164, m, []⟩]))
    (hthen : InstructionAt .qb45 src (p + 2) 0x005D 0) (hword : src.natLE (p + 4) 2 = .ok 0)
    (hvalue : src.Holds (p + 6) (Assembly.codeBytes [⟨0x0164, n, []⟩]))
    (hassign : InstructionAt .qb45 src (p + 8) 0x000C 0) (hoffset : src.Holds (p + 10) (Bytes.u16 0)) :
    PlainIf .qb45 src names p (p + 12) (.number m) (assignA n) :=
  .assign (pushed_small hm hcondition) hthen hword (pushed_small hn hvalue)
    (.var hassign (.plain (by decide) rfl hA) hoffset)

/-- With a number in front of the `ELSE`, the line is complete. -/
theorem else_label_behind_number :
    ∃ t l, (instructions .qb45 0x38).run (elseLabelFile [0x64, 0x0D]) 0x22 (.start .qb45) =
        (.ok (), 0x38, t) ∧
      t.stack = [] ∧ t.program.current.lines = [l] ∧
      l.statements = [.ifThenElse (.number 1) (assignA 2) (.jump nameA)] ∧
      l.render = .ok "IF 1 THEN A = 2 ELSE A" := by
  have hA : (State.start .qb45).identifierAt (elseLabelFile [0x64, 0x0D]) 0 = .ok nameA := rfl
  have hif : PlainIf .qb45 (elseLabelFile [0x64, 0x0D]) _ 0x24 0x30 (.number 1) (assignA 2) :=
    plainIf_assignA hA (by decide) (by decide) ⟨_, rfl⟩ ⟨_, rfl, rfl⟩ rfl ⟨_, rfl⟩ ⟨_, rfl, rfl⟩
      ⟨_, rfl⟩
  obtain ⟨t, l, hrun, hstack, hlines, hstatements, htext⟩ :=
    (else_label_on_line (.plain ⟨_, rfl, rfl⟩) hif (pushed_small (by decide) ⟨_, rfl⟩) ⟨_, rfl, rfl⟩ rfl
      rfl hA).2 [] (.number 3) rfl
  exact ⟨t, l, hrun, hstack, hlines, hstatements, htext "1" "A = 2" rfl rfl⟩

/-- Without it, the stack is empty, and the `ELSE` fails. -/
theorem else_label_without_operand :
    PlainIf .qb45 (elseLabelFile []) ((State.start .qb45).identifierAt (elseLabelFile [])) 0x24 0x30
      (.number 1) (assignA 2) ∧
    InstructionAt .qb45 (elseLabelFile []) 0x30 0x004C 0 ∧
    ((instructions .qb45 0x36).run (elseLabelFile []) 0x22 (.start .qb45)).1 =
      .error .emptyStack := by
  refine ⟨plainIf_assignA rfl (by decide) (by decide) ⟨_, rfl⟩ ⟨_, rfl, rfl⟩ rfl ⟨_, rfl⟩ ⟨_, rfl, rfl⟩
    ⟨_, rfl⟩, ⟨_, rfl, rfl⟩, ?_⟩
  iterate 5 rw [run_instructions_step (by decide) (by rfl)]
  rw [run_instructions_fault (by decide) (by rfl)]

end SavedBasic
