import Mathlib.Logic.Relation
import SavedBasic.Proofs.LineIndependence
import SavedBasic.Proofs.Postfix

/-!
# Single-line conditionals

A single-line `IF` is written as its condition, an instruction with a word behind it, and its first
branch; the other branch stands behind an instruction of its own. Branches are assignments or
conditionals again. So written on a new line, a conditional is rebuilt exactly if every branch before
an `ELSE` is an assignment: an `ELSE` that follows a conditional with both its branches is refused,
although only one `IF` can take it.

What has been decoded of a conditional is a statement with an open place, as a function of what stands
there (`Opens`). The induction is over the way in which a conditional is written, for any such
function.
-/

namespace SavedBasic

open Decode Instruction

/-! ## Instructions in a file -/

/-- Instructions are performed one after another without a fault, from a position and a state to
others. -/
def Proceeds (v : Version) (src : Source) : Nat × State → Nat × State → Prop :=
  Relation.ReflTransGen fun a b => (step v).run src a.1 a.2 = (.ok (), b.1, b.2)

/-- At a position of a file stands an instruction of the common numbering. -/
def InstructionAt (v : Version) (src : Source) (pos code parameter : Nat) : Prop :=
  ∃ w, src.natLE pos 2 = .ok w ∧ operation v w = .common code parameter

/-- From `p` to `q` a file has instructions that push expressions, in any state with the given names,
and change nothing else. -/
def Pushed (v : Version) (src : Source) (names : Nat → Except Fault Identifier) (p q : Nat)
    (es : List Expr) : Prop :=
  ∀ s : State, s.identifierAt src = names → ∃ symbols,
    Proceeds v src (p, s) (q, { s with stack := es.reverse ++ s.stack, symbols := symbols })

variable {v : Version} {src : Source} {names : Nat → Except Fault Identifier}

theorem InstructionAt.run_step {pos code parameter : Nat} {handler : Handler}
    (h : InstructionAt v src pos code parameter) (hlookup : table.lookup code = some handler)
    (s : State) : (step v).run src pos s = (handler v parameter).run src (pos + 2) s := by
  obtain ⟨w, hw, hop⟩ := h
  rw [step, run_bind_ok (run_word_ok hw s), perform_of_lookup hop hlookup]

namespace Proceeds

variable {a b : Nat × State}

theorem le (h : Proceeds v src a b) : a.1 ≤ b.1 := by
  induction h with
  | refl => exact Nat.le_refl _
  | tail _ hstep ih => exact Nat.le_trans ih (Nat.le_of_lt (lt_pos_of_run_step hstep))

/-- Names stay what they are. -/
theorem nameAt_eq (h : Proceeds v src a b) : b.2.nameAt src = a.2.nameAt src := by
  induction h with
  | refl => rfl
  | @tail b c _ hstep ih =>
    have hchanges := changes_step v src b.1 b.2
    rw [hstep] at hchanges
    exact hchanges.nameAt.trans ih

theorem identifierAt_eq (h : Proceeds v src a b) :
    b.2.identifierAt src = a.2.identifierAt src :=
  identifierAt_congr h.nameAt_eq

/-- What has been performed is done before anything behind it. -/
theorem run_instructions (h : Proceeds v src a b) {fin : Nat} (hfin : b.1 ≤ fin) :
    (instructions v fin).run src a.1 a.2 = (instructions v fin).run src b.1 b.2 := by
  induction h with
  | refl => rfl
  | @tail b c _ hstep ih =>
    have hlt := lt_pos_of_run_step hstep
    rw [ih (by omega), run_instructions_step (by omega) hstep]

theorem trans {c : Nat × State} (h : Proceeds v src a b) (h' : Proceeds v src b c) :
    Proceeds v src a c :=
  Relation.ReflTransGen.trans h h'

theorem step {p q : Nat} {s t : State} (h : Proceeds v src a (p, s))
    (hstep : (step v).run src p s = (.ok (), q, t)) : Proceeds v src a (q, t) :=
  .tail h hstep

theorem of_trace {fin p q : Nat} {s t : State} {ops : List Operation}
    (h : Trace v src fin ops p s q t) : Proceeds v src (p, s) (q, t) := by
  induction h with
  | done _ => exact .refl
  | step _ hw hp _ ih => exact .head (run_step_eq_ok.mpr ⟨_, hw, hp⟩) ih

end Proceeds

/-- Expressions in postfix order are pushed. -/
theorem Postfix.pushed (hv : v ≠ .qb40) {es : List Expr} {code : List Assembly.Instr}
    (h : Postfix v names es code) {p : Nat} (hsrc : src.Holds p (Assembly.codeBytes code)) :
    Pushed v src names p (p + (Assembly.codeBytes code).length) es := by
  intro s hnames
  obtain ⟨s', hrun, hs', -⟩ := h.run_instructions hv hnames hsrc (Nat.le_refl _)
  rw [run_instructions_of_le (Nat.le_refl _)] at hrun
  obtain ⟨ops, htrace⟩ := run_instructions_eq_ok.mp hrun
  exact ⟨s'.symbols, hs' ▸ Proceeds.of_trace htrace⟩

/-! ## Statements with an open place -/

namespace Statement

/-- Whether a statement is an assignment or its like. -/
def isTransfer : Statement → Bool
  | transfer _ => true
  | _ => false

/-- Whether an assignment becomes part of the statement instead of being put behind it: a list of
constants, or the keyword `LET` alone. -/
def takesTransfer : Statement → Bool
  | const _ => true
  | transfer t => t.isLetAlone
  | _ => false

/-- A statement with an open place, given by what stands there: what happens to a new statement is
decided there, unless the place is taken and another one is asked for. -/
structure Opens (F : Statement → Statement) : Prop where
  placed {st new st' : Statement} (h : st.place new = .placed st') : (F st).place new = .placed (F st')
  refused {st new : Statement} (h : st.place new = .refused) : (F st).place new = .refused
  takesTransfer {st : Statement} (h : st.takesTransfer = false) : (F st).takesTransfer = false

namespace Opens

theorem here : Opens fun st => st :=
  ⟨id, id, id⟩

theorem action {F : Statement → Statement} (h : Opens F) (condition : Expr) :
    Opens fun st => F (ifThen condition st) where
  placed hst := h.placed (by simp only [place, hst])
  refused hst := h.refused (by simp only [place, hst])
  takesTransfer _ := h.takesTransfer rfl

theorem alternative {F : Statement → Statement} (h : Opens F) (condition : Expr)
    (first : Statement) : Opens fun st => F (ifThenElse condition first st) where
  placed hst := h.placed (by simp only [place, hst])
  refused hst := h.refused (by simp only [place, hst])
  takesTransfer _ := h.takesTransfer rfl

end Opens

end Statement

/-! ## Assignments -/

/-- At `q` a file has an instruction that makes an assignment from operands, given in the order in
which they were pushed; `r` is the position behind it. -/
inductive Assigns (v : Version) (src : Source) (names : Nat → Except Fault Identifier) (q : Nat) :
    (r : Nat) → List Expr → Transfer → Prop where
  | var {type offset : Nat} {id : Identifier} {value : Expr} (h : InstructionAt v src q 0x000C type)
    (hid : Named v names type offset id) (hsrc : src.Holds (q + 2) (Bytes.u16 offset)) :
    Assigns v src names q (q + 4) [value] (.assign none (.var id) value)
  | element {type offset : Nat} {id : Identifier} {args : List Expr} {value : Expr}
    (h : InstructionAt v src q 0x000F type) (hcount : src.natLE (q + 2) 2 = .ok args.length)
    (hid : Named v names type offset id) (hsrc : src.Holds (q + 4) (Bytes.u16 offset)) :
    Assigns v src names q (q + 6) (args ++ [value]) (.assign none (.element id args) value)
  | field {type offset : Nat} {id : Identifier} {record value : Expr}
    (h : InstructionAt v src q 0x0012 type) (hid : Named v names type offset id)
    (hsrc : src.Holds (q + 2) (Bytes.u16 offset)) :
    Assigns v src names q (q + 4) [value, record] (.assign none (.field record (.var id)) value)
  | fieldElement {type offset : Nat} {id : Identifier} {args : List Expr} {record value : Expr}
    (h : InstructionAt v src q 0x0014 type) (hcount : src.natLE (q + 2) 2 = .ok args.length)
    (hid : Named v names type offset id) (hsrc : src.Holds (q + 4) (Bytes.u16 offset)) :
    Assigns v src names q (q + 6) (value :: args ++ [record])
      (.assign none (.field record (.element id args)) value)

/-- An assignment that is not made part of the last statement is put like any statement. -/
theorem run_transfer_of_not_takes {s : State} {st : Statement} (hlast : s.last? = some st)
    (h : st.takesTransfer = false) (t : Transfer) (pos : Nat) :
    (transfer t).run src pos s = (put (.transfer t)).run src pos s := by
  rw [Composed.transfer_eq, run_bind, run_lastStatement, hlast]
  dsimp only
  split
  · cases h
  · rw [if_neg (by rw [show Transfer.isLetAlone _ = false from h]; decide)]
  · rfl

/-- A statement is put into the place that the last statement has for it. -/
theorem run_put_placed {s : State} {st new st' : Statement} (hlast : s.last? = some st)
    (hplace : st.place new = .placed st') (pos : Nat) :
    (put new).run src pos s = (.ok (), pos, s.setLast st') := by
  rw [run_put, hlast]
  dsimp only
  rw [hplace]

theorem last?_noting (s : State) (offset : Nat) (below : List Expr) :
    { s.noting src offset with stack := below }.last? = s.last? := by
  rw [noting_withStack]
  rfl

/-- The same once a name has been looked up and operands have been taken. -/
theorem run_put_noting {s : State} {st new st' : Statement} (hlast : s.last? = some st)
    (hplace : st.place new = .placed st') (offset : Nat) (below : List Expr) (pos : Nat) :
    (put new).run src pos { s.noting src offset with stack := below } =
      (.ok (), pos,
        { s.setLast st' with stack := below, symbols := (s.noting src offset).symbols }) := by
  rw [run_put_placed ((last?_noting s offset below).trans hlast) hplace, noting_withStack]
  rfl

/-- The instruction of an assignment puts it into the open place. -/
theorem Assigns.run_step {q r : Nat} {es below : List Expr} {t : Transfer} {s : State}
    {st st' : Statement} (h : Assigns v src (s.identifierAt src) q r es t)
    (hstack : s.stack = es.reverse ++ below) (hlast : s.last? = some st)
    (htakes : st.takesTransfer = false) (hplace : st.place (.transfer t) = .placed st') :
    ∃ symbols, (step v).run src q s =
      (.ok (), r, { s.setLast st' with stack := below, symbols := symbols }) := by
  cases h with
  | @var type offset id value h hid hsrc =>
    refine ⟨(s.noting src offset).symbols, ?_⟩
    have hstack' : (s.noting src offset).stack = value :: below := by
      rw [State.stack_noting, hstack]
      rfl
    rw [h.run_step rfl, run_bind_ok (hid.run_identifierOf hsrc),
      run_bind_ok (run_pop_operand hstack' src _),
      run_transfer_of_not_takes ((last?_noting s offset below).trans hlast) htakes,
      run_put_noting hlast hplace]
  | @element type offset id args value h hcount hid hsrc =>
    refine ⟨(s.noting src offset).symbols, ?_⟩
    have hstack' : (s.noting src offset).stack = value :: (args.reverse ++ below) := by
      rw [State.stack_noting, hstack, List.reverse_append]
      rfl
    rw [h.run_step rfl, run_bind_ok (run_word_ok hcount s), run_bind_ok (hid.run_identifierOf hsrc),
      run_bind_ok (run_pop_operand hstack' src _), run_bind_ok (run_popMany_operands rfl src _),
      run_put_noting hlast hplace]
  | @field type offset id record value h hid hsrc =>
    refine ⟨(s.noting src offset).symbols, ?_⟩
    have hstack' : (s.noting src offset).stack = record :: value :: below := by
      rw [State.stack_noting, hstack]
      rfl
    rw [h.run_step rfl, run_bind_ok (hid.run_identifierOf hsrc),
      run_bind_ok (run_pop_operand hstack' src _), run_bind_ok (run_pop_operand rfl src _),
      run_put_noting hlast hplace]
  | @fieldElement type offset id args record value h hcount hid hsrc =>
    refine ⟨(s.noting src offset).symbols, ?_⟩
    have hstack' : (s.noting src offset).stack = record :: (args.reverse ++ value :: below) := by
      rw [State.stack_noting, hstack, List.reverse_append, List.reverse_cons]
      simp
    rw [h.run_step rfl, run_bind_ok (run_word_ok hcount s), run_bind_ok (hid.run_identifierOf hsrc),
      run_bind_ok (run_pop_operand hstack' src _), run_bind_ok (run_popMany_operands rfl src _),
      run_bind_ok (run_pop_operand rfl src _), run_put_noting hlast hplace]

/-! ## Conditionals -/

/-- From `p` to `q` a file has the instructions of a conditional, or of an assignment in one of its
branches. -/
inductive Stands (v : Version) (src : Source) (names : Nat → Except Fault Identifier) :
    (p q : Nat) → Statement → Prop where
  | assign {p q r : Nat} {es : List Expr} {t : Transfer} (hes : Pushed v src names p q es)
    (ht : Assigns v src names q r es t) : Stands v src names p r (.transfer t)
  | ifThen {p q r parameter ignored : Nat} {condition : Expr} {action : Statement}
    (hcondition : Pushed v src names p q [condition])
    (hthen : InstructionAt v src q 0x005D parameter) (hword : src.natLE (q + 2) 2 = .ok ignored)
    (haction : Stands v src names (q + 4) r action) :
    Stands v src names p r (.ifThen condition action)
  | ifThenElse {p q r u parameter ignored parameter' ignored' : Nat} {condition : Expr}
    {action alternative : Statement} (hcondition : Pushed v src names p q [condition])
    (hthen : InstructionAt v src q 0x005D parameter) (hword : src.natLE (q + 2) 2 = .ok ignored)
    (haction : Stands v src names (q + 4) r action)
    (helse : InstructionAt v src r 0x0049 parameter') (hword' : src.natLE (r + 2) 2 = .ok ignored')
    (halternative : Stands v src names (r + 4) u alternative) :
    Stands v src names p u (.ifThenElse condition action alternative)

namespace Statement

/-- Whether no `IF` at the right end of a statement misses its `ELSE`. -/
def isClosed : Statement → Bool
  | ifThen _ _ => false
  | ifThenElse _ _ alternative => alternative.isClosed
  | _ => true

/-- Whether no branch before an `ELSE` has an `IF` at its right end that misses its own `ELSE`. -/
def isWellNested : Statement → Bool
  | ifThen _ action => action.isWellNested
  | ifThenElse _ action alternative =>
    action.isClosed && action.isWellNested && alternative.isWellNested
  | _ => true

/-- Whether every branch before an `ELSE` is an assignment. -/
def hasPlainBranches : Statement → Bool
  | ifThen _ action => action.hasPlainBranches
  | ifThenElse _ action alternative => action.isTransfer && alternative.hasPlainBranches
  | _ => true

end Statement

theorem run_skipWord {pos ignored : Nat} (hword : src.natLE pos 2 = .ok ignored) (s : State) :
    (skipWords 1).run src pos s = (.ok (), pos + 2, s) := by
  rw [skipWords, run_bind_ok (run_word_ok hword s)]
  rfl

/-- The state with another last statement, when names have been looked up. -/
def Decode.State.revised (s : State) (st : Statement) (symbols : SymbolTable) : State :=
  { s.setLast st with symbols := symbols }

theorem revised_revised (s : State) (st st' : Statement) (symbols symbols' : SymbolTable) :
    (s.revised st symbols).revised st' symbols' = s.revised st' symbols' :=
  congrArg (fun s : State => { s with symbols := symbols' }) (setLast_setLast s st st')

theorem last?_revised {s : State} {st : Statement} (hlast : s.last? = some st) (st' : Statement)
    (symbols : SymbolTable) : (s.revised st' symbols).last? = some st' :=
  last?_setLast st' hlast

/-- An `IF` is put into the open place, with an open place of its own. -/
theorem run_step_ifThen {q parameter ignored : Nat} {condition : Expr} {below : List Expr} {s : State}
    {F : Statement → Statement} (hF : Statement.Opens F)
    (hthen : InstructionAt v src q 0x005D parameter) (hword : src.natLE (q + 2) 2 = .ok ignored)
    (hstack : s.stack = condition :: below) (hlast : s.last? = some (F .empty)) :
    (step v).run src q s =
      (.ok (), q + 4, { s.setLast (F (.ifThen condition .empty)) with stack := below }) := by
  have hplace : (F .empty).place (.ifThen condition .empty) =
      .placed (F (.ifThen condition .empty)) := hF.placed rfl
  have hput := @run_put_placed src { s with stack := below } _ _ _ hlast hplace (q + 2)
  rw [hthen.run_step rfl, withOperand, always, run_bind_ok (run_pop_operand hstack src _),
    run_bind_ok hput, run_skipWord hword]
  rfl

/-- An `ELSE` behind a conditional that has both its branches is refused. -/
theorem run_step_else_refused {r parameter : Nat} {condition : Expr} {action : Statement} {s : State}
    {F : Statement → Statement} (hF : Statement.Opens F)
    (helse : InstructionAt v src r 0x0049 parameter)
    (hlast : s.last? = some (F (.ifThen condition action)))
    (hrefused : ∀ new, action.place new = .refused) :
    (step v).run src r s = (.error .cannotCombine, r + 2, s) := by
  have hplace : (F (.ifThen condition action)).place (.otherwise .empty) = .refused :=
    (hF.action condition).refused (hrefused _)
  have hput : (put (.otherwise .empty)).run src (r + 2) s = (.error .cannotCombine, r + 2, s) := by
    rw [run_put, hlast]
    dsimp only
    rw [hplace]
  rw [helse.run_step rfl, always, run_bind_error hput]

/-- A condition and its `IF` leave an open place for the first branch. -/
theorem proceeds_ifThen {p q parameter ignored : Nat} {condition : Expr} {s : State}
    {F : Statement → Statement} (hF : Statement.Opens F)
    (hcondition : Pushed v src (s.identifierAt src) p q [condition])
    (hthen : InstructionAt v src q 0x005D parameter) (hword : src.natLE (q + 2) 2 = .ok ignored)
    (hlast : s.last? = some (F .empty)) :
    ∃ symbols, Proceeds v src (p, s) (q + 4, s.revised (F (.ifThen condition .empty)) symbols) := by
  obtain ⟨symbols, hpush⟩ := hcondition s rfl
  exact ⟨symbols, hpush.step (run_step_ifThen hF hthen hword rfl hlast)⟩

/-- An `ELSE` behind an assignment leaves an open place for the other branch. -/
theorem proceeds_else {r parameter ignored : Nat} {s : State} {F : Statement → Statement}
    (hF : Statement.Opens F) (helse : InstructionAt v src r 0x0049 parameter)
    (hword : src.natLE (r + 2) 2 = .ok ignored) (hlast : s.last? = some (F .empty)) (condition : Expr)
    (t : Transfer) (symbols : SymbolTable) :
    Proceeds v src (r, s.revised (F (.ifThen condition (.transfer t))) symbols)
      (r + 4, s.revised (F (.ifThenElse condition (.transfer t) .empty)) symbols) := by
  have hput : (put (.otherwise .empty)).run src (r + 2)
      (s.revised (F (.ifThen condition (.transfer t))) symbols) =
        (.ok (), r + 2, s.revised (F (.ifThenElse condition (.transfer t) .empty)) symbols) := by
    rw [run_put_placed (last?_revised hlast _ symbols) (hF.placed rfl)]
    exact congrArg (fun s' => (Except.ok (), r + 2, s')) (revised_revised s _ _ symbols symbols)
  refine Proceeds.step .refl ?_
  rw [helse.run_step rfl, always, run_bind_ok hput, run_skipWord hword]

/-- A conditional is rebuilt in the open place if every branch before an `ELSE` is an assignment. -/
theorem Stands.proceeds {p q : Nat} {st : Statement} (h : Stands v src names p q st)
    (hplain : st.hasPlainBranches = true) {F : Statement → Statement} (hF : Statement.Opens F)
    {s : State} (hnames : s.identifierAt src = names) (hlast : s.last? = some (F .empty)) :
    ∃ symbols, Proceeds v src (p, s) (q, s.revised (F st) symbols) := by
  induction h generalizing F s with
  | @assign p q r es t hes ht =>
    obtain ⟨symbols, hpush⟩ := hes s hnames
    rw [← hnames, ← hpush.identifierAt_eq] at ht
    obtain ⟨symbols', hstep⟩ := ht.run_step rfl hlast (hF.takesTransfer rfl) (hF.placed rfl)
    exact ⟨symbols', hpush.step hstep⟩
  | ifThen hcondition hthen hword _ ih =>
    subst hnames
    obtain ⟨symbols, hthen⟩ := proceeds_ifThen hF hcondition hthen hword hlast
    obtain ⟨symbols', haction⟩ :=
      ih hplain (hF.action _) hthen.identifierAt_eq (last?_revised hlast _ symbols)
    rw [revised_revised] at haction
    exact ⟨symbols', hthen.trans haction⟩
  | @ifThenElse p q r u _ _ _ _ condition action alternative hcondition hthen hword _ helse hword' _
      ihaction ihalternative =>
    subst hnames
    obtain ⟨htransfer, hplain⟩ := (Bool.and_eq_true _ _).mp hplain
    cases action with
    | transfer t =>
      obtain ⟨symbols, hthen⟩ := proceeds_ifThen hF hcondition hthen hword hlast
      obtain ⟨symbols', haction⟩ :=
        ihaction rfl (hF.action condition) hthen.identifierAt_eq (last?_revised hlast _ symbols)
      rw [revised_revised] at haction
      have helse := (hthen.trans haction).trans
        (proceeds_else hF helse hword' hlast condition t symbols')
      obtain ⟨symbols'', halternative⟩ :=
        ihalternative hplain (hF.alternative condition _) helse.identifierAt_eq
          (last?_revised hlast _ _)
      rw [revised_revised] at halternative
      exact ⟨symbols'', helse.trans halternative⟩
    | _ => cases htransfer

theorem Stands.le {p q : Nat} {st : Statement} (h : Stands v src names p q st) {s : State}
    (hnames : s.identifierAt src = names) : p ≤ q := by
  induction h with
  | assign hes ht =>
    obtain ⟨symbols, hpush⟩ := hes s hnames
    have hle := hpush.le
    cases ht <;> omega
  | ifThen hcondition _ _ _ ih =>
    obtain ⟨symbols, hpush⟩ := hcondition s hnames
    have hle := hpush.le
    omega
  | ifThenElse hcondition _ _ _ _ _ _ ihaction ihalternative =>
    obtain ⟨symbols, hpush⟩ := hcondition s hnames
    have hle := hpush.le
    omega

/-- What is closed has no place for another statement. Only for an assignment can the place be next to
it. -/
theorem Stands.place_of_isClosed {p q : Nat} {st : Statement} (h : Stands v src names p q st)
    (hclosed : st.isClosed = true) (new : Statement) :
    st.place new = if st.isTransfer then .full else .refused := by
  induction h with
  | assign _ _ => rfl
  | ifThen _ _ _ _ _ => cases hclosed
  | @ifThenElse _ _ _ _ _ _ _ _ _ _ alternative _ _ _ _ _ _ _ _ ih =>
    have hplace := ih hclosed
    rw [Statement.place, hplace]
    rcases alternative.isTransfer <;> rfl

/-- An `ELSE` is refused if one of them stands behind a conditional. -/
theorem Stands.refused {p q : Nat} {st : Statement} (h : Stands v src names p q st)
    (hnested : st.isWellNested = true) (hplain : st.hasPlainBranches = false)
    {F : Statement → Statement} (hF : Statement.Opens F) {s : State}
    (hnames : s.identifierAt src = names) (hlast : s.last? = some (F .empty)) :
    ∃ r s', r < q ∧ Proceeds v src (p, s) (r, s') ∧
      (step v).run src r s' = (.error .cannotCombine, r + 2, s') := by
  induction h generalizing F s with
  | assign _ _ => cases hplain
  | ifThen hcondition hthen hword _ ih =>
    subst hnames
    obtain ⟨symbols, hthen⟩ := proceeds_ifThen hF hcondition hthen hword hlast
    obtain ⟨r, s', hlt, haction, hstep⟩ :=
      ih hnested hplain (hF.action _) hthen.identifierAt_eq (last?_revised hlast _ symbols)
    exact ⟨r, s', hlt, hthen.trans haction, hstep⟩
  | @ifThenElse p q r u _ _ _ _ condition action alternative hcondition hthen hword haction helse
      hword' halternative ihaction ihalternative =>
    subst hnames
    simp only [Statement.isWellNested, Bool.and_eq_true] at hnested
    obtain ⟨⟨hclosed, hnested⟩, hnested'⟩ := hnested
    have hle := halternative.le rfl
    rcases hplain' : action.hasPlainBranches
    · -- the first branch is not rebuilt
      obtain ⟨symbols, hthen⟩ := proceeds_ifThen hF hcondition hthen hword hlast
      obtain ⟨r', s', hlt, haction, hstep⟩ :=
        ihaction hnested hplain' (hF.action _) hthen.identifierAt_eq (last?_revised hlast _ symbols)
      exact ⟨r', s', by omega, hthen.trans haction, hstep⟩
    · obtain ⟨symbols, hfirst⟩ :=
        (Stands.ifThen hcondition hthen hword haction).proceeds hplain' hF rfl hlast
      rcases htransfer : action.isTransfer
      · -- it is rebuilt, but the place is not next to it
        refine ⟨r, _, by omega, hfirst, ?_⟩
        refine run_step_else_refused hF helse (last?_revised hlast _ symbols) fun new => ?_
        rw [haction.place_of_isClosed hclosed new, htransfer]
        rfl
      · cases action with
        | transfer t =>
          have helse := hfirst.trans (proceeds_else hF helse hword' hlast condition t symbols)
          obtain ⟨r', s', hlt, halternative, hstep⟩ :=
            ihalternative hnested' hplain (hF.alternative condition _) helse.identifierAt_eq
              (last?_revised hlast _ _)
          exact ⟨r', s', hlt, helse.trans halternative, hstep⟩
        | _ => cases htransfer

/-! ## Conditionals on a line -/

/-- **Conditionals on a line.** Let a conditional be written on a new line, so that no branch before
an `ELSE` has an `IF` at its right end that misses its own. If every branch before an `ELSE` is an
assignment, decoding it succeeds and the line has exactly this statement. If not, decoding fails with
an `ELSE` that cannot be combined with what is there. -/
theorem conditional_on_line {w code indent pos p q : Nat} {s t : State} {st : Statement}
    (hline : operation v w = .common code indent)
    (hcode : code = 0x0000 ∨ code = 0x0004 ∨ code = 0x0005)
    (hnew : (perform v w).run src pos s = (.ok (), p, t))
    (hst : Stands v src (s.identifierAt src) p q st) (hnested : st.isWellNested = true) :
    if st.hasPlainBranches then
      ∃ t' l, (instructions v q).run src p t = (.ok (), q, t') ∧
        t'.program.current.lines = l :: s.program.current.lines ∧ l.statements = [st] ∧
        t'.stack = []
    else ((instructions v q).run src p t).1 = .error .cannotCombine := by
  obtain ⟨label, indent, t', hcleared, rfl⟩ := exists_cleared_of_line hline hcode hnew
  have hnames : (t'.withLines (Line.start label indent :: t'.program.current.lines)).identifierAt src =
      s.identifierAt src := identifierAt_congr hcleared.names
  split
  · rename_i hplain
    obtain ⟨symbols, hproceeds⟩ := hst.proceeds hplain Statement.Opens.here hnames rfl
    have hrun := hproceeds.run_instructions (Nat.le_refl q)
    rw [run_instructions_of_le (Nat.le_refl q)] at hrun
    exact ⟨_, (Line.start label indent).setLast st, hrun, by rw [← hcleared.program]; rfl, rfl,
      hcleared.stack⟩
  · rename_i hplain
    obtain ⟨r, s', hlt, hproceeds, hstep⟩ :=
      hst.refused hnested (Bool.eq_false_iff.mpr hplain) Statement.Opens.here hnames rfl
    rw [hproceeds.run_instructions (Nat.le_of_lt hlt), run_instructions_fault hlt hstep]

/-- A file with a name, `A`, and a line with the given instructions at `0x24`. -/
def lineFile (code : Bytes) : Source :=
  .ofBytes (List.replicate 0x1C 0 ++ Key.namedEntry [0x41] ++ [0x00, 0x00] ++ code)

/-- The assignment of a number to `A`. -/
def assignA (n : Nat) : Statement :=
  .transfer (.assign none (.var nameA) (.number n))

/-- The number of an assignment stands at a position, and its instruction behind it. -/
theorem stands_assignA {n p : Nat} (hA : names 0 = .ok nameA) (hn : n < 64)
    (hpush : src.Holds p (Assembly.codeBytes [⟨0x0164, n, []⟩]))
    (hassign : InstructionAt .qb45 src (p + 2) 0x000C 0) (hoffset : src.Holds (p + 4) (Bytes.u16 0)) :
    Stands .qb45 src names p (p + 6) (assignA n) :=
  .assign ((Postfix.cons .nil (.small hn) .nil).pushed (by decide) hpush)
    (.var hassign (.plain (by decide) rfl hA) hoffset)

/-- A line with `IF A THEN A = 1 ELSE IF A THEN A = 2 ELSE A = 3`. -/
def chainFile : Source :=
  lineFile [0x0B, 0x00, 0x00, 0x00, 0x5D, 0x00, 0x00, 0x00, 0x64, 0x05, 0x0C, 0x00, 0x00, 0x00,
    0x49, 0x00, 0x00, 0x00, 0x0B, 0x00, 0x00, 0x00, 0x5D, 0x00, 0x00, 0x00, 0x64, 0x09, 0x0C, 0x00,
    0x00, 0x00, 0x49, 0x00, 0x00, 0x00, 0x64, 0x0D, 0x0C, 0x00, 0x00, 0x00]

/-- The statement of this line. -/
def chain : Statement :=
  .ifThenElse (.var nameA) (assignA 1) (.ifThenElse (.var nameA) (assignA 2) (assignA 3))

/-- Where each branch before an `ELSE` is an assignment, the conditional is rebuilt. -/
theorem chain_on_line :
    Stands .qb45 chainFile ((State.start .qb45).identifierAt chainFile) 0x24 0x4E chain ∧
    ∃ t l, (instructions .qb45 0x4E).run chainFile 0x24
        ((perform .qb45 0x0000).run chainFile 0x24 (.start .qb45)).2.2 = (.ok (), 0x4E, t) ∧
      t.program.current.lines = [l] ∧ l.statements = [chain] := by
  have hA : (State.start .qb45).identifierAt chainFile 0 = .ok nameA := rfl
  have hcondition : Postfix .qb45 ((State.start .qb45).identifierAt chainFile) [.var nameA] _ :=
    .cons .nil (.var (.plain (by decide) rfl hA)) .nil
  have hstands :
      Stands .qb45 chainFile ((State.start .qb45).identifierAt chainFile) 0x24 0x4E chain :=
    .ifThenElse (hcondition.pushed (by decide) ⟨_, rfl⟩) ⟨_, rfl, rfl⟩ rfl
      (stands_assignA hA (by decide) ⟨_, rfl⟩ ⟨_, rfl, rfl⟩ ⟨_, rfl⟩) ⟨_, rfl, rfl⟩ rfl
      (.ifThenElse (hcondition.pushed (by decide) ⟨_, rfl⟩) ⟨_, rfl, rfl⟩ rfl
        (stands_assignA hA (by decide) ⟨_, rfl⟩ ⟨_, rfl, rfl⟩ ⟨_, rfl⟩) ⟨_, rfl, rfl⟩ rfl
        (stands_assignA hA (by decide) ⟨_, rfl⟩ ⟨_, rfl, rfl⟩ ⟨_, rfl⟩))
  have hline : operation .qb45 0x0000 = .common 0x0000 0 := rfl
  have hnew : (perform .qb45 0x0000).run chainFile 0x24 (.start .qb45) = (.ok (), 0x24, _) := rfl
  obtain ⟨t, l, hrun, hlines, hstatements, -⟩ :=
    conditional_on_line hline (.inl rfl) hnew hstands (by decide)
  exact ⟨hstands, t, l, hrun, hlines, hstatements⟩

/-- A line with `IF A THEN IF A THEN A = 1 ELSE A = 2 ELSE A = 3`. -/
def nestedFile : Source :=
  lineFile [0x0B, 0x00, 0x00, 0x00, 0x5D, 0x00, 0x00, 0x00, 0x0B, 0x00, 0x00, 0x00, 0x5D, 0x00,
    0x00, 0x00, 0x64, 0x05, 0x0C, 0x00, 0x00, 0x00, 0x49, 0x00, 0x00, 0x00, 0x64, 0x09, 0x0C, 0x00,
    0x00, 0x00, 0x49, 0x00, 0x00, 0x00, 0x64, 0x0D, 0x0C, 0x00, 0x00, 0x00]

/-- The statement of this line. -/
def nested : Statement :=
  .ifThenElse (.var nameA) (.ifThenElse (.var nameA) (assignA 1) (assignA 2)) (assignA 3)

/-- The second `ELSE` can only belong to the first `IF`, but it is refused. -/
theorem second_else_refused :
    Stands .qb45 nestedFile ((State.start .qb45).identifierAt nestedFile) 0x24 0x4E nested ∧
    nested.isWellNested = true ∧
    ((instructions .qb45 0x4E).run nestedFile 0x24
      ((perform .qb45 0x0000).run nestedFile 0x24 (.start .qb45)).2.2).1 = .error .cannotCombine := by
  have hA : (State.start .qb45).identifierAt nestedFile 0 = .ok nameA := rfl
  have hcondition : Postfix .qb45 ((State.start .qb45).identifierAt nestedFile) [.var nameA] _ :=
    .cons .nil (.var (.plain (by decide) rfl hA)) .nil
  refine ⟨.ifThenElse (hcondition.pushed (by decide) ⟨_, rfl⟩) ⟨_, rfl, rfl⟩ rfl
      (.ifThenElse (hcondition.pushed (by decide) ⟨_, rfl⟩) ⟨_, rfl, rfl⟩ rfl
        (stands_assignA hA (by decide) ⟨_, rfl⟩ ⟨_, rfl, rfl⟩ ⟨_, rfl⟩) ⟨_, rfl, rfl⟩ rfl
        (stands_assignA hA (by decide) ⟨_, rfl⟩ ⟨_, rfl, rfl⟩ ⟨_, rfl⟩)) ⟨_, rfl, rfl⟩ rfl
      (stands_assignA hA (by decide) ⟨_, rfl⟩ ⟨_, rfl, rfl⟩ ⟨_, rfl⟩), rfl, ?_⟩
  -- everything before it is decoded
  iterate 9 rw [run_instructions_step (by decide) (by rfl)]
  rw [run_instructions_fault (by decide) (by rfl)]

end SavedBasic
