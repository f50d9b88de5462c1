import Mathlib.Data.List.Forall2
import SavedBasic.Proofs.DrawnStatements
import SavedBasic.Proofs.LineIndependence

/-!
# Statements behind a colon

A colon ends a statement, but unlike a new line it does not forget the operands under a name. So the
instructions of a statement give the same statement behind a colon as on a line of its own exactly
if none of them uses an operand that an earlier statement of the line has left: neither gives
another one under its name, which fails, nor takes it, which shows in the statement.

The two runs are related by `Joined`: where the one has two lines the other one has a single line
with the statements of both, function definitions are open at corresponding places, and the operands
under a name are those of the one and, where it has none, those that were left. An instruction that
spares these keeps the relation. One that takes an operand that shows draws another statement, and
as what has been drawn stays, the statements still differ at the end.
-/

namespace SavedBasic

/-! ## Joined lines -/

namespace Line

/-- A line with the last statement of another one behind a colon. -/
def join (first second : Line) : Line :=
  { first with earlier := first.last :: first.earlier, last := second.last }

theorem statements_eq (l : Line) :
    l.statements = l.earlier.reverse.map Slot.statement ++ [l.last.statement] := by
  rw [statements, slots, List.reverse_cons, List.map_append]
  rfl

/-- A line with one statement more than another one ends with it. -/
theorem last_of_statements_eq {l first : Line} {st : Statement}
    (h : l.statements = first.statements ++ [st]) :
    l.last.statement = st ∧ l.earlier.length = first.earlier.length + 1 := by
  rw [statements_eq] at h
  obtain ⟨hearlier, hlast⟩ := List.append_inj' h rfl
  refine ⟨List.singleton_inj.mp hlast, ?_⟩
  have hlength := congrArg List.length hearlier
  rw [statements_eq] at hlength
  simpa only [List.length_map, List.length_reverse, List.length_append, List.length_singleton]
    using hlength

theorem statements_join (first second : Line) :
    (first.join second).statements = first.statements ++ [second.last.statement] := by
  rw [statements_eq, statements_eq, join, List.reverse_cons, List.map_append]
  rfl

theorem join_amendAt_of_le (f : Statement → Statement) {i : Nat} (way : List Statement.Branch)
    {first : Line} (second : Line) (h : i ≤ first.earlier.length) :
    (first.join second).amendAt f i way = (first.amendAt f i way).join second := by
  simp only [amendAt, join, List.length_cons, amendFromEnd_cons]
  rw [if_neg (by omega)]
  split <;> rfl

theorem join_amendAt_length (f : Statement → Statement) (way : List Statement.Branch)
    (first : Line) {second : Line} (h : second.earlier = []) :
    (first.join second).amendAt f (first.earlier.length + 1) way =
      first.join (second.amendAt f 0 way) := by
  simp only [amendAt, join, List.length_cons, h, List.length_nil, if_true]

theorem earlier_amendAt_zero (f : Statement → Statement) (way : List Statement.Branch) {l : Line}
    (h : l.earlier = []) : (l.amendAt f 0 way).earlier = [] := by
  simp only [amendAt, h, List.length_nil, if_true]

theorem length_earlier_of_undefined {l l' : Line} (h : l.undefined = l'.undefined) :
    l.earlier.length = l'.earlier.length := by
  have hearlier := congrArg (fun l => l.earlier.length) h
  simpa only [undefined, List.length_map] using hearlier

end Line

namespace Decode

/-- The places of function definitions in two programs of which the first has a line, counted `m` in
its procedure `k`, and a further line with one statement, and the second has that statement behind
the statements of the former line, of which there are `j`. -/
inductive Moved (k m j : Nat) : Place → Place → Prop where
  /-- a place before the statement -/
  | same {p : Place} (h : p.procedure = k → p.line < m ∨ p.line = m ∧ p.statement < j) :
    Moved k m j p p
  /-- a place in the statement -/
  | behind (way : List Statement.Branch) : Moved k m j ⟨k, m + 1, 0, way⟩ ⟨k, m, j, way⟩

/-- The same lines, except that the last two of the former are one of the latter. Of these two, the
one is the line `l`, counted `m`, but for values of function definitions; the other has one
statement. -/
def JoinedLines (m : Nat) (l : Line) (lines lines' : List Line) : Prop :=
  ∃ first second rest, lines = second :: first :: rest ∧ lines' = first.join second :: rest ∧
    second.earlier = [] ∧ first.undefined = l.undefined ∧ rest.length = m

namespace JoinedLines

variable {m : Nat} {l : Line} {lines lines' : List Line}

theorem amend_before (h : JoinedLines m l lines lines') {i j : Nat}
    (hplace : i < m ∨ i = m ∧ j < l.earlier.length + 1) (closing : Closing)
    (way : List Statement.Branch) :
    JoinedLines m l (amendFromEnd (Line.amendAt (Statement.define closing) j way) i lines)
      (amendFromEnd (Line.amendAt (Statement.define closing) j way) i lines') := by
  obtain ⟨first, second, rest, rfl, rfl, hsecond, hfirst, hrest⟩ := h
  have hlength := Line.length_earlier_of_undefined hfirst
  rw [amendFromEnd_cons, if_neg (by rw [List.length_cons]; omega), amendFromEnd_cons,
    amendFromEnd_cons]
  rcases hplace with hlt | ⟨heq, hj⟩
  · rw [if_neg (by omega), if_neg (by omega)]
    exact ⟨first, second, _, rfl, rfl, hsecond, hfirst, (length_amendFromEnd ..).trans hrest⟩
  · rw [if_pos (heq.trans hrest.symm), if_pos (heq.trans hrest.symm),
      Line.join_amendAt_of_le _ way second (by omega)]
    exact ⟨_, second, rest, rfl, rfl, hsecond,
      (first.undefined_amendAt_define closing j way).trans hfirst, hrest⟩

theorem amend_behind (h : JoinedLines m l lines lines') (closing : Closing)
    (way : List Statement.Branch) :
    JoinedLines m l (amendFromEnd (Line.amendAt (Statement.define closing) 0 way) (m + 1) lines)
      (amendFromEnd (Line.amendAt (Statement.define closing) (l.earlier.length + 1) way) m
        lines') := by
  obtain ⟨first, second, rest, rfl, rfl, hsecond, hfirst, hrest⟩ := h
  rw [amendFromEnd_cons, if_pos (by rw [List.length_cons, hrest]), amendFromEnd_cons,
    if_pos hrest.symm, ← Line.length_earlier_of_undefined hfirst,
    Line.join_amendAt_length _ way first hsecond]
  exact ⟨first, _, rest, rfl, rfl, Line.earlier_amendAt_zero _ way hsecond, hfirst, hrest⟩

/-- The last statement is the same. -/
theorem last (h : JoinedLines m l lines lines') :
    (lines.head?.map fun l => l.last.statement) = lines'.head?.map fun l => l.last.statement := by
  obtain ⟨first, second, rest, rfl, rfl, -⟩ := h
  rfl

theorem setLast (h : JoinedLines m l lines lines') (st : Statement) :
    JoinedLines m l (lines.modifyHead fun l => l.setLast st)
      (lines'.modifyHead fun l => l.setLast st) := by
  obtain ⟨first, second, rest, rfl, rfl, hsecond, hfirst, hrest⟩ := h
  exact ⟨first, second.setLast st, rest, rfl, rfl, hsecond, hfirst, hrest⟩

end JoinedLines

/-- Two programs with joined lines in their last procedures, and all else the same that instructions
can see. -/
structure JoinedPrograms (k m : Nat) (l : Line) (p q : Program) : Prop where
  earlier : p.earlier = q.earlier
  length : p.earlier.length = k
  kind : p.current.kind = q.current.kind
  static : p.current.static = q.current.static
  lines : JoinedLines m l p.current.lines q.current.lines

/-- A value that is given to corresponding function definitions leaves programs joined. -/
theorem JoinedPrograms.amendAt {k m : Nat} {l : Line} {p q : Program} (h : JoinedPrograms k m l p q)
    {place place' : Place} (hmoved : Moved k m (l.earlier.length + 1) place place')
    (closing : Closing) :
    JoinedPrograms k m l (p.amendAt (Statement.define closing) place)
      (q.amendAt (Statement.define closing) place') := by
  have hq : q.earlier.length = k := h.earlier ▸ h.length
  cases hmoved with
  | same hplace =>
    rw [Program.amendAt, Program.amendAt, h.length, hq]
    split
    · rename_i hk
      exact { h with lines := h.lines.amend_before (hplace hk) closing place.way }
    · exact
        { h with
          earlier := by dsimp only; rw [h.earlier]
          length := (length_amendFromEnd ..).trans h.length }
  | behind way =>
    rw [Program.amendAt, Program.amendAt, if_pos h.length.symm, if_pos hq.symm]
    exact { h with lines := h.lines.amend_behind closing way }

/-! ## Joined states -/

/-- Two states of the decoding of one statement: on a line of its own, and behind a colon after the
statements of `l`, which have left the operands `a` under a name. -/
structure Joined (src : Source) (a : Arguments) (k m : Nat) (l : Line) (s t : State) : Prop where
  names : s.nameAt src = t.nameAt src
  stack : s.stack = t.stack
  arguments : t.arguments = s.arguments.merge a
  apart : s.arguments.Apart a
  programs : JoinedPrograms k m l s.program t.program
  openFns : List.Forall₂ (Moved k m (l.earlier.length + 1)) s.openFns t.openFns

namespace Joined

variable {src : Source} {a : Arguments} {k m : Nat} {l : Line} {s t : State}

/-- A function definition that is being opened is at corresponding places. -/
theorem placeOn (h : Joined src a k m l s t) (way : List Statement.Branch) :
    Moved k m (l.earlier.length + 1) (s.placeOn way) (t.placeOn way) := by
  obtain ⟨first, second, rest, hs, ht, hsecond, hfirst, hrest⟩ := h.programs.lines
  have hplace : s.placeOn way = ⟨k, m + 1, 0, way⟩ := by
    rw [State.placeOn, hs, h.programs.length, List.length_cons, List.length_cons, hrest,
      List.head?_cons, Option.map_some, Option.getD_some, hsecond]
    rfl
  have hplace' : t.placeOn way = ⟨k, m, l.earlier.length + 1, way⟩ := by
    rw [State.placeOn, ht, ← h.programs.earlier, h.programs.length, List.length_cons, hrest,
      ← Line.length_earlier_of_undefined hfirst]
    rfl
  rw [hplace, hplace']
  exact .behind way

theorem closeTop (h : Joined src a k m l s t) (closing : Closing) :
    Joined src a k m l (s.closeTop closing) (t.closeTop closing) := by
  have hopen := h.openFns
  unfold State.closeTop
  rcases hs : s.openFns with _ | ⟨place, places⟩ <;>
    rcases ht : t.openFns with _ | ⟨place', places'⟩ <;> rw [hs, ht] at hopen
  · exact h
  · cases hopen
  · cases hopen
  · obtain ⟨hplace, hplaces⟩ := List.forall₂_cons.mp hopen
    exact { h with programs := h.programs.amendAt hplace closing, openFns := hplaces }

theorem congruent (src : Source) (a : Arguments) (k m : Nat) (l : Line) :
    Congruent src src (Joined src a k m l) where
  names h := h.names
  noting offset h :=
    { names := by rw [State.nameAt_noting, State.nameAt_noting, h.names]
      stack := by rw [State.stack_noting, State.stack_noting, h.stack]
      arguments := by rw [State.arguments_noting, State.arguments_noting, h.arguments]
      apart := by rw [State.arguments_noting]; exact h.apart
      programs := by rw [State.program_noting, State.program_noting]; exact h.programs
      openFns := by rw [State.openFns_noting, State.openFns_noting]; exact h.openFns }
  stack h := h.stack
  withStack _ h := { h with stack := rfl }
  last h := h.programs.lines.last
  setLast st h := { h with programs := { h.programs with lines := h.programs.lines.setLast st } }
  isOpen h := isEmpty_congr h.openFns.length_eq
  openOn way h _ := { h with openFns := .cons (h.placeOn way) h.openFns }
  closeTop x h := h.closeTop (.value x)
  kind h := h.programs.kind
  static h := h.programs.static
  withKind _ h := { h with programs := { h.programs with kind := rfl } }

end Joined

/-! ## Instructions that spare what was left -/

variable {src : Source} {a : Arguments} {k m : Nat} {l : Line} {s t : State}

/-- Giving an operand under a name that was left free does the same in both. -/
theorem respects_give {x : Argument} (h : a.isGiven x = false) (value : x.Value) :
    Respects src src (Joined src a k m l)
      (setArgument (fun b => b.isGiven x) fun b => b.give x value) := by
  refine respects_of_still fun p₁ p₂ s t hR => ?_
  rw [run_setArgument, run_setArgument, hR.arguments, Arguments.isGiven_merge, h, Bool.or_false]
  split
  · exact ⟨_, s, t, rfl, rfl, hR⟩
  · refine ⟨.ok (), _, _, rfl, rfl, ?_⟩
    exact { hR with arguments := (Arguments.give_merge ..).symm, apart := hR.apart.give h value }

/-- Drawing a statement from operands of which none that was left shows does the same in both. -/
theorem respects_draw {names : List Argument} {make : Arguments → Except Fault Statement}
    (htakes : Takes make names) (h : ∀ x ∈ names, a.shows x = false) :
    Respects src src (Joined src a k m l)
      (arguments >>= fun b => given (make b) >>= put) := by
  intro p₁ p₂ s t hrest hR
  have hsame : make t.arguments = make s.arguments := by
    rw [hR.arguments]
    exact htakes.congr fun x hx => Arguments.shown_merge_of_not_shows (h x hx) s.arguments
  rw [run_bind_ok (run_arguments src p₁ s), run_bind_ok (run_arguments src p₂ t), hsame]
  rcases make s.arguments with fault | st
  · exact ⟨.error fault, 0, s, t, rfl, rfl, hR⟩
  · exact (Joined.congruent src a k m l).put st hrest hR

/-- An instruction that spares what was left does the same on a new line and behind a colon. -/
theorem respects_of_spares {v : Version} {w : Nat}
    (heffect : (Instruction.operation v w).effect? = none ∨
      (Instruction.operation v w).effect? = some .arguments)
    (hspares : (Instruction.operation v w).spares a = true) :
    Respects src src (Joined src a k m l) (Instruction.perform v w) := by
  have hcongruent := Joined.congruent src a k m l
  rcases heffect with hnone | hsome
  · refine respects_perform hcongruent v w (effectCongruent_of_ne fun effect he => ?_)
    rw [Instruction.Operation.effect?_of_power? he] at hnone
    cases hnone
  · obtain ⟨use, huse⟩ := Instruction.exists_use hsome
    have hform := Instruction.describes_perform huse
    rw [Instruction.Operation.spares, huse] at hspares
    cases use with
    | gives x =>
      obtain ⟨operand, hoperand, hform⟩ := hform
      rw [hform]
      have hfree : a.isGiven x = false := (Bool.not_eq_true' _).mp hspares
      exact (hoperand.respects hcongruent effectCongruent_none).bind (respects_give hfree)
    | takes names =>
      obtain ⟨α, operands, make, hoperands, htakes, hform⟩ := hform
      rw [hform]
      have hhidden : ∀ x ∈ names, a.shows x = false := fun x hx =>
        (Bool.not_eq_true' _).mp (List.all_eq_true.mp hspares x hx)
      exact (hoperands.respects hcongruent effectCongruent_none).bind fun operand =>
        respects_draw (htakes operand) hhidden

/-! ## Instructions that do not -/

/-- How far the writing has come in joined states: to the second line, and behind the colon. -/
theorem Joined.cursor (h : Joined src a k m l s t) :
    s.cursor = (m + 2, 0) ∧ t.cursor = (m + 1, l.earlier.length + 1) := by
  obtain ⟨first, second, rest, hs, ht, hsecond, hfirst, hrest⟩ := h.programs.lines
  constructor
  · rw [State.cursor, hs, List.length_cons, List.length_cons, hrest, List.head?_cons,
      Option.map_some, Option.getD_some, hsecond]
    rfl
  · rw [State.cursor, ht, List.length_cons, hrest, ← Line.length_earlier_of_undefined hfirst]
    rfl

/-- Different statements have been drawn at the same place of the last statements of two states. -/
def Differ (s t : State) : Prop :=
  ∃ way drawn drawn', drawn.isDrawn = true ∧ drawn'.isDrawn = true ∧ drawn ≠ drawn' ∧
    s.lastAt way = some drawn ∧ t.lastAt way = some drawn'

/-- Giving an operand under a name that was left behind the colon fails there. -/
theorem run_give_of_isGiven {x : Argument} (h : a.isGiven x = true) (hR : Joined src a k m l s t)
    (set : Arguments → Arguments) (pos : Nat) :
    (setArgument (fun b => b.isGiven x) set).run src pos t = (.error .brokenPromise, pos, t) := by
  rw [run_setArgument, hR.arguments, Arguments.isGiven_merge, h, Bool.or_true, if_pos rfl]

/-- Where an operand that was left shows, different statements are drawn. -/
theorem differ_draw {names : List Argument} {make : Arguments → Except Fault Statement}
    (htakes : Takes make names) {x : Argument} (hx : x ∈ names) (h : a.shows x = true)
    (hR : Joined src a k m l s t) {pos pos₁ pos₂ : Nat} {s' t' : State}
    (hs : (arguments >>= fun b => given (make b) >>= put).run src pos s = (.ok (), pos₁, s'))
    (ht : (arguments >>= fun b => given (make b) >>= put).run src pos t = (.ok (), pos₂, t')) :
    Differ s' t' ∧ s'.cursor = s.cursor ∧ t'.cursor = t.cursor := by
  rw [run_bind_ok (run_arguments src pos s), run_bind, run_given] at hs
  rw [run_bind_ok (run_arguments src pos t), run_bind, run_given] at ht
  rcases hmake : make s.arguments with fault | drawn <;> rw [hmake] at hs
  · cases hs
  rcases hmake' : make t.arguments with fault | drawn' <;> rw [hmake'] at ht
  · cases ht
  have hne : drawn ≠ drawn' := by
    rintro rfl
    have hfree : s.arguments.isGiven x = false := by
      refine Bool.eq_false_iff.mpr fun hgiven => ?_
      have hleft := hR.apart x hgiven
      rw [Arguments.isGiven_of_shows h] at hleft
      cases hleft
    refine Arguments.shown_merge_of_shows h hfree ?_
    rw [← hR.arguments]
    exact (htakes.inj hmake hmake' x hx).symm
  rcases hlast : s.last? with _ | st
  · dsimp only at hs
    rw [run_put, hlast] at hs
    cases hs
  · have hlast' : t.last? = some st := (Joined.congruent src a k m l).last hR ▸ hlast
    have hput := lastAt_of_run_put (htakes.drawn hmake) hlast hs
    have hput' := lastAt_of_run_put (htakes.drawn hmake') hlast' ht
    exact ⟨⟨st.openPlace, drawn, drawn', htakes.drawn hmake, htakes.drawn hmake', hne, hput.1,
      hput'.1⟩, hput.2, hput'.2⟩

/-- An action that does the same in joined states gives the same value, and leaves them joined. -/
theorem Joined.run_ok {α : Type} {action : Decode α} (hR : Joined src a k m l s t)
    (h : Respects src src (Joined src a k m l) action) {pos pos₁ pos₂ : Nat} {x y : α}
    {s' t' : State} (hs : action.run src pos s = (.ok x, pos₁, s'))
    (ht : action.run src pos t = (.ok y, pos₂, t')) :
    x = y ∧ pos₁ = pos₂ ∧ Joined src a k m l s' t' := by
  obtain ⟨r, n, s₁, t₁, hs₁, ht₁, hR₁⟩ := h rfl hR
  rw [hs] at hs₁
  rw [ht] at ht₁
  cases hs₁
  cases ht₁
  exact ⟨rfl, rfl, hR₁⟩

/-- An instruction that does not spare what was left, and succeeds all the same, draws different
statements. -/
theorem differ_of_not_spares {v : Version} {w : Nat}
    (hspares : (Instruction.operation v w).spares a = false) (hR : Joined src a k m l s t)
    {pos pos₁ pos₂ : Nat} {s' t' : State}
    (hs : (Instruction.perform v w).run src pos s = (.ok (), pos₁, s'))
    (ht : (Instruction.perform v w).run src pos t = (.ok (), pos₂, t')) :
    Differ s' t' ∧ s'.cursor = s.cursor ∧ t'.cursor = t.cursor := by
  have hcongruent := Joined.congruent src a k m l
  rcases huse : (Instruction.operation v w).use? with _ | use <;>
    rw [Instruction.Operation.spares, huse] at hspares
  · cases hspares
  have hform := Instruction.describes_perform huse
  cases use with
  | gives x =>
    obtain ⟨operand, hoperand, hform⟩ := hform
    rw [hform, run_bind_eq_ok] at hs ht
    obtain ⟨value, p₁, s₁, hs₁, -⟩ := hs
    obtain ⟨value', p₂, t₁, ht₁, ht⟩ := ht
    obtain ⟨-, -, hR₁⟩ := hR.run_ok (hoperand.respects hcongruent effectCongruent_none) hs₁ ht₁
    have hgiven : a.isGiven x = true := by
      rwa [Option.all_some, Instruction.Use.spares, Bool.not_eq_false'] at hspares
    rw [run_give_of_isGiven hgiven hR₁] at ht
    cases ht
  | takes names =>
    obtain ⟨α, operands, make, hoperands, htakes, hform⟩ := hform
    rw [hform, run_bind_eq_ok] at hs ht
    obtain ⟨operand, p₁, s₁, hs₁, hs⟩ := hs
    obtain ⟨operand', p₂, t₁, ht₁, ht⟩ := ht
    obtain ⟨rfl, rfl, hR₁⟩ := hR.run_ok (hoperands.respects hcongruent effectCongruent_none) hs₁ ht₁
    obtain ⟨x, hx, hshows⟩ : ∃ x ∈ names, a.shows x = true := by
      rw [Option.all_some, Instruction.Use.spares, List.all_eq_false] at hspares
      simpa using hspares
    obtain ⟨hdiffer, hcursor, hcursor'⟩ := differ_draw (htakes operand) hx hshows hR₁ hs ht
    exact ⟨hdiffer, hcursor.trans (hR₁.cursor.1.trans hR.cursor.1.symm),
      hcursor'.trans (hR₁.cursor.2.trans hR.cursor.2.symm)⟩

/-! ## The instructions of a statement -/

/-- An operation neither begins a line or a statement nor writes a comment. -/
def InStatement (op : Instruction.Operation) : Prop :=
  op.effect? ≠ some .line ∧ op.effect? ≠ some .colon ∧ op.effect? ≠ some .comment

instance : DecidablePred InStatement := fun op =>
  inferInstanceAs (Decidable (op.effect? ≠ some .line ∧ op.effect? ≠ some .colon ∧
    op.effect? ≠ some .comment))

theorem InStatement.effect?_eq {op : Instruction.Operation} (h : InStatement op) :
    op.effect? = none ∨ op.effect? = some .arguments := by
  obtain ⟨hline, hcolon, hcomment⟩ := h
  rcases heffect : op.effect? with _ | _ | _ | _ | _
  · exact .inl rfl
  · exact absurd heffect hline
  · exact absurd heffect hcolon
  · exact absurd heffect hcomment
  · exact .inr rfl

variable {v : Version} {fin : Nat}

/-- Instructions that spare what was left do the same on a new line and behind a colon. -/
theorem Trace.joined {ops : List Instruction.Operation} {pos pos' : Nat} {s' : State}
    (h : Trace v src fin ops pos s pos' s') (hops : ∀ op ∈ ops, InStatement op)
    (hspares : ∀ op ∈ ops, op.spares a = true) (hR : Joined src a k m l s t) :
    ∃ t', Trace v src fin ops pos t pos' t' ∧ Joined src a k m l s' t' := by
  induction h generalizing t with
  | done h => exact ⟨t, .done h, hR⟩
  | step hlt hw hp _ ih =>
    rw [List.forall_mem_cons] at hops hspares
    obtain ⟨r, n, s₁, t₁, hs₁, ht₁, hR₁⟩ :=
      respects_of_spares hops.1.effect?_eq hspares.1 rfl hR
    rw [hp] at hs₁
    cases hs₁
    obtain ⟨t', ht', hR'⟩ := ih hops.2 hspares.2 hR₁
    exact ⟨t', .step hlt hw ht₁ ht', hR'⟩

theorem Differ.last_ne (h : Differ s t) : s.last? ≠ t.last? := by
  intro heq
  obtain ⟨way, drawn, drawn', -, -, hne, hs, ht⟩ := h
  rw [State.lastAt, heq] at hs
  exact hne (Option.some.inj (hs.symm.trans ht))

/-- Different statements stay different as long as neither run moves on to another statement. -/
theorem Differ.trace (h : Differ s t) {ops ops' : List Instruction.Operation}
    {pos pos₁ pos₂ pos₃ : Nat} {s' t' : State} (hs : Trace v src fin ops pos s pos₁ s')
    (ht : Trace v src fin ops' pos₂ t pos₃ t') (hcursor : s.cursor = s'.cursor)
    (hcursor' : t.cursor = t'.cursor) : Differ s' t' := by
  obtain ⟨way, drawn, drawn', hdrawn, hdrawn', hne, hat, hat'⟩ := h
  exact ⟨way, drawn, drawn', hdrawn, hdrawn', hne, (hs.after hdrawn).stays hcursor hat,
    (ht.after hdrawn').stays hcursor' hat'⟩

/-- Where an instruction does not spare what was left, the statements are different in the end. -/
theorem Trace.last_ne {ops ops' : List Instruction.Operation} {pos pos₁ pos₂ : Nat} {s' t' : State}
    (hs : Trace v src fin ops pos s pos₁ s') (ht : Trace v src fin ops' pos t pos₂ t')
    (hops : ∀ op ∈ ops, InStatement op) (hR : Joined src a k m l s t)
    (hnot : ∃ op ∈ ops, op.spares a = false) (hcursor : s'.cursor = (m + 2, 0))
    (hcursor' : t'.cursor = (m + 1, l.earlier.length + 1)) : s'.last? ≠ t'.last? := by
  -- up to the first such instruction the runs are joined; behind it they differ
  induction hs generalizing t ops' with
  | done h =>
    obtain ⟨op, hop, -⟩ := hnot
    cases hop
  | @step w pos pos₁ _ s s₁ _ ops hlt hw hp hrest ih =>
    cases ht with
    | done h => exact absurd hlt (Nat.not_lt.mpr h)
    | @step w' _ q₁ _ _ t₁ _ ops' _ hw' hp' hrest' =>
      obtain rfl : w = w' := Except.ok.inj (hw.symm.trans hw')
      rw [List.forall_mem_cons] at hops
      rcases hspares : (Instruction.operation v w).spares a
      · obtain ⟨hdiffer, hs₁, ht₁⟩ := differ_of_not_spares hspares hR hp hp'
        rw [hR.cursor.1, ← hcursor] at hs₁
        rw [hR.cursor.2, ← hcursor'] at ht₁
        exact (hdiffer.trace hrest hrest' hs₁ ht₁).last_ne
      · obtain ⟨-, rfl, hR₁⟩ :=
          hR.run_ok (respects_of_spares hops.1.effect?_eq hspares) hp hp'
        refine ih hrest' hops.2 hR₁ ?_ hcursor
        obtain ⟨op, hop, hnotop⟩ := hnot
        rcases List.mem_cons.mp hop with rfl | hmem
        · rw [hspares] at hnotop
          cases hnotop
        · exact ⟨op, hmem, hnotop⟩

/-! ## Statements behind a colon -/

/-- A new line, and a colon behind the last one, make joined states. -/
theorem joined_start {rest : List Line} (hs : Reachable v src s)
    (hlines : s.program.current.lines = l :: rest) (hstack : s.stack = [])
    (hcleared : Cleared src s t) (label : Option Identifier) (indent : Nat) (a : Arguments) :
    Joined src a s.program.earlier.length rest.length l
      (t.withLines (Line.start label indent :: t.program.current.lines))
      ({ s with arguments := a }.withLines (l.colon none :: rest)) where
  names := hcleared.names
  stack := hcleared.stack.trans hstack.symm
  arguments := by
    rw [State.withLines, State.withLines, hcleared.arguments]
    exact (Arguments.none_merge a).symm
  apart := by
    rw [State.withLines, hcleared.arguments]
    exact Arguments.none_apart a
  programs := by
    rw [State.withLines, State.withLines, hcleared.program, hlines]
    exact ⟨rfl, rfl, rfl, rfl, l, Line.start label indent, rest, rfl, rfl, rfl, rfl, rfl⟩
  openFns := by
    rw [State.withLines, State.withLines, hcleared.openFns]
    refine List.forall₂_same.mpr fun place hplace => .same fun hk => ?_
    rcases hs.openWritten place hplace with hlt | ⟨-, l', rest', hlines', hplace⟩
    · exact absurd hk (Nat.ne_of_lt hlt)
    · rw [hlines] at hlines'
      cases hlines'
      omega

/-- A colon adds an empty statement to the last line, and that is all. -/
theorem run_colon_instruction {w parameter pos : Nat} {rest : List Line} (hlt : pos < fin)
    (hw : src.natLE pos 2 = .ok w) (hop : Instruction.operation v w = .common 0x0006 parameter)
    (hlines : s.program.current.lines = l :: rest) :
    (instructions v fin).run src pos s =
      (instructions v fin).run src (pos + 2) (s.withLines (l.colon none :: rest)) := by
  have hperform : Instruction.perform v w = colon none := by
    rw [Instruction.perform, hop]
    rfl
  have hcolon : (colon none).run src (pos + 2) s =
      (.ok (), pos + 2, s.withLines (l.colon none :: rest)) := by
    rw [colon, run_bind, run_line, hlines]
    dsimp only
    rw [run_setLine, hlines]
    rfl
  rw [run_instructions_of_lt hlt,
    run_bind_ok (run_step_eq_ok.mpr ⟨w, hw, hperform ▸ hcolon⟩)]

/-- **A statement behind a colon.** Let a line have been written and no operand be left on the
stack, and let instructions without lines, colons and comments give one statement on a new line.
Behind a colon they succeed and add the same statement to the statements of the line exactly if they
spare the operands that the line has left under a name: none of them gives another one under the
same name, and none of them takes one that shows. The statements of the line are the same in both
cases, but for values that the instructions may give to function definitions that are open in it. -/
theorem colon_statement_iff {rest : List Line} (hs : Reachable v src s)
    (hlines : s.program.current.lines = l :: rest) (hstack : s.stack = []) {pos w parameter : Nat}
    (hlt : pos < fin) (hw : src.natLE pos 2 = .ok w)
    (hcolon : Instruction.operation v w = .common 0x0006 parameter) {w' code indent q q' : Nat}
    (hline : Instruction.operation v w' = .common code indent)
    (hcode : code = 0x0000 ∨ code = 0x0004 ∨ code = 0x0005)
    (hnew : (Instruction.perform v w').run src q s = (.ok (), q', t))
    {ops : List Instruction.Operation} {pos' : Nat} {f : State}
    (htrace : Trace v src fin ops (pos + 2) t pos' f) (hops : ∀ op ∈ ops, InStatement op) :
    ∃ first second st older, f.program.current.lines = second :: first :: older ∧
      second.statements = [st] ∧ first.undefined = l.undefined ∧
      ((∃ c joined, (instructions v fin).run src pos s = (.ok (), pos', c) ∧
          c.program.current.lines = joined :: older ∧
          joined.statements = first.statements ++ [st]) ↔
        ∀ op ∈ ops, op.spares s.arguments = true) := by
  obtain ⟨label, indent, t', hcleared, rfl⟩ := exists_cleared_of_line hline hcode hnew
  have hjoined := joined_start hs hlines hstack hcleared label indent
  -- with nothing left under a name, every instruction does the same in both runs
  obtain ⟨_, -, hempty⟩ := htrace.joined hops (fun op _ => op.spares_none) (hjoined .none)
  obtain ⟨first, second, older, hf, -, hsecond, hfirst, holder⟩ := hempty.programs.lines
  refine ⟨first, second, second.last.statement, older, hf, ?_, hfirst, ?_⟩
  · rw [Line.statements, Line.slots, hsecond]
    rfl
  · rw [run_colon_instruction hlt hw hcolon hlines]
    constructor
    · rintro ⟨c, joined, hc, hclines, hstatements⟩ op hop
      obtain ⟨ops', hc⟩ := run_instructions_eq_ok.mp hc
      obtain ⟨hlast, hearlier⟩ := Line.last_of_statements_eq hstatements
      have hcursor : c.cursor = (rest.length + 1, l.earlier.length + 1) := by
        rw [State.cursor, hclines, List.length_cons, holder, List.head?_cons, Option.map_some,
          Option.getD_some, hearlier, Line.length_earlier_of_undefined hfirst]
      have hsame : f.last? = c.last? := by
        rw [State.last?, State.last?, hf, hclines, List.head?_cons, List.head?_cons,
          Option.map_some, Option.map_some, hlast]
      rcases hspares : op.spares s.arguments
      · exact absurd hsame
          (htrace.last_ne hc hops (hjoined s.arguments) ⟨op, hop, hspares⟩ hempty.cursor.1 hcursor)
      · rfl
    · intro hspares
      obtain ⟨c, hc, hR⟩ := htrace.joined hops hspares (hjoined s.arguments)
      obtain ⟨first', second', older', hf', hclines, -⟩ := hR.programs.lines
      rw [hf] at hf'
      cases hf'
      exact ⟨c, _, run_instructions_eq_ok.mpr ⟨ops, hc⟩, hclines, first.statements_join second⟩

/-- A file with a line on which a point is set after another one has been reached: behind the header
stand the instructions of the line, of `LINE -(1, 1)`, of the colon and of `PSET (2, 2)`. -/
def lineAndPset : Source :=
  .ofBytes (List.replicate 0x1E 0 ++ [0x00, 0x00, 0x64, 0x05, 0x64, 0x05, 0x83, 0x00, 0xBB, 0x00,
    0x00, 0x00, 0x06, 0x00, 0x64, 0x09, 0x64, 0x09, 0x81, 0x00, 0xDA, 0x00])

/-- The state in which the first statement of this file has been decoded. -/
def afterLine : State :=
  ((header .qb45).run lineAndPset 0 (.start .qb45)).2.2.steps .qb45 lineAndPset
    [0x1E, 0x20, 0x22, 0x24, 0x26]

/-- The point of a `LINE` does not stand in the way of that of a `PSET`, which has another name. -/
theorem pset_behind_line :
    afterLine.arguments.isGiven .stop = true ∧
    ∃ c joined older, (instructions .qb45 0x34).run lineAndPset 0x2A afterLine = (.ok (), 0x34, c) ∧
      c.program.current.lines = joined :: older ∧
      joined.statements =
        [.line none (some ⟨.number 1, .number 1, false⟩) .omitted "" .omitted,
          .pset "PSET" (some ⟨.number 2, .number 2, false⟩) .omitted] := by
  have hreachable : Reachable .qb45 lineAndPset afterLine :=
    Reachable.start.steps [0x1E, 0x20, 0x22, 0x24, 0x26]
  have hw : lineAndPset.natLE 0x2A 2 = .ok 0x0006 := rfl
  have hcolon : Instruction.operation .qb45 0x0006 = .common 0x0006 0 := rfl
  have hline : Instruction.operation .qb45 0x0000 = .common 0x0000 0 := rfl
  have hnew : (Instruction.perform .qb45 0x0000).run lineAndPset 0x1E afterLine =
      (.ok (), 0x1E, _) := rfl
  have htrace : ∃ f, Trace .qb45 lineAndPset 0x34
      ([0x0964, 0x0964, 0x0081, 0x00DA].map (Instruction.operation .qb45)) 0x2C
      ((Instruction.perform .qb45 0x0000).run lineAndPset 0x1E afterLine).2.2 0x34 f ∧
      f.program.current.lines.map Line.statements =
        [[.pset "PSET" (some ⟨.number 2, .number 2, false⟩) .omitted],
         [.line none (some ⟨.number 1, .number 1, false⟩) .omitted "" .omitted]] :=
    ⟨_, .step (by decide) rfl rfl (.step (by decide) rfl rfl (.step (by decide) rfl rfl
      (.step (by decide) rfl rfl (.done (Nat.le_refl _))))), rfl⟩
  obtain ⟨f, htrace, hstatements⟩ := htrace
  obtain ⟨first, second, st, older, hf, hst, -, hiff⟩ :=
    colon_statement_iff hreachable rfl rfl (by decide) hw hcolon hline (.inl rfl) hnew htrace
      (by decide)
  obtain ⟨c, joined, hrun, hlines, hjoined⟩ := hiff.mpr (by decide)
  refine ⟨rfl, c, joined, older, hrun, hlines, ?_⟩
  rw [hf, List.map_cons, List.map_cons, hst] at hstatements
  injection hstatements with hsecond hrest
  injection hrest with hfirst
  rw [hjoined, hfirst, hsecond]
  rfl

/-- A file with a line on which two points are set: behind the header stand the instructions of the
line, of `PSET (1, 1)`, of the colon and of `PSET (2, 2)`. -/
def twoPsets : Source :=
  .ofBytes (List.replicate 0x1E 0 ++ [0x00, 0x00, 0x64, 0x05, 0x64, 0x05, 0x81, 0x00, 0xDA, 0x00,
    0x06, 0x00, 0x64, 0x09, 0x64, 0x09, 0x81, 0x00, 0xDA, 0x00])

/-- The state in which the first point of this file has been set. -/
def afterPset : State :=
  ((header .qb45).run twoPsets 0 (.start .qb45)).2.2.steps .qb45 twoPsets
    [0x1E, 0x20, 0x22, 0x24, 0x26]

/-- A second point can be set on a new line, but behind a colon it is refused: the first one is
still there under its name. -/
theorem second_pset_refused :
    afterPset.stack.length = 0 ∧
    (∃ f, Trace .qb45 twoPsets 0x32
        ([0x0964, 0x0964, 0x0081, 0x00DA].map (Instruction.operation .qb45)) 0x2A
        ((Instruction.perform .qb45 0x0000).run twoPsets 0x1E afterPset).2.2 0x32 f ∧
      f.last? = some (.pset "PSET" (some ⟨.number 2, .number 2, false⟩) .omitted)) ∧
    ((instructions .qb45 0x32).run twoPsets 0x28 afterPset).1 = .error .brokenPromise := by
  refine ⟨rfl, ⟨_, .step (by decide) rfl rfl (.step (by decide) rfl rfl (.step (by decide) rfl rfl
    (.step (by decide) rfl rfl (.done (Nat.le_refl _))))), rfl⟩, ?_⟩
  -- the colon and the two numbers are decoded; the point cannot be given
  rw [run_instructions_of_lt (by decide), run_bind_ok (by rfl),
    run_instructions_of_lt (by decide), run_bind_ok (by rfl),
    run_instructions_of_lt (by decide), run_bind_ok (by rfl),
    run_instructions_of_lt (by decide), run_bind_error (by rfl)]

end Decode

end SavedBasic
