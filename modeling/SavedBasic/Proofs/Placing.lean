import SavedBasic.Proofs.Changes

/-!
# Placing loses nothing

Statements stand inside others: in the branches of a single-line `IF`, behind an `ELSE`, and behind text
that was never understood. Read from left to right, whatever the nesting, a statement is a sequence of
parts: the heads of `IF`, the keywords `ELSE`, the pieces of text, and the statements that contain no
others (`flatten`). This is the order in which they are printed (`unspaced_render`).

A statement that is placed adds its parts to the end of this sequence (`flatten_of_place`), wherever it
goes inside the statement that takes it. So nothing that has been stored is written over, moved or
written twice. Whether there is a place at all depends on the right end only (`exists_placed_iff`).
-/

namespace SavedBasic

open Text Decode

namespace Statement

/-! ## Statements as sequences -/

/-- A part of a statement that contains no other statements. -/
inductive Part where
  /-- the head of a single-line `IF` -/
  | head (condition : Expr)
  /-- the keyword `ELSE` -/
  | otherwise
  /-- text that was never understood -/
  | misread (text : Bytes)
  /-- a statement by itself -/
  | plain (st : Statement)

/-- The parts of a statement from left to right. Empty statements have none. -/
def flatten : Statement → List Part
  | empty => []
  | misread text => [.misread text]
  | misreadBefore text rest => .misread text :: flatten rest
  | ifThen condition action => .head condition :: flatten action
  | ifThenElse condition action alternative =>
    .head condition :: (flatten action ++ .otherwise :: flatten alternative)
  | otherwise action => .otherwise :: flatten action
  | st => [.plain st]

/-- The text of a part. -/
def Part.render (column : Nat) : Part → Printed
  | head condition => do
    return "IF " ++ (← condition.render) ++ " THEN"
  | otherwise => .ok "ELSE"
  | misread text => .ok (CodePage.decode text)
  | plain st => st.render column

/-- The characters of a text without the spaces. -/
def unspaced (text : String) : List Char :=
  text.toList.filter (· != ' ')

/-- What parts show one after another, without the spaces. -/
def showParts (column : Nat) (parts : List Part) : Except Fault (List Char) := do
  let texts ← parts.mapM (Part.render column)
  return texts.flatMap unspaced

@[simp] theorem unspaced_append (a b : String) : unspaced (a ++ b) = unspaced a ++ unspaced b := by
  rw [unspaced, String.toList_append, List.filter_append, unspaced, unspaced]

theorem showParts_cons (column : Nat) (part : Part) (rest : List Part) :
    showParts column (part :: rest) = do
      let text ← part.render column
      return unspaced text ++ (← showParts column rest) := by
  simp [showParts]

theorem showParts_append (column : Nat) (parts parts' : List Part) :
    showParts column (parts ++ parts') = do
      let shown ← showParts column parts
      return shown ++ (← showParts column parts') := by
  simp [showParts]

theorem unspaced_render_otherwise (column : Nat) (action : Statement) :
    unspaced <$> (otherwise action).render column = do
      return unspaced "ELSE" ++ (← unspaced <$> action.render column) := by
  have hspace : unspaced "ELSE " = unspaced "ELSE" := by decide
  by_cases hempty : action = .empty
  · subst hempty
    rfl
  · simp [render, hspace]

theorem unspaced_render_ifThen (column : Nat) (condition : Expr) (action : Statement) :
    unspaced <$> (ifThen condition action).render column = do
      let head ← (Part.head condition).render column
      return unspaced head ++ (← unspaced <$> action.render column) := by
  have hspace : unspaced " THEN " = unspaced " THEN" := by decide
  simp [render, Part.render, hspace]

/-- An `IF` with both branches shows what an `IF` with the first branch and then an `ELSE` show. -/
theorem unspaced_render_ifThenElse (column : Nat) (condition : Expr) (action alternative : Statement) :
    unspaced <$> (ifThenElse condition action alternative).render column = do
      let first ← unspaced <$> (ifThen condition action).render column
      return first ++ (← unspaced <$> (otherwise alternative).render column) := by
  have hspace : unspaced " ELSE" = unspaced "ELSE" := by decide
  have hspaces : unspaced " ELSE " = unspaced "ELSE" := by decide
  rw [unspaced_render_otherwise]
  by_cases hempty : alternative = .empty
  · subst hempty
    simp [render, hspace]
    rfl
  · simp [render, hspaces]

/-- The parts stand in the order in which they are printed: but for spaces, the text of a statement is
made up of their texts. -/
theorem unspaced_render (column : Nat) (st : Statement) :
    unspaced <$> st.render column = showParts column st.flatten := by
  fun_induction flatten st with
  | case1 => rfl
  | case2 text => simp [render, showParts, Part.render]
  | case3 text rest ih =>
    rw [showParts_cons, ← ih]
    simp [render, Part.render]
    rfl
  | case4 condition action ih => rw [showParts_cons, ← ih, unspaced_render_ifThen]
  | case5 condition action alternative iha ihb =>
    rw [showParts_cons, showParts_append, showParts_cons, ← iha, ← ihb, unspaced_render_ifThenElse,
      unspaced_render_ifThen, unspaced_render_otherwise]
    simp
    rfl
  | case6 action ih =>
    rw [showParts_cons, ← ih, unspaced_render_otherwise]
    rfl
  | case7 st => simp [showParts, Part.render]

/-! ## The right end of a statement -/

/-- The statement at the right end, inside the branches of `IF` that are being written. -/
def rightEnd : Statement → Statement
  | ifThen _ action => rightEnd action
  | ifThenElse _ _ alternative => rightEnd alternative
  | st => st

/-- A statement has a place for another one: its right end is empty or text that was never understood,
or the other one is an `ELSE` and the innermost `IF` at the right end has none. -/
def Accepts (st new : Statement) : Prop :=
  st.rightEnd = empty ∨ (∃ text, st.rightEnd = misread text) ∨
    (∃ action, new = otherwise action) ∧ st.openPlace.getLast? = some .action

/-- A statement that is full contains no others at its right end. -/
theorem not_accepts_of_full {st new : Statement} (h : st.place new = .full) :
    st.openPlace = [] ∧ ¬ st.Accepts new := by
  fun_cases place st new with
  | case9 st new hempty hmisread hthen helse => simp_all [openPlace, rightEnd, Accepts]
  | _ => simp [place, *] at h

/-- A statement that refuses another one contains others. -/
theorem openPlace_ne_nil_of_refused {st new : Statement} (h : st.place new = .refused) :
    st.openPlace ≠ [] := by
  fun_cases place st new with
  | case5 => simp [openPlace]
  | case6 => simp [openPlace]
  | case8 => simp [openPlace]
  | _ => simp [place, *] at h

theorem accepts_ifThen {condition : Expr} {action new : Statement} (h : action.openPlace ≠ []) :
    (ifThen condition action).Accepts new ↔ action.Accepts new := by
  rw [Accepts, Accepts, openPlace, List.getLast?_cons_of_ne_nil h]
  rfl

theorem accepts_ifThenElse {condition : Expr} {action alternative new : Statement} :
    (ifThenElse condition action alternative).Accepts new ↔ alternative.Accepts new := by
  have hlast : (Branch.alternative :: alternative.openPlace).getLast? = some .action ↔
      alternative.openPlace.getLast? = some .action := by
    rcases alternative.openPlace with _ | ⟨branch, way⟩
    · simp
    · rw [List.getLast?_cons_cons]
  rw [Accepts, Accepts, openPlace, hlast]
  rfl

/-- Whether another statement finds a place is seen from the right end. -/
theorem exists_placed_iff {st new : Statement} :
    (∃ st', st.place new = .placed st') ↔ st.Accepts new := by
  fun_induction place st new with
  | case1 new => simp [Accepts, rightEnd]
  | case2 text new => simp [Accepts, rightEnd]
  | case3 condition action new action' haction ih =>
    have haccepts : action.Accepts new := ih.mp ⟨action', haction⟩
    rcases hplace : action.openPlace with _ | ⟨branch, way⟩
    · rcases haccepts with hempty | hmisread | ⟨-, hlast⟩
      · exact ⟨fun _ => .inl hempty, fun _ => ⟨_, rfl⟩⟩
      · exact ⟨fun _ => .inr (.inl hmisread), fun _ => ⟨_, rfl⟩⟩
      · rw [hplace] at hlast
        cases hlast
    · rw [accepts_ifThen (by simp [hplace])]
      exact ⟨fun _ => haccepts, fun _ => ⟨_, rfl⟩⟩
  | case4 condition action alternative haction ih =>
    obtain ⟨hplace, -⟩ := not_accepts_of_full haction
    have hlast : (ifThen condition action).openPlace.getLast? = some .action := by
      rw [openPlace, hplace]
      rfl
    exact ⟨fun _ => .inr (.inr ⟨⟨alternative, rfl⟩, hlast⟩), fun _ => ⟨_, rfl⟩⟩
  | case5 condition action new haction hnew ih =>
    obtain ⟨-, hfull⟩ := not_accepts_of_full haction
    refine ⟨by simp, ?_⟩
    rintro (hempty | hmisread | ⟨⟨alternative, rfl⟩, -⟩)
    · exact absurd (.inl hempty) hfull
    · exact absurd (.inr (.inl hmisread)) hfull
    · exact absurd rfl (hnew alternative)
  | case6 condition action new haction ih =>
    rw [accepts_ifThen (openPlace_ne_nil_of_refused haction), ← ih, haction]
  | case7 condition action alternative new alternative' halternative ih =>
    rw [accepts_ifThenElse, ← ih, halternative]
    simp
  | case8 condition action alternative new halternative ih =>
    rw [accepts_ifThenElse, ← ih]
    constructor
    · simp
    · rintro ⟨st', hplaced⟩
      exact absurd hplaced (halternative st')
  | case9 st new =>
    simp_all [Accepts, rightEnd, openPlace]

/-! ## Placing -/

/-- A statement that is placed adds its parts behind those that are there. -/
theorem flatten_of_place {st new st' : Statement} (h : st.place new = .placed st') :
    st'.flatten = st.flatten ++ new.flatten := by
  fun_induction place st new generalizing st' with
  | case1 new =>
    cases h
    rfl
  | case2 text new =>
    cases h
    rfl
  | case3 condition action new action' haction ih =>
    cases h
    rw [flatten, flatten, ih haction, List.cons_append]
  | case4 condition action alternative haction ih =>
    cases h
    rw [flatten, flatten, flatten, List.cons_append]
  | case5 => cases h
  | case6 => cases h
  | case7 condition action alternative new alternative' halternative ih =>
    cases h
    rw [flatten, flatten, ih halternative, List.cons_append, List.append_assoc, List.cons_append]
  | case8 => cases h
  | case9 => cases h

end Statement

namespace Decode

/-- **Placing a statement loses nothing.** On the last line, whatever its last statement is, a statement
either finds a place or is refused. If it finds one, only the last statement of the line changes, and
its parts are those that it had and then those of the new statement; this is also what is printed. If it
is refused, nothing changes at all. It is refused exactly if the right end of the last statement has no
place for it. -/
theorem put_appends_parts {s : State} {l : Line} {rest : List Line}
    (h : s.program.current.lines = l :: rest) (new : Statement) (src : Source) (pos : Nat) :
    (l.last.statement.Accepts new ∧
      ∃ st', (put new).run src pos s = (.ok (), pos, s.withLines (l.setLast st' :: rest)) ∧
        st'.flatten = l.last.statement.flatten ++ new.flatten ∧
        ∀ column, Statement.unspaced <$> st'.render column =
          Statement.showParts column (l.last.statement.flatten ++ new.flatten)) ∨
    (¬ l.last.statement.Accepts new ∧ (put new).run src pos s = (.error .cannotCombine, pos, s)) := by
  have hlast : s.last? = some l.last.statement := by
    rw [State.last?, h]
    rfl
  have hset (st' : Statement) : s.setLast st' = s.withLines (l.setLast st' :: rest) := by
    simp only [State.setLast, State.withLines, h, List.modifyHead_cons]
  simp only [← Statement.exists_placed_iff, run_put, hlast, hset]
  rcases hplace : l.last.statement.place new with st' | _ | _
  · have hflatten := Statement.flatten_of_place hplace
    refine .inl ⟨⟨st', rfl⟩, st', rfl, hflatten, fun column => ?_⟩
    rw [Statement.unspaced_render, hflatten]
  · exact .inr ⟨by simp, rfl⟩
  · exact .inr ⟨by simp, rfl⟩

/-! `IF ERR THEN IF ERL THEN ?KEY ON`, where the question mark is text that was never understood: an
`ELSE` goes to the inner `IF`, behind all that is there. -/

/-- The line with two `IF` inside each other. -/
def nestedLine : Line :=
  (Line.start none 0).setLast
    (.ifThen (.builtin "ERR") (.ifThen (.builtin "ERL") (.misreadBefore [0x3F] (.key "ON"))))

/-- The state in which this is the only line. -/
def onNestedLine : State :=
  (State.start .qb45).withLines [nestedLine]

theorem else_on_nestedLine :
    onNestedLine.program.current.lines = nestedLine :: [] ∧
      ∃ st', (put (.otherwise (.key "OFF"))).run (.ofBytes []) 0 onNestedLine =
          (.ok (), 0, onNestedLine.withLines [nestedLine.setLast st']) ∧
        st'.flatten = [.head (.builtin "ERR"), .head (.builtin "ERL"), .misread [0x3F],
          .plain (.key "ON"), .otherwise, .plain (.key "OFF")] := by
  have hlines : onNestedLine.program.current.lines = nestedLine :: [] := rfl
  refine ⟨hlines, ?_⟩
  rcases put_appends_parts hlines (.otherwise (.key "OFF")) (.ofBytes []) 0 with
    ⟨-, st', hrun, hflatten, -⟩ | ⟨hrefused, -⟩
  · exact ⟨st', hrun, hflatten⟩
  · exact absurd (.inr (.inr ⟨⟨_, rfl⟩, rfl⟩)) hrefused

end Decode

end SavedBasic
