import SavedBasic.Proofs.NamedOperands
import SavedBasic.Proofs.Reachable

/-!
# What has been drawn stays

A statement that takes operands under a name is finished at once. Once it stands somewhere in the
last statement of a line, no later instruction changes it: others are put beside it, into the open
branches of an `IF`, and nothing is ever built up further there. So as long as neither a line nor a
colon is added, it stands where it was put.
-/

namespace SavedBasic

/-- What is drawn is whole. -/
theorem Statement.isWhole_of_isDrawn {st : Statement} (h : st.isDrawn = true) :
    st.isWhole = true := by
  cases st <;> first | rfl | cases h

/-- What is drawn has no value to be given. -/
theorem Statement.define_of_isDrawn {st : Statement} (h : st.isDrawn = true) (closing : Closing) :
    st.define closing = st := by
  cases st <;> first | rfl | cases h

namespace Decode

variable {drawn : Statement} {way : List Statement.Branch}

/-- How far the writing has come: the number of lines, and that of statements before the last one. -/
def State.cursor (s : State) : Nat × Nat :=
  (s.program.current.lines.length,
    (s.program.current.lines.head?.map fun l => l.earlier.length).getD 0)

/-- A state comes after another one: the writing has moved on, or what has been drawn is still
there. -/
def After (drawn : Statement) (way : List Statement.Branch) (s s' : State) : Prop :=
  s.cursor.1 < s'.cursor.1 ∨ s.cursor.1 = s'.cursor.1 ∧ s.cursor.2 < s'.cursor.2 ∨
    s.cursor = s'.cursor ∧ (s.lastAt way = some drawn → s'.lastAt way = some drawn)

theorem After.trans {s₁ s₂ s₃ : State} (h : After drawn way s₁ s₂) (h' : After drawn way s₂ s₃) :
    After drawn way s₁ s₃ := by
  rcases h with h | h | ⟨h, hstays⟩
  · rcases h' with h' | h' | ⟨h', -⟩
    · exact .inl (Nat.lt_trans h h')
    · exact .inl (h'.1 ▸ h)
    · exact .inl (h' ▸ h)
  · rcases h' with h' | h' | ⟨h', -⟩
    · exact .inl (h.1 ▸ h')
    · exact .inr (.inl ⟨h.1.trans h'.1, Nat.lt_trans h.2 h'.2⟩)
    · exact .inr (.inl (h' ▸ h))
  · rcases h' with h' | h' | ⟨h', hstays'⟩
    · exact .inl (h ▸ h')
    · exact .inr (.inl (h ▸ h'))
    · exact .inr (.inr ⟨h.trans h', fun hat => hstays' (hstays hat)⟩)

/-- Where the writing has not moved on, what has been drawn is still there. -/
theorem After.stays {s s' : State} (h : After drawn way s s') (hcursor : s.cursor = s'.cursor)
    (hat : s.lastAt way = some drawn) : s'.lastAt way = some drawn := by
  rcases h with h | ⟨-, h⟩ | ⟨-, h⟩
  · exact absurd h (by rw [hcursor]; exact Nat.lt_irrefl _)
  · exact absurd h (by rw [hcursor]; exact Nat.lt_irrefl _)
  · exact h hat

/-- Nothing happens to what has been drawn where no line changes. -/
theorem After.of_lines {s s' : State} (h : s'.program.current.lines = s.program.current.lines) :
    After drawn way s s' := by
  refine .inr (.inr ⟨by rw [State.cursor, State.cursor, h], fun hat => ?_⟩)
  rw [State.lastAt, State.last?, h]
  exact hat

/-- The last line may change where what has been drawn in it stays. -/
theorem After.of_head {s s' : State} {l l' : Line} {rest rest' : List Line}
    (hs : s.program.current.lines = l :: rest) (hs' : s'.program.current.lines = l' :: rest')
    (hrest : rest'.length = rest.length) (hearlier : l'.earlier.length = l.earlier.length)
    (hstays : Statement.at? way l.last.statement = some drawn →
      Statement.at? way l'.last.statement = some drawn) : After drawn way s s' := by
  refine .inr (.inr ⟨?_, fun hat => ?_⟩)
  · rw [State.cursor, State.cursor, hs, hs', List.length_cons, List.length_cons, hrest]
    exact congrArg _ hearlier.symm
  · rw [State.lastAt, State.last?, hs] at hat
    rw [State.lastAt, State.last?, hs']
    exact hstays hat

theorem after_setLast {s : State} {st st' : Statement} (hlast : s.last? = some st)
    (hstays : Statement.at? way st = some drawn → Statement.at? way st' = some drawn) :
    After drawn way s (s.setLast st') := by
  rcases hlines : s.program.current.lines with _ | ⟨l, rest⟩
  · exact absurd hlines (lines_ne_nil_of_last? hlast)
  · have hset : (s.setLast st').program.current.lines = l.setLast st' :: rest := by
      rw [State.setLast, hlines]
      rfl
    have hst : l.last.statement = st := by
      rw [State.last?, hlines] at hlast
      exact Option.some.inj hlast
    exact .of_head hlines hset rfl rfl (hst ▸ hstays)

theorem cursor_setLast (s : State) (st : Statement) : (s.setLast st).cursor = s.cursor := by
  rcases hlines : s.program.current.lines with _ | ⟨l, rest⟩ <;>
    rw [State.cursor, State.cursor, State.setLast, hlines] <;> rfl

/-- A drawn statement that has been put stands at the place that was open. -/
theorem lastAt_of_run_put (hdrawn : drawn.isDrawn = true) {src : Source} {pos pos' : Nat}
    {s s' : State} {st : Statement} (hlast : s.last? = some st)
    (h : (put drawn).run src pos s = (.ok (), pos', s')) :
    s'.lastAt st.openPlace = some drawn ∧ s'.cursor = s.cursor := by
  rw [run_put, hlast] at h
  dsimp only at h
  split at h
  · rename_i st' hplace
    cases h
    refine ⟨?_, cursor_setLast s st'⟩
    rw [State.lastAt, last?_setLast st' hlast]
    exact Statement.at?_openPlace_of_place (Statement.isWhole_of_isDrawn hdrawn) hplace
  · cases h

theorem after_closeTop (hdrawn : drawn.isDrawn = true) (closing : Closing) (s : State) :
    After drawn way s (s.closeTop closing) := by
  unfold State.closeTop
  split
  · exact .of_lines rfl
  · rename_i place _ _
    rcases hlines : s.program.current.lines with _ | ⟨l, rest⟩
    · apply After.of_lines
      rw [hlines]
      dsimp only [Program.amendAt]
      split
      · dsimp only
        rw [hlines, amendFromEnd_nil]
      · exact hlines
    · obtain ⟨l', rest', hl', hrest, rfl | rfl⟩ :=
        Program.lines_amendAt hlines (Statement.define closing) place
      · exact .of_head hlines hl' hrest rfl id
      · refine .of_head hlines hl' hrest (l.length_earlier_amendAt ..) fun hat => ?_
        unfold Line.amendAt
        split
        · have hstays := Statement.at?_amendAt_define (Statement.isWhole_of_isDrawn hdrawn) hat closing
            place.way
          rwa [Statement.define_of_isDrawn hdrawn, or_self] at hstays
        · exact hat

theorem Change.after {src : Source} {e : Option Power} {s s' : State} (h : Change src e s s')
    (hdrawn : drawn.isDrawn = true) : After drawn way s s' := by
  have hwhole := Statement.isWhole_of_isDrawn hdrawn
  cases h with
  | noted offset => exact .of_lines (by rw [State.program_noting])
  | operands stack arguments => exact .of_lines rfl
  | line he l => exact .inl (Nat.lt_succ_self _)
  | placed hlast h => exact after_setLast hlast fun hat => Statement.at?_of_place hwhole hat h
  | amended he st' hlast h =>
    refine after_setLast hlast fun hat => ?_
    rw [Statement.not_isAssembled_of_at? hwhole hat] at h
    cases h
  | colon he column =>
    rcases hlines : s.program.current.lines with _ | ⟨l, rest⟩
    · exact .of_lines hlines.symm
    · refine .inr (.inl ?_)
      rw [State.cursor, State.cursor, hlines]
      exact ⟨rfl, Nat.lt_succ_self _⟩
  | commented he hlines hearlier hlast =>
    refine .of_head hlines rfl rfl (by rw [hearlier]) fun hat => ?_
    rcases hlast with hlast | hremark
    · rw [hlast]
      exact hat
    · rw [Statement.not_holdsRemark_of_at? hwhole hat] at hremark
      cases hremark
  | kind kind => exact .of_lines rfl
  | opened he h => exact .of_lines rfl
  | closed he x => exact after_closeTop hdrawn (.value x) s

theorem Changes.after {src : Source} {s s' : State} (h : Changes src s s')
    (hdrawn : drawn.isDrawn = true) : After drawn way s s' := by
  induction h with
  | refl => exact .of_lines rfl
  | tail _ hstep ih =>
    obtain ⟨e, hstep⟩ := hstep
    exact ih.trans (hstep.after hdrawn)

/-- Instructions that succeed leave what has been drawn, or move on. -/
theorem Trace.after {v : Version} {src : Source} {fin pos pos' : Nat} {s s' : State}
    {ops : List Instruction.Operation} (h : Trace v src fin ops pos s pos' s')
    (hdrawn : drawn.isDrawn = true) : After drawn way s s' := by
  have hchanges := changes_instructions v fin src pos s
  rw [run_instructions_eq_ok.mpr ⟨ops, h⟩] at hchanges
  exact hchanges.after hdrawn

end Decode

end SavedBasic
