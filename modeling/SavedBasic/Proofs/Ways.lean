import SavedBasic.Proofs.Composition

/-!
# Statements inside statements

A statement may stand inside others: behind text that was never understood, or in a branch of an
`IF`. The way to it says which branches to take. A statement that is *whole* has come to stay: others
are put beside it, into the open branches of an `IF`, and nothing is built up further there. Whatever
is done to the statement around it, it stays at the end of its way, and at most a function definition
gets its value.
-/

namespace SavedBasic.Statement

/-- The statement at the end of a way. -/
def at? : List Branch → Statement → Option Statement
  | [], st => some st
  | .rest :: way, misreadBefore _ rest => at? way rest
  | .action :: way, ifThen _ action => at? way action
  | .action :: way, ifThenElse _ action _ => at? way action
  | .alternative :: way, ifThenElse _ _ alternative => at? way alternative
  | _, _ => none

/-- Whether a statement holds no others and is not changed by those that come after it, except that a
function definition may get its value. -/
def isWhole : Statement → Bool
  | empty | misread _ | misreadBefore .. | ifThen .. | ifThenElse .. | otherwise _ | remark .. => false
  | st => !st.isAssembled

variable {st st' new found : Statement} {way : List Branch}

/-- A new statement stands at the end of the way to the open place. -/
theorem at?_openPlace_of_place (hnew : new.isWhole = true) (h : st.place new = .placed st') :
    at? st.openPlace st' = some new := by
  fun_induction place st new generalizing st' with
  | case1 new =>
    cases h
    rfl
  | case2 text new =>
    cases h
    rfl
  | case3 condition action new action' haction ih =>
    cases h
    exact ih hnew haction
  | case4 condition action alternative => cases hnew
  | case5 => cases h
  | case6 => cases h
  | case7 condition action alternative new alternative' halternative ih =>
    cases h
    exact ih hnew halternative
  | case8 => cases h
  | case9 => cases h

/-- A whole statement stands in one that is not whole only at the end of a way into it. -/
theorem exists_branch (hwhole : found.isWhole = true) (hst : st.isWhole = false)
    (hat : at? way st = some found) : ∃ branch rest, way = branch :: rest := by
  rcases way with _ | ⟨branch, rest⟩
  · cases hat
    rw [hst] at hwhole
    cases hwhole
  · exact ⟨branch, rest, rfl⟩

/-- A whole statement stays when a further statement is placed. -/
theorem at?_of_place (hwhole : found.isWhole = true) (hat : at? way st = some found)
    (h : st.place new = .placed st') : at? way st' = some found := by
  fun_induction place st new generalizing st' way with
  | case1 new =>
    obtain ⟨branch, way, rfl⟩ := exists_branch hwhole rfl hat
    cases branch <;> cases hat
  | case2 text new =>
    obtain ⟨branch, way, rfl⟩ := exists_branch hwhole rfl hat
    cases branch <;> cases hat
  | case3 condition action new action' haction ih =>
    cases h
    obtain ⟨branch, way, rfl⟩ := exists_branch hwhole rfl hat
    cases branch with
    | action =>
      have hat' : at? way action' = some found := ih hat haction
      exact hat'
    | rest | alternative => cases hat
  | case4 condition action alternative haction ih =>
    cases h
    obtain ⟨branch, way, rfl⟩ := exists_branch hwhole rfl hat
    cases branch with
    | action => exact hat
    | rest | alternative => cases hat
  | case5 => cases h
  | case6 => cases h
  | case7 condition action alternative new alternative' halternative ih =>
    cases h
    obtain ⟨branch, way, rfl⟩ := exists_branch hwhole rfl hat
    cases branch with
    | action => exact hat
    | alternative =>
      have hat' : at? way alternative' = some found := ih hat halternative
      exact hat'
    | rest => cases hat
  | case8 => cases h
  | case9 => cases h

/-- No whole statement stands in one that is built up further. -/
theorem not_isAssembled_of_at? (hwhole : found.isWhole = true) (hat : at? way st = some found) :
    st.isAssembled = false := by
  rcases way with _ | ⟨branch, way⟩
  · cases hat
    cases st <;> first | rfl | cases hwhole
  · cases branch <;> cases st <;> first | rfl | cases hat

/-- No whole statement stands in a remark. -/
theorem not_holdsRemark_of_at? (hwhole : found.isWhole = true) (hat : at? way st = some found) :
    st.holdsRemark = false := by
  unfold holdsRemark
  split
  · obtain ⟨branch, way, rfl⟩ := exists_branch hwhole rfl hat
    cases branch <;> cases hat
  · rename_i text remark command
    obtain ⟨branch, way, rfl⟩ := exists_branch hwhole rfl hat
    cases branch with
    | rest =>
      have hat' : at? way (.remark remark command) = some found := hat
      obtain ⟨branch, way, rfl⟩ := exists_branch hwhole rfl hat'
      cases branch <;> cases hat'
    | action | alternative => cases hat
  · rfl

/-- Inside other statements, only function definitions are defined. -/
theorem at?_define (hat : at? way st = some found) (closing : Closing) :
    at? way (st.define closing) = some found ∨
      at? way (st.define closing) = some (found.define closing) := by
  rcases way with _ | ⟨branch, way⟩
  · cases hat
    exact .inr rfl
  · unfold define
    split
    · cases branch <;> cases hat
    · exact .inl hat

/-- A whole statement stays when a function definition gets its value, and may be the one. -/
theorem at?_amendAt_define (hwhole : found.isWhole = true) (hat : at? way st = some found)
    (closing : Closing) (target : List Branch) :
    at? way (st.amendAt (define closing) target) = some found ∨
      at? way (st.amendAt (define closing) target) = some (found.define closing) := by
  fun_induction amendAt (define closing) target st generalizing way with
  | case1 st => exact at?_define hat closing
  | case2 target text rest ih =>
    obtain ⟨branch, way, rfl⟩ := exists_branch hwhole rfl hat
    cases branch with
    | rest => exact ih hat
    | action | alternative => cases hat
  | case3 target condition action ih =>
    obtain ⟨branch, way, rfl⟩ := exists_branch hwhole rfl hat
    cases branch with
    | action => exact ih hat
    | rest | alternative => cases hat
  | case4 target condition action alternative ih =>
    obtain ⟨branch, way, rfl⟩ := exists_branch hwhole rfl hat
    cases branch with
    | action => exact ih hat
    | alternative => exact .inl hat
    | rest => cases hat
  | case5 target condition action alternative ih =>
    obtain ⟨branch, way, rfl⟩ := exists_branch hwhole rfl hat
    cases branch with
    | action => exact .inl hat
    | alternative => exact ih hat
    | rest => cases hat
  | case6 => exact .inl hat

end SavedBasic.Statement
