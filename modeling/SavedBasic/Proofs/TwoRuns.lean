import SavedBasic.Proofs.Changes

/-!
# Two runs side by side

Two decodings are compared by running one action on both: in two files at two positions from which
on the files agree, and from two states in a relation. The action *respects* the relation if both
runs give the same value or the same fault, move on by the same number of bytes, and leave states in
the relation again.

What an instruction sees of a state is little: names by their offsets, operands, the last statement,
and whether a function definition is open. A relation that settles this and is kept by the
elementary changes is respected by all instructions without an effect; for an instruction with an
effect, its own effect has to be settled too.
-/

namespace SavedBasic.Decode

variable {α β : Type} {e : Option Power} {src₁ src₂ : Source} {R : State → State → Prop}

/-- Two runs of an action from related states, in files that agree from there on, have the same
result, move on by the same number of bytes and leave related states. -/
def Respects (src₁ src₂ : Source) (R : State → State → Prop) (m : Decode α) : Prop :=
  ∀ ⦃p₁ p₂ : Nat⦄ ⦃s₁ s₂ : State⦄, src₁.rest p₁ = src₂.rest p₂ → R s₁ s₂ →
    ∃ r n s₁' s₂', m.run src₁ p₁ s₁ = (r, p₁ + n, s₁') ∧ m.run src₂ p₂ s₂ = (r, p₂ + n, s₂') ∧
      R s₁' s₂'

/-! ## Putting actions together -/

theorem respects_pure (a : α) : Respects src₁ src₂ R (pure a : Decode α) :=
  fun _ _ _ _ _ hR => ⟨.ok a, 0, _, _, rfl, rfl, hR⟩

theorem respects_throw (fault : Fault) : Respects src₁ src₂ R (throw fault : Decode α) :=
  fun _ _ _ _ _ hR => ⟨.error fault, 0, _, _, rfl, rfl, hR⟩

theorem respects_given (r : Except Fault α) : Respects src₁ src₂ R (given r) := by
  cases r with
  | ok a => exact respects_pure a
  | error fault => exact respects_throw fault

theorem Respects.bind {m : Decode α} {f : α → Decode β} (hm : Respects src₁ src₂ R m)
    (hf : ∀ a, Respects src₁ src₂ R (f a)) : Respects src₁ src₂ R (m >>= f) := by
  intro p₁ p₂ s₁ s₂ hrest hR
  obtain ⟨r, n, s₁', s₂', hrun₁, hrun₂, hR'⟩ := hm hrest hR
  rcases r with fault | a
  · exact ⟨.error fault, n, s₁', s₂', run_bind_error hrun₁, run_bind_error hrun₂, hR'⟩
  · obtain ⟨r, n', s₁'', s₂'', hrun₁', hrun₂', hR''⟩ := hf a (Source.rest_congr_add n hrest) hR'
    refine ⟨r, n + n', s₁'', s₂'', ?_, ?_, hR''⟩
    · rw [run_bind_ok hrun₁, hrun₁', Nat.add_assoc]
    · rw [run_bind_ok hrun₂, hrun₂', Nat.add_assoc]

/-- An action that reads nothing respects a relation if its two results are the same. -/
theorem respects_of_still {m : Decode α}
    (h : ∀ (p₁ p₂ : Nat) (s₁ s₂ : State), R s₁ s₂ → ∃ r s₁' s₂',
      m.run src₁ p₁ s₁ = (r, p₁, s₁') ∧ m.run src₂ p₂ s₂ = (r, p₂, s₂') ∧ R s₁' s₂') :
    Respects src₁ src₂ R m := by
  intro p₁ p₂ s₁ s₂ _ hR
  obtain ⟨r, s₁', s₂', hrun₁, hrun₂, hR'⟩ := h p₁ p₂ s₁ s₂ hR
  exact ⟨r, 0, s₁', s₂', hrun₁, hrun₂, hR'⟩

theorem respects_modify {f : State → State} (h : ∀ s₁ s₂, R s₁ s₂ → R (f s₁) (f s₂)) :
    Respects src₁ src₂ R (modify f) :=
  respects_of_still fun _ _ s₁ s₂ hR => ⟨.ok (), _, _, rfl, rfl, h s₁ s₂ hR⟩

/-! ## Reading -/

theorem respects_number {width : Nat} (hw : 0 < width) : Respects src₁ src₂ R (number width) := by
  intro p₁ p₂ s₁ s₂ hrest hR
  have hsame := Source.natLE_congr hw hrest
  rw [run_number, run_number, hsame]
  rcases src₂.natLE p₂ width with fault | n
  · exact ⟨.error fault, 0, s₁, s₂, rfl, rfl, hR⟩
  · exact ⟨.ok n, width, s₁, s₂, rfl, rfl, hR⟩

theorem respects_bytes (n : Nat) : Respects src₁ src₂ R (bytes n) := by
  intro p₁ p₂ s₁ s₂ hrest hR
  rw [run_bytes, run_bytes, Source.slice_congr n hrest]
  exact ⟨.ok (src₂.slice p₂ n), (src₂.slice p₂ n).length, s₁, s₂, rfl, rfl, hR⟩

/-- Look-ups of names are settled by a relation and keep it. -/
structure NameCongruent (src₁ src₂ : Source) (R : State → State → Prop) : Prop where
  names : ∀ {s t}, R s t → s.nameAt src₁ = t.nameAt src₂
  noting : ∀ {s t} (offset : Nat), R s t → R (s.noting src₁ offset) (t.noting src₂ offset)

theorem NameCongruent.identifierAt (h : NameCongruent src₁ src₂ R) (offset : Nat) :
    Respects src₁ src₂ R (identifierAt offset) := by
  refine respects_of_still fun p₁ p₂ s₁ s₂ hR => ?_
  rw [run_identifierAt, run_identifierAt, identifierAt_congr (h.names hR)]
  exact ⟨_, _, _, rfl, rfl, h.noting offset hR⟩

/-! ## Relations that instructions respect -/

/-- As many places are none in both or in neither. -/
theorem isEmpty_congr {ps qs : List Place} (h : ps.length = qs.length) : ps.isEmpty = qs.isEmpty := by
  rw [Bool.eq_iff_iff, List.isEmpty_iff_length_eq_zero, List.isEmpty_iff_length_eq_zero, h]

/-- A relation settles what instructions see of a state beside the last statement, and elementary
changes beside it keep the relation. -/
structure AsideCongruent (src₁ src₂ : Source) (R : State → State → Prop) : Prop
    extends NameCongruent src₁ src₂ R where
  stack : ∀ {s t}, R s t → s.stack = t.stack
  withStack : ∀ {s t} (stack : List Expr), R s t →
    R { s with stack := stack } { t with stack := stack }
  isOpen : ∀ {s t}, R s t → s.openFns.isEmpty = t.openFns.isEmpty
  closeTop : ∀ {s t} (x : Expr), R s t → R (s.closeTop (.value x)) (t.closeTop (.value x))
  kind : ∀ {s t}, R s t → s.program.current.kind = t.program.current.kind
  static : ∀ {s t}, R s t → s.program.current.static = t.program.current.static
  withKind : ∀ {s t} (kind : ProcedureKind), R s t → R (s.withKind kind) (t.withKind kind)

/-- A relation settles what instructions see of a state, and elementary changes keep it. -/
structure Congruent (src₁ src₂ : Source) (R : State → State → Prop) : Prop
    extends AsideCongruent src₁ src₂ R where
  last : ∀ {s t}, R s t → s.last? = t.last?
  setLast : ∀ {s t} (st : Statement), R s t → R (s.setLast st) (t.setLast st)
  openOn : ∀ {s t} (way : List Statement.Branch), R s t → s.program.current.lines ≠ [] →
    R (s.openOn way) (t.openOn way)

/-- A relation settles an effect, and the effect keeps it. -/
structure EffectCongruent (R : State → State → Prop) (e : Option Power) : Prop where
  clear : e = some (.effect .line) → ∀ {s t}, R s t →
    R { s with stack := [], arguments := .none } { t with stack := [], arguments := .none }
  beginLine : e = some (.effect .line) → ∀ {s t} (l : Line), R s t →
    R (s.withLines (l :: s.program.current.lines)) (t.withLines (l :: t.program.current.lines))
  head : e = some (.effect .colon) ∨ e = some (.effect .comment) → ∀ {s t}, R s t →
    s.program.current.lines.head? = t.program.current.lines.head?
  setHead : e = some (.effect .colon) ∨ e = some (.effect .comment) → ∀ {s t} (l : Line), R s t →
    R (s.withLines (s.program.current.lines.modifyHead fun _ => l))
      (t.withLines (t.program.current.lines.modifyHead fun _ => l))
  arguments : e = some (.effect .arguments) → ∀ {s t}, R s t → s.arguments = t.arguments
  modifyArguments : e = some (.effect .arguments) → ∀ {s t} (f : Arguments → Arguments), R s t →
    R { s with arguments := f s.arguments } { t with arguments := f t.arguments }

/-- Without an effect there is nothing to settle. -/
theorem effectCongruent_of_ne (h : ∀ effect, e ≠ some (.effect effect)) : EffectCongruent R e where
  clear he := absurd he (h _)
  beginLine he := absurd he (h _)
  head he := by rcases he with he | he <;> exact absurd he (h _)
  setHead he := by rcases he with he | he <;> exact absurd he (h _)
  arguments he := absurd he (h _)
  modifyArguments he := absurd he (h _)

theorem effectCongruent_none : EffectCongruent R none :=
  effectCongruent_of_ne fun _ he => nomatch he

namespace AsideCongruent

variable (h : AsideCongruent src₁ src₂ R)

include h

theorem pop : Respects src₁ src₂ R pop := by
  refine respects_of_still fun p₁ p₂ s₁ s₂ hR => ?_
  have hstack := h.stack hR
  rw [run_pop, run_pop, hstack]
  rcases s₂.stack with _ | ⟨x, rest⟩
  · exact ⟨.error .emptyStack, s₁, s₂, rfl, rfl, hR⟩
  · exact ⟨.ok x, _, _, rfl, rfl, h.withStack rest hR⟩

theorem popMany (n : Nat) : Respects src₁ src₂ R (popMany n) := by
  refine respects_of_still fun p₁ p₂ s₁ s₂ hR => ?_
  rw [run_popMany, run_popMany, h.stack hR]
  exact ⟨_, _, _, rfl, rfl, h.withStack _ hR⟩

theorem push (x : Expr) : Respects src₁ src₂ R (push x) := by
  refine respects_of_still fun p₁ p₂ s₁ s₂ hR => ?_
  rw [run_push, run_push, h.stack hR]
  exact ⟨.ok (), _, _, rfl, rfl, h.withStack _ hR⟩

theorem testOpen : Respects src₁ src₂ R Decode.isOpen := by
  refine respects_of_still fun p₁ p₂ s₁ s₂ hR => ?_
  exact ⟨.ok (!s₁.openFns.isEmpty), s₁, s₂, rfl, by rw [h.isOpen hR]; rfl, hR⟩

theorem closeFn (x : Expr) : Respects src₁ src₂ R (closeFn (.value x)) := by
  rw [closeFn_value_eq]
  refine h.testOpen.bind fun b => ?_
  split
  · exact respects_modify fun _ _ hR => h.closeTop x hR
  · exact respects_throw _

theorem currentKind : Respects src₁ src₂ R currentKind :=
  respects_of_still fun _ _ s₁ s₂ hR =>
    ⟨.ok s₁.program.current.kind, s₁, s₂, rfl, by rw [h.kind hR]; rfl, hR⟩

theorem currentStatic : Respects src₁ src₂ R currentStatic :=
  respects_of_still fun _ _ s₁ s₂ hR =>
    ⟨.ok s₁.program.current.static, s₁, s₂, rfl, by rw [h.static hR]; rfl, hR⟩

end AsideCongruent

namespace Congruent

variable (h : Congruent src₁ src₂ R)

include h

theorem lastStatement : Respects src₁ src₂ R lastStatement := by
  refine respects_of_still fun p₁ p₂ s₁ s₂ hR => ?_
  rw [run_lastStatement, run_lastStatement, h.last hR]
  rcases s₂.last? with _ | st
  · exact ⟨_, _, _, rfl, rfl, hR⟩
  · exact ⟨_, _, _, rfl, rfl, hR⟩

theorem replaceLast (st : Statement) : Respects src₁ src₂ R (Decode.setLast st) :=
  respects_modify fun _ _ hR => h.setLast st hR

theorem put (new : Statement) : Respects src₁ src₂ R (put new) := by
  rw [put_eq]
  refine h.lastStatement.bind fun st => ?_
  split
  · exact h.replaceLast _
  · exact respects_throw _

theorem amend (f : Statement → Option Statement) : Respects src₁ src₂ R (amend f) := by
  rw [amend_eq]
  refine h.lastStatement.bind fun st => ?_
  split
  · exact h.replaceLast _
  · exact respects_throw _

theorem openFn (d : DefFn) : Respects src₁ src₂ R (openFn d) := by
  refine respects_of_still fun p₁ p₂ s₁ s₂ hR => ?_
  have hlast := h.last hR
  rcases hst : s₂.last? with _ | st <;> rw [hst] at hlast
  · simp only [openFn_eq, run_bind, run_lastStatement, hlast, hst]
    exact ⟨.error .noLine, s₁, s₂, rfl, rfl, hR⟩
  · simp only [openFn_eq, run_bind, run_lastStatement, run_put, hlast, hst]
    rcases st.place (.defFn d) with st' | _ | _
    · have hlines := lines_ne_nil_of_last? (last?_setLast st' hlast)
      exact ⟨.ok (), _, _, rfl, rfl, h.openOn st.openPlace (h.setLast st' hR) hlines⟩
    · exact ⟨.error .cannotCombine, s₁, s₂, rfl, rfl, hR⟩
    · exact ⟨.error .cannotCombine, s₁, s₂, rfl, rfl, hR⟩

end Congruent

theorem EffectCongruent.line (h : EffectCongruent R e)
    (he : e = some (.effect .colon) ∨ e = some (.effect .comment)) :
    Respects src₁ src₂ R line := by
  refine respects_of_still fun p₁ p₂ s₁ s₂ hR => ?_
  have hhead := h.head he hR
  rw [run_line, run_line]
  rcases h₁ : s₁.program.current.lines with _ | ⟨l₁, rest₁⟩ <;>
    rcases h₂ : s₂.program.current.lines with _ | ⟨l₂, rest₂⟩ <;>
    rw [h₁, h₂] at hhead <;> cases hhead
  · exact ⟨.error .noLine, s₁, s₂, rfl, rfl, hR⟩
  · exact ⟨.ok l₁, s₁, s₂, rfl, rfl, hR⟩

theorem EffectCongruent.setLine (h : EffectCongruent R e)
    (he : e = some (.effect .colon) ∨ e = some (.effect .comment)) (l : Line) :
    Respects src₁ src₂ R (setLine l) := by
  refine respects_of_still fun p₁ p₂ s₁ s₂ hR => ?_
  rw [run_setLine, run_setLine]
  exact ⟨.ok (), _, _, rfl, rfl, h.setHead he l hR⟩

/-- What is put together from elementary actions respects every relation that settles what they see. -/
theorem Composed.respects {m : Decode α} (hm : Composed e m) (h : Congruent src₁ src₂ R)
    (he : EffectCongruent R e) : Respects src₁ src₂ R m := by
  induction hm with
  | pure a => exact respects_pure a
  | throw fault => exact respects_throw fault
  | bind _ _ ihm ihf => exact Respects.bind ihm ihf
  | number width hw => exact respects_number hw
  | bytes n => exact respects_bytes n
  | identifierAt offset => exact h.identifierAt offset
  | push x => exact h.push x
  | pop => exact h.pop
  | popMany n => exact h.popMany n
  | lastStatement _ => exact h.lastStatement
  | put new => exact h.put new
  | amend _ f _ => exact h.amend f
  | isOpen _ => exact h.testOpen
  | openFn _ d => exact h.openFn d
  | closeFn _ x => exact h.closeFn x
  | currentKind => exact h.currentKind
  | currentStatic => exact h.currentStatic
  | setProcedureKind kind => exact respects_modify fun _ _ hR => h.withKind kind hR
  | clear heq => exact respects_modify fun _ _ hR => he.clear heq hR
  | beginLine heq label indent =>
    exact respects_modify fun _ _ hR => he.beginLine heq (Line.start label indent) hR
  | colon heq column =>
    exact (he.line (.inl heq)).bind fun l => he.setLine (.inl heq) (l.colon column)
  | line heq => exact he.line (.inr heq)
  | amendLine heq f _ =>
    exact (he.line (.inr heq)).bind fun l => (respects_given (f l)).bind (he.setLine (.inr heq))
  | arguments heq =>
    exact respects_of_still fun _ _ s₁ s₂ hR =>
      ⟨.ok s₁.arguments, s₁, s₂, rfl, by rw [he.arguments heq hR]; rfl, hR⟩
  | modifyArguments heq f => exact respects_modify fun _ _ hR => he.modifyArguments heq f hR

/-! ## Instructions in a row -/

theorem respects_perform (h : Congruent src₁ src₂ R) (v : Version) (w : Nat)
    (he : EffectCongruent R (Instruction.operation v w).power?) :
    Respects src₁ src₂ R (Instruction.perform v w) :=
  (Instruction.composed_perform v w).respects h he

/-- If all effects are settled, instructions in a row agree up to ends at the same distance. -/
theorem respects_instructions (h : Congruent src₁ src₂ R) (he : ∀ e, EffectCongruent R e)
    (v : Version) {fin₁ fin₂ p₁ p₂ : Nat} {s₁ s₂ : State} (hrest : src₁.rest p₁ = src₂.rest p₂)
    (hfin : fin₁ + p₂ = fin₂ + p₁) (hR : R s₁ s₂) :
    ∃ r n s₁' s₂', (instructions v fin₁).run src₁ p₁ s₁ = (r, p₁ + n, s₁') ∧
      (instructions v fin₂).run src₂ p₂ s₂ = (r, p₂ + n, s₂') ∧ R s₁' s₂' := by
  -- every instruction takes its own word, so the distance to the end shrinks
  induction hd : fin₁ - p₁ using Nat.strongRecOn generalizing p₁ p₂ s₁ s₂ with
  | _ d ih =>
    by_cases hlt : p₁ < fin₁
    · have hstep : Respects src₁ src₂ R (Instruction.step v) :=
        (respects_number (by decide)).bind fun w => respects_perform h v w (he _)
      obtain ⟨r, n, s₁', s₂', hrun₁, hrun₂, hR'⟩ := hstep hrest hR
      rw [run_instructions_of_lt hlt, run_instructions_of_lt (by omega)]
      rcases r with fault | u
      · exact ⟨.error fault, n, s₁', s₂', run_bind_error hrun₁, run_bind_error hrun₂, hR'⟩
      · have hpos := lt_pos_of_run_step hrun₁
        obtain ⟨r, n', s₁'', s₂'', hrest₁, hrest₂, hR''⟩ :=
          ih (fin₁ - (p₁ + n)) (by omega) (Source.rest_congr_add n hrest) (by omega) hR' rfl
        refine ⟨r, n + n', s₁'', s₂'', ?_, ?_, hR''⟩
        · rw [run_bind_ok hrun₁, hrest₁, Nat.add_assoc]
        · rw [run_bind_ok hrun₂, hrest₂, Nat.add_assoc]
    · rw [run_instructions_of_le (by omega), run_instructions_of_le (by omega)]
      exact ⟨.ok (), 0, s₁, s₂, rfl, rfl, hR⟩

end SavedBasic.Decode
