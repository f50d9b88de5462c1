import SavedBasic.Proofs.LineIndependence
import SavedBasic.Proofs.OpenDefinitions
import SavedBasic.Proofs.Postfix

/-!
# The listing only grows

An instruction writes at the end of the listing. The procedures before the last one, and the lines of
the last one before its last, are not touched again, neither by an instruction that succeeds nor by
one that fails halfway. There is one exception, and it is looked for by its place: the value of a
function definition, which may arrive many lines later.
-/

namespace SavedBasic

namespace Instruction

open Decode

/-- Whether an operation begins a line. -/
def Operation.beginsLine : Operation → Bool
  | .common code _ => code == 0x0000 || code == 0x0004 || code == 0x0005
  | _ => false

/-- Whether an operation gives a function definition its value. -/
def Operation.givesValue : Operation → Bool
  | .common code _ => code == 0x0026
  | _ => false

theorem Operation.beginsLine_of_power? {op : Operation} (h : op.power? = some (.effect .line)) :
    op.beginsLine = true := by
  have heffect := Operation.effect?_of_power? h
  cases op with
  | common code parameter =>
    have hmem : (code, Effect.line) ∈ effects := mem_of_lookup_eq_some heffect
    simp only [effects, List.mem_cons, Prod.mk.injEq, reduceCtorEq, and_false, and_true, or_false,
      List.not_mem_nil] at hmem
    rcases hmem with rfl | rfl | rfl <;> rfl
  | _ => cases heffect

theorem Operation.givesValue_of_power? {op : Operation} (h : op.power? = some .close) :
    op.givesValue = true := by
  cases op with
  | common code parameter =>
    dsimp only [Operation.power?] at h
    unfold Instruction.power? at h
    split at h
    · cases h
    · split at h
      · rename_i hcode
        exact beq_iff_eq.mpr hcode
      · split at h
        · cases h
        · split at h
          · cases h
          · split at h <;> cases h
  | _ => cases h

/-- Only the opcodes that begin a line have that effect. -/
theorem Operation.power?_of_beginsLine {op : Operation} (h : op.beginsLine = true) :
    ∃ code parameter, op = .common code parameter ∧
      (code = 0x0000 ∨ code = 0x0004 ∨ code = 0x0005) ∧ op.power? = some (.effect .line) := by
  cases op with
  | common code parameter =>
    simp only [Operation.beginsLine, Bool.or_eq_true, beq_iff_eq, or_assoc] at h
    refine ⟨code, parameter, rfl, h, ?_⟩
    rcases h with rfl | rfl | rfl <;> rfl
  | _ => cases h

theorem perform_of_givesValue {v : Version} {w : Nat} (h : (operation v w).givesValue = true) :
    perform v w = (do
      closeFn (.value (← pop))
      skipWords 2) := by
  cases hop : operation v w with
  | common code parameter =>
    rw [hop, Operation.givesValue, beq_iff_eq] at h
    rw [perform, hop, h]
    rfl
  | _ => rw [hop] at h; cases h

end Instruction

/-- A line has at least one statement, and a column for each. -/
theorem Line.statements_ne_nil (l : Line) :
    l.statements ≠ [] ∧ l.columns.length = l.statements.length := by
  refine ⟨?_, by rw [columns, statements, List.length_map, List.length_map]⟩
  rw [statements, slots_eq, List.map_append]
  exact List.append_ne_nil_of_right_ne_nil _ (List.cons_ne_nil _ _)

namespace Decode

variable {v : Version} {src : Source} {e : Option Power} {s s' : State}

/-! ## Instructions that define nothing -/

/-- The writing goes on: all that stands before the last line is as it was, and function definitions
are opened on the last line or behind it. -/
structure State.WritesOn (s s' : State) : Prop where
  earlier : s'.program.earlier = s.program.earlier
  older : s.program.current.lines.tail <:+ s'.program.current.lines
  length : s.program.current.lines.length ≤ s'.program.current.lines.length
  kept : s.openFns ⊆ s'.openFns
  opened : ∀ place ∈ s'.openFns, place ∈ s.openFns ∨
    place.procedure = s.program.earlier.length ∧ s.program.current.lines.length ≤ place.line + 1

/-- Where no function definition is opened, only the lines matter. -/
theorem State.WritesOn.of_lines (hopen : s'.openFns = s.openFns)
    (hearlier : s'.program.earlier = s.program.earlier)
    (holder : s.program.current.lines.tail <:+ s'.program.current.lines)
    (hlength : s.program.current.lines.length ≤ s'.program.current.lines.length) : s.WritesOn s' where
  earlier := hearlier
  older := holder
  length := hlength
  kept := by rw [hopen]; exact fun _ => id
  opened := by rw [hopen]; exact fun _ => .inl

theorem State.WritesOn.of_same (hopen : s'.openFns = s.openFns)
    (hearlier : s'.program.earlier = s.program.earlier)
    (hlines : s'.program.current.lines = s.program.current.lines) : s.WritesOn s' :=
  .of_lines hopen hearlier (by rw [hlines]; exact List.tail_suffix _) (Nat.le_of_eq (by rw [hlines]))

theorem State.WritesOn.refl (s : State) : s.WritesOn s :=
  .of_same rfl rfl rfl

theorem State.WritesOn.trans {s₁ s₂ s₃ : State} (h : s₁.WritesOn s₂) (h' : s₂.WritesOn s₃) :
    s₁.WritesOn s₃ where
  earlier := h'.earlier.trans h.earlier
  older := by
    -- the older lines are fewer than all lines, so they end what stands before the last one
    refine .trans ?_ h'.older
    rcases h₂ : s₂.program.current.lines with _ | ⟨l, rest⟩
    · have hnil := h.length
      rw [h₂, List.length_nil, Nat.le_zero, List.length_eq_zero_iff] at hnil
      simp only [hnil, List.suffix_refl]
    · have holder := h.older
      have hlength := h.length
      rw [h₂] at holder hlength
      rw [List.tail_cons]
      refine List.suffix_of_suffix_length_le holder (List.suffix_cons l rest) ?_
      rw [List.length_cons] at hlength
      rw [List.length_tail]
      omega
  length := Nat.le_trans h.length h'.length
  kept := List.Subset.trans h.kept h'.kept
  opened := by
    intro place hplace
    rcases h'.opened place hplace with hold | ⟨hprocedure, hline⟩
    · exact h.opened place hold
    · exact .inr ⟨h.earlier ▸ hprocedure, Nat.le_trans h.length hline⟩

theorem State.WritesOn.listing (h : s.WritesOn s') :
    s.program.current.listing.dropLast <+: s'.program.current.listing := by
  rw [Procedure.listing, Procedure.listing, List.dropLast_reverse, List.reverse_prefix]
  exact h.older

/-- Another last line leaves the older ones. -/
theorem writesOn_withLines {l : Line} {rest : List Line}
    (hlines : s.program.current.lines = l :: rest) (l' : Line) :
    s.WritesOn (s.withLines (l' :: rest)) := by
  refine .of_lines rfl rfl ?_ ?_
  · rw [hlines]
    exact List.suffix_cons l' rest
  · rw [hlines]
    exact Nat.le_refl _

theorem writesOn_modifyHead (s : State) (f : Line → Line) :
    s.WritesOn (s.withLines (s.program.current.lines.modifyHead f)) := by
  rcases hlines : s.program.current.lines with _ | ⟨l, rest⟩
  · rw [List.modifyHead_nil, ← hlines]
    exact .refl s
  · exact writesOn_withLines hlines (f l)

theorem writesOn_openOn {way : List Statement.Branch} {st : Statement}
    (h : s.lastAt way = some st) : s.WritesOn (s.openOn way) where
  earlier := rfl
  older := List.tail_suffix _
  length := Nat.le_refl _
  kept := List.subset_cons_self _ _
  opened := by
    intro place hplace
    rcases List.mem_cons.mp hplace with rfl | hold
    · have hlines := List.length_pos_iff.mpr (lines_ne_nil_of_lastAt h)
      refine .inr ⟨rfl, ?_⟩
      dsimp only [State.placeOn]
      omega
    · exact .inl hold

/-- Only where a function definition gets its value is something written elsewhere. -/
theorem Change.writesOn_or_closeTop (h : Change src e s s') :
    s.WritesOn s' ∨ e = some .close ∧ ∃ x, s' = s.closeTop (.value x) := by
  cases h with
  | noted offset =>
    refine .inl (.of_same (s.openFns_noting src offset) ?_ ?_)
    · rw [State.program_noting]
    · rw [State.program_noting]
  | operands stack arguments => exact .inl (.of_same rfl rfl rfl)
  | line he l =>
    exact .inl (.of_lines rfl rfl ((List.tail_suffix _).trans (List.suffix_cons l _)) (Nat.le_succ _))
  | placed hlast h => exact .inl (writesOn_modifyHead s _)
  | amended he st' hlast h => exact .inl (writesOn_modifyHead s _)
  | colon he column => exact .inl (writesOn_modifyHead s _)
  | commented he hlines hearlier hlast => exact .inl (writesOn_withLines hlines _)
  | kind kind => exact .inl (.of_same rfl rfl rfl)
  | opened he h => exact .inl (writesOn_openOn h)
  | closed he x => exact .inr ⟨he, x, rfl⟩

theorem ChangesBy.writesOn (h : ChangesBy src e s s') (he : e ≠ some .close) : s.WritesOn s' := by
  induction h with
  | refl => exact .refl s
  | tail _ hstep ih =>
    exact ih.trans (hstep.writesOn_or_closeTop.resolve_right fun h => he h.1)

/-! ## The number of lines -/

theorem length_lines_closeTop (s : State) (closing : Closing) :
    (s.closeTop closing).program.current.lines.length = s.program.current.lines.length := by
  unfold State.closeTop Program.amendAt
  split
  · rfl
  · dsimp only
    split
    · exact length_amendFromEnd ..
    · rfl

theorem Change.length_lines (h : Change src e s s') (he : e ≠ some (.effect .line)) :
    s'.program.current.lines.length = s.program.current.lines.length := by
  cases h with
  | noted offset => rw [State.program_noting]
  | operands stack arguments => rfl
  | line hline l => exact absurd hline he
  | placed hlast h => exact List.length_modifyHead
  | amended he st' hlast h => exact List.length_modifyHead
  | colon he column => exact List.length_modifyHead
  | commented he hlines hearlier hlast => rw [hlines]; rfl
  | kind kind => rfl
  | opened he h => rfl
  | closed he x => exact length_lines_closeTop s (.value x)

theorem ChangesBy.length_lines (h : ChangesBy src e s s') (he : e ≠ some (.effect .line)) :
    s'.program.current.lines.length = s.program.current.lines.length := by
  induction h with
  | refl => rfl
  | tail _ hstep ih => rw [hstep.length_lines he, ih]

/-- An instruction that begins a line adds one if it succeeds, and none if it fails. -/
theorem length_lines_of_beginsLine {w pos pos' : Nat} {r : Except Fault Unit}
    (h : (Instruction.operation v w).beginsLine = true)
    (hrun : (Instruction.perform v w).run src pos s = (r, pos', s')) :
    s'.program.current.lines.length =
      s.program.current.lines.length + if r.isOk then 1 else 0 := by
  obtain ⟨code, parameter, hop, hcode, -⟩ := Instruction.Operation.power?_of_beginsLine h
  obtain ⟨label, hperform, hlabel⟩ := perform_line hop hcode
  obtain ⟨r, n, t, t₂, hrun', -, hr⟩ :=
    run_startLine (hlabel (@Cleared.nameCongruent src s s rfl)) pos
  rw [hperform, hrun'] at hrun
  cases hrun
  rcases r with fault | u
  · rw [hr.1]
    rfl
  · obtain ⟨label, indent, t', t₂', hcleared, -, rfl, -⟩ := hr
    rw [State.withLines, hcleared.program]
    rfl

/-! ## The instruction that defines -/

theorem state_skipWords (k : Nat) (src : Source) (pos : Nat) (s : State) :
    ((skipWords k).run src pos s).2.2 = s := by
  induction k generalizing pos with
  | zero => rfl
  | succ k ih =>
    rw [skipWords, word, run_bind, run_number]
    rcases src.natLE pos 2 with fault | n
    · rfl
    · exact ih (pos + 2)

/-- The value of a function goes to the innermost open definition, or the instruction fails and
leaves the program alone. -/
theorem program_of_givesValue {w : Nat} (h : (Instruction.operation v w).givesValue = true)
    (pos : Nat) :
    ((Instruction.perform v w).run src pos s).2.2.program = s.program ∨
      ∃ place rest x, s.openFns = place :: rest ∧
        ((Instruction.perform v w).run src pos s).2.2.program =
          s.program.amendAt (Statement.define (.value x)) place := by
  rw [Instruction.perform_of_givesValue h, run_bind, run_pop]
  rcases hstack : s.stack with _ | ⟨x, stack⟩
  · exact .inl rfl
  · dsimp only
    rw [closeFn_value_eq, isOpen, bind_assoc, bind_assoc, run_bind, run_get]
    simp only [pure_bind]
    rcases hopen : s.openFns with _ | ⟨place, rest⟩
    · exact .inl rfl
    · refine .inr ⟨place, rest, x, rfl, ?_⟩
      simp only [List.isEmpty_cons, Bool.not_false, if_true, run_bind, run_modify,
        state_skipWords, State.closeTop]

/-! ## One instruction -/

/-- **The listing only grows.** Whatever an instruction does in a state that decoding can come to,
and whether or not it fails: the procedures before the last one and the lines before its last line
stay as they were. Only the opcode that gives a function definition its value may instead change one
statement elsewhere, the definition that was opened last and is still open, and all it changes there
is the value. There is one line more exactly if the opcode begins a line and succeeds, and every line
has at least one statement and as many columns as statements. -/
theorem perform_appendOnly (hs : Reachable v src s) {w pos pos' : Nat} {r : Except Fault Unit}
    (hrun : (Instruction.perform v w).run src pos s = (r, pos', s')) :
    (s'.program.earlier = s.program.earlier ∧
        s.program.current.listing.dropLast <+: s'.program.current.listing ∨
      (Instruction.operation v w).givesValue = true ∧
        ∃ place rest d x, s.openFns = place :: rest ∧ s.program.at? place = some (.defFn d) ∧
          s'.program = s.program.amendAt (Statement.define (.value x)) place ∧
          s'.program.at? place = some (.defFn { d with definition := some (.value x) })) ∧
    s'.program.current.listing.length = s.program.current.listing.length +
      (if (Instruction.operation v w).beginsLine ∧ r.isOk then 1 else 0) ∧
    ∀ p ∈ s'.program.procedures, ∀ l ∈ p.listing,
      l.statements ≠ [] ∧ l.columns.length = l.statements.length := by
  have hchanges := (Instruction.composed_perform v w).changesBy src pos s
  rw [hrun] at hchanges
  refine ⟨?_, ?_, fun p _ l _ => Line.statements_ne_nil l⟩
  · by_cases hclose : (Instruction.operation v w).power? = some .close
    · have hvalue := Instruction.Operation.givesValue_of_power? hclose
      have hprogram := @program_of_givesValue v src s w hvalue pos
      rw [hrun] at hprogram
      rcases hprogram with hsame | ⟨place, rest, x, hopen, hamend⟩
      · dsimp only at hsame
        rw [hsame]
        exact .inl ⟨rfl, List.dropLast_prefix _⟩
      · obtain ⟨d, hat⟩ := hs.openDefined place (by rw [hopen]; exact List.mem_cons_self)
        refine .inr ⟨hvalue, place, rest, d, x, hopen, hat, hamend, ?_⟩
        dsimp only at hamend
        rw [hamend, Program.at?_amendAt, hat]
        rfl
    · have hwrites := hchanges.writesOn hclose
      exact .inl ⟨hwrites.earlier, hwrites.listing⟩
  · rw [Procedure.listing, Procedure.listing, List.length_reverse, List.length_reverse]
    by_cases hbegins : (Instruction.operation v w).beginsLine = true
    · rw [length_lines_of_beginsLine hbegins hrun]
      simp only [hbegins, true_and]
    · rw [if_neg fun h => hbegins h.1]
      refine hchanges.length_lines fun hline => hbegins ?_
      exact Instruction.Operation.beginsLine_of_power? hline

/-- A file with a function definition whose value stands on the next line: behind one name stand the
instructions of a line, of `DEF FN`, of another line, of the number 1 and of the value. -/
def lateValue : Source :=
  .ofBytes (List.replicate 0x1C 0 ++ Key.namedEntry [0x41] ++
    [0x00, 0x00, 0x45, 0x00, 0x00, 0x00, 0x00, 0x00, 0x00, 0x00, 0x00, 0x00, 0x00, 0x00, 0x00, 0x00,
     0x64, 0x05, 0x26, 0x00, 0x00, 0x00, 0x00, 0x00])

/-- The state of this file before the value is given. -/
def beforeValue : State :=
  ((header .qb45).run lateValue 0 (.start .qb45)).2.2.steps .qb45 lateValue [0x22, 0x24, 0x30, 0x32]

/-- The definition on the first line gets its value while the second one is decoded. -/
theorem value_on_earlier_line :
    beforeValue.program.current.lines.map Line.statements =
      [[.empty], [.defFn ⟨nameA, [], false, none⟩]] ∧
    ∃ place d x, beforeValue.openFns = [place] ∧ place.line = 0 ∧
      beforeValue.program.at? place = some (.defFn d) ∧
      ((Instruction.perform .qb45 0x0026).run lateValue 0x36 beforeValue).2.2.program.at? place =
        some (.defFn { d with definition := some (.value x) }) := by
  have hreachable : Reachable .qb45 lateValue beforeValue :=
    Reachable.start.steps [0x22, 0x24, 0x30, 0x32]
  have hrun : (Instruction.perform .qb45 0x0026).run lateValue 0x36 beforeValue =
      (.ok (), 0x3A, _) := rfl
  obtain ⟨⟨-, more, hlisting⟩ | ⟨-, place, rest, d, x, hopen, hbefore, -, hafter⟩, -, -⟩ :=
    perform_appendOnly hreachable hrun
  · -- the first line is not what it was
    have hfirst := congrArg (fun ls => ls.head?.map Line.statements) hlisting
    cases hfirst
  · refine ⟨rfl, place, d, x, ?_, ?_, hbefore, hafter⟩
    · cases hopen
      rfl
    · cases hopen
      rfl

end Decode

end SavedBasic
