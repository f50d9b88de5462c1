import SavedBasic.Proofs.Conditionals
import SavedBasic.Proofs.DefinitionBlocks
import SavedBasic.Proofs.LineIndependence

/-!
# Rehearsals

What a stretch of instructions does can be tried out on a file that has nothing else, from a state
that has names and nothing else: a *rehearsal*. If the rehearsal succeeds, the stretch succeeds
wherever it stands in a file whose names are the same, and adds the lines of the rehearsal to
whatever is there. What a rehearsal never meets, the stretch leaves alone.

The state of the rehearsal and the state in the file are related by `Mirrors`. Only two opcodes see
which function definitions are open. One gives the innermost of them its value, and one leaves it; a
rehearsal has to know of such a definition, so `rehearse` does not go on over these opcodes
otherwise. All other instructions repeat in the file what they have done in the rehearsal, because
the elementary actions that they are put together from do.
-/

namespace SavedBasic

namespace Instruction

theorem Operation.leavesBlock_of_power? {op : Operation} (h : op.power? = some .exits) :
    op.leavesBlock = true := by
  cases op with
  | common code parameter =>
    dsimp only [Operation.power?] at h
    unfold Instruction.power? at h
    split at h
    · cases h
    · split at h
      · cases h
      · split at h
        · cases h
        · split at h
          · rename_i hcode
            exact beq_iff_eq.mpr hcode
          · split at h <;> cases h
  | _ => cases h

/-- Applies a function to a number in the form of a numeral. -/
def withNumeral {α : Type} : Nat → (Nat → α) → α
  | 0, f => f 0
  | n + 1, f => f (n + 1)

theorem withNumeral_eq {α : Type} (n : Nat) (f : Nat → α) : withNumeral n f = f n := by
  cases n <;> rfl

/-- Performs an instruction, after its opcode has been brought into the form of a numeral: evaluation
then looks it up in the table only once, however often the opcode comes. -/
def performEvaluated (v : Version) (word : Nat) : Decode Unit :=
  match operation v word with
  | .common code parameter =>
    withNumeral code fun code =>
      (table.lookup code).elim (throw (.invalidOpcode (codeOf v word))) fun handler =>
        handler v parameter
  | _ => perform v word

theorem performEvaluated_eq (v : Version) (word : Nat) : performEvaluated v word = perform v word := by
  rw [performEvaluated]
  split
  · rename_i code parameter hop
    rw [withNumeral_eq]
    rcases hlookup : table.lookup code with _ | handler
    · exact (perform_of_lookup_none hop hlookup).symm
    · exact (perform_of_lookup hop hlookup).symm
  · rfl

end Instruction

namespace Decode

open Instruction

variable {α β : Type} {e : Option Power} {src src' : Source} {R : State → State → Prop}

/-! ## Files with a stretch in common -/

/-- What a file has from a position on, but for the last byte, stands in another file. -/
def Recurs (src : Source) (p : Nat) (src' : Source) (p' : Nat) : Prop :=
  src'.Holds p' (src.rest p).dropLast

theorem Recurs.add {p p' : Nat} (h : Recurs src p src' p') (n : Nat) :
    Recurs src (p + n) src' (p' + n) := by
  have hdrop : ((src.rest p).drop n).dropLast = (src.rest p).dropLast.drop n := by
    rw [List.dropLast_eq_take, List.dropLast_eq_take, List.drop_take, List.length_drop]
    congr 1
    omega
  obtain ⟨behind, hrest⟩ := h
  refine ⟨behind.drop (n - (src.rest p).dropLast.length), ?_⟩
  rw [Source.rest_add, Source.rest_add, hdrop, ← List.drop_append, hrest]

/-- As long as the last byte is not touched, the two files have the same next bytes. -/
theorem Recurs.take_rest {p p' n : Nat} (h : Recurs src p src' p') (hn : p + n < src.size) :
    (src'.rest p').take n = (src.rest p).take n ∧ n ≤ (src'.rest p').length := by
  have hlength := src.length_rest p
  obtain ⟨behind, hrest⟩ := h
  have hle : n ≤ (src.rest p).dropLast.length := by
    rw [List.length_dropLast]
    omega
  rw [← hrest, List.take_append_of_le_length hle, List.length_append]
  refine ⟨?_, by omega⟩
  rw [List.dropLast_eq_take, List.take_take, Nat.min_eq_left]
  omega

theorem Recurs.natLE {p p' width n : Nat} (h : Recurs src p src' p') (hw : 0 < width)
    (hn : src.natLE p width = .ok n) (hsize : p + width < src.size) : src'.natLE p' width = .ok n := by
  obtain ⟨htake, hle⟩ := h.take_rest hsize
  have hlength := src.length_rest p
  rw [Source.natLE_eq _ _ hw, if_pos (by omega)] at hn
  rw [Source.natLE_eq _ _ hw, if_pos hle, htake, hn]

/-- A run of bytes that was not cut short is the same in both. -/
theorem Recurs.slice {p p' n : Nat} (h : Recurs src p src' p')
    (hsize : p + (src.slice p n).length < src.size) : src'.slice p' n = src.slice p n := by
  rw [Source.length_slice] at hsize
  rw [Source.slice_eq, Source.slice_eq, (h.take_rest (by omega)).1]

/-! ## Actions that are repeated -/

/-- What an action does in the rehearsal, short of the end of the file, it does in the other file
too. -/
def Repeats (src src' : Source) (R : State → State → Prop) (m : Decode α) : Prop :=
  ∀ ⦃p p' n : Nat⦄ ⦃s t s' : State⦄ ⦃a : α⦄, Recurs src p src' p' → R s t →
    m.run src p s = (.ok a, p + n, s') → p + n < src.size →
    ∃ t', m.run src' p' t = (.ok a, p' + n, t') ∧ R s' t'

theorem Repeats.bind {m : Decode α} {f : α → Decode β} (hm : Repeats src src' R m)
    (hf : ∀ a, Repeats src src' R (f a)) : Repeats src src' R (m >>= f) := by
  intro p p' n s t s'' b hrecurs hR hrun hsize
  obtain ⟨a, q, s', hfirst, hsecond⟩ := run_bind_eq_ok.mp hrun
  obtain ⟨k, rfl⟩ := Nat.exists_eq_add_of_le (le_of_run hfirst)
  obtain ⟨l, hl⟩ := Nat.exists_eq_add_of_le (le_of_run hsecond)
  obtain ⟨t', hfirst', hR'⟩ := hm hrecurs hR hfirst (by omega)
  rw [hl] at hsecond
  obtain ⟨t'', hsecond', hR''⟩ := hf a (hrecurs.add k) hR' hsecond (by omega)
  refine ⟨t'', ?_, hR''⟩
  rw [run_bind_ok hfirst', hsecond']
  congr 2
  omega

/-- An action that reads nothing is repeated if it does the same from related states. -/
theorem repeats_of_still {m : Decode α}
    (h : ∀ p p' s t, R s t → (∃ fault q s', m.run src p s = (.error fault, q, s')) ∨
      ∃ a s' t', m.run src p s = (.ok a, p, s') ∧ m.run src' p' t = (.ok a, p', t') ∧ R s' t') :
    Repeats src src' R m := by
  intro p p' n s t s₁ b _ hR hrun _
  rcases h p p' s t hR with ⟨fault, q, s', hfault⟩ | ⟨a, s', t', hrun₁, hrun₂, hR'⟩
  · rw [hfault] at hrun
    cases hrun
  · rw [hrun₁] at hrun
    obtain ⟨hresult, hpos, rfl⟩ : (.ok a : Except Fault α) = .ok b ∧ p = p + n ∧ s' = s₁ := by
      simpa only [Prod.mk.injEq] using hrun
    obtain rfl : n = 0 := by omega
    exact ⟨t', by rw [hrun₂, hresult, Nat.add_zero], hR'⟩

theorem repeats_pure (a : α) : Repeats src src' R (pure a : Decode α) :=
  repeats_of_still fun _ _ s t hR => .inr ⟨a, s, t, rfl, rfl, hR⟩

theorem repeats_throw (fault : Fault) : Repeats src src' R (throw fault : Decode α) :=
  repeats_of_still fun p _ s _ _ => .inl ⟨fault, p, s, rfl⟩

theorem repeats_modify {f : State → State} (h : ∀ s t, R s t → R (f s) (f t)) :
    Repeats src src' R (modify f) :=
  repeats_of_still fun _ _ s t hR => .inr ⟨(), _, _, rfl, rfl, h s t hR⟩

theorem repeats_number {width : Nat} (hw : 0 < width) : Repeats src src' R (number width) := by
  intro p p' n s t s' a hrecurs hR hrun hsize
  rw [run_number] at hrun
  rcases hread : src.natLE p width with fault | k <;> rw [hread] at hrun
  · cases hrun
  · obtain ⟨hresult, hpos, rfl⟩ : (.ok k : Except Fault Nat) = .ok a ∧ p + width = p + n ∧ s = s' := by
      simpa only [Prod.mk.injEq] using hrun
    obtain rfl : n = width := by omega
    exact ⟨t, by rw [run_number_ok (hrecurs.natLE hw hread hsize), hresult], hR⟩

theorem repeats_bytes (k : Nat) : Repeats src src' R (bytes k) := by
  intro p p' n s t s' a hrecurs hR hrun hsize
  rw [run_bytes] at hrun
  obtain ⟨hresult, hpos, rfl⟩ : (.ok (src.slice p k) : Except Fault Bytes) = .ok a ∧
      p + (src.slice p k).length = p + n ∧ s = s' := by
    simpa only [Prod.mk.injEq] using hrun
  have hslice := hrecurs.slice (n := k) (by omega)
  obtain rfl : n = (src.slice p k).length := by omega
  exact ⟨t, by rw [run_bytes, hslice, hresult], hR⟩

/-! ## The state of the rehearsal and the state in the file -/

/-- The place in the file of a function definition that was opened in the rehearsal; `f` is the state
in front of the stretch. -/
def State.placeBehind (f : State) (place : Place) : Place where
  procedure := f.program.earlier.length
  line := f.program.current.lines.length + place.line
  statement := place.statement
  way := place.way

/-- The program of a state, with more lines and with another kind of its last procedure. -/
def State.programWith (f : State) (kind : Option ProcedureKind) (lines : List Line) : Program :=
  { f.program with
    current := { f.program.current with kind := kind, lines := lines ++ f.program.current.lines } }

/-- The state `t` in the file mirrors the state `s` of the rehearsal; `f` is the state in front of the
stretch, and `base` has the function definitions that the rehearsal takes to be open there. -/
structure Mirrors (src src' : Source) (f : State) (base : List Place) (s t : State) : Prop where
  names : ∀ {offset name}, s.nameAt src offset = .ok name → t.nameAt src' offset = .ok name
  stack : t.stack = s.stack
  arguments : t.arguments = s.arguments
  alone : s.program.earlier = []
  static : s.program.current.static = f.program.current.static
  program : t.program = f.programWith s.program.current.kind s.program.current.lines
  openFns : ∃ new, (∀ place ∈ new, place.procedure = 0) ∧ s.openFns = new ++ base ∧
    t.openFns = new.map f.placeBehind ++ f.openFns

namespace Mirrors

variable {f s t : State} {base : List Place} (h : Mirrors src src' f base s t)

include h

theorem noting (offset : Nat) :
    Mirrors src src' f base (s.noting src offset) (t.noting src' offset) where
  names hs := by
    rw [State.nameAt_noting] at hs ⊢
    exact h.names hs
  stack := by rw [State.stack_noting, State.stack_noting, h.stack]
  arguments := by rw [State.arguments_noting, State.arguments_noting, h.arguments]
  alone := by rw [State.program_noting, h.alone]
  static := by rw [State.program_noting, h.static]
  program := by rw [State.program_noting, State.program_noting, h.program]
  openFns := by rw [State.openFns_noting, State.openFns_noting]; exact h.openFns

/-- The lines of the rehearsal stand in front of those that were there. -/
theorem lines : t.program.current.lines = s.program.current.lines ++ f.program.current.lines := by
  rw [h.program]
  rfl

theorem withLines {lines lines' : List Line} (hlines : lines' = lines ++ f.program.current.lines) :
    Mirrors src src' f base (s.withLines lines) (t.withLines lines') :=
  { h with
    names := h.names
    program := by
      rw [State.withLines, State.withLines, h.program, hlines]
      rfl }

theorem last? {st : Statement} (hst : s.last? = some st) : t.last? = some st := by
  rw [State.last?] at hst ⊢
  rw [h.lines]
  rcases hl : s.program.current.lines with _ | ⟨l, rest⟩ <;> rw [hl] at hst
  · cases hst
  · exact hst

/-- The first line of the rehearsal is the first line in the file, so it changes in both. -/
theorem modifyHead (change : Line → Line) (hne : s.program.current.lines ≠ []) :
    Mirrors src src' f base (s.withLines (s.program.current.lines.modifyHead change))
      (t.withLines (t.program.current.lines.modifyHead change)) := by
  apply h.withLines
  rw [h.lines]
  rcases hl : s.program.current.lines with _ | ⟨l, rest⟩
  · exact absurd hl hne
  · rfl

theorem setLast (st : Statement) (hne : s.program.current.lines ≠ []) :
    Mirrors src src' f base (s.setLast st) (t.setLast st) :=
  h.modifyHead (fun l => l.setLast st) hne

/-- A function definition that is opened in the rehearsal is opened in the file, at the place behind
the lines that were there. -/
theorem openOn (way : List Statement.Branch) (hne : s.program.current.lines ≠ []) :
    Mirrors src src' f base (s.openOn way) (t.openOn way) := by
  have hplace : t.placeOn way = f.placeBehind (s.placeOn way) := by
    rw [State.placeOn, State.placeOn, State.placeBehind, h.lines, h.program]
    rcases hl : s.program.current.lines with _ | ⟨l, rest⟩
    · exact absurd hl hne
    · simp only [List.cons_append, List.length_cons, List.length_append, List.head?_cons,
        State.programWith, Place.mk.injEq, true_and, and_true]
      omega
  obtain ⟨new, hnew, hs, ht⟩ := h.openFns
  refine { h with names := h.names, openFns := ⟨s.placeOn way :: new, ?_, ?_, ?_⟩ }
  · rw [List.forall_mem_cons]
    refine ⟨?_, hnew⟩
    rw [State.placeOn, h.alone]
    rfl
  · rw [State.openOn, hs]
    rfl
  · rw [State.openOn, ht, hplace]
    rfl

end Mirrors

/-! ## Elementary actions -/

section Elementary

variable {f : State} {base : List Place}

theorem repeats_identifierAt (offset : Nat) :
    Repeats src src' (Mirrors src src' f base) (identifierAt offset) := by
  refine repeats_of_still fun p p' s t h => ?_
  rw [run_identifierAt, run_identifierAt, State.identifierAt, State.identifierAt]
  rcases hname : s.nameAt src offset with fault | name
  · exact .inl ⟨fault, p, _, rfl⟩
  · rw [h.names hname]
    rcases hid : Identifier.ofName name none with fault | id
    · exact .inl ⟨fault, p, s.noting src offset, by simp only [Except.bind, hid]⟩
    · exact .inr ⟨id, _, _, by simp only [Except.bind, hid], by simp only [Except.bind, hid],
        h.noting offset⟩

theorem repeats_pop : Repeats src src' (Mirrors src src' f base) pop := by
  refine repeats_of_still fun p p' s t h => ?_
  rw [run_pop, run_pop, h.stack]
  rcases s.stack with _ | ⟨x, rest⟩
  · exact .inl ⟨_, _, _, rfl⟩
  · exact .inr ⟨x, _, _, rfl, rfl, { h with names := h.names, stack := rfl }⟩

theorem repeats_push (x : Expr) : Repeats src src' (Mirrors src src' f base) (push x) :=
  repeats_modify fun _ _ h => { h with names := h.names, stack := congrArg (x :: ·) h.stack }

theorem repeats_popMany (n : Nat) : Repeats src src' (Mirrors src src' f base) (popMany n) := by
  refine repeats_of_still fun p p' s t h => ?_
  rw [run_popMany, run_popMany, h.stack]
  exact .inr ⟨_, _, _, rfl, rfl, { h with names := h.names, stack := rfl }⟩

theorem repeats_line : Repeats src src' (Mirrors src src' f base) line := by
  refine repeats_of_still fun p p' s t h => ?_
  rw [run_line, run_line, h.lines]
  rcases s.program.current.lines with _ | ⟨l, rest⟩
  · exact .inl ⟨_, _, _, rfl⟩
  · exact .inr ⟨l, s, t, rfl, rfl, h⟩

theorem repeats_lastStatement : Repeats src src' (Mirrors src src' f base) lastStatement :=
  repeats_line.bind fun _ => repeats_pure _

/-- What becomes of the first line depends on nothing but this line. -/
theorem repeats_amendLine (change : Line → Except Fault Line) :
    Repeats src src' (Mirrors src src' f base) (amendLine change) := by
  refine repeats_of_still fun p p' s t h => ?_
  simp only [amendLine, run_bind, run_line, h.lines]
  rcases hl : s.program.current.lines with _ | ⟨l, rest⟩
  · exact .inl ⟨_, _, _, rfl⟩
  · simp only [List.cons_append, run_given]
    rcases change l with fault | l'
    · exact .inl ⟨fault, _, _, rfl⟩
    · refine .inr ⟨(), _, _, run_setLine .., run_setLine .., ?_⟩
      exact h.modifyHead _ (by rw [hl]; exact List.cons_ne_nil _ _)

theorem repeats_colon (column : Option Nat) :
    Repeats src src' (Mirrors src src' f base) (colon column) :=
  repeats_amendLine fun l => .ok (l.colon column)

theorem repeats_put (new : Statement) : Repeats src src' (Mirrors src src' f base) (put new) :=
  repeats_amendLine fun l => l.place new

theorem repeats_amend (change : Statement → Option Statement) :
    Repeats src src' (Mirrors src src' f base) (amend change) := by
  refine repeats_of_still fun p p' s t h => ?_
  simp only [amend_eq, run_bind, run_lastStatement]
  rcases hlast : s.last? with _ | st
  · exact .inl ⟨_, _, _, rfl⟩
  · simp only [h.last? hlast]
    rcases change st with _ | st'
    · exact .inl ⟨_, _, _, rfl⟩
    · exact .inr ⟨(), _, _, rfl, rfl, h.setLast st' (lines_ne_nil_of_last? hlast)⟩

theorem repeats_openFn (d : DefFn) : Repeats src src' (Mirrors src src' f base) (openFn d) := by
  refine repeats_of_still fun p p' s t h => ?_
  simp only [openFn_eq, run_bind, run_lastStatement, run_put]
  rcases hlast : s.last? with _ | st
  · exact .inl ⟨_, _, _, rfl⟩
  · simp only [hlast, h.last? hlast]
    rcases st.place (.defFn d) with st' | _ | _
    · have hset := h.setLast st' (lines_ne_nil_of_last? hlast)
      have hlines := lines_ne_nil_of_last? (last?_setLast st' hlast)
      exact .inr ⟨(), _, _, rfl, rfl, hset.openOn st.openPlace hlines⟩
    · exact .inl ⟨_, _, _, rfl⟩
    · exact .inl ⟨_, _, _, rfl⟩

theorem repeats_currentKind : Repeats src src' (Mirrors src src' f base) currentKind := by
  refine repeats_of_still fun p p' s t h => ?_
  have hkind : t.program.current.kind = s.program.current.kind := by
    rw [h.program]
    rfl
  exact .inr ⟨s.program.current.kind, s, t, rfl, by rw [← hkind]; rfl, h⟩

theorem repeats_currentStatic : Repeats src src' (Mirrors src src' f base) currentStatic := by
  refine repeats_of_still fun p p' s t h => ?_
  have hstatic : t.program.current.static = s.program.current.static := by
    rw [h.program, h.static]
    rfl
  exact .inr ⟨s.program.current.static, s, t, rfl, by rw [← hstatic]; rfl, h⟩

/-- What is put together from elementary actions is repeated, unless it sees which function definitions
are open. -/
theorem Composed.repeats {m : Decode α} (hm : Composed e m) (hclose : e ≠ some .close)
    (hexits : e ≠ some .exits) : Repeats src src' (Mirrors src src' f base) m := by
  induction hm with
  | pure a => exact repeats_pure a
  | throw fault => exact repeats_throw fault
  | bind _ _ ihm ihf => exact ihm.bind ihf
  | number width hw => exact repeats_number hw
  | bytes n => exact repeats_bytes n
  | identifierAt offset => exact repeats_identifierAt offset
  | push x => exact repeats_push x
  | pop => exact repeats_pop
  | popMany n => exact repeats_popMany n
  | lastStatement _ => exact repeats_lastStatement
  | put new => exact repeats_put new
  | amend _ change _ => exact repeats_amend change
  | isOpen he => exact absurd he hexits
  | openFn _ d => exact repeats_openFn d
  | closeFn he _ => exact absurd he hclose
  | currentKind => exact repeats_currentKind
  | currentStatic => exact repeats_currentStatic
  | setProcedureKind kind =>
    exact repeats_modify fun s t h =>
      { h with names := h.names, program := by rw [h.program]; rfl }
  | clear _ =>
    exact repeats_modify fun s t h => { h with names := h.names, stack := rfl, arguments := rfl }
  | beginLine _ label indent =>
    exact repeats_modify fun s t h => h.withLines (by rw [h.lines]; rfl)
  | colon _ column => exact repeats_colon column
  | line _ => exact repeats_line
  | amendLine _ change _ => exact repeats_amendLine change
  | arguments _ =>
    exact repeats_of_still fun p p' s t h =>
      .inr ⟨s.arguments, s, t, rfl, by rw [← h.arguments]; rfl, h⟩
  | modifyArguments _ change =>
    exact repeats_modify fun s t h =>
      { h with names := h.names, arguments := congrArg change h.arguments }

end Elementary

/-! ## Instructions that see open function definitions -/

section Definitions

variable {f s s' t : State} {base : List Place} {v : Version} {w p p' n : Nat}

theorem run_closeFn_value (h : s.openFns ≠ []) (x : Expr) (src : Source) (pos : Nat) :
    (closeFn (.value x)).run src pos s = (.ok (), pos, s.closeTop (.value x)) := by
  have hopen : s.openFns.isEmpty = false := List.isEmpty_eq_false_iff.mpr h
  rw [closeFn_value_eq, isOpen, bind_assoc, run_bind, run_get]
  simp only [pure_bind, hopen, Bool.not_false, if_true, run_modify]

/-- A definition that was opened in the rehearsal gets its value on the same line in the file. -/
theorem Mirrors.closeTop (h : Mirrors src src' f base s t) (hopen : base.length < s.openFns.length)
    (closing : Closing) :
    Mirrors src src' f base (s.closeTop closing) (t.closeTop closing) := by
  obtain ⟨new, hnew, hs, ht⟩ := h.openFns
  rcases new with _ | ⟨place, new⟩
  · rw [hs, List.nil_append] at hopen
    exact absurd hopen (Nat.lt_irrefl _)
  · obtain ⟨hplace, hnew⟩ := List.forall_mem_cons.mp hnew
    have hfirst : s.program.amendAt (Statement.define closing) place =
        { s.program with
          current :=
            { s.program.current with
              lines := amendFromEnd (Line.amendAt (Statement.define closing) place.statement place.way)
                place.line s.program.current.lines } } :=
      if_pos (by rw [hplace, h.alone]; rfl)
    have hsecond : t.program.amendAt (Statement.define closing) (f.placeBehind place) =
        f.programWith (s.program.amendAt (Statement.define closing) place).current.kind
          (s.program.amendAt (Statement.define closing) place).current.lines := by
      rw [h.program, hfirst]
      refine (if_pos rfl).trans ?_
      simp only [State.placeBehind, State.programWith, amendFromEnd_append_add]
    simp only [State.closeTop, hs, ht, List.cons_append, List.map_cons]
    exact
      { names := h.names
        stack := h.stack
        arguments := h.arguments
        alone := by rw [hfirst]; exact h.alone
        static := by rw [hfirst]; exact h.static
        program := hsecond
        openFns := ⟨new, hnew, rfl, rfl⟩ }

/-- If a definition is open in the rehearsal, one is open in the file. -/
theorem Mirrors.openFns_ne_nil (h : Mirrors src src' f base s t) (hbase : base ≠ [] → f.openFns ≠ [])
    (hs : s.openFns ≠ []) : t.openFns ≠ [] := by
  obtain ⟨new, -, hopen, hopen'⟩ := h.openFns
  rw [hopen] at hs
  rw [hopen']
  rcases new with _ | ⟨place, new⟩
  · exact hbase hs
  · exact List.cons_ne_nil _ _

theorem Mirrors.perform_givesValue (h : Mirrors src src' f base s t)
    (hbase : base ≠ [] → f.openFns ≠ []) (hvalue : (operation v w).givesValue = true)
    (hopen : base.length < s.openFns.length) (hrecurs : Recurs src p src' p')
    (hrun : (perform v w).run src p s = (.ok (), p + n, s')) (hsize : p + n < src.size) :
    ∃ t', (perform v w).run src' p' t = (.ok (), p' + n, t') ∧ Mirrors src src' f base s' t' := by
  rw [perform_of_givesValue hvalue] at hrun ⊢
  obtain ⟨x, q, s₁, hpop, hrest⟩ := run_bind_eq_ok.mp hrun
  obtain ⟨k, rfl⟩ := Nat.exists_eq_add_of_le (le_of_run hpop)
  obtain ⟨l, hl⟩ := Nat.exists_eq_add_of_le (le_of_run hrest)
  rw [hl] at hrest hsize
  obtain ⟨t₁, hpop', h₁⟩ := repeats_pop hrecurs h hpop (by omega)
  rw [← openFns_of_composed .pop hpop] at hopen
  have hne : s₁.openFns ≠ [] := List.ne_nil_of_length_pos (by omega)
  rw [run_bind_ok (run_closeFn_value hne x src (p + k))] at hrest
  obtain ⟨t', hskip, h'⟩ := (Composed.skipWords (e := none) 2).repeats (by decide) (by decide)
    (hrecurs.add k) (h₁.closeTop hopen (.value x)) hrest hsize
  refine ⟨t', ?_, h'⟩
  rw [run_bind_ok hpop', run_bind_ok (run_closeFn_value (h₁.openFns_ne_nil hbase hne) x src' (p' + k)),
    hskip]
  congr 2
  omega

/-- With a definition open in both, an `EXIT` leaves it in both. -/
theorem Mirrors.perform_leavesBlock (h : Mirrors src src' f base s t)
    (hbase : base ≠ [] → f.openFns ≠ []) (hleaves : (operation v w).leavesBlock = true)
    (hopen : s.openFns ≠ []) (hrecurs : Recurs src p src' p')
    (hrun : (perform v w).run src p s = (.ok (), p + n, s')) (hsize : p + n < src.size) :
    ∃ t', (perform v w).run src' p' t = (.ok (), p' + n, t') ∧ Mirrors src src' f base s' t' := by
  have hexit : ∀ (src : Source) (p : Nat) {s : State}, s.openFns ≠ [] →
      exitBlock.run src p s = (.ok (some .defFn), p, s) := fun src p s hs => by
    rw [run_exitBlock, if_neg (by rwa [List.isEmpty_iff])]
  rw [perform_of_leavesBlock hleaves] at hrun ⊢
  rw [run_bind_ok (hexit src p hopen)] at hrun
  rw [run_bind_ok (hexit src' p' (h.openFns_ne_nil hbase hopen))]
  exact (Composed.bind (e := none) (.put _) fun _ => .skipWords 1).repeats (by decide) (by decide)
    hrecurs h hrun hsize

end Definitions

/-! ## Rehearsing -/

section Rehearsing

variable {f s s' t : State} {base : List Place} {v : Version} {w p p' n : Nat}

/-- If an operation sees which function definitions are open, the rehearsal knows the one that it is
about: it was opened in the rehearsal, or it may be one of those in front of it. -/
def isForeseen (op : Operation) (base openFns : List Place) : Bool :=
  if op.givesValue then base.length < openFns.length
  else if op.leavesBlock then !openFns.isEmpty
  else true

/-- What an instruction does in the rehearsal it does in the file. -/
theorem Mirrors.perform (h : Mirrors src src' f base s t) (hbase : base ≠ [] → f.openFns ≠ [])
    (hforeseen : isForeseen (operation v w) base s.openFns = true) (hrecurs : Recurs src p src' p')
    (hrun : (perform v w).run src p s = (.ok (), p + n, s')) (hsize : p + n < src.size) :
    ∃ t', (Instruction.perform v w).run src' p' t = (.ok (), p' + n, t') ∧
      Mirrors src src' f base s' t' := by
  rw [isForeseen] at hforeseen
  by_cases hvalue : (operation v w).givesValue = true
  · rw [if_pos hvalue, decide_eq_true_eq] at hforeseen
    exact h.perform_givesValue hbase hvalue hforeseen hrecurs hrun hsize
  · rw [if_neg hvalue] at hforeseen
    by_cases hleaves : (operation v w).leavesBlock = true
    · rw [if_pos hleaves, Bool.not_eq_true', List.isEmpty_eq_false_iff] at hforeseen
      exact h.perform_leavesBlock hbase hleaves hforeseen hrecurs hrun hsize
    · exact (composed_perform v w).repeats (fun he => hvalue (Operation.givesValue_of_power? he))
        (fun he => hleaves (Operation.leavesBlock_of_power? he)) hrecurs h hrun hsize

/-- Performs instructions up to a position, but not more than so many, as long as they succeed. -/
def rehearse (v : Version) (src : Source) (base : List Place) (fin : Nat) :
    (fuel pos : Nat) → State → Option (Nat × State)
  | 0, _, _ => none
  | fuel + 1, pos, s =>
    if pos < fin then
      match src.natLE pos 2 with
      | .error _ => none
      | .ok w =>
        if isForeseen (operation v w) base s.openFns then
          match performEvaluated v w src (pos + 2) s with
          | ⟨.ok (), pos', _, s'⟩ => rehearse v src base fin fuel pos' s'
          | _ => none
        else none
    else some (pos, s)

/-- A rehearsal has come to its end, or it performs an instruction that it may perform and goes on. -/
theorem rehearse_cases {fin fuel q : Nat}
    (h : rehearse v src base fin (fuel + 1) p s = some (q, s')) :
    (fin ≤ p ∧ q = p ∧ s' = s) ∨ ∃ w k s₁, p < fin ∧ src.natLE p 2 = .ok w ∧
      isForeseen (operation v w) base s.openFns = true ∧
      (perform v w).run src (p + 2) s = (.ok (), p + 2 + k, s₁) ∧
      rehearse v src base fin fuel (p + 2 + k) s₁ = some (q, s') := by
  rw [rehearse] at h
  split at h
  · rename_i hlt
    rcases hw : src.natLE p 2 with fault | w <;> rw [hw] at h
    · cases h
    · dsimp only at h
      split at h
      · rename_i hforeseen
        rcases houtcome : performEvaluated v w src (p + 2) s with ⟨fault | _, q₁, hle, s₁⟩
          <;> rw [houtcome] at h
        · cases h
        · obtain ⟨k, rfl⟩ := Nat.exists_eq_add_of_le hle
          refine .inr ⟨w, k, s₁, hlt, rfl, hforeseen, ?_, h⟩
          rw [← performEvaluated_eq, run, houtcome]
      · cases h
  · rename_i hge
    cases h
    exact .inl ⟨Nat.not_lt.mp hge, rfl, rfl⟩

theorem le_of_rehearse {fin fuel q : Nat} (h : rehearse v src base fin fuel p s = some (q, s')) :
    p ≤ q := by
  induction fuel generalizing p s with
  | zero => cases h
  | succ fuel ih =>
    rcases rehearse_cases h with ⟨-, rfl, -⟩ | ⟨w, k, s₁, -, -, -, -, hrest⟩
    · exact Nat.le_refl q
    · have := ih hrest
      omega

/-- **A rehearsal is repeated in the file.** Where the file has the bytes of the rehearsal and the
state in the file mirrors that of the rehearsal, its instructions succeed in the file, end as far behind
their beginning, and the states mirror each other then. -/
theorem Mirrors.run_instructions {fin fin' fuel q : Nat} (hmirrors : Mirrors src src' f base s t)
    (hbase : base ≠ [] → f.openFns ≠ []) (hrecurs : Recurs src p src' p')
    (h : rehearse v src base fin fuel p s = some (q, s')) (hsize : q < src.size)
    (hfin : fin' + p = fin + p') :
    ∃ n t', q = p + n ∧ (instructions v fin').run src' p' t = (.ok (), p' + n, t') ∧
      Mirrors src src' f base s' t' := by
  induction fuel generalizing p p' s t with
  | zero => cases h
  | succ fuel ih =>
    rcases rehearse_cases h with ⟨hge, rfl, rfl⟩ | ⟨w, k, s₁, hlt, hw, hforeseen, hrun, hrest⟩
    · exact ⟨0, t, rfl, run_instructions_of_le (by omega) src' t, hmirrors⟩
    · have hmore := le_of_rehearse hrest
      obtain ⟨t₁, hrun', h₁⟩ := hmirrors.perform hbase hforeseen (hrecurs.add 2) hrun (by omega)
      have hstep : (step v).run src' p' t = (.ok (), p' + 2 + k, t₁) := by
        rw [step, run_bind_ok (run_word_ok (hrecurs.natLE (by decide) hw (by omega)) t), hrun']
      obtain ⟨n, t', rfl, hrest', h'⟩ := ih h₁ ((hrecurs.add 2).add k) hrest (by omega)
      refine ⟨2 + k + n, t', by omega, ?_, h'⟩
      have hpos : p' + (2 + k + n) = p' + 2 + k + n := by omega
      rw [hpos, run_instructions_step (by omega) hstep, hrest']

end Rehearsing

end Decode

end SavedBasic
