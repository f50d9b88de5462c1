import SavedBasic.Proofs.Cutting
import SavedBasic.Proofs.Rehearsals

/-!
# Stretches of instructions

A stretch of instructions that begins with a line and can be rehearsed adds the same lines wherever it
stands: in any file that has its names, behind any lines and with any operands left over. `Adds` says
so of a stretch. Such stretches can be put one behind the other, and whether a stretch is one of them
is found out by evaluation.
-/

namespace SavedBasic.Decode

open Instruction

variable {v : Version} {names : List (Nat × Name)}

/-! ## Where a stretch stands -/

/-- What a stretch sees of the place where it stands. -/
structure Setting where
  /-- the kind of the procedure -/
  kind : Option ProcedureKind
  /-- whether its variables keep their values between calls -/
  static : Bool
  /-- whether a function definition is known to be open -/
  opened : Bool

/-- A state is in a setting. -/
structure State.In (s : State) (a : Setting) : Prop where
  kind : s.program.current.kind = a.kind
  static : s.program.current.static = a.static
  opened : a.opened = true → s.openFns ≠ []

/-- In a file, a state finds names at their offsets. -/
def State.Finds (src : Source) (s : State) (names : List (Nat × Name)) : Prop :=
  ∀ entry ∈ names, s.nameAt src entry.1 = .ok entry.2

/-- Wherever a stretch stands in a file with the given names, its instructions succeed one after another
and add the given lines, of which the most recent one comes first. -/
def Adds (v : Version) (names : List (Nat × Name)) (code : Bytes) (a b : Setting)
    (lines : List Line) : Prop :=
  ∀ ⦃src : Source⦄ ⦃p : Nat⦄ ⦃s : State⦄, src.Holds p code → s.Finds src names → s.In a →
    ∃ t, Proceeds v src (p, s) (p + code.length, t) ∧ t.In b ∧ t.program = s.programWith b.kind lines

/-- Wherever a stretch stands in a file with the given names, instructions that are to end behind so
many of its bytes end behind all of them, and add the given lines. -/
def Stops (v : Version) (names : List (Nat × Name)) (code : Bytes) (fin : Nat) (a b : Setting)
    (lines : List Line) : Prop :=
  ∀ ⦃src : Source⦄ ⦃p : Nat⦄ ⦃s : State⦄, src.Holds p code → s.Finds src names → s.In a →
    ∃ t, (instructions v (p + fin)).run src p s = (.ok (), p + code.length, t) ∧ t.In b ∧
      t.program = s.programWith b.kind lines

theorem State.Finds.proceeds {src : Source} {p q : Nat} {s t : State} (h : s.Finds src names)
    (hproceeds : Proceeds v src (p, s) (q, t)) : t.Finds src names := by
  intro entry hentry
  have hname : t.nameAt src = s.nameAt src := hproceeds.nameAt_eq
  rw [hname, h entry hentry]

/-- Nothing adds no lines. -/
theorem adds_nil (a : Setting) : Adds v names [] a a [] := by
  intro src p s _ _ ha
  refine ⟨s, .refl, ha, ?_⟩
  rw [← ha.kind]
  rfl

/-- One stretch behind the other adds its lines behind the lines of the other. -/
theorem Adds.append {code code' : Bytes} {a b c : Setting} {lines lines' : List Line}
    (h : Adds v names code a b lines) (h' : Adds v names code' b c lines') :
    Adds v names (code ++ code') a c (lines' ++ lines) := by
  intro src p s hholds hfinds ha
  obtain ⟨hcode, hcode'⟩ := Source.holds_append.mp hholds
  obtain ⟨t, hproceeds, hb, hprogram⟩ := h hcode hfinds ha
  obtain ⟨u, hproceeds', hc, hprogram'⟩ := h' hcode' (hfinds.proceeds hproceeds) hb
  refine ⟨u, ?_, hc, ?_⟩
  · rw [List.length_append, ← Nat.add_assoc]
    exact hproceeds.trans hproceeds'
  · simp only [hprogram', State.programWith, hprogram, List.append_assoc]

/-- A stretch behind one that adds lines may end before its length. -/
theorem Adds.stops {code code' : Bytes} {fin : Nat} {a b c : Setting} {lines lines' : List Line}
    (h : Adds v names code a b lines) (h' : Stops v names code' fin b c lines') :
    Stops v names (code ++ code') (code.length + fin) a c (lines' ++ lines) := by
  intro src p s hholds hfinds ha
  obtain ⟨hcode, hcode'⟩ := Source.holds_append.mp hholds
  obtain ⟨t, hproceeds, hb, hprogram⟩ := h hcode hfinds ha
  obtain ⟨u, hrun, hc, hprogram'⟩ := h' hcode' (hfinds.proceeds hproceeds) hb
  refine ⟨u, ?_, hc, ?_⟩
  · rw [← Nat.add_assoc, hproceeds.run_instructions (Nat.le_add_right ..), hrun, List.length_append,
      Nat.add_assoc]
  · simp only [hprogram', State.programWith, hprogram, List.append_assoc]

/-- Behind a stretch one need not know whether a function definition is open. -/
theorem Adds.forget {code : Bytes} {a b : Setting} {lines : List Line}
    (h : Adds v names code a b lines) : Adds v names code a ⟨b.kind, b.static, false⟩ lines := by
  intro src p s hholds hfinds ha
  obtain ⟨t, hproceeds, hb, hprogram⟩ := h hholds hfinds ha
  exact ⟨t, hproceeds, ⟨hb.kind, hb.static, by simp⟩, hprogram⟩

/-- A stretch behind which everything is as in front of it can be repeated. -/
theorem Adds.replicate {code : Bytes} {a : Setting} {lines : List Line}
    (h : Adds v names code a a lines) (n : Nat) :
    Adds v names (List.replicate n code).flatten a a (List.replicate n lines).flatten := by
  induction n with
  | zero => exact adds_nil a
  | succ n ih =>
    rw [List.replicate_succ' (a := code), List.flatten_concat, List.replicate_succ, List.flatten_cons]
    exact ih.append h

/-! ## Rehearsing a stretch -/

/-- A file with nothing but a stretch, and one byte more. -/
def stage (code : Bytes) : Source :=
  .ofBytes (code ++ [0])

/-- The function definitions that a rehearsal takes to be open at its beginning. -/
def Setting.base (a : Setting) : List Place :=
  if a.opened then [⟨0, 0, 0, []⟩] else []

/-- The state in which a rehearsal begins. All names but the given ones would lie behind the end of the
file. -/
def Setting.start (a : Setting) (names : List (Nat × Name)) (size : Nat) : State where
  headerSize := size
  symbols := { names := names, codeOffset := 0 }
  stack := []
  arguments := .none
  program := ⟨[], { name := none, kind := a.kind, static := a.static, lines := [] }⟩
  openFns := a.base
  form := none

/-- The state in which the rehearsal of a stretch ends, if its instructions are to end behind so many of
its bytes and end behind all of them. The stretch must begin with a line. -/
def rehearsalTo (v : Version) (names : List (Nat × Name)) (a : Setting) (fin : Nat) (code : Bytes) :
    Option State :=
  match (stage code).natLE 0 2 with
  | .error _ => none
  | .ok w =>
    if 0 < fin ∧ 2 ≤ code.length ∧ (operation v w).beginsLine = true then
      match rehearse v (stage code) a.base fin code.length 0 (a.start names (code.length + 1)) with
      | some (q, s) => if q = code.length then some s else none
      | none => none
    else none

/-- The state in which the rehearsal of a whole stretch ends. -/
def rehearsal (v : Version) (names : List (Nat × Name)) (a : Setting) (code : Bytes) :
    Option State :=
  rehearsalTo v names a code.length code

/-- The setting behind a stretch. -/
def Setting.behind (a : Setting) (s : State) : Setting :=
  ⟨s.program.current.kind, a.static, !s.openFns.isEmpty⟩

theorem size_stage (code : Bytes) : (stage code).size = code.length + 1 := by
  rw [stage, Source.size_ofBytes, List.length_append, List.length_singleton]

theorem recurs_stage {code : Bytes} {src : Source} {p : Nat} (h : src.Holds p code) :
    Recurs (stage code) 0 src p := by
  rw [Recurs, stage, Source.rest_ofBytes, List.drop_zero, List.dropLast_concat]
  exact h

/-- A rehearsal finds no other names than those that it is given. -/
theorem mem_of_nameAt_start {a : Setting} {code : Bytes} {offset : Nat} {name : Name}
    (h : (a.start names (code.length + 1)).nameAt (stage code) offset = .ok name) :
    (offset, name) ∈ names := by
  rw [State.nameAt] at h
  rcases hlookup : (a.start names (code.length + 1)).symbols.name? offset with _ | found
    <;> rw [hlookup] at h
  · -- an entry behind the end of the file cannot be read
    have hend : (stage code).natLE (code.length + 1 + offset + 2) 1 = .error (.endOfData 1) := by
      rw [Source.natLE_eq _ _ (by decide), Source.length_rest, size_stage, if_neg (by omega)]
    have hentry : SymbolTable.entryAt (stage code) (code.length + 1 + offset) = .ok name := h
    rw [SymbolTable.entryAt_eq, hend] at hentry
    cases hentry
  · cases h
    exact mem_of_lookup_eq_some hlookup

theorem Setting.mirrors_start {a : Setting} {code : Bytes} {src : Source} {s : State}
    (hfinds : s.Finds src names) (ha : s.In a) :
    Mirrors (stage code) src s a.base (a.start names (code.length + 1))
      { s with stack := [], arguments := .none } where
  names hname := hfinds _ (mem_of_nameAt_start hname)
  stack := rfl
  arguments := rfl
  alone := rfl
  static := ha.static.symm
  program := by
    rw [State.programWith, start, ← ha.kind]
    rfl
  openFns := ⟨[], by simp, rfl, rfl⟩

/-- A line starts afresh, so it does not matter what operands are left over. -/
theorem run_step_cleared {src : Source} {p w : Nat} (hw : src.natLE p 2 = .ok w)
    (hline : (operation v w).beginsLine = true) (s : State) :
    (step v).run src p { s with stack := [], arguments := .none } = (step v).run src p s := by
  obtain ⟨code, parameter, hop, hcode, -⟩ := Operation.power?_of_beginsLine hline
  obtain ⟨label, hperform, -⟩ := perform_line hop hcode
  rw [step, run_bind_ok (run_word_ok hw _), run_bind_ok (run_word_ok hw _), hperform, startLine, clear,
    run_bind_ok (run_modify ..), run_bind_ok (run_modify ..)]

theorem run_instructions_cleared {src : Source} {p w fin : Nat} (hw : src.natLE p 2 = .ok w)
    (hline : (operation v w).beginsLine = true) (hfin : p < fin) (s : State) :
    (instructions v fin).run src p { s with stack := [], arguments := .none } =
      (instructions v fin).run src p s := by
  rw [run_instructions_of_lt hfin, run_instructions_of_lt hfin, run_bind, run_bind,
    run_step_cleared hw hline]

/-- A rehearsal that ends well begins with a line and takes exactly the bytes of the stretch. -/
theorem rehearsalTo_eq_some {a : Setting} {fin : Nat} {code : Bytes} {s : State}
    (h : rehearsalTo v names a fin code = some s) :
    ∃ w, (stage code).natLE 0 2 = .ok w ∧ 0 < fin ∧ 2 ≤ code.length ∧
      (operation v w).beginsLine = true ∧
      rehearse v (stage code) a.base fin code.length 0 (a.start names (code.length + 1)) =
        some (code.length, s) := by
  rw [rehearsalTo] at h
  rcases hw : (stage code).natLE 0 2 with fault | w <;> rw [hw] at h
  · cases h
  · dsimp only at h
    split at h
    · rename_i hline
      rcases hrehearse : rehearse v (stage code) a.base fin code.length 0
        (a.start names (code.length + 1)) with _ | ⟨q, s₁⟩ <;> rw [hrehearse] at h
      · cases h
      · dsimp only at h
        split at h
        · rename_i hq
          cases h
          exact ⟨w, rfl, hline.1, hline.2.1, hline.2.2, by rw [hq]⟩
        · cases h
    · cases h

/-- **A stretch that can be rehearsed ends and adds lines as in the rehearsal, wherever it stands.** -/
theorem stops_of_rehearsalTo {a : Setting} {fin : Nat} {code : Bytes} {s' : State}
    (h : rehearsalTo v names a fin code = some s') :
    Stops v names code fin a (a.behind s') s'.program.current.lines := by
  intro src p s hholds hfinds ha
  obtain ⟨w, hw, hfin, hlength, hline, hrehearse⟩ := rehearsalTo_eq_some h
  have hsize := size_stage code
  have hrecurs := recurs_stage hholds
  have hbase : a.base ≠ [] → s.openFns ≠ [] := by
    intro hne
    apply ha.opened
    by_contra hopened
    exact hne (if_neg hopened)
  have hshift : p + fin + 0 = fin + p := by omega
  obtain ⟨n, t, hn, hrun, hmirrors⟩ := (Setting.mirrors_start hfinds ha).run_instructions hbase hrecurs
    hrehearse (by omega) hshift
  obtain rfl : n = code.length := by omega
  refine ⟨t, ?_, ⟨?_, ?_, fun hopened => ?_⟩, hmirrors.program⟩
  · have hw' := hrecurs.natLE (by decide) hw (by omega)
    rw [← run_instructions_cleared hw' hline (by omega), hrun]
  · rw [hmirrors.program]
    rfl
  · rw [hmirrors.program]
    exact ha.static
  · apply hmirrors.openFns_ne_nil hbase
    rw [Setting.behind, Bool.not_eq_true'] at hopened
    exact List.isEmpty_eq_false_iff.mp hopened

/-- A stretch that can be rehearsed as a whole adds the lines of the rehearsal wherever it stands. -/
theorem adds_of_rehearsal {a : Setting} {code : Bytes} {s' : State}
    (h : rehearsal v names a code = some s') :
    Adds v names code a (a.behind s') s'.program.current.lines := by
  intro src p s hholds hfinds ha
  obtain ⟨t, hrun, hb, hprogram⟩ := stops_of_rehearsalTo h hholds hfinds ha
  obtain ⟨ops, htrace⟩ := run_instructions_eq_ok.mp hrun
  exact ⟨t, .of_trace htrace, hb, hprogram⟩

/-! ## Stretches in a row -/

/-- Rehearses stretches one after another, each in the setting behind the one before. Gives the setting
behind the last one and all lines. -/
def rehearseAll (v : Version) (names : List (Nat × Name)) :
    Setting → List Bytes → Option (Setting × List Line)
  | a, [] => some (a, [])
  | a, code :: rest =>
    match rehearsal v names a code with
    | none => none
    | some s =>
      match rehearseAll v names (a.behind s) rest with
      | none => none
      | some (b, lines) => some (b, lines ++ s.program.current.lines)

/-- Rehearsals of stretches can be put one behind the other. -/
theorem rehearseAll_append (a : Setting) (codes codes' : List Bytes) :
    rehearseAll v names a (codes ++ codes') = (rehearseAll v names a codes).bind fun r =>
      (rehearseAll v names r.1 codes').map fun r' => (r'.1, r'.2 ++ r.2) := by
  induction codes generalizing a with
  | nil => simp [rehearseAll]
  | cons code rest ih =>
    rw [List.cons_append, rehearseAll, rehearseAll]
    rcases rehearsal v names a code with _ | s
    · rfl
    · dsimp only
      rw [ih]
      rcases rehearseAll v names (a.behind s) rest with _ | ⟨b, lines⟩
      · rfl
      · simp only [Option.bind_some]
        rcases rehearseAll v names b codes' with _ | ⟨c, lines'⟩
        · rfl
        · simp only [Option.map_some, List.append_assoc]

theorem adds_of_rehearseAll {a b : Setting} {codes : List Bytes} {lines : List Line}
    (h : rehearseAll v names a codes = some (b, lines)) :
    Adds v names codes.flatten a b lines := by
  induction codes generalizing a lines with
  | nil =>
    cases h
    exact adds_nil b
  | cons code rest ih =>
    rw [rehearseAll] at h
    rcases hfirst : rehearsal v names a code with _ | s <;> rw [hfirst] at h
    · cases h
    · dsimp only at h
      rcases hrest : rehearseAll v names (a.behind s) rest with _ | ⟨c, others⟩ <;> rw [hrest] at h
      · cases h
      · cases h
        exact (adds_of_rehearsal hfirst).append (ih hrest)

end SavedBasic.Decode
