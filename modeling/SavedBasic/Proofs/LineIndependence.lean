import Mathlib.Data.List.Forall2
import SavedBasic.Proofs.Reachable
import SavedBasic.Proofs.TwoRuns

/-!
# Lines do not depend on what came before

A line starts afresh: operands that are left over, on the stack or under a name, are forgotten, and
names are the same whether or not they have been looked up before. So instructions that begin with a
line give the same lines from any two states of the decoding of a file, provided that as many
function definitions are open in both and the last procedures have the same kind and the same
variables.

The two runs are related by `Twin`: behind a mark in each program they have written the same lines,
and their open function definitions are pairwise at the same place behind the marks or both before
them. A value that is given to a definition before the marks does not touch the new lines, and one
that is given behind them touches both alike.
-/

namespace SavedBasic.Decode

/-! ## What has been written since a mark -/

/-- A point in the writing of a program: how many procedures lie before the last one, and how many
lines the last one has. -/
structure Mark where
  /-- the number of procedures before the last one -/
  procedures : Nat
  /-- the number of lines -/
  lines : Nat

/-- The point that a state has come to. -/
def State.mark (s : State) : Mark :=
  ⟨s.program.earlier.length, s.program.current.lines.length⟩

/-- A place lies before a mark. -/
def Mark.Follows (m : Mark) (place : Place) : Prop :=
  place.procedure < m.procedures ∨ place.procedure = m.procedures ∧ place.line < m.lines

/-- What has been written lies before the point that a state has come to. -/
theorem State.Written.follows {s : State} {place : Place} (h : s.Written place) :
    s.mark.Follows place := by
  rcases h with hlt | ⟨heq, l, rest, hlines, hline⟩
  · exact .inl hlt
  · refine .inr ⟨heq, ?_⟩
    change place.line < s.program.current.lines.length
    rw [hlines, List.length_cons]
    omega

/-- The lines of a program since a mark, the most recent one first. -/
structure Since (m : Mark) (p : Program) (new : List Line) : Prop where
  procedures : p.earlier.length = m.procedures
  lines : ∃ old, p.current.lines = new ++ old ∧ old.length = m.lines

/-- Two open function definitions are both before the marks, or at the same place behind them. -/
inductive SamePlace (m₁ m₂ : Mark) : Place → Place → Prop where
  /-- both are before the marks -/
  | before {p q : Place} (hp : m₁.Follows p) (hq : m₂.Follows q) : SamePlace m₁ m₂ p q
  /-- both are at the same place behind the marks -/
  | since (line statement : Nat) (way : List Statement.Branch) :
    SamePlace m₁ m₂ ⟨m₁.procedures, m₁.lines + line, statement, way⟩
      ⟨m₂.procedures, m₂.lines + line, statement, way⟩

theorem amendFromEnd_append_of_lt {α : Type} {f : α → α} {i : Nat} (new : List α) {old : List α}
    (h : i < old.length) : amendFromEnd f i (new ++ old) = new ++ amendFromEnd f i old := by
  induction new with
  | nil => rfl
  | cons a new ih =>
    rw [List.cons_append, amendFromEnd_cons, if_neg (by rw [List.length_append]; omega), ih,
      List.cons_append]

theorem amendFromEnd_append_add {α : Type} (f : α → α) (i : Nat) (new old : List α) :
    amendFromEnd f (old.length + i) (new ++ old) = amendFromEnd f i new ++ old := by
  induction new with
  | nil =>
    rw [List.nil_append, amendFromEnd, if_neg (by omega)]
    rfl
  | cons a new ih =>
    rw [List.cons_append, amendFromEnd_cons, amendFromEnd_cons, List.length_append, ih]
    by_cases h : i = new.length
    · rw [if_pos h, if_pos (by omega), List.cons_append]
    · rw [if_neg h, if_neg (by omega), List.cons_append]

/-- A change before a mark does not touch what has been written since. -/
theorem Since.amendAt_before {m : Mark} {p : Program} {new : List Line} (h : Since m p new)
    {place : Place} (hplace : m.Follows place) (f : Statement → Statement) :
    Since m (p.amendAt f place) new := by
  refine ⟨(Program.length_earlier_amendAt f place p).trans h.procedures, ?_⟩
  obtain ⟨old, hlines, hold⟩ := h.lines
  rw [Program.amendAt]
  split
  · rename_i heq
    rcases hplace with hlt | ⟨-, hline⟩
    · exact absurd hlt (by rw [heq, h.procedures]; exact Nat.lt_irrefl _)
    · refine ⟨amendFromEnd (Line.amendAt f place.statement place.way) place.line old, ?_, ?_⟩
      · dsimp only
        rw [hlines, amendFromEnd_append_of_lt new (hold ▸ hline)]
      · rw [length_amendFromEnd, hold]
  · exact ⟨old, hlines, hold⟩

/-- A change behind a mark is a change of what has been written since. -/
theorem Since.amendAt_since {m : Mark} {p : Program} {new : List Line} (h : Since m p new)
    (f : Statement → Statement) (line statement : Nat) (way : List Statement.Branch) :
    Since m (p.amendAt f ⟨m.procedures, m.lines + line, statement, way⟩)
      (amendFromEnd (Line.amendAt f statement way) line new) := by
  refine ⟨(Program.length_earlier_amendAt f _ p).trans h.procedures, ?_⟩
  obtain ⟨old, hlines, hold⟩ := h.lines
  rw [Program.amendAt, if_pos h.procedures.symm]
  refine ⟨old, ?_, hold⟩
  dsimp only
  rw [hlines, ← hold, amendFromEnd_append_add]

/-- Other lines in place of those since a mark. -/
theorem Since.withLines {m : Mark} {s : State} {new : List Line} (h : Since m s.program new)
    {f : List Line → List Line} {new' : List Line}
    (hf : ∀ old, f (new ++ old) = new' ++ old) :
    Since m (s.withLines (f s.program.current.lines)).program new' := by
  obtain ⟨old, hlines, hold⟩ := h.lines
  refine ⟨h.procedures, old, ?_, hold⟩
  change f s.program.current.lines = _
  rw [hlines, hf]

/-! ## Twins -/

/-- Two states with the same lines since a mark each, and with all else the same that instructions
can see. -/
structure Twin (src : Source) (m₁ m₂ : Mark) (s₁ s₂ : State) : Prop where
  names : s₁.nameAt src = s₂.nameAt src
  stack : s₁.stack = s₂.stack
  arguments : s₁.arguments = s₂.arguments
  kind : s₁.program.current.kind = s₂.program.current.kind
  static : s₁.program.current.static = s₂.program.current.static
  written : ∃ new, new ≠ [] ∧ Since m₁ s₁.program new ∧ Since m₂ s₂.program new
  openFns : List.Forall₂ (SamePlace m₁ m₂) s₁.openFns s₂.openFns

namespace Twin

variable {src : Source} {m₁ m₂ : Mark} {s t : State}

/-- Twins stay twins if both get the same other lines in place of those since the marks. -/
theorem withLines (h : Twin src m₁ m₂ s t) {f : List Line → List Line}
    (hf : ∀ new, new ≠ [] → ∃ new', new' ≠ [] ∧ ∀ old, f (new ++ old) = new' ++ old) :
    Twin src m₁ m₂ (s.withLines (f s.program.current.lines))
      (t.withLines (f t.program.current.lines)) := by
  obtain ⟨new, hne, hs, ht⟩ := h.written
  obtain ⟨new', hne', hnew⟩ := hf new hne
  exact { h with written := ⟨new', hne', hs.withLines hnew, ht.withLines hnew⟩ }

theorem modifyHead (h : Twin src m₁ m₂ s t) (f : Line → Line) :
    Twin src m₁ m₂ (s.withLines (s.program.current.lines.modifyHead f))
      (t.withLines (t.program.current.lines.modifyHead f)) := by
  apply h.withLines
  intro new hne
  rcases new with _ | ⟨l, new⟩
  · exact absurd rfl hne
  · exact ⟨f l :: new, List.cons_ne_nil _ _, fun old => rfl⟩

/-- The last line is the same. -/
theorem head (h : Twin src m₁ m₂ s t) :
    s.program.current.lines.head? = t.program.current.lines.head? := by
  obtain ⟨new, hne, ⟨-, old₁, hold₁, -⟩, ⟨-, old₂, hold₂, -⟩⟩ := h.written
  rcases new with _ | ⟨l, new⟩
  · exact absurd rfl hne
  · rw [hold₁, hold₂]
    rfl

/-- A new statement will take the same place behind the marks. -/
theorem placeOn (h : Twin src m₁ m₂ s t) (way : List Statement.Branch) :
    SamePlace m₁ m₂ (s.placeOn way) (t.placeOn way) := by
  have hhead := h.head
  obtain ⟨new, hne, ⟨hs, old₁, hlines₁, hold₁⟩, ⟨ht, old₂, hlines₂, hold₂⟩⟩ := h.written
  have hlength : 0 < new.length := List.length_pos_iff.mpr hne
  have hline₁ : s.program.current.lines.length - 1 = m₁.lines + (new.length - 1) := by
    rw [hlines₁, List.length_append]
    omega
  have hline₂ : t.program.current.lines.length - 1 = m₂.lines + (new.length - 1) := by
    rw [hlines₂, List.length_append]
    omega
  rw [State.placeOn, State.placeOn, hline₁, hline₂, hs, ht, hhead]
  exact .since ..

theorem openOn (h : Twin src m₁ m₂ s t) (way : List Statement.Branch) :
    Twin src m₁ m₂ (s.openOn way) (t.openOn way) :=
  { h with openFns := .cons (h.placeOn way) h.openFns }

/-- The value of a function goes to lines before the marks in both, or to the same new line. -/
theorem closeTop (h : Twin src m₁ m₂ s t) (closing : Closing) :
    Twin src m₁ m₂ (s.closeTop closing) (t.closeTop closing) := by
  have hopen := h.openFns
  unfold State.closeTop
  rcases hs : s.openFns with _ | ⟨place₁, rest₁⟩ <;>
    rcases ht : t.openFns with _ | ⟨place₂, rest₂⟩ <;> rw [hs, ht] at hopen
  · exact h
  · cases hopen
  · cases hopen
  · obtain ⟨hplace, hrest⟩ := List.forall₂_cons.mp hopen
    have hwritten : ∃ new, new ≠ [] ∧
        Since m₁ (s.program.amendAt (Statement.define closing) place₁) new ∧
        Since m₂ (t.program.amendAt (Statement.define closing) place₂) new := by
      obtain ⟨new, hne, hnew₁, hnew₂⟩ := h.written
      cases hplace with
      | before hp hq =>
        exact ⟨new, hne, hnew₁.amendAt_before hp _, hnew₂.amendAt_before hq _⟩
      | since line statement way =>
        refine ⟨_, ?_, hnew₁.amendAt_since _ line statement way,
          hnew₂.amendAt_since _ line statement way⟩
        intro hnil
        have hlength := congrArg List.length hnil
        rw [length_amendFromEnd, List.length_nil, List.length_eq_zero_iff] at hlength
        exact hne hlength
    exact
      { h with
        kind := by rw [Program.kind_amendAt, Program.kind_amendAt, h.kind]
        static := by rw [Program.static_amendAt, Program.static_amendAt, h.static]
        written := hwritten
        openFns := hrest }

theorem congruent (src : Source) (m₁ m₂ : Mark) : Congruent src src (Twin src m₁ m₂) where
  names h := h.names
  noting offset h :=
    { names := by rw [State.nameAt_noting, State.nameAt_noting, h.names]
      stack := by rw [State.stack_noting, State.stack_noting, h.stack]
      arguments := by rw [State.arguments_noting, State.arguments_noting, h.arguments]
      kind := by rw [State.program_noting, State.program_noting, h.kind]
      static := by rw [State.program_noting, State.program_noting, h.static]
      written := by rw [State.program_noting, State.program_noting]; exact h.written
      openFns := by rw [State.openFns_noting, State.openFns_noting]; exact h.openFns }
  stack h := h.stack
  withStack _ h := { h with stack := rfl }
  last h := by rw [State.last?, State.last?, h.head]
  setLast st h := h.modifyHead fun l => l.setLast st
  isOpen h := isEmpty_congr h.openFns.length_eq
  openOn way h _ := h.openOn way
  closeTop x h := h.closeTop (.value x)
  kind h := h.kind
  static h := h.static
  withKind _ h := by
    obtain ⟨new, hne, hs, ht⟩ := h.written
    exact
      { h with
        kind := rfl
        written := ⟨new, hne, ⟨hs.procedures, hs.lines⟩, ⟨ht.procedures, ht.lines⟩⟩ }

theorem effectCongruent (src : Source) (m₁ m₂ : Mark) (e : Option Power) :
    EffectCongruent (Twin src m₁ m₂) e where
  clear _ _ _ h := { h with stack := rfl, arguments := rfl }
  beginLine _ _ _ l h := h.withLines fun new _ => ⟨l :: new, List.cons_ne_nil _ _, fun _ => rfl⟩
  head _ _ _ h := h.head
  setHead _ _ _ l h := h.modifyHead fun _ => l
  arguments _ _ _ h := h.arguments
  modifyArguments _ _ _ f h := { h with arguments := congrArg f h.arguments }

end Twin

/-! ## A line starts afresh -/

/-- The opcodes that start a line differ in how they read its label, for which only names matter. -/
theorem perform_line {v : Version} {w code parameter : Nat}
    (hop : Instruction.operation v w = .common code parameter)
    (hcode : code = 0x0000 ∨ code = 0x0004 ∨ code = 0x0005) :
    ∃ label, Instruction.perform v w = Instruction.startLine label ∧
      ∀ {src₁ src₂ : Source} {R : State → State → Prop}, NameCongruent src₁ src₂ R →
        Respects src₁ src₂ R label := by
  rw [Instruction.perform, hop]
  rcases hcode with rfl | rfl | rfl
  · exact ⟨_, rfl, fun _ => respects_pure _⟩
  · refine ⟨_, rfl, fun h => ?_⟩
    exact ((respects_number (by decide)).bind fun _ => respects_pure _).bind fun _ =>
      ((respects_number (by decide)).bind fun _ => h.identifierAt _).bind fun _ => respects_pure _
  · refine ⟨_, rfl, fun h => ?_⟩
    exact ((respects_number (by decide)).bind fun _ => respects_pure _).bind fun _ =>
      ((respects_number (by decide)).bind fun _ => h.identifierAt _).bind fun _ =>
        (respects_number (by decide)).bind fun _ => respects_pure _

/-- A state while the label of a line is read: operands have been forgotten, and all else is still
as in another state. -/
structure Cleared (src : Source) (s t : State) : Prop where
  names : t.nameAt src = s.nameAt src
  stack : t.stack = []
  arguments : t.arguments = .none
  program : t.program = s.program
  openFns : t.openFns = s.openFns

theorem cleared_clear (src : Source) (s : State) :
    Cleared src s { s with stack := [], arguments := .none } :=
  ⟨rfl, rfl, rfl, rfl, rfl⟩

theorem Cleared.noting {src : Source} {s t : State} (h : Cleared src s t) (offset : Nat) :
    Cleared src s (t.noting src offset) where
  names := by rw [State.nameAt_noting, h.names]
  stack := by rw [State.stack_noting, h.stack]
  arguments := by rw [State.arguments_noting, h.arguments]
  program := by rw [State.program_noting, h.program]
  openFns := by rw [State.openFns_noting, h.openFns]

theorem Cleared.nameCongruent {src : Source} {s₁ s₂ : State} (h : s₁.nameAt src = s₂.nameAt src) :
    NameCongruent src src fun t₁ t₂ => Cleared src s₁ t₁ ∧ Cleared src s₂ t₂ where
  names ht := by rw [ht.1.names, ht.2.names, h]
  noting offset ht := ⟨ht.1.noting offset, ht.2.noting offset⟩

/-- What two states must have in common for the next line to be the same. -/
structure Alike (src : Source) (s₁ s₂ : State) : Prop where
  names : s₁.nameAt src = s₂.nameAt src
  kind : s₁.program.current.kind = s₂.program.current.kind
  static : s₁.program.current.static = s₂.program.current.static
  openFns : List.Forall₂ (SamePlace s₁.mark s₂.mark) s₁.openFns s₂.openFns

/-- The first line makes two states twins. -/
theorem Alike.twin {src : Source} {s₁ s₂ t₁ t₂ : State} (h : Alike src s₁ s₂)
    (h₁ : Cleared src s₁ t₁) (h₂ : Cleared src s₂ t₂) (l : Line) :
    Twin src s₁.mark s₂.mark (t₁.withLines (l :: t₁.program.current.lines))
      (t₂.withLines (l :: t₂.program.current.lines)) where
  names := h₁.names.trans (h.names.trans h₂.names.symm)
  stack := h₁.stack.trans h₂.stack.symm
  arguments := h₁.arguments.trans h₂.arguments.symm
  kind := by rw [State.withLines, State.withLines, h₁.program, h₂.program]; exact h.kind
  static := by rw [State.withLines, State.withLines, h₁.program, h₂.program]; exact h.static
  written := by
    refine ⟨[l], List.cons_ne_nil _ _, ?_, ?_⟩
    · rw [State.withLines, h₁.program]
      exact ⟨rfl, _, rfl, rfl⟩
    · rw [State.withLines, h₂.program]
      exact ⟨rfl, _, rfl, rfl⟩
  openFns := by
    rw [State.withLines, State.withLines, h₁.openFns, h₂.openFns]
    exact h.openFns

/-- Starting a line gives the same fault from both states, and nothing is written; or it adds the
same line to both. -/
theorem run_startLine {src : Source} {s₁ s₂ : State} {label : Decode (Option Identifier × Nat)}
    (hlabel : Respects src src (fun t₁ t₂ => Cleared src s₁ t₁ ∧ Cleared src s₂ t₂) label)
    (pos : Nat) :
    ∃ r n t₁ t₂, (Instruction.startLine label).run src pos s₁ = (r, pos + n, t₁) ∧
      (Instruction.startLine label).run src pos s₂ = (r, pos + n, t₂) ∧
      match r with
      | .ok _ => ∃ label indent t₁' t₂', Cleared src s₁ t₁' ∧ Cleared src s₂ t₂' ∧
          t₁ = t₁'.withLines (Line.start label indent :: t₁'.program.current.lines) ∧
          t₂ = t₂'.withLines (Line.start label indent :: t₂'.program.current.lines)
      | .error _ => t₁.program = s₁.program ∧ t₂.program = s₂.program := by
  obtain ⟨r, n, t₁, t₂, hrun₁, hrun₂, h₁, h₂⟩ :=
    @hlabel pos pos _ _ rfl ⟨cleared_clear src s₁, cleared_clear src s₂⟩
  rw [Instruction.startLine, clear, run_bind_ok (run_modify ..), run_bind_ok (run_modify ..)]
  rcases r with fault | ⟨label, indent⟩
  · exact ⟨.error fault, n, t₁, t₂, run_bind_error hrun₁, run_bind_error hrun₂, h₁.program,
      h₂.program⟩
  · exact ⟨.ok (), n, _, _, run_bind_ok hrun₁, run_bind_ok hrun₂, label, indent, t₁, t₂, h₁, h₂, rfl,
      rfl⟩

/-- A line instruction that succeeds forgets operands and adds a line. -/
theorem exists_cleared_of_line {v : Version} {src : Source} {w code parameter : Nat}
    (hop : Instruction.operation v w = .common code parameter)
    (hcode : code = 0x0000 ∨ code = 0x0004 ∨ code = 0x0005) {pos pos' : Nat} {s t : State}
    (h : (Instruction.perform v w).run src pos s = (.ok (), pos', t)) :
    ∃ label indent t', Cleared src s t' ∧
      t = t'.withLines (Line.start label indent :: t'.program.current.lines) := by
  obtain ⟨label, hperform, hlabel⟩ := perform_line hop hcode
  obtain ⟨r, n, t₁, t₂, hrun, -, hr⟩ :=
    run_startLine (hlabel (@Cleared.nameCongruent src s s rfl)) pos
  rw [hperform, hrun] at h
  cases h
  obtain ⟨label, indent, t₁', t₂', hcleared, -, ht, -⟩ := hr
  exact ⟨label, indent, t₁', hcleared, ht⟩

/-! ## Lines are independent -/

/-- The lines of the last procedure that have been written since a state, in the order of writing. -/
def State.linesSince (s s' : State) : List Line :=
  s'.program.current.listing.drop s.program.current.lines.length

theorem Since.linesSince {s s' : State} {new : List Line} (h : Since s.mark s'.program new) :
    s.linesSince s' = new.reverse := by
  obtain ⟨old, hlines, hold⟩ := h.lines
  have hlength : s.program.current.lines.length = old.reverse.length := by
    rw [List.length_reverse, hold]
    rfl
  rw [State.linesSince, Procedure.listing, hlines, List.reverse_append, hlength, List.drop_left]

theorem Twin.linesSince {src : Source} {s₁ s₂ t₁ t₂ : State} (h : Twin src s₁.mark s₂.mark t₁ t₂) :
    s₁.linesSince t₁ = s₂.linesSince t₂ := by
  obtain ⟨new, -, hnew₁, hnew₂⟩ := h.written
  rw [hnew₁.linesSince, hnew₂.linesSince]

theorem linesSince_of_program_eq {s s' : State} (h : s'.program = s.program) :
    s.linesSince s' = [] := by
  rw [State.linesSince, h, Procedure.listing]
  exact List.drop_eq_nil_of_le (Nat.le_of_eq List.length_reverse)

/-- Open function definitions before the marks are alike if they are as many. -/
theorem forall₂_samePlace {m₁ m₂ : Mark} {ps qs : List Place} (hlength : ps.length = qs.length)
    (hps : ∀ p ∈ ps, m₁.Follows p) (hqs : ∀ q ∈ qs, m₂.Follows q) :
    List.Forall₂ (SamePlace m₁ m₂) ps qs := by
  induction ps generalizing qs with
  | nil =>
    cases List.length_eq_zero_iff.mp hlength.symm
    exact .nil
  | cons p ps ih =>
    rcases qs with _ | ⟨q, qs⟩
    · cases hlength
    · rw [List.forall_mem_cons] at hps hqs
      exact .cons (.before hps.1 hqs.1) (ih (Nat.succ.inj hlength) hps.2 hqs.2)

/-- Reachable states with as many open function definitions, and with last procedures of the same
kind and with the same variables, are alike. -/
theorem Reachable.alike {v : Version} {src : Source} {s₁ s₂ : State} (h₁ : Reachable v src s₁)
    (h₂ : Reachable v src s₂) (hopen : s₁.openFns.length = s₂.openFns.length)
    (hkind : s₁.program.current.kind = s₂.program.current.kind)
    (hstatic : s₁.program.current.static = s₂.program.current.static) : Alike src s₁ s₂ where
  names := h₁.nameAt.trans h₂.nameAt.symm
  kind := hkind
  static := hstatic
  openFns := forall₂_samePlace hopen (fun p hp => (h₁.openWritten p hp).follows)
    fun q hq => (h₂.openWritten q hq).follows

/-- **Lines are decoded independently of what came before.** In the decoding of a file, take two
states in which as many function definitions are open and whose last procedures have the same kind
and the same variables. Then instructions that begin with a line end alike from both, with the same
fault if they fail, and the lines that they add to the last procedure are the same. -/
theorem lines_independent {v : Version} {src : Source} {s₁ s₂ : State} (h₁ : Reachable v src s₁)
    (h₂ : Reachable v src s₂) (hopen : s₁.openFns.length = s₂.openFns.length)
    (hkind : s₁.program.current.kind = s₂.program.current.kind)
    (hstatic : s₁.program.current.static = s₂.program.current.static)
    {pos fin w code parameter : Nat} (hpos : pos < fin) (hw : src.natLE pos 2 = .ok w)
    (hop : Instruction.operation v w = .common code parameter)
    (hcode : code = 0x0000 ∨ code = 0x0004 ∨ code = 0x0005) :
    ∃ r pos' t₁ t₂, (instructions v fin).run src pos s₁ = (r, pos', t₁) ∧
      (instructions v fin).run src pos s₂ = (r, pos', t₂) ∧ s₁.linesSince t₁ = s₂.linesSince t₂ := by
  have halike := h₁.alike h₂ hopen hkind hstatic
  obtain ⟨label, hperform, hlabel⟩ := perform_line hop hcode
  have hstep : ∀ s, (Instruction.step v).run src pos s =
      (Instruction.startLine label).run src (pos + 2) s := fun s => by
    rw [Instruction.step, run_bind_ok (run_word_ok hw s), hperform]
  obtain ⟨r, n, t₁, t₂, hrun₁, hrun₂, hr⟩ :=
    run_startLine (hlabel (Cleared.nameCongruent halike.names)) (pos + 2)
  rw [← hstep] at hrun₁ hrun₂
  rw [run_instructions_of_lt hpos, run_instructions_of_lt hpos]
  rcases r with fault | _
  · refine ⟨.error fault, _, t₁, t₂, run_bind_error hrun₁, run_bind_error hrun₂, ?_⟩
    rw [linesSince_of_program_eq hr.1, linesSince_of_program_eq hr.2]
  · obtain ⟨label, indent, c₁, c₂, h₁, h₂, rfl, rfl⟩ := hr
    obtain ⟨r, n', t₁', t₂', hrest₁, hrest₂, htwin⟩ :=
      respects_instructions (Twin.congruent src s₁.mark s₂.mark)
        (Twin.effectCongruent src s₁.mark s₂.mark) v rfl rfl
        (halike.twin h₁ h₂ (Line.start label indent))
    rw [run_bind_ok hrun₁, run_bind_ok hrun₂]
    exact ⟨r, _, t₁', t₂', hrest₁, hrest₂, htwin.linesSince⟩

/-- A file in which a point is put aside and then, on a new line, another one: behind the header
stand the instructions of `(1, 1)`, of the line, of `(2, 2)` and of `PSET`. -/
def twoPoints : Source :=
  .ofBytes (List.replicate 0x1E 0 ++ [0x64, 0x05, 0x64, 0x05, 0x81, 0x00, 0x00, 0x00, 0x64, 0x09,
    0x64, 0x09, 0x81, 0x00, 0xDA, 0x00])

/-- The state in which this file begins. -/
def beforePoint : State :=
  ((header .qb45).run twoPoints 0 (.start .qb45)).2.2

/-- The state in which the first point has been put aside. -/
def afterPoint : State :=
  beforePoint.steps .qb45 twoPoints [0x1E, 0x20, 0x22]

/-- The line with the second point is the same whether or not the first one has been put aside. -/
theorem line_independent_of_point :
    Reachable .qb45 twoPoints beforePoint ∧ beforePoint.arguments.start.isSome = false ∧
    Reachable .qb45 twoPoints afterPoint ∧ afterPoint.arguments.start.isSome = true ∧
    ∃ r pos' t₁ t₂, (instructions .qb45 0x2E).run twoPoints 0x24 beforePoint = (r, pos', t₁) ∧
      (instructions .qb45 0x2E).run twoPoints 0x24 afterPoint = (r, pos', t₂) ∧
      beforePoint.linesSince t₁ = afterPoint.linesSince t₂ := by
  have hbefore : Reachable .qb45 twoPoints beforePoint := .start
  have hafter : Reachable .qb45 twoPoints afterPoint := hbefore.steps [0x1E, 0x20, 0x22]
  have hline : Instruction.operation .qb45 0 = .common 0x0000 0 := rfl
  exact ⟨hbefore, rfl, hafter, rfl,
    lines_independent hbefore hafter rfl rfl rfl (by decide) rfl hline (.inl rfl)⟩

end SavedBasic.Decode
