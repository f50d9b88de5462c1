import SavedBasic.Proofs.Changes

/-!
# Reachable states

The states that the decoding of a file can come to, whether or not an instruction fails. In all of
them the same names are found, and every open function definition is at a statement that has been
written.
-/

namespace SavedBasic.Decode

/-! ## The parts of a file -/

/-- What stands in front of the first procedure. -/
def opening (v : Version) : Decode Unit := do
  header v
  let s ← get
  advance (s.headerSize + s.symbols.codeOffset)

theorem file_eq (v : Version) :
    file v = (opening v >>= fun _ => body v >>= fun _ => furtherProcedures v) := by
  simp only [file, opening, bind_assoc]

/-- The head of a procedure up to its name. -/
def procedureName : Decode Bytes := do
  let _ ← bytes 1
  let name ← bytes (← word)
  let _ ← bytes 2
  return name

/-- A procedure begins when its flags are known. -/
theorem nextProcedure_eq (v : Version) :
    nextProcedure v = (procedureName >>= fun name => number 1 >>= fun flags =>
      modify (fun s => s.enter name (flags.testBit 7)) >>= fun _ => body v) := by
  simp only [procedureName, bind_assoc, pure_bind]
  rfl

theorem composed_procedureName : Composed none procedureName :=
  .bind (.bytes 1) fun _ => .bind .word fun _ => .bind (.bytes _) fun _ => .bind (.bytes 2) fun _ =>
    .pure _

theorem state_procedureName (src : Source) (pos : Nat) (s : State) :
    (procedureName.run src pos s).2.2 = s := by
  simp only [procedureName, run_bind, run_bytes, word, run_number]
  rcases src.natLE (pos + (src.slice pos 1).length) 2 with fault | length <;> rfl

/-- What stands in front of the instructions of a further procedure. -/
def procedureHead : Decode Unit := do
  let name ← procedureName
  let flags ← number 1
  modify fun s => s.enter name (flags.testBit 7)

theorem nextProcedure_eq_head (v : Version) :
    nextProcedure v = (procedureHead >>= fun _ => body v) := by
  simp only [nextProcedure_eq, procedureHead, bind_assoc]

theorem run_body_eq_ok {v : Version} {src : Source} {pos pos' : Nat} {s s' : State} :
    (body v).run src pos s = (.ok (), pos', s') ↔ ∃ length, src.natLE pos 2 = .ok length ∧
      (instructions v (pos + 2 + length)).run src (pos + 2) s = (.ok (), pos', s') := by
  rw [body, run_bind, word, run_number]
  rcases src.natLE pos 2 with fault | length <;> simp [run_bind]

/-! ## States that decoding comes to -/

/-- The states that decoding a file can come to: after the header, after an instruction at any
position, whether or not it fails, and at the beginning of a procedure. -/
inductive Reachable (v : Version) (src : Source) : State → Prop where
  /-- the header has been read -/
  | start : Reachable v src ((header v).run src 0 (.start v)).2.2
  /-- an instruction has been performed -/
  | step {s : State} (pos : Nat) (h : Reachable v src s) :
    Reachable v src ((Instruction.step v).run src pos s).2.2
  /-- a procedure begins -/
  | enter {s : State} (name : Bytes) (static : Bool) (h : Reachable v src s) :
    Reachable v src (s.enter name static)

/-- The state after the instructions at some positions, whether or not they fail. -/
def State.steps (v : Version) (src : Source) (positions : List Nat) (s : State) : State :=
  positions.foldl (fun s pos => ((Instruction.step v).run src pos s).2.2) s

theorem Reachable.steps {v : Version} {src : Source} {s : State} (h : Reachable v src s)
    (positions : List Nat) : Reachable v src (s.steps v src positions) := by
  induction positions generalizing s with
  | nil => exact h
  | cons pos positions ih => exact ih (h.step pos)

/-- A property of states passes through an action. -/
def Passes {α : Type} (P : State → Prop) (src : Source) (m : Decode α) : Prop :=
  ∀ pos s, P s → P (m.run src pos s).2.2

theorem Passes.bind {α β : Type} {P : State → Prop} {src : Source} {m : Decode α}
    {f : α → Decode β} (hm : Passes P src m) (hf : ∀ a, Passes P src (f a)) :
    Passes P src (m >>= f) := by
  intro pos s hs
  have hfirst := hm pos s hs
  rw [run_bind]
  rcases hrun : m.run src pos s with ⟨fault | a, pos', s'⟩ <;> rw [hrun] at hfirst
  · exact hfirst
  · exact hf a pos' s' hfirst

theorem passes_number (P : State → Prop) (src : Source) (width : Nat) :
    Passes P src (number width) := by
  intro pos s hs
  rw [run_number]
  rcases src.natLE pos width with fault | n <;> exact hs

/-- A property that lasts: neither an instruction, whether or not it fails, nor the beginning of a
procedure takes it away. -/
structure Lasting (v : Version) (src : Source) (P : State → Prop) : Prop where
  step : ∀ pos {s}, P s → P ((Instruction.step v).run src pos s).2.2
  enter : ∀ name static {s}, P s → P (s.enter name static)

namespace Lasting

variable {v : Version} {src : Source} {P : State → Prop} (h : Lasting v src P)

include h

theorem instructions (fin : Nat) : Passes P src (instructions v fin) := by
  intro pos s hs
  -- every instruction takes its own word, so the distance to the end shrinks
  induction hd : fin - pos using Nat.strongRecOn generalizing pos s with
  | _ d ih =>
    by_cases hlt : pos < fin
    · have hstep := h.step pos hs
      rw [run_instructions_of_lt hlt, run_bind]
      rcases hrun : (Instruction.step v).run src pos s with ⟨fault | _, pos₁, s₁⟩
        <;> rw [hrun] at hstep
      · exact hstep
      · have hpos := lt_pos_of_run_step hrun
        exact ih (fin - pos₁) (by omega) pos₁ s₁ hstep rfl
    · rw [run_instructions_of_le (Nat.not_lt.mp hlt)]
      exact hs

theorem body : Passes P src (body v) :=
  (passes_number P src 2).bind fun _ => .bind (fun _ _ hs => hs) fun _ => h.instructions _

theorem nextProcedure : Passes P src (nextProcedure v) :=
  .bind (fun _ _ hs => hs) fun _ => .bind (passes_number P src 2) fun _ =>
    .bind (fun _ _ hs => hs) fun name => .bind (fun _ _ hs => hs) fun _ =>
      .bind (passes_number P src 1) fun flags =>
        .bind (fun _ _ hs => h.enter name (flags.testBit 7) hs) fun _ => h.body

theorem furtherProcedures : Passes P src (furtherProcedures v) := by
  intro pos s hs
  -- every procedure lies behind a trailer, so the rest of the file shrinks
  induction hd : src.size - pos using Nat.strongRecOn generalizing pos s with
  | _ d ih =>
    by_cases hlt : pos + trailerSize < src.size
    · have hfirst := h.nextProcedure (pos + trailerSize) s hs
      have hle := le_pos_run (Decode.nextProcedure v) src (pos + trailerSize) s
      rw [run_furtherProcedures_of_lt hlt, run_bind]
      rcases hrun : (Decode.nextProcedure v).run src (pos + trailerSize) s with
        ⟨fault | _, pos₁, s₁⟩ <;> rw [hrun] at hfirst hle
      · exact hfirst
      · rw [trailerSize] at hle hlt
        exact ih (src.size - pos₁) (by dsimp only at hle; omega) pos₁ s₁ hfirst rfl
    · rw [run_furtherProcedures_of_le (Nat.not_lt.mp hlt)]
      exact hs

end Lasting

theorem lasting_reachable (v : Version) (src : Source) : Lasting v src (Reachable v src) where
  step pos _ hs := hs.step pos
  enter name static _ hs := hs.enter name static

/-- Decoding a whole file ends in a reachable state, also if it fails. -/
theorem reachable_file (v : Version) (src : Source) :
    Reachable v src ((file v).run src 0 (.start v)).2.2 := by
  have hstart : Reachable v src ((header v).run src 0 (.start v)).2.2 := .start
  rw [file, run_bind]
  rcases hrun : (header v).run src 0 (.start v) with ⟨fault | _, pos₁, s₁⟩ <;> rw [hrun] at hstart
  · exact hstart
  · have hlasting := lasting_reachable v src
    have hrest : Passes (Reachable v src) src (do
        let s ← get
        advance (s.headerSize + s.symbols.codeOffset)
        body v
        furtherProcedures v) :=
      .bind (fun _ _ hs => hs) fun _ => .bind (fun _ _ hs => hs) fun _ =>
        .bind hlasting.body fun _ => hlasting.furtherProcedures
    exact hrest pos₁ s₁ hstart

/-! ## Open function definitions -/

/-- The statement at a place has been written, but for what follows in it. -/
def State.Written (s : State) (place : Place) : Prop :=
  place.procedure < s.program.earlier.length ∨
    place.procedure = s.program.earlier.length ∧
      ∃ l rest, s.program.current.lines = l :: rest ∧
        (place.line < rest.length ∨ place.line = rest.length ∧ place.statement ≤ l.earlier.length)

/-- All open function definitions are at statements that have been written. -/
def State.OpenWritten (s : State) : Prop :=
  ∀ place ∈ s.openFns, s.Written place

/-- Where no procedure, line or statement is taken away, what has been written stays written. -/
theorem State.Written.mono {s s' : State} {place : Place} (h : s.Written place)
    (hearlier : s'.program.earlier.length = s.program.earlier.length)
    (hlines : ∀ l rest, s.program.current.lines = l :: rest →
      ∃ l' rest', s'.program.current.lines = l' :: rest' ∧
        (rest.length < rest'.length ∨
          rest.length = rest'.length ∧ l.earlier.length ≤ l'.earlier.length)) :
    s'.Written place := by
  rcases h with hlt | ⟨heq, l, rest, hl, hline⟩
  · exact .inl (hearlier ▸ hlt)
  · obtain ⟨l', rest', hl', hle⟩ := hlines l rest hl
    refine .inr ⟨heq.trans hearlier.symm, l', rest', hl', ?_⟩
    omega

end SavedBasic.Decode

namespace SavedBasic

theorem Line.length_earlier_amendAt (f : Statement → Statement) (i : Nat)
    (way : List Statement.Branch) (l : Line) :
    (l.amendAt f i way).earlier.length = l.earlier.length := by
  unfold amendAt
  split
  · rfl
  · exact length_amendFromEnd ..

/-- Changing a statement leaves the number of lines, and changes no more of the last one than a
statement. -/
theorem Program.lines_amendAt {p : Program} {l : Line} {rest : List Line}
    (h : p.current.lines = l :: rest) (f : Statement → Statement) (place : Place) :
    ∃ l' rest', (p.amendAt f place).current.lines = l' :: rest' ∧ rest'.length = rest.length ∧
      (l' = l ∨ l' = l.amendAt f place.statement place.way) := by
  unfold amendAt
  split
  · dsimp only
    rw [h, amendFromEnd_cons]
    split
    · exact ⟨_, rest, rfl, rfl, .inr rfl⟩
    · exact ⟨l, _, rfl, length_amendFromEnd .., .inl rfl⟩
  · exact ⟨l, rest, h, rfl, .inl rfl⟩

end SavedBasic

namespace SavedBasic.Decode

theorem written_closeTop {s : State} {place : Place} (h : s.Written place) (closing : Closing) :
    (s.closeTop closing).Written place := by
  unfold State.closeTop
  split
  · exact h
  · rename_i top _ _
    refine h.mono (Program.length_earlier_amendAt ..) fun l rest hl => ?_
    obtain ⟨l', rest', hl', hrest, rfl | rfl⟩ :=
      Program.lines_amendAt hl (Statement.define closing) top
    · exact ⟨l', rest', hl', .inr ⟨hrest.symm, Nat.le_refl _⟩⟩
    · exact ⟨_, rest', hl', .inr ⟨hrest.symm, Nat.le_of_eq (l.length_earlier_amendAt ..).symm⟩⟩

/-- A function definition that is being opened is at the last statement. -/
theorem written_placeOn {s : State} (way : List Statement.Branch)
    (h : s.program.current.lines ≠ []) : s.Written (s.placeOn way) := by
  rcases hlines : s.program.current.lines with _ | ⟨l, rest⟩
  · exact absurd hlines h
  · refine .inr ⟨rfl, l, rest, hlines, .inr ⟨?_, ?_⟩⟩
    · rw [State.placeOn, hlines]
      rfl
    · rw [State.placeOn, hlines]
      exact Nat.le_refl _

/-- Open function definitions stay where they are while nothing is taken away. -/
theorem State.OpenWritten.mono {s s' : State} (hs : s.OpenWritten) (hopen : s'.openFns = s.openFns)
    (hearlier : s'.program.earlier.length = s.program.earlier.length)
    (hlines : ∀ l rest, s.program.current.lines = l :: rest →
      ∃ l' rest', s'.program.current.lines = l' :: rest' ∧
        (rest.length < rest'.length ∨
          rest.length = rest'.length ∧ l.earlier.length ≤ l'.earlier.length)) :
    s'.OpenWritten :=
  fun place hplace => (hs place (hopen ▸ hplace)).mono hearlier hlines

theorem openWritten_setLast {s : State} (hs : s.OpenWritten) (st : Statement) :
    (s.setLast st).OpenWritten := by
  refine hs.mono rfl rfl fun l rest hlines => ⟨l.setLast st, rest, ?_, .inr ⟨rfl, Nat.le_refl _⟩⟩
  rw [State.setLast, hlines]
  rfl

theorem Change.openWritten {src : Source} {e : Option Power} {s s' : State} (h : Change src e s s')
    (hs : s.OpenWritten) : s'.OpenWritten := by
  cases h with
  | noted offset =>
    intro place hplace
    rw [State.openFns_noting] at hplace
    rw [State.Written, State.program_noting]
    exact hs place hplace
  | operands stack arguments => exact hs
  | line he l =>
    refine hs.mono rfl rfl fun l' rest hlines => ⟨l, _, rfl, .inl ?_⟩
    rw [hlines]
    exact Nat.lt_succ_self _
  | placed hlast h => exact openWritten_setLast hs _
  | amended he st' hlast h => exact openWritten_setLast hs st'
  | colon he column =>
    refine hs.mono rfl rfl fun l rest hlines =>
      ⟨l.colon column, rest, ?_, .inr ⟨rfl, Nat.le_succ _⟩⟩
    rw [State.withLines, hlines]
    rfl
  | commented he hlines hearlier hlast =>
    refine hs.mono rfl rfl fun l rest hlines' => ⟨_, _, rfl, .inr ?_⟩
    rw [hlines] at hlines'
    cases hlines'
    exact ⟨rfl, Nat.le_of_eq (by rw [hearlier])⟩
  | kind kind => exact hs
  | opened he h =>
    intro place hplace
    rcases List.mem_cons.mp hplace with rfl | hold
    · exact written_placeOn _ (lines_ne_nil_of_lastAt h)
    · exact hs place hold
  | closed he x =>
    intro place hplace
    apply written_closeTop
    apply hs
    unfold State.closeTop at hplace
    split at hplace
    · exact hplace
    · rename_i hopen
      rw [hopen]
      exact List.mem_cons_of_mem _ hplace

theorem Changes.openWritten {src : Source} {s s' : State} (h : Changes src s s')
    (hs : s.OpenWritten) : s'.OpenWritten := by
  induction h with
  | refl => exact hs
  | tail _ hstep ih =>
    obtain ⟨e, hstep⟩ := hstep
    exact hstep.openWritten ih

/-- An action leaves the open function definitions alone. -/
def KeepsOpen {α : Type} (m : Decode α) : Prop :=
  ∀ src pos s, (m.run src pos s).2.2.openFns = s.openFns

theorem KeepsOpen.bind {α β : Type} {m : Decode α} {f : α → Decode β} (hm : KeepsOpen m)
    (hf : ∀ a, KeepsOpen (f a)) : KeepsOpen (m >>= f) := by
  intro src pos s
  have hfirst := hm src pos s
  rw [run_bind]
  rcases hrun : m.run src pos s with ⟨fault | a, pos', s'⟩ <;> rw [hrun] at hfirst
  · exact hfirst
  · exact (hf a src pos' s').trans hfirst

theorem keepsOpen_given {α : Type} (r : Except Fault α) : KeepsOpen (given r) := by
  intro src pos s
  rw [run_given]

theorem keepsOpen_formArea : KeepsOpen formArea := by
  refine .bind (fun _ _ _ => rfl) fun src => .bind (keepsOpen_given _) fun extra => ?_
  refine .bind (fun _ _ _ => rfl) fun _ => ?_
  split
  · rcases Form.read src with ⟨layout, fault⟩
    dsimp only
    split <;> cases fault <;> exact fun _ _ _ => rfl
  · exact fun _ _ _ => rfl

/-- The header opens no function definition. -/
theorem keepsOpen_header (v : Version) : KeepsOpen (header v) := by
  have hrest : KeepsOpen (do
      let offset ← given ((← source).natLE ((← get).headerSize - 2) 2)
      modify fun s => { s with symbols := { s.symbols with codeOffset := offset } }) :=
    .bind (fun _ _ _ => rfl) fun _ => .bind (fun _ _ _ => rfl) fun _ =>
      .bind (keepsOpen_given _) fun _ => fun _ _ _ => rfl
  unfold header
  split
  · exact .bind keepsOpen_formArea fun _ => hrest
  · exact hrest

theorem Reachable.openWritten {v : Version} {src : Source} {s : State} (h : Reachable v src s) :
    s.OpenWritten := by
  induction h with
  | start =>
    intro place hplace
    rw [keepsOpen_header] at hplace
    cases hplace
  | @step s pos _ ih => exact (changes_step v src pos s).openWritten ih
  | enter name static _ ih =>
    intro place hplace
    rcases ih place hplace with hbefore | ⟨hsame, -⟩
    · exact .inl (Nat.lt_succ_of_lt hbefore)
    · exact .inl (Nat.lt_succ_of_le (Nat.le_of_eq hsame))

/-- All states of the decoding of a file give the same names. -/
theorem Reachable.nameAt {v : Version} {src : Source} {s : State} (h : Reachable v src s) :
    s.nameAt src = ((header v).run src 0 (.start v)).2.2.nameAt src := by
  induction h with
  | start => rfl
  | @step s pos _ ih => rw [(changes_step v src pos s).nameAt, ih]
  | enter name static _ ih => exact ih

end SavedBasic.Decode
