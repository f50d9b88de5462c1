import SavedBasic.Proofs.Reachable

/-!
# Decoding comes to an end

Decoding has four loops: over the names of a form, over the records of its controls, over the
instructions of a procedure, and over the procedures of a file. A loop is given here by one round of
it, which goes on or ends the loop, so that nothing in its definition says that it ends. Every round
that goes on has moved the position forward from a place inside the file, whatever the offsets, lengths
and counts in the file are. So each loop ends, after no more rounds than bytes are left, and with the
result of the function that decodes.
-/

namespace SavedBasic

/-! ## Loops -/

/-- A loop over a file. A round goes on with another configuration or ends the loop with a result. -/
structure Loop (σ ρ : Type) where
  /-- one round -/
  round : σ → σ ⊕ ρ
  /-- the position in the file -/
  position : σ → Nat

namespace Loop

variable {σ ρ : Type} {loop : Loop σ ρ} {size : Nat} {f : σ → ρ}

/-- After so many rounds that go on, the loop ends with a result. -/
inductive Ends (loop : Loop σ ρ) : (rounds : Nat) → σ → ρ → Prop where
  /-- the round ends the loop -/
  | stop {c : σ} {r : ρ} (h : loop.round c = .inr r) : Ends loop 0 c r
  /-- the round goes on -/
  | next {c c' : σ} {r : ρ} {n : Nat} (h : loop.round c = .inl c') (rest : Ends loop n c' r) :
    Ends loop (n + 1) c r

/-- A round that goes on starts inside a file of the given size and moves forward. -/
def Advances (loop : Loop σ ρ) (size : Nat) : Prop :=
  ∀ ⦃c c' : σ⦄, loop.round c = .inl c' →
    loop.position c < size ∧ loop.position c < loop.position c'

/-- A function gives what one round ends with, or what it gives for the configuration with which the
round goes on. -/
def Unrolls (loop : Loop σ ρ) (f : σ → ρ) : Prop :=
  ∀ c, f c = match loop.round c with
    | .inl c' => f c'
    | .inr r => r

/-- A loop that moves forward in every round ends, with what a function gives that unrolls it. -/
theorem exists_ends (hadvances : loop.Advances size) (hf : loop.Unrolls f) (c : σ) :
    ∃ n, n ≤ size - loop.position c ∧ loop.Ends n c (f c) := by
  induction hd : size - loop.position c using Nat.strongRecOn generalizing c with
  | _ d ih =>
    have hc := hf c
    rcases hround : loop.round c with c' | r <;> rw [hround] at hc
    · obtain ⟨hlt, hlt'⟩ := hadvances hround
      obtain ⟨n, hn, hends⟩ := ih (size - loop.position c') (by omega) c' rfl
      rw [hc]
      exact ⟨n + 1, by omega, .next hround hends⟩
    · rw [hc]
      exact ⟨0, Nat.zero_le _, .stop hround⟩

end Loop

/-! ## Names and records of a form -/

namespace Source

variable {src : Source} {pos width : Nat}

theorem natLE_of_le (h : pos + width ≤ src.size) :
    src.natLE pos width = .ok (Bytes.toNatLE (src.slice pos width)) := by
  rw [natLE, exactly, if_pos h]
  rfl

theorem natLE_of_lt (h : src.size < pos + width) :
    src.natLE pos width = .error (.endOfData width) := by
  rw [natLE, exactly, if_neg (Nat.not_le.mpr h)]
  rfl

end Source

namespace Form

open Text

/-- A name of a table: its link, its text and the position behind it. -/
def nameEntry (src : Source) (pos : Nat) : Except Fault (Nat × String × Nat) := do
  let link ← src.natLE pos 2
  let _ ← src.natLE (pos + 2) 1
  let length ← src.natLE (pos + 3) 1
  let name := src.slice (pos + 4) length
  return (link, CodePage.decode name, pos + 4 + name.length)

/-- The loop over the names, with those that have been read. -/
def nameLoop (src : Source) : Loop (Nat × List String) (Except Fault (List String)) where
  round c :=
    match nameEntry src c.1 with
    | .error fault => .inr (.error fault)
    | .ok (link, name, next) =>
      if link = 0 then .inr (.ok (c.2 ++ [name])) else .inl (next, c.2 ++ [name])
  position := Prod.fst

theorem nameEntry_of_le {src : Source} {pos : Nat} (h : pos + 4 ≤ src.size) :
    ∃ link length, src.natLE pos 2 = .ok link ∧ src.natLE (pos + 3) 1 = .ok length ∧
      nameEntry src pos = .ok (link, CodePage.decode (src.slice (pos + 4) length),
        pos + 4 + (src.slice (pos + 4) length).length) := by
  have hlink : src.natLE pos 2 = .ok _ := Source.natLE_of_le (by omega)
  have htype : src.natLE (pos + 2) 1 = .ok _ := Source.natLE_of_le (by omega)
  have hlength : src.natLE (pos + 3) 1 = .ok _ := Source.natLE_of_le h
  refine ⟨_, _, hlink, hlength, ?_⟩
  rw [nameEntry, hlink, htype, hlength]
  rfl

/-- A name whose head is cut short cannot be read. -/
theorem nameEntry_of_lt {src : Source} {pos : Nat} (h : src.size < pos + 4) :
    nameEntry src pos = .error (.endOfData (if pos + 2 ≤ src.size then 1 else 2)) := by
  rw [nameEntry]
  by_cases htwo : pos + 2 ≤ src.size
  · rw [if_pos htwo, Source.natLE_of_le htwo]
    by_cases hthree : pos + 2 + 1 ≤ src.size
    · rw [Source.natLE_of_le hthree, Source.natLE_of_lt (by omega)]
      rfl
    · rw [Source.natLE_of_lt (Nat.lt_of_not_le hthree)]
      rfl
  · rw [if_neg htwo, Source.natLE_of_lt (Nat.lt_of_not_le htwo)]
    rfl

theorem readNames_eq (src : Source) (pos : Nat) :
    readNames src pos =
      match nameEntry src pos with
      | .error fault => .error fault
      | .ok (link, name, next) =>
        if link = 0 then .ok [name] else (readNames src next).map (name :: ·) := by
  rw [readNames]
  by_cases hfour : pos + 4 ≤ src.size
  · obtain ⟨link, length, hlink, hlength, hentry⟩ := nameEntry_of_le hfour
    rw [dif_pos hfour, hlink, hlength, hentry]
    dsimp only [bind, Except.bind, pure, Except.pure]
    split
    · rfl
    · cases readNames src _ <;> rfl
  · rw [dif_neg hfour, nameEntry_of_lt (Nat.lt_of_not_le hfour)]
    split <;> rfl

theorem nameLoop_advances (src : Source) : (nameLoop src).Advances src.size := by
  intro c c' h
  dsimp only [nameLoop] at h ⊢
  split at h
  · cases h
  · rename_i hentry
    by_cases hfour : c.1 + 4 ≤ src.size
    · obtain ⟨_, _, -, -, hentry'⟩ := nameEntry_of_le hfour
      cases hentry.symm.trans hentry'
      split at h <;> cases h
      dsimp only
      omega
    · rw [nameEntry_of_lt (Nat.lt_of_not_le hfour)] at hentry
      cases hentry

theorem nameLoop_unrolls (src : Source) :
    (nameLoop src).Unrolls fun c => (readNames src c.1).map (c.2 ++ ·) := by
  intro c
  dsimp only [nameLoop]
  rw [readNames_eq]
  rcases nameEntry src c.1 with fault | ⟨link, name, next⟩
  · rfl
  · by_cases hlink : link = 0
    · simp only [hlink, if_true]
      rfl
    · simp only [hlink, if_false]
      cases readNames src next with
      | error fault => rfl
      | ok names => simp [Except.map]

/-- A record of a control of a type. -/
def readRecord (src : Source) (mdi : Bool) (pos : Nat) (name : String) (type : ControlType) :
    Except Fault Control :=
  let typeName := if type.name = formName ∧ mdi then mdiFormName else type.name
  (readFields src (pos + 2) type.fields ⟨pos, name, typeName, []⟩).bind Control.adjust

/-- The loop over the records up to a limit, with the controls that have been read. -/
def recordLoop (src : Source) (names : List String) (mdi : Bool) (limit : Nat) :
    Loop (Nat × List Control) (List Control × Option Fault) where
  round c :=
    if c.1 + 2 < limit then
      match recordHead? src names c.1 with
      | none => .inr (c.2, none)
      | some (name, type) =>
        if limit < c.1 + type.length then .inr (c.2, none)
        else
          match readRecord src mdi c.1 name type with
          | .error fault => .inr (c.2, some fault)
          | .ok control => .inl (c.1 + type.length, c.2 ++ [control])
    else .inr (c.2, none)
  position := Prod.fst

variable (src : Source) (names : List String) (mdi : Bool) (limit : Nat)

theorem lt_size_of_recordHead? {src : Source} {names : List String} {pos : Nat}
    {head : String × ControlType} (h : recordHead? src names pos = some head) : pos < src.size := by
  rw [recordHead?] at h
  split at h
  · rename_i hindex _
    exact Source.le_size_of_natLE hindex
  · cases h

theorem recordLoop_advances : (recordLoop src names mdi limit).Advances src.size := by
  intro c c' h
  dsimp only [recordLoop] at h ⊢
  split at h
  · split at h
    · cases h
    · rename_i type hhead
      split at h
      · cases h
      · split at h <;> cases h
        have := type.length_pos
        exact ⟨lt_size_of_recordHead? hhead, by dsimp only; omega⟩
  · cases h

theorem recordLoop_unrolls : (recordLoop src names mdi limit).Unrolls fun c =>
    (c.2 ++ (readControls src names mdi limit c.1).1, (readControls src names mdi limit c.1).2) := by
  intro c
  dsimp only [recordLoop]
  rw [readControls]
  split
  · rcases recordHead? src names c.1 with _ | ⟨name, type⟩
    · simp
    · dsimp only
      split
      · simp
      · rw [readRecord]
        generalize (if type.name = formName ∧ mdi then mdiFormName else type.name) = typeName
        rcases readFields src (c.1 + 2) type.fields ⟨c.1, name, typeName, []⟩ with fault | control
        · simp [Except.bind]
        · rcases hadjust : control.adjust with fault | control
          · simp [Except.bind, hadjust]
          · simp [Except.bind, hadjust]
  · simp

end Form

/-! ## Instructions and procedures -/

namespace Decode

/-- The loop that repeats an action as long as a test of the position says so. -/
def whileLoop (test : Nat → Bool) (m : Decode Unit) (src : Source) :
    Loop (Nat × State) (Except Fault Unit × Nat × State) where
  round c :=
    if test c.1 then
      match m.run src c.1 c.2 with
      | (.ok (), pos, s) => .inl (pos, s)
      | (.error fault, pos, s) => .inr (.error fault, pos, s)
    else .inr (.ok (), c.1, c.2)
  position := Prod.fst

/-- The loop over the instructions of a procedure that end at a position. -/
def instructionLoop (v : Version) (fin : Nat) (src : Source) :
    Loop (Nat × State) (Except Fault Unit × Nat × State) :=
  whileLoop (· < fin) (Instruction.step v) src

/-- The loop over the procedures behind the main program. -/
def procedureLoop (v : Version) (src : Source) :
    Loop (Nat × State) (Except Fault Unit × Nat × State) :=
  whileLoop (· + trailerSize < src.size) (advance trailerSize >>= fun _ => nextProcedure v) src

theorem whileLoop_advances {test : Nat → Bool} {m : Decode Unit} {src : Source} {size : Nat}
    (h : ∀ {pos pos' : Nat} {s s' : State}, test pos → m.run src pos s = (.ok (), pos', s') →
      pos < size ∧ pos < pos') : (whileLoop test m src).Advances size := by
  intro c c' hround
  dsimp only [whileLoop] at hround ⊢
  split at hround
  · rename_i htest
    split at hround <;> cases hround
    exact h htest ‹_›
  · cases hround

/-- An instruction that succeeds starts inside the source and moves forward. -/
theorem lt_size_and_lt_of_run_step {v : Version} {src : Source} {pos pos' : Nat} {s s' : State}
    (h : (Instruction.step v).run src pos s = (.ok (), pos', s')) : pos < src.size ∧ pos < pos' := by
  obtain ⟨w, hword, -⟩ := run_step_eq_ok.mp h
  have hsize := Source.le_size_of_natLE hword
  exact ⟨by omega, lt_pos_of_run_step h⟩

theorem instructionLoop_advances (v : Version) (fin : Nat) (src : Source) :
    (instructionLoop v fin src).Advances src.size :=
  whileLoop_advances fun _ hstep => lt_size_and_lt_of_run_step hstep

theorem procedureLoop_advances (v : Version) (src : Source) :
    (procedureLoop v src).Advances src.size := by
  refine whileLoop_advances fun htest hrun => ?_
  rw [run_bind_ok (run_advance ..)] at hrun
  have hle := le_of_run hrun
  have hmore := of_decide_eq_true htest
  rw [trailerSize] at hle hmore
  omega

theorem instructionLoop_unrolls (v : Version) (fin : Nat) (src : Source) :
    (instructionLoop v fin src).Unrolls fun c => (instructions v fin).run src c.1 c.2 := by
  intro c
  dsimp only [instructionLoop, whileLoop]
  by_cases hlt : c.1 < fin
  · rw [run_instructions_of_lt hlt, run_bind, if_pos (decide_eq_true hlt)]
    rcases (Instruction.step v).run src c.1 c.2 with ⟨fault | _, pos, s⟩ <;> rfl
  · rw [run_instructions_of_le (Nat.not_lt.mp hlt), if_neg (by simpa using hlt)]

theorem procedureLoop_unrolls (v : Version) (src : Source) :
    (procedureLoop v src).Unrolls fun c => (furtherProcedures v).run src c.1 c.2 := by
  intro c
  dsimp only [procedureLoop, whileLoop]
  by_cases hmore : c.1 + trailerSize < src.size
  · rw [run_furtherProcedures_of_lt hmore, run_bind, if_pos (decide_eq_true hmore),
      run_bind_ok (run_advance ..)]
    rcases (nextProcedure v).run src (c.1 + trailerSize) c.2 with ⟨fault | _, pos, s⟩ <;> rfl
  · rw [run_furtherProcedures_of_le (Nat.not_lt.mp hmore), if_neg (by simpa using hmore)]

/-! ## The whole file -/

/-- Both loops in one: over the instructions of all procedures. A configuration begins with the
position at which the instructions of the procedure end. -/
def fileLoop (v : Version) (src : Source) :
    Loop (Nat × Nat × State) (Except Fault Unit × Nat × State) where
  round c :=
    if c.2.1 < c.1 then
      match (Instruction.step v).run src c.2.1 c.2.2 with
      | (.ok (), pos, s) => .inl (c.1, pos, s)
      | (.error fault, pos, s) => .inr (.error fault, pos, s)
    else if c.2.1 + trailerSize < src.size then
      match (procedureHead >>= fun _ => word).run src (c.2.1 + trailerSize) c.2.2 with
      | (.ok length, pos, s) => .inl (pos + length, pos, s)
      | (.error fault, pos, s) => .inr (.error fault, pos, s)
    else .inr (.ok (), c.2.1, c.2.2)
  position c := c.2.1

theorem fileLoop_advances (v : Version) (src : Source) : (fileLoop v src).Advances src.size := by
  intro c c' h
  dsimp only [fileLoop] at h ⊢
  split at h
  · split at h <;> cases h
    rename_i hstep
    exact lt_size_and_lt_of_run_step hstep
  · split at h
    · rename_i hmore
      split at h <;> cases h
      rename_i hrun
      have hle := le_of_run hrun
      rw [trailerSize] at hmore hle
      dsimp only
      omega
    · cases h

theorem fileLoop_unrolls (v : Version) (src : Source) : (fileLoop v src).Unrolls fun c =>
    (instructions v c.1 >>= fun _ => furtherProcedures v).run src c.2.1 c.2.2 := by
  intro c
  dsimp only [fileLoop]
  by_cases hlt : c.2.1 < c.1
  · rw [if_pos hlt, run_bind, run_instructions_of_lt hlt, ← run_bind, bind_assoc, run_bind]
    rcases (Instruction.step v).run src c.2.1 c.2.2 with ⟨fault | _, pos, s⟩ <;> rfl
  · rw [if_neg hlt, run_bind_ok (run_instructions_of_le (Nat.not_lt.mp hlt) src c.2.2)]
    by_cases hmore : c.2.1 + trailerSize < src.size
    · have hnext : (nextProcedure v >>= fun _ => furtherProcedures v) =
          ((procedureHead >>= fun _ => word) >>= fun length => position >>= fun pos =>
            instructions v (pos + length) >>= fun _ => furtherProcedures v) := by
        simp only [nextProcedure_eq_head, body, bind_assoc]
      rw [if_pos hmore, run_furtherProcedures_of_lt hmore, hnext, run_bind]
      rcases (procedureHead >>= fun _ => word).run src (c.2.1 + trailerSize) c.2.2 with
        ⟨fault | length, pos, s⟩
      · rfl
      · exact run_bind_ok (run_position src pos s)
    · rw [if_neg hmore, run_furtherProcedures_of_le (Nat.not_lt.mp hmore)]

/-- Behind the header and the length of the main program, the loop over all instructions decodes the
file. -/
theorem file_ends {v : Version} {src : Source} {length pos : Nat} {s : State}
    (h : (opening v >>= fun _ => word).run src 0 (.start v) = (.ok length, pos, s)) :
    ∃ n, n ≤ src.size - pos ∧
      (fileLoop v src).Ends n (pos + length, pos, s) ((file v).run src 0 (.start v)) := by
  have hfile : file v = ((opening v >>= fun _ => word) >>= fun length => position >>= fun pos =>
      instructions v (pos + length) >>= fun _ => furtherProcedures v) := by
    simp only [file_eq, body, bind_assoc]
  rw [hfile, run_bind_ok h, run_bind_ok (run_position src pos s)]
  exact Loop.exists_ends (fileLoop_advances v src) (fileLoop_unrolls v src) (pos + length, pos, s)

end Decode

/-- All loops of the decoder end on every file. Every round that goes on moves the position forward
from a place inside the file, so that there are no more rounds than bytes are left: in each of the
loops, and in all instructions and procedures of the file taken together. -/
theorem decoder_loops_end (src : Source) :
    ((Form.nameLoop src).Advances src.size ∧
      ∀ pos, ∃ n, n ≤ src.size - pos ∧
        (Form.nameLoop src).Ends n (pos, []) (Form.readNames src pos)) ∧
    (∀ names mdi limit, (Form.recordLoop src names mdi limit).Advances src.size ∧
      ∀ pos, ∃ n, n ≤ src.size - pos ∧ (Form.recordLoop src names mdi limit).Ends n (pos, [])
        (Form.readControls src names mdi limit pos)) ∧
    (∀ v fin, (Decode.instructionLoop v fin src).Advances src.size ∧
      ∀ pos s, ∃ n, n ≤ src.size - pos ∧
        (Decode.instructionLoop v fin src).Ends n (pos, s) ((Decode.instructions v fin).run src pos s)) ∧
    (∀ v, (Decode.procedureLoop v src).Advances src.size ∧
      ∀ pos s, ∃ n, n ≤ src.size - pos ∧
        (Decode.procedureLoop v src).Ends n (pos, s) ((Decode.furtherProcedures v).run src pos s)) ∧
    (∀ v length pos s,
      (Decode.opening v >>= fun _ => Decode.word).run src 0 (.start v) = (.ok length, pos, s) →
      ∃ n, n ≤ src.size - pos ∧ (Decode.fileLoop v src).Ends n (pos + length, pos, s)
        ((Decode.file v).run src 0 (.start v))) := by
  refine ⟨⟨Form.nameLoop_advances src, fun pos => ?_⟩, fun names mdi limit =>
    ⟨Form.recordLoop_advances src names mdi limit, fun pos => ?_⟩, fun v fin =>
    ⟨Decode.instructionLoop_advances v fin src, fun pos s => ?_⟩, fun v =>
    ⟨Decode.procedureLoop_advances v src, fun pos s => ?_⟩, fun v length pos s => Decode.file_ends⟩
  · obtain ⟨n, hn, hends⟩ := Loop.exists_ends (Form.nameLoop_advances src)
      (Form.nameLoop_unrolls src) (pos, [])
    have hstart : (Form.readNames src pos).map ([] ++ ·) = Form.readNames src pos := by
      cases Form.readNames src pos <;> rfl
    dsimp only at hends
    rw [hstart] at hends
    exact ⟨n, hn, hends⟩
  · exact Loop.exists_ends (Form.recordLoop_advances src names mdi limit)
      (Form.recordLoop_unrolls src names mdi limit) (pos, [])
  · exact Loop.exists_ends (Decode.instructionLoop_advances v fin src)
      (Decode.instructionLoop_unrolls v fin src) (pos, s)
  · exact Loop.exists_ends (Decode.procedureLoop_advances v src)
      (Decode.procedureLoop_unrolls v src) (pos, s)

end SavedBasic
