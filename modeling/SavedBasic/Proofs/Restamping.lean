import SavedBasic.Proofs.Cutting
import SavedBasic.Proofs.Emission
import SavedBasic.Proofs.Layouts
import SavedBasic.Proofs.Reachable
import SavedBasic.Proofs.TwoRuns
import SavedBasic.Proofs.VersionDifferences

/-!
# Files of version 7.0 under the stamp of version 7.1

Version 7.1 differs from version 7.0 by one opcode more and by a word more in parameter records. So a
file of version 7.0 whose procedures have no parameters is read in the same way when only its stamp is
changed.
-/

namespace SavedBasic

namespace Source

/-- The source with another version stamp. -/
def withStamp (src : Source) (stamp : Nat) : Source :=
  ofBytes (src.data.toList.take 1 ++ Bytes.u16 stamp ++ src.data.toList.drop 3)

variable {src : Source} {stamp : Nat}

theorem length_opening_withStamp (h : 3 ≤ src.size) :
    (src.data.toList.take 1 ++ Bytes.u16 stamp).length = 3 := by
  have hwidth : (Bytes.u16 stamp).length = 2 := Bytes.length_ofIntLE 2 _
  have hsize : 3 ≤ src.data.toList.length := h
  rw [List.length_append, hwidth, List.length_take]
  omega

theorem rest_withStamp (h : 3 ≤ src.size) {pos : Nat} (hpos : 3 ≤ pos) :
    (src.withStamp stamp).rest pos = src.rest pos := by
  have hlength := @length_opening_withStamp src stamp h
  rw [withStamp, rest_ofBytes, List.drop_append, List.drop_eq_nil_of_le (by omega), hlength,
    List.drop_drop, List.nil_append, rest]
  congr 1
  omega

theorem size_withStamp (h : 3 ≤ src.size) : (src.withStamp stamp).size = src.size := by
  have hlength := @length_opening_withStamp src stamp h
  have hsize : src.data.toList.length = src.size := Array.length_toList
  rw [withStamp, size_ofBytes, List.length_append, hlength, List.length_drop]
  omega

theorem natLE_withStamp (h : 3 ≤ src.size) (hstamp : stamp < 65536) :
    (src.withStamp stamp).natLE 1 2 = .ok stamp := by
  have hsize : 3 ≤ src.data.toList.length := h
  have hone : (src.data.toList.take 1).length = 1 := by
    rw [List.length_take]
    omega
  have hholds := holds_ofBytes (src.data.toList.take 1) (Bytes.u16 stamp) (src.data.toList.drop 3)
  rw [hone] at hholds
  exact hholds.natLE_u16 hstamp

/-- The mark in front of the stamp stays. -/
theorem natLE_zero_withStamp (h : 3 ≤ src.size) :
    (src.withStamp stamp).natLE 0 1 = src.natLE 0 1 := by
  have hsize : 3 ≤ src.data.toList.length := h
  have htake : ((src.withStamp stamp).rest 0).take 1 = (src.rest 0).take 1 := by
    rw [withStamp, rest_ofBytes, rest, List.drop_zero, List.drop_zero, List.append_assoc,
      List.take_append_of_le_length (by rw [List.length_take]; omega), List.take_take, Nat.min_self]
  rw [natLE_eq _ _ (by decide), natLE_eq _ _ (by decide), htake, length_rest, length_rest,
    size_withStamp h]

end Source

namespace SymbolTable

/-- A name is the same where the source is the same from there on. -/
theorem entryAt_congr {src₁ src₂ : Source} {pos : Nat}
    (h : ∀ p, pos ≤ p → src₁.rest p = src₂.rest p) : entryAt src₁ pos = entryAt src₂ pos := by
  rw [entryAt_eq, entryAt_eq, Source.natLE_congr (by decide) (h (pos + 2) (by omega)),
    Source.natLE_congr (by decide) (h (pos + 3) (by omega)),
    Source.natLE_congr (by decide) (h (pos + 4) (by omega))]
  simp only [Source.slice_congr _ (h (pos + 4) (by omega))]

end SymbolTable

namespace Decode

variable {src₁ src₂ : Source} {n : Nat}

theorem headerSize_noting (src : Source) (s : State) (offset : Nat) :
    (s.noting src offset).headerSize = s.headerSize := by
  rw [State.noting_eq]

/-- The same state, with its names behind a position. -/
def SameState (n : Nat) (s t : State) : Prop :=
  s = t ∧ n ≤ s.headerSize

theorem congruent_sameState (h : ∀ p, n ≤ p → src₁.rest p = src₂.rest p) :
    Congruent src₁ src₂ (SameState n) where
  names {s t} hst := by
    obtain ⟨rfl, hsize⟩ := hst
    funext offset
    rw [State.nameAt, State.nameAt,
      SymbolTable.entryAt_congr fun p hp => h p (Nat.le_trans (by omega) hp)]
  noting {s t} offset hst := by
    obtain ⟨rfl, hsize⟩ := hst
    refine ⟨?_, by rwa [headerSize_noting]⟩
    rw [State.noting, State.noting,
      SymbolTable.entryAt_congr fun p hp => h p (Nat.le_trans (by omega) hp)]
  stack hst := by rw [hst.1]
  withStack stack hst := ⟨by rw [hst.1], hst.2⟩
  last hst := by rw [hst.1]
  setLast st hst := ⟨by rw [hst.1], hst.2⟩
  isOpen hst := by rw [hst.1]
  openOn way hst _ := ⟨by rw [hst.1], hst.2⟩
  closeTop x hst := ⟨by rw [hst.1], by rw [State.closeTop]; split <;> exact hst.2⟩
  kind hst := by rw [hst.1]
  static hst := by rw [hst.1]
  withKind kind hst := ⟨by rw [hst.1], hst.2⟩

theorem effectCongruent_sameState (n : Nat) (e : Option Power) :
    EffectCongruent (SameState n) e where
  clear _ _ _ hst := ⟨by rw [hst.1], hst.2⟩
  beginLine _ _ _ l hst := ⟨by rw [hst.1], hst.2⟩
  head _ _ _ hst := by rw [hst.1]
  setHead _ _ _ l hst := ⟨by rw [hst.1], hst.2⟩
  arguments _ _ _ hst := by rw [hst.1]
  modifyArguments _ _ _ f hst := ⟨by rw [hst.1], hst.2⟩

/-- What respects states that are the same does the same in both sources. -/
theorem Respects.run_congr {α : Type} {m : Decode α} (hm : Respects src₁ src₂ (SameState n) m)
    {pos pos' : Nat} {s s' : State} {r : Except Fault α} (hrest : src₁.rest pos = src₂.rest pos)
    (hs : n ≤ s.headerSize) (hrun : m.run src₁ pos s = (r, pos', s')) :
    m.run src₂ pos s = (r, pos', s') ∧ n ≤ s'.headerSize := by
  obtain ⟨r, k, s₁, s₂, hrun₁, hrun₂, rfl, hsize⟩ := hm hrest ⟨rfl, hs⟩
  rw [hrun₁] at hrun
  cases hrun
  exact ⟨hrun₂, hsize⟩

end Decode

/-! ## Instructions without parameter records -/

namespace Instruction

open Decode

variable {v w : Version}

theorem fin?_skip {src : Source} {n pos pos' : Nat} (h : (Layout.skip n).fin? src pos = some pos') :
    pos' = pos + 2 * n := by
  induction n generalizing pos with
  | zero =>
    cases h
    rfl
  | succ n ih =>
    rw [Layout.skip, Layout.repeated, Layout.fin?_andThen, Layout.fin?] at h
    rcases hword : src.natLE pos (2 * 1) with fault | k <;> rw [hword] at h
    · cases h
    · have := ih h
      omega

section

variable {α β : Type} {src : Source} {pos : Nat}

/-- Two actions that begin in the same way and then do the same do the same. -/
theorem run_bind_congr {m : Decode α} {f g : α → Decode β} {n : Nat} (hm : ReadsBy (.skip n) m)
    (h : ∀ a s, (f a).run src (pos + 2 * n) s = (g a).run src (pos + 2 * n) s) (s : State) :
    (m >>= f).run src pos s = (m >>= g).run src pos s := by
  rcases hrun : m.run src pos s with ⟨fault | a, pos', s'⟩
  · rw [run_bind_error hrun, run_bind_error hrun]
  · obtain rfl := fin?_skip (hm.fin?_eq hrun)
    rw [run_bind_ok hrun, run_bind_ok hrun, h a s']

theorem run_word_bind_congr {f g : Nat → Decode β} {n : Nat} (hn : src.natLE pos 2 = .ok n)
    (h : f n = g n) (s : State) : (word >>= f).run src pos s = (word >>= g).run src pos s := by
  rw [run_bind_ok (run_word_ok hn s), run_bind_ok (run_word_ok hn s), h]

end

section

variable (h : v.Alike w) {src : Source} {pos : Nat}
include h

theorem run_declareProcedure_congr {count : Nat} (hcount : src.natLE (pos + 6) 2 = .ok count)
    (hnone : count = 0 ∨ count = 0xFFFF) (s : State) :
    (declareProcedure v).run src pos s = (declareProcedure w).run src pos s := by
  rw [declareProcedure, declareProcedure, flaggedName_congr h]
  refine run_bind_congr (.skipWords 1) (fun _ => ?_) s
  refine run_bind_congr (readsBy_flaggedName w 3 fun _ => by simp) fun x => ?_
  refine run_bind_congr (n := 0) (.given _) fun kind => run_word_bind_congr hcount ?_
  rcases hnone with rfl | rfl
  · rfl
  · rw [if_pos rfl, if_pos rfl]

theorem run_procedureHeader_congr (hcount : src.natLE pos 2 = .ok 0) (kind : ProcedureKind)
    (name : Identifier) (s : State) :
    (procedureHeader v kind name).run src pos s = (procedureHeader w kind name).run src pos s := by
  rw [procedureHeader, procedureHeader, h.atLeast_vbdos]
  refine run_word_bind_congr hcount ?_ s
  rfl

end

/-- How many words stand between an opcode with parameter records and their count. -/
def wordsBeforeCount (code : Nat) : Nat :=
  if code = 0x0045 then 4 else 3

/-- A count that stands for no records. -/
def IsNoRecords (code count : Nat) : Prop :=
  count = 0 ∨ code = 0x0044 ∧ count = 0xFFFF

/-- Without parameter records, versions that are alike perform these opcodes in the same way too. -/
theorem run_record_congr (h : v.Alike w) {code count : Nat} {handler : Handler}
    (hlookup : table.lookup code = some handler) (hcode : code ∈ recordOpcodes) {src : Source}
    {pos : Nat} (hcount : src.natLE (pos + 2 * wordsBeforeCount code) 2 = .ok count)
    (hnone : IsNoRecords code count) (parameter : Nat) (s : State) :
    (handler v parameter).run src pos s = (handler w parameter).run src pos s := by
  simp only [recordOpcodes, List.mem_cons, List.not_mem_nil, or_false] at hcode
  rcases hcode with rfl | rfl | rfl | rfl
  · cases hlookup
    exact run_declareProcedure_congr h hcount (hnone.imp_right And.right) s
  all_goals
    obtain rfl : count = 0 := hnone.resolve_right fun hnone => absurd hnone.1 (by decide)
    cases hlookup
    dsimp only
    try rw [flaggedName_congr h]
  · simp only [h.eq_vbdos]
    refine run_bind_congr (.skipWords 2) (fun _ => ?_) s
    refine run_bind_congr (readsBy_flaggedName w 4 fun _ => .pure ()) fun x => ?_
    exact run_word_bind_congr hcount (by rfl)
  · refine run_bind_congr (.skipWords 1) (fun _ => ?_) s
    exact run_bind_congr (readsBy_flaggedName w 3 fun _ => .pure ()) fun x =>
      run_procedureHeader_congr h hcount .function x.1
  · refine run_bind_congr (.skipWords 1) (fun _ => run_bind_congr .identifier fun name => ?_) s
    exact run_bind_congr (.skipWords 1) fun _ => run_procedureHeader_congr h hcount .sub name

/-- The instruction at a position of a file has no parameter records. -/
def Recordless (src : Source) (pos : Nat) : Prop :=
  ∀ word, src.natLE pos 2 = .ok word → word % 1024 ∈ recordOpcodes →
    ∃ count, src.natLE (pos + 2 + 2 * wordsBeforeCount (word % 1024)) 2 = .ok count ∧
      IsNoRecords (word % 1024) count

/-- An instruction that succeeds in version 7.0 does the same in version 7.1, unless it has parameter
records. -/
theorem run_perform_qb71 {src : Source} {pos pos' word : Nat} {s s' : State}
    (hword : src.natLE pos 2 = .ok word) (hnone : Recordless src pos)
    (h : (perform .qb70 word).run src (pos + 2) s = (.ok (), pos', s')) :
    (perform .qb71 word).run src (pos + 2) s = (.ok (), pos', s') := by
  by_cases hlast : word % 1024 ≤ Version.lastOpcode .qb70
  · have hop₀ := operation_of_le (v := .qb70) (by decide) hlast
    have hop₁ := operation_of_le (v := .qb71) (by decide) (Nat.le_trans hlast (by decide))
    cases hlookup : table.lookup (word % 1024) with
    | none =>
      rw [perform_of_lookup_none hop₀ hlookup] at h
      cases h
    | some handler =>
      rw [perform_of_lookup hop₀ hlookup] at h
      rw [perform_of_lookup hop₁ hlookup, ← h]
      by_cases hcode : word % 1024 ∈ recordOpcodes
      · obtain ⟨count, hcount, hrecords⟩ := hnone word hword hcode
        exact (run_record_congr Version.alike_qb70_qb71 hlookup hcode hcount hrecords _ s).symm
      · rw [handler_congr Version.alike_qb70_qb71 (mem_of_lookup_eq_some hlookup)
          (fun _ => by decide) fun hmem => absurd hmem hcode]
  · have hop : operation .qb70 word = .undefined := if_pos (Nat.lt_of_not_le hlast)
    rw [perform, hop] at h
    cases h

end Instruction

namespace Decode

/-! ## The course of decoding -/

/-- Decoding a file comes to a position among the instructions of a procedure, which end at `fin`, and
to a state. -/
inductive Course (v : Version) (src : Source) : (fin pos : Nat) → State → Prop where
  /-- to the main program -/
  | main {pos length : Nat} {s : State} (hopening : (opening v).run src 0 (.start v) = (.ok (), pos, s))
    (hlength : src.natLE pos 2 = .ok length) : Course v src (pos + 2 + length) (pos + 2) s
  /-- from one instruction to the next -/
  | step {fin pos pos' : Nat} {s s' : State} (h : Course v src fin pos s) (hlt : pos < fin)
    (hstep : (Instruction.step v).run src pos s = (.ok (), pos', s')) : Course v src fin pos' s'
  /-- from one procedure to the next -/
  | enter {fin pos pos' length : Nat} {s s' : State} (h : Course v src fin pos s) (hend : fin ≤ pos)
    (hmore : pos + trailerSize < src.size)
    (hhead : procedureHead.run src (pos + trailerSize) s = (.ok (), pos', s'))
    (hlength : src.natLE pos' 2 = .ok length) : Course v src (pos' + 2 + length) (pos' + 2) s'

/-- An instruction at a position is performed when the file is decoded. -/
def Executed (v : Version) (src : Source) (pos : Nat) : Prop :=
  ∃ fin s, Course v src fin pos s ∧ pos < fin

theorem respects_performed {src₁ src₂ : Source} {n : Nat}
    (h : ∀ p, n ≤ p → src₁.rest p = src₂.rest p) (v : Version) (w : Nat) :
    Respects src₁ src₂ (SameState n) (Instruction.perform v w) :=
  respects_perform (congruent_sameState h) v w (effectCongruent_sameState n _)

theorem respects_procedureHead {src₁ src₂ : Source} {n : Nat}
    (h : ∀ p, n ≤ p → src₁.rest p = src₂.rest p) :
    Respects src₁ src₂ (SameState n) procedureHead :=
  (composed_procedureName.respects (congruent_sameState h) (effectCongruent_sameState n _)).bind
    fun _ => (respects_number (by decide)).bind fun _ =>
      respects_modify fun _ _ hst => ⟨by rw [hst.1], hst.2⟩

theorem run_opening_eq_ok {v : Version} (hv : v ≠ .vbdos) {src : Source} {pos : Nat} {s : State} :
    (opening v).run src 0 (.start v) = (.ok (), pos, s) ↔
      ∃ offset, src.natLE (v.headerSize - 2) 2 = .ok offset ∧ pos = v.headerSize + offset ∧
        s = { State.start v with symbols := { (State.start v).symbols with codeOffset := offset } } := by
  simp only [opening, header, if_neg hv, run_bind, run_source, run_get, State.start, run_given]
  rcases src.natLE (v.headerSize - 2) 2 with fault | offset
  · simp
  · simp [eq_comm]

theorem Course.le {src : Source} {fin pos : Nat} {s : State} (h : Course .qb70 src fin pos s) :
    3 ≤ pos ∧ 3 ≤ s.headerSize := by
  induction h with
  | main hopening hlength =>
    obtain ⟨offset, -, rfl, rfl⟩ := (run_opening_eq_ok (by decide)).mp hopening
    have hthree : 3 ≤ Version.headerSize .qb70 := by decide
    exact ⟨Nat.le_add_right_of_le (Nat.le_add_right_of_le hthree), hthree⟩
  | step h hlt hstep ih =>
    obtain ⟨hpos, hsize⟩ := ih
    have hle := lt_pos_of_run_step hstep
    obtain ⟨w, -, hperform⟩ := run_step_eq_ok.mp hstep
    have hkept := (respects_performed (fun _ _ => rfl) _ w).run_congr rfl hsize hperform
    exact ⟨by omega, hkept.2⟩
  | enter h hend hmore hhead hlength ih =>
    obtain ⟨hpos, hsize⟩ := ih
    have hle := le_of_run hhead
    have hkept := (respects_procedureHead fun _ _ => rfl).run_congr rfl hsize hhead
    exact ⟨by omega, hkept.2⟩

/-! ## Two files side by side -/

section

variable {src₁ src₂ : Source} {fin pos pos' : Nat} {s s' : State}

/-- Two files agree behind their stamps, and the instructions that are performed in the first one have
no parameter records. -/
structure Restamped (src₁ src₂ : Source) : Prop where
  size : src₂.size = src₁.size
  rest : ∀ p, 3 ≤ p → src₁.rest p = src₂.rest p
  recordless : ∀ pos, Executed .qb70 src₁ pos → Instruction.Recordless src₁ pos

variable (h : Restamped src₁ src₂)
include h

theorem Restamped.step (hcourse : Course .qb70 src₁ fin pos s) (hlt : pos < fin)
    (hstep : (Instruction.step .qb70).run src₁ pos s = (.ok (), pos', s')) :
    (Instruction.step .qb71).run src₂ pos s = (.ok (), pos', s') := by
  obtain ⟨hpos, hsize⟩ := hcourse.le
  obtain ⟨w, hw, hperform⟩ := run_step_eq_ok.mp hstep
  have hrecordless := h.recordless pos ⟨fin, s, hcourse, hlt⟩
  have hperform' := Instruction.run_perform_qb71 hw hrecordless hperform
  rw [Source.natLE_congr (by decide) (h.rest pos hpos)] at hw
  have hsame := (respects_performed h.rest _ w).run_congr (h.rest _ (by omega)) hsize hperform'
  exact run_step_eq_ok.mpr ⟨w, hw, hsame.1⟩

/-- The instructions of a procedure are performed in the same way up to their end. -/
theorem Restamped.instructions (hcourse : Course .qb70 src₁ fin pos s)
    (hrun : (instructions .qb70 fin).run src₁ pos s = (.ok (), pos', s')) :
    (instructions .qb71 fin).run src₂ pos s = (.ok (), pos', s') ∧
      Course .qb70 src₁ fin pos' s' ∧ fin ≤ pos' := by
  obtain ⟨ops, htrace⟩ := run_instructions_eq_ok.mp hrun
  clear hrun
  induction htrace with
  | done hend => exact ⟨run_instructions_of_le hend src₂ _, hcourse, hend⟩
  | step hlt hw hperform _ ih =>
    have hstep := run_step_eq_ok.mpr ⟨_, hw, hperform⟩
    rw [run_instructions_step hlt (h.step hcourse hlt hstep)]
    exact ih (hcourse.step hlt hstep)

theorem Restamped.body {length : Nat} (hlength : src₁.natLE pos 2 = .ok length)
    (hcourse : Course .qb70 src₁ (pos + 2 + length) (pos + 2) s) (hpos : 3 ≤ pos)
    (hrun : (body .qb70).run src₁ pos s = (.ok (), pos', s')) :
    (body .qb71).run src₂ pos s = (.ok (), pos', s') ∧
      ∃ fin, Course .qb70 src₁ fin pos' s' ∧ fin ≤ pos' := by
  obtain ⟨length', hlength', hrun'⟩ := run_body_eq_ok.mp hrun
  cases hlength.symm.trans hlength'
  obtain ⟨hsame, hcourse', hend⟩ := h.instructions hcourse hrun'
  rw [Source.natLE_congr (by decide) (h.rest pos hpos)] at hlength
  exact ⟨run_body_eq_ok.mpr ⟨length, hlength, hsame⟩, _, hcourse', hend⟩

theorem Restamped.furtherProcedures (hcourse : Course .qb70 src₁ fin pos s) (hend : fin ≤ pos)
    (hrun : (furtherProcedures .qb70).run src₁ pos s = (.ok (), pos', s')) :
    (furtherProcedures .qb71).run src₂ pos s = (.ok (), pos', s') := by
  -- every procedure lies behind a trailer, so the rest of the file shrinks
  induction hd : src₁.size - pos using Nat.strongRecOn generalizing fin pos s with
  | _ d ih =>
    obtain ⟨hpos, hsize⟩ := hcourse.le
    by_cases hmore : pos + trailerSize < src₁.size
    · rw [run_furtherProcedures_of_lt hmore, nextProcedure_eq_head, bind_assoc] at hrun
      obtain ⟨_, pos₁, s₁, hhead, hrun⟩ := run_bind_eq_ok.mp hrun
      obtain ⟨_, pos₂, s₂, hbody, hrun⟩ := run_bind_eq_ok.mp hrun
      obtain ⟨length, hlength, hinstructions⟩ := run_body_eq_ok.mp hbody
      have hle := le_of_run hhead
      have hle' := le_of_run hbody
      have hhead' := (respects_procedureHead h.rest).run_congr (h.rest _ (by omega)) hsize hhead
      obtain ⟨hbody', fin', hcourse', hend'⟩ := h.body hlength
        (.enter hcourse hend hmore hhead hlength) (by omega) hbody
      rw [run_furtherProcedures_of_lt (by rwa [h.size]), nextProcedure_eq_head, bind_assoc,
        run_bind_ok hhead'.1, run_bind_ok hbody']
      rw [trailerSize] at hmore hle
      exact ih (src₁.size - pos₂) (by omega) hcourse' hend' hrun rfl
    · rw [run_furtherProcedures_of_le (Nat.not_lt.mp hmore)] at hrun
      rw [run_furtherProcedures_of_le (by rw [h.size]; exact Nat.not_lt.mp hmore), hrun]

theorem Restamped.file (hrun : (file .qb70).run src₁ 0 (.start .qb70) = (.ok (), pos', s')) :
    (file .qb71).run src₂ 0 (.start .qb71) = (.ok (), pos', s') := by
  rw [file_eq] at hrun ⊢
  obtain ⟨_, pos₁, s₁, hopening, hrun⟩ := run_bind_eq_ok.mp hrun
  obtain ⟨_, pos₂, s₂, hbody, hrun⟩ := run_bind_eq_ok.mp hrun
  obtain ⟨length, hlength, -⟩ := run_body_eq_ok.mp hbody
  have hcourse := Course.main hopening hlength
  obtain ⟨offset, hoffset, hpos, hs⟩ := (run_opening_eq_ok (by decide)).mp hopening
  have hthree : 3 ≤ Version.headerSize .qb70 - 2 := by decide
  rw [Source.natLE_congr (by decide) (h.rest _ hthree)] at hoffset
  have hopening' : (opening .qb71).run src₂ 0 (.start .qb71) = (.ok (), pos₁, s₁) :=
    (run_opening_eq_ok (by decide)).mpr ⟨offset, hoffset, hpos, hs⟩
  obtain ⟨hbody', fin, hcourse', hend⟩ := h.body hlength hcourse (by omega) hbody
  rw [run_bind_ok hopening', run_bind_ok hbody']
  exact h.furtherProcedures hcourse' hend hrun

end

end Decode

namespace Image

/-- The version of a file is known by the mark and the stamp. -/
theorem versionOf_eq_ok {src : Source} {v : Version} :
    versionOf src = .ok v ↔ src.natLE 0 1 = .ok mark ∧ src.natLE 1 2 = .ok v.stamp := by
  simp only [versionOf, bind, Except.bind]
  rcases src.natLE 0 1 with fault | first
  · simp
  by_cases hmark : first = mark
  · rcases src.natLE 1 2 with fault | stamp
    · simp [hmark]
    · simp only [hmark, ne_eq, not_true_eq_false, if_false, true_and, Except.ok.injEq,
        ← Version.ofStamp?_eq_some, pure, Except.pure]
      cases Version.ofStamp? stamp with
      | none => simp
      | some w => simp
  · simp [hmark]

theorem versionOf_withStamp {src : Source} {v w : Version} (h : versionOf src = .ok v) :
    versionOf (src.withStamp w.stamp) = .ok w := by
  obtain ⟨hmark, hstamp⟩ := versionOf_eq_ok.mp h
  have hsize : 3 ≤ src.size := Source.le_size_of_natLE hstamp
  refine versionOf_eq_ok.mpr ⟨?_, Source.natLE_withStamp hsize w.stamp_lt⟩
  rw [Source.natLE_zero_withStamp hsize, hmark]

theorem decodeAs_eq {v : Version} {src : Source} {pos : Nat} {s : Decode.State}
    (h : (Decode.file v).run src 0 (.start v) = (.ok (), pos, s)) :
    decodeAs v src = { version := v, state := s, failure := none } := by
  have hresult : (Decode.file v src 0 (.start v)).result = .ok () := congrArg (·.1) h
  have hstate : (Decode.file v src 0 (.start v)).state = s := congrArg (·.2.2) h
  simp only [decodeAs, hresult, hstate]

theorem run_file_of_failure {v : Version} {src : Source} (h : (decodeAs v src).failure = none) :
    ∃ pos, (Decode.file v).run src 0 (.start v) = (.ok (), pos, (decodeAs v src).state) := by
  refine ⟨(Decode.file v src 0 (.start v)).pos, ?_⟩
  rcases hresult : (Decode.file v src 0 (.start v)).result with fault | _
  · simp [decodeAs, hresult] at h
  · rw [Decode.run, hresult]
    rfl

/-- A file of version 7.0 that is decoded without a fault, and in which no instruction that is
performed has parameter records, has the same procedures and the same listing under the stamp of
version 7.1. -/
theorem decode_restamped {src : Source} {image : Image} (hdecode : decode src = .ok image)
    (hversion : image.version = .qb70) (hfailure : image.failure = none)
    (hrecordless : ∀ pos, Decode.Executed .qb70 src pos → Instruction.Recordless src pos) :
    ∃ image', decode (src.withStamp (Version.stamp .qb71)) = .ok image' ∧
      image'.version = .qb71 ∧ image'.failure = none ∧ image'.procedures = image.procedures ∧
      image'.print = image.print := by
  rw [decode] at hdecode
  rcases hknown : versionOf src with fault | v <;> rw [hknown] at hdecode
  · cases hdecode
  obtain rfl : decodeAs v src = image := Except.ok.inj hdecode
  obtain rfl : v = .qb70 := hversion
  have hsize : 3 ≤ src.size := Source.le_size_of_natLE (versionOf_eq_ok.mp hknown).2
  have hrestamped : Decode.Restamped src (src.withStamp (Version.stamp .qb71)) :=
    ⟨Source.size_withStamp hsize, fun p hp => (Source.rest_withStamp hsize hp).symm, hrecordless⟩
  obtain ⟨pos, hfile⟩ := run_file_of_failure hfailure
  refine ⟨decodeAs .qb71 (src.withStamp (Version.stamp .qb71)), ?_, ?_⟩
  · rw [decode, versionOf_withStamp hknown]
    rfl
  · rw [decodeAs_eq (hrestamped.file hfile)]
    exact ⟨rfl, rfl, rfl, rfl⟩

/-- A file of version 7.0 with a name and, on one line, the head of a `SUB` without parameters. -/
def plainSub : Source :=
  .ofBytes ([0xFC, 0x01, 0x01] ++ List.replicate 0x18 0 ++
    [0x05, 0x00, 0x00, 0x00, 0x00, 0x01, 0x41, 0x0C, 0x00, 0x00, 0x00, 0x76, 0x00, 0x00, 0x00, 0x00,
     0x00, 0x00, 0x00, 0x00, 0x00])

/-- The state once the header is read and the instructions at the given places are run. -/
def plainSubAt (places : List Nat) : Decode.State :=
  ((Decode.opening .qb70).run plainSub 0 (.start .qb70)).2.2.steps .qb70 plainSub places

theorem run_file_plainSub :
    (Decode.file .qb70).run plainSub 0 (.start .qb70) = (.ok (), 0x30, plainSubAt [0x24, 0x26]) := by
  have hbody : (Decode.body .qb70).run plainSub 0x22 (plainSubAt []) =
      (.ok (), 0x30, plainSubAt [0x24, 0x26]) := by
    rw [Decode.body, Decode.run_bind_ok (by rfl), Decode.run_bind_ok (by rfl)]
    iterate 2 rw [Decode.run_instructions_step (by decide) (by rfl)]
    rw [Decode.run_instructions_of_le (by decide)]
    rfl
  exact (Decode.run_bind_ok hbody).trans (Decode.run_furtherProcedures_of_le (by decide) _ _)

/-- Only at one place is there a word with one of the opcodes that can have parameter records. -/
theorem recordless_plainSub (pos : Nat) : Instruction.Recordless plainSub pos := by
  intro word hword hcode
  have honly : ∀ p < 0x2F, Bytes.toNatLE (plainSub.slice p 2) % 1024 ∈ Instruction.recordOpcodes →
      p = 0x26 := by
    decide
  have hle := Source.le_size_of_natLE hword
  have hsize : plainSub.size = 0x30 := rfl
  rw [Source.natLE, Source.exactly, if_pos hle] at hword
  cases hword
  obtain rfl := honly pos (by omega) hcode
  exact ⟨0, rfl, .inl rfl⟩

/-- The procedure is the same in both versions. -/
theorem decode_plainSub_restamped :
    ∃ image', decode (plainSub.withStamp 0x0102) = .ok image' ∧
      image'.procedures = (plainSubAt [0x24, 0x26]).program.procedures := by
  have himage : decodeAs .qb70 plainSub =
      { version := .qb70, state := plainSubAt [0x24, 0x26], failure := none } :=
    decodeAs_eq run_file_plainSub
  have hdecode : decode plainSub = .ok (decodeAs .qb70 plainSub) := rfl
  obtain ⟨image', hdecode', -, -, hprocedures, -⟩ := decode_restamped hdecode rfl
    (by rw [himage]) fun pos _ => recordless_plainSub pos
  rw [himage] at hprocedures
  exact ⟨image', hdecode', hprocedures⟩

end Image

end SavedBasic
