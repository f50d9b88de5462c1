import SavedBasic.Proofs.Emission
import SavedBasic.Proofs.VersionDifferences

/-!
# Version 4.0 in the words of version 4.5

Every instruction word of version 4.0, but for the two that mark declarations as `DIM`, has a word of
version 4.5 that does the same. The opcodes of arrays have two: version 4.0 has one opcode for an array
that is declared and for an element of it, and looks at the current statement to tell them apart.
-/

namespace SavedBasic

namespace Instruction

open Decode

/-! ## The translation of words -/

/-- The opcode of array elements. -/
def elementOpcode : Nat := 0x000E

/-- A word whose opcode does not exist in version 4.5. -/
def noInstruction : Nat := 0x03FF

/-- The word of version 4.5 for a word of version 4.0; the opcodes of arrays have one for statements
that declare variables of elsewhere, and another one for all other statements. -/
def renumber (elsewhere : Bool) (word : Nat) : Nat :=
  match operation .qb40 word with
  | .common code parameter =>
    (if code = arrayOpcode ∧ !elsewhere then elementOpcode else code) + parameter % 64 * 1024
  | _ => noInstruction

/-- The opcodes that ask for their parameter. -/
def parameterOpcodes : List Nat :=
  [0x0000, 0x000B, 0x000C, 0x000D, 0x000E, 0x000F, 0x0010, 0x0011, 0x0012, 0x0013, 0x0014, 0x0108,
   0x0164, 0x0196]

/-- To all other opcodes the parameter makes no difference. -/
theorem handler_parameter (v : Version) (p q : Nat) :
    ∀ entry ∈ table, entry.1 ∉ parameterOpcodes → entry.2 v p = entry.2 v q := by
  simp only [table, lines, storage, declarations, procedures, control, events, output, input, files,
    graphics, operators, objects, builtins, List.forall_mem_append, List.forall_mem_map,
    List.forall_mem_cons, List.not_mem_nil, false_implies, implies_true, and_true, true_and]
  and_intros
  all_goals
    intros
    first
      | rfl
      | exact (‹_ ∉ parameterOpcodes› (by decide)).elim

/-- What renumbering needs to know of a range: its opcodes exist in version 4.5, those that ask for
their parameter get one of six bits, and only one range makes the opcode of arrays. -/
def Sound (first last target : Nat) : Renumbering → Prop
  | .shift =>
    target + (last - first) ≤ Version.lastOpcode .qb45 ∧
      ∀ code ∈ parameterOpcodes, target ≤ code → code ≤ target + (last - first) →
        code = 0 ∧ first = 0
  | .spread =>
    target ≤ Version.lastOpcode .qb45 ∧ last - first < 64 ∧
      (target = arrayOpcode → first = 0x029 ∧ last = 0x02E)
  | .fixed parameter =>
    target ≤ Version.lastOpcode .qb45 ∧ parameter < 64 ∧ target ≠ arrayOpcode

instance (first last target : Nat) : (way : Renumbering) → Decidable (Sound first last target way)
  | .shift => inferInstanceAs (Decidable (_ ∧ _))
  | .spread => inferInstanceAs (Decidable (_ ∧ _))
  | .fixed _ => inferInstanceAs (Decidable (_ ∧ _))

theorem sound_oldRanges :
    ∀ range ∈ oldRanges, Sound range.1 range.2.1 range.2.2.1 range.2.2.2 := by
  decide

/-- What a word of version 4.0 asks for in the common numbering. -/
structure Renumbered (word code parameter : Nat) : Prop where
  le_last : code ≤ Version.lastOpcode .qb45
  parameter_lt : code ∈ parameterOpcodes → (word % 512 = 0 → word / 512 < 64) → parameter < 64
  array : code = arrayOpcode → 0x029 ≤ word % 512 ∧ word % 512 ≤ 0x02E

theorem operation_qb40 {word : Nat} (h : word % 512 ≤ Version.lastOpcode .qb40) :
    operation .qb40 word = oldOperation (word % 512) (word / 512) := by
  rw [operation, codeOf, if_pos rfl, if_neg (Nat.not_lt.mpr h), if_pos rfl]

theorem renumbered_of_operation {word code parameter : Nat}
    (h : operation .qb40 word = .common code parameter) : Renumbered word code parameter := by
  have hlast : word % 512 ≤ Version.lastOpcode .qb40 := by
    refine Nat.le_of_not_lt fun hlt => ?_
    rw [operation, codeOf, if_pos rfl, if_pos hlt] at h
    cases h
  rw [operation_qb40 hlast, oldOperation] at h
  split at h
  · cases h
  split at h
  · cases h
  split at h
  all_goals try cases h
  all_goals
    rename_i hfind
    have hsound := sound_oldRanges _ (List.mem_of_find?_eq_some hfind)
    have hrange := List.find?_some hfind
    dsimp only [Sound] at hsound
    simp only [Bool.and_eq_true, decide_eq_true_eq] at hrange
  · obtain ⟨hle, hparameter⟩ := hsound
    refine ⟨by omega, fun hmem hindent => ?_, fun harray => ?_⟩
    · obtain ⟨hcode, hfirst⟩ := hparameter _ hmem (by omega) (by omega)
      exact hindent (by omega)
    · obtain ⟨hcode, -⟩ := hparameter arrayOpcode (by decide) (by omega) (by omega)
      cases hcode
  · obtain ⟨hle, hlt, harray⟩ := hsound
    refine ⟨hle, fun _ _ => by omega, fun htarget => ?_⟩
    obtain ⟨rfl, rfl⟩ := harray htarget
    exact hrange
  · obtain ⟨hle, hlt, harray⟩ := hsound
    exact ⟨hle, fun _ _ => hlt, fun htarget => absurd htarget harray⟩

/-- Only two words of version 4.0 have no counterpart. -/
theorem operation_qb40_cases {word : Nat} (hdim : word % 512 ≠ 0x042)
    (hdimArray : word % 512 ≠ 0x044) :
    operation .qb40 word = .undefined ∨
      ∃ code parameter, operation .qb40 word = .common code parameter := by
  by_cases hlast : word % 512 ≤ Version.lastOpcode .qb40
  · rw [operation_qb40 hlast, oldOperation, if_neg hdim, if_neg hdimArray]
    split <;> simp
  · rw [operation, codeOf, if_pos rfl, if_pos (Nat.lt_of_not_le hlast)]
    exact .inl rfl

/-- The six opcodes of arrays, one for each type. -/
theorem operation_array {word : Nat} (hfirst : 0x029 ≤ word % 512) (hlast : word % 512 ≤ 0x02E) :
    operation .qb40 word = .common arrayOpcode (word % 512 - 0x029) := by
  rw [operation_qb40 (Nat.le_trans hlast (by decide))]
  generalize word % 512 = code at hfirst hlast
  obtain rfl | rfl | rfl | rfl | rfl | rfl : code = 0x029 ∨ code = 0x02A ∨ code = 0x02B ∨
      code = 0x02C ∨ code = 0x02D ∨ code = 0x02E := by
    omega
  all_goals rfl

theorem renumber_array {word : Nat} (hfirst : 0x029 ≤ word % 512) (hlast : word % 512 ≤ 0x02E)
    (elsewhere : Bool) :
    renumber elsewhere word % 1024 = if elsewhere then arrayOpcode else elementOpcode := by
  rw [renumber, operation_array hfirst hlast]
  cases elsewhere <;> simp [arrayOpcode, elementOpcode, Nat.add_mul_mod_self_right]

theorem renumber_of_not_array {word : Nat} (h : ¬(0x029 ≤ word % 512 ∧ word % 512 ≤ 0x02E))
    (elsewhere elsewhere' : Bool) : renumber elsewhere word = renumber elsewhere' word := by
  unfold renumber
  split
  · rename_i code parameter hop
    have hcode : code ≠ arrayOpcode := fun hcode => h ((renumbered_of_operation hop).array hcode)
    simp only [hcode, false_and, if_false]
  · rfl

theorem renumber_lt (elsewhere : Bool) (word : Nat) : renumber elsewhere word < 65536 := by
  unfold renumber
  split
  · rename_i code parameter hop
    have hle : code ≤ 0x017D := (renumbered_of_operation hop).le_last
    simp only [elementOpcode]
    split <;> omega
  · decide

/-! ## The simulation -/

/-- Faults of the same kind; those of opcodes that do not exist may name different ones. -/
inductive SameKind : Fault → Fault → Prop where
  | refl (fault : Fault) : SameKind fault fault
  | invalidOpcode (code code' : Nat) : SameKind (.invalidOpcode code) (.invalidOpcode code')

/-- Two instructions end in the same way: both succeed, or both fail with faults of the same kind,
and they leave the same position and the same state. -/
inductive SameEnd : Except Fault Unit × Nat × State → Except Fault Unit × Nat × State → Prop where
  | ok (pos : Nat) (s : State) : SameEnd (.ok (), pos, s) (.ok (), pos, s)
  | error {fault fault' : Fault} (h : SameKind fault fault') (pos : Nat) (s : State) :
    SameEnd (.error fault, pos, s) (.error fault', pos, s)

theorem SameEnd.of_eq {a b : Except Fault Unit × Nat × State} (h : a = b) : SameEnd a b := by
  subst h
  obtain ⟨fault | value, pos, s⟩ := a
  · exact .error (.refl fault) pos s
  · exact .ok pos s

/-- In version 4.0 the opcode of arrays declares an array or takes an element of it. -/
theorem run_array_qb40 {s : State} {st : Statement} (hlast : s.last? = some st) {handler : Handler}
    (hlookup : table.lookup arrayOpcode = some handler) (type : Nat) (src : Source) (pos : Nat) :
    (handler .qb40 type).run src pos s =
      (if declaresElsewhere st then declaredArray .qb40 type else element .qb40 type).run src pos s := by
  cases hlookup
  dsimp only
  rw [if_pos rfl, run_bind, run_lastStatement, hlast]

/-- The opcodes of arrays do the same in both versions. -/
theorem sameEnd_array {word parameter : Nat} {s : State} {st : Statement}
    (hop : operation .qb40 word = .common arrayOpcode parameter) (hparameter : parameter < 64)
    (hlast : s.last? = some st) (src : Source) (pos : Nat) :
    SameEnd ((perform .qb40 word).run src pos s)
      ((perform .qb45 (renumber (declaresElsewhere st) word)).run src pos s) := by
  have hrenumber : renumber (declaresElsewhere st) word =
      (if declaresElsewhere st then arrayOpcode else elementOpcode) + parameter * 1024 := by
    rw [renumber, hop]
    cases declaresElsewhere st <;> simp [Nat.mod_eq_of_lt hparameter]
  have hperform : perform .qb45 (renumber (declaresElsewhere st) word) =
      if declaresElsewhere st then declaredArray .qb45 parameter else element .qb45 parameter := by
    rw [hrenumber]
    split
    · exact (perform_eq (by decide) rfl (by decide) (by decide)).trans (if_neg (by decide))
    · exact perform_eq (by decide) rfl (by decide) (by decide)
  apply SameEnd.of_eq
  rw [perform_of_lookup hop rfl, run_array_qb40 hlast rfl, hperform,
    declaredArray_congr Version.alike_qb40_qb45, element_congr Version.alike_qb40_qb45]

/-- A word of version 4.0 and its translation do the same. -/
theorem sameEnd_renumber {word : Nat} (hdim : word % 512 ≠ 0x042) (hdimArray : word % 512 ≠ 0x044)
    (hindent : word % 512 = 0 → word / 512 < 64) {s : State} {st : Statement}
    (hlast : s.last? = some st) (src : Source) (pos : Nat) :
    SameEnd ((perform .qb40 word).run src pos s)
      ((perform .qb45 (renumber (declaresElsewhere st) word)).run src pos s) := by
  obtain hop | ⟨code, parameter, hop⟩ := operation_qb40_cases hdim hdimArray
  · have hnone : renumber (declaresElsewhere st) word = noInstruction := by
      rw [renumber, hop]
    rw [hnone, perform, hop]
    exact .error (.invalidOpcode _ _) pos s
  · obtain ⟨hle, hparameter, -⟩ := renumbered_of_operation hop
    by_cases harray : code = arrayOpcode
    · subst harray
      exact sameEnd_array hop (hparameter (by decide) hindent) hlast src pos
    have hrenumber : renumber (declaresElsewhere st) word = code + parameter % 64 * 1024 := by
      rw [renumber, hop]
      simp only [harray, false_and, if_false]
    have hop' : operation .qb45 (renumber (declaresElsewhere st) word) =
        .common code (parameter % 64) := by
      rw [hrenumber]
      exact operation_word (by decide) _ (Nat.lt_of_le_of_lt hle (by decide)) hle
    cases hlookup : table.lookup code with
    | none =>
      rw [perform_of_lookup_none hop hlookup, perform_of_lookup_none hop' hlookup]
      exact .error (.invalidOpcode _ _) pos s
    | some handler =>
      have hmem := mem_of_lookup_eq_some hlookup
      have hversion : handler .qb40 = handler .qb45 :=
        handler_congr Version.alike_qb40_qb45 hmem (fun h => absurd h harray) fun _ => rfl
      have hsix : handler .qb45 parameter = handler .qb45 (parameter % 64) := by
        by_cases hcode : code ∈ parameterOpcodes
        · rw [Nat.mod_eq_of_lt (hparameter hcode hindent)]
        · exact handler_parameter _ _ _ _ hmem hcode
      rw [perform_of_lookup hop hlookup, perform_of_lookup hop' hlookup, hversion, hsix]
      exact .of_eq rfl

/-- Decoding version 4.0 is simulated by decoding version 4.5. The words are translated one by one;
only for the opcodes of arrays does the translation ask whether the current statement declares
variables that exist elsewhere. -/
theorem old_words_renumbered {word : Nat} (hdim : word % 512 ≠ 0x042)
    (hdimArray : word % 512 ≠ 0x044) (hindent : word % 512 = 0 → word / 512 < 64) :
    (∀ src pos s st, s.last? = some st →
      SameEnd ((perform .qb40 word).run src pos s)
        ((perform .qb45 (renumber (declaresElsewhere st) word)).run src pos s)) ∧
    (∀ elsewhere, renumber elsewhere word < 65536) ∧
    (0x029 ≤ word % 512 ∧ word % 512 ≤ 0x02E →
      renumber true word % 1024 = 0x0010 ∧ renumber false word % 1024 = 0x000E) ∧
    (¬(0x029 ≤ word % 512 ∧ word % 512 ≤ 0x02E) → renumber true word = renumber false word) := by
  refine ⟨fun src pos s st hlast => sameEnd_renumber hdim hdimArray hindent hlast src pos,
    fun elsewhere => renumber_lt elsewhere word, ?_, fun h => renumber_of_not_array h true false⟩
  rintro ⟨hfirst, hlast⟩
  exact ⟨renumber_array hfirst hlast true, renumber_array hfirst hlast false⟩

/-- The operands of an array without indices, and its name behind them. -/
def arrayOperands : Source :=
  .ofBytes [0x00, 0x00, 0x00, 0x00, 0x00, 0x00, 0x00, 0x01, 0x41]

/-- A line on which nothing stands, with the names behind the operands of the array. -/
def emptyLine : State :=
  { State.start .qb40 with
    headerSize := 4
    program := { earlier := [], current := { Procedure.start none false with lines := [.start none 0] } } }

/-- On an empty line the word of an array of integers takes an element, in both versions. -/
theorem integer_array_renumbered :
    ((perform .qb40 0x002A).run arrayOperands 0 emptyLine).1 = .ok () ∧
      renumber false 0x002A = 0x040E ∧
      SameEnd ((perform .qb40 0x002A).run arrayOperands 0 emptyLine)
        ((perform .qb45 0x040E).run arrayOperands 0 emptyLine) := by
  have h := @old_words_renumbered 0x002A (by decide) (by decide) (by decide)
  exact ⟨rfl, rfl, h.1 arrayOperands 0 emptyLine .empty rfl⟩

end Instruction

end SavedBasic
