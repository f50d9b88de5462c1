import SavedBasic.Instruction

/-!
# Where versions differ

Opcodes depend on the version in a few places only: the numbers of the built-in types, what came with
version 7.0, the word that parameter records have from version 7.1 on, what came with the last version,
and one opcode of arrays that version 4.0 uses for two purposes. Two versions that number the types in
the same way and lie on the same side of these changes perform all opcodes in the same way.
-/

namespace SavedBasic

open Decode

namespace Version

theorem stamp_lt (v : Version) : v.stamp < 65536 := by
  cases v <;> decide

theorem ofStamp?_stamp (v : Version) : ofStamp? v.stamp = some v := by
  cases v <;> decide

/-- A version is known by its stamp. -/
theorem ofStamp?_eq_some {stamp : Nat} {v : Version} : ofStamp? stamp = some v ↔ stamp = v.stamp := by
  constructor
  · intro h
    have hfound := List.find?_some h
    exact (beq_iff_eq.mp hfound).symm
  · rintro rfl
    exact ofStamp?_stamp v

end Version

/-- The versions number the built-in types in the same way, and only what belongs to version 4.0 or to
parameter records can lie between them. -/
structure Version.Alike (v w : Version) : Prop where
  scalars : v.scalars = w.scalars
  atLeast_qb70 : v.atLeast .qb70 = w.atLeast .qb70
  atLeast_vbdos : v.atLeast .vbdos = w.atLeast .vbdos
  eq_vbdos : v = .vbdos ↔ w = .vbdos

theorem Version.alike_qb40_qb45 : Alike .qb40 .qb45 :=
  ⟨rfl, rfl, rfl, by decide⟩

theorem Version.alike_qb70_qb71 : Alike .qb70 .qb71 :=
  ⟨rfl, rfl, rfl, by decide⟩

variable {v w : Version}

namespace Version.Alike

theorem scalar (h : Alike v w) : v.scalar = w.scalar := by
  funext index
  rw [Version.scalar, Version.scalar, h.scalars]

theorem lastScalar (h : Alike v w) : v.lastScalar = w.lastScalar := by
  rw [Version.lastScalar, Version.lastScalar, h.scalars]

theorem identifierOf (h : Alike v w) : identifierOf v = identifierOf w := by
  funext type
  simp only [Decode.identifierOf, h.scalar]

theorem dataType (h : Alike v w) : dataType v = dataType w := by
  funext index
  simp only [Decode.dataType, h.scalar, h.lastScalar]

end Version.Alike

namespace Instruction

/-- The opcodes with parameter records. -/
def recordOpcodes : List Nat :=
  [0x0044, 0x0045, 0x0058, 0x0076]

/-- The opcode of arrays that version 4.0 uses in declarations and elsewhere. -/
def arrayOpcode : Nat := 0x0010

theorem element_congr (h : v.Alike w) : element v = element w := by
  funext type
  simp only [element, h.identifierOf]

theorem declaredArray_congr (h : v.Alike w) : declaredArray v = declaredArray w := by
  funext type
  simp only [declaredArray, h.identifierOf]

theorem fieldType_congr (h : v.Alike w) : fieldType v = fieldType w := by
  simp only [fieldType, h.dataType]

theorem errorTarget_congr (h : v.Alike w) : errorTarget v = errorTarget w := by
  simp only [errorTarget, h.atLeast_qb70]

theorem eraseArrays_congr (h : v.Alike w) : eraseArrays v = eraseArrays w := by
  simp only [eraseArrays, h.atLeast_qb70]

theorem convert_congr (h : v.Alike w) : convert v = convert w := by
  funext type
  simp only [convert, h.scalar]

theorem flaggedName_congr (h : v.Alike w) : flaggedName v = flaggedName w := by
  funext width check
  simp only [flaggedName, h.scalar]

section

variable (h : v.Alike w) (hextra : v.atLeast .qb71 = w.atLeast .qb71)
include h hextra

theorem declaredParameter_congr : declaredParameter v = declaredParameter w := by
  simp only [declaredParameter, skipExtraWord, h.dataType, hextra]

theorem headerParameter_congr : headerParameter v = headerParameter w := by
  simp only [headerParameter, skipExtraWord, h.dataType, hextra]

theorem functionParameter_congr : functionParameter v = functionParameter w := by
  simp only [functionParameter, skipExtraWord, h.scalar, hextra]

theorem declareProcedure_congr : declareProcedure v = declareProcedure w := by
  simp only [declareProcedure, flaggedName_congr h, declaredParameter_congr h hextra]

theorem procedureHeader_congr : procedureHeader v = procedureHeader w := by
  funext kind name
  simp only [procedureHeader, headerParameter_congr h hextra, h.atLeast_vbdos]

end

/-! ## The tables of opcodes -/

theorem always_apply (action : Decode Unit) (v : Version) : always action v = fun _ => action := rfl

theorem storage_congr (h : v.Alike w) : ∀ entry ∈ storage,
    (entry.1 = arrayOpcode → (v = .qb40 ↔ w = .qb40)) → entry.2 v = entry.2 w := by
  simp only [storage, List.forall_mem_cons, List.not_mem_nil, false_implies, implies_true, and_true]
  and_intros
  all_goals
    intro harray
    simp only [h.identifierOf, element_congr h, declaredArray_congr h]
  -- what is left is the opcode that asks for the version itself
  simp only [harray rfl]

theorem declarations_congr (h : v.Alike w) : ∀ entry ∈ declarations, entry.2 v = entry.2 w := by
  simp only [declarations, always_apply, List.forall_mem_cons, List.not_mem_nil, false_implies,
    implies_true, and_true, h.dataType, h.scalar, fieldType_congr h]

theorem procedures_congr (h : v.Alike w) : ∀ entry ∈ procedures,
    (entry.1 ∈ recordOpcodes → v.atLeast .qb71 = w.atLeast .qb71) → entry.2 v = entry.2 w := by
  simp only [procedures, always_apply, List.forall_mem_cons, List.not_mem_nil, false_implies,
    implies_true, and_true, true_and]
  and_intros
  all_goals
    intro hrecord
    have hextra := hrecord (by decide)
    simp only [flaggedName_congr h, declareProcedure_congr h hextra, procedureHeader_congr h hextra,
      functionParameter_congr h hextra, h.eq_vbdos]

theorem control_congr (h : v.Alike w) : ∀ entry ∈ control, entry.2 v = entry.2 w := by
  simp only [control, caseCompare, withOperand, forLoop, onValue, always_apply, List.forall_mem_cons,
    List.not_mem_nil, false_implies, implies_true, and_true, errorTarget_congr h]

theorem input_congr (h : v.Alike w) : ∀ entry ∈ input, entry.2 v = entry.2 w := by
  simp only [input, always_apply, List.forall_mem_cons, List.not_mem_nil, false_implies, implies_true,
    and_true, eraseArrays_congr h]

theorem operators_congr (h : v.Alike w) : ∀ entry ∈ operators, entry.2 v = entry.2 w := by
  simp only [operators, binary, wrap, always_apply, List.forall_mem_append, List.forall_mem_map,
    List.forall_mem_cons, List.not_mem_nil, false_implies, implies_true, and_true, convert_congr h]

/-- The other tables do not ask for the version. -/
theorem others_congr (v w : Version) :
    ∀ entry ∈ lines ++ events ++ output ++ files ++ graphics ++ objects ++ builtins,
      entry.2 v = entry.2 w := by
  simp only [lines, events, output, files, graphics, objects, builtins, List.forall_mem_append,
    List.forall_mem_map, List.forall_mem_cons, List.not_mem_nil, false_implies, implies_true, and_true,
    true_and]
  and_intros
  all_goals intros; rfl

/-- Versions that are alike perform an opcode in the same way, unless it is one of those that tell
them apart. -/
theorem handler_congr (h : v.Alike w) {code : Nat} {handler : Handler}
    (hmem : (code, handler) ∈ table) (harray : code = arrayOpcode → (v = .qb40 ↔ w = .qb40))
    (hrecord : code ∈ recordOpcodes → v.atLeast .qb71 = w.atLeast .qb71) :
    handler v = handler w := by
  have hothers := others_congr v w (code, handler)
  simp only [table, List.mem_append] at hmem hothers
  rcases hmem with (((((((((((hmem | hmem) | hmem) | hmem) | hmem) | hmem) | hmem) | hmem) | hmem) |
    hmem) | hmem) | hmem) | hmem
  all_goals first
    | exact hothers (by simp only [hmem, true_or, or_true])
    | exact storage_congr h _ hmem harray
    | exact declarations_congr h _ hmem
    | exact procedures_congr h _ hmem hrecord
    | exact control_congr h _ hmem
    | exact input_congr h _ hmem
    | exact operators_congr h _ hmem

end Instruction

end SavedBasic
