import SavedBasic.Assembly
import SavedBasic.Proofs.Changes

/-!
# Instructions that were written are performed

An instruction is written as a word with its opcode and its parameter, and its operands behind it.
From version 4.5 on, performing the instructions at the place where one was written comes down to
its handler, which then reads the operands back: numbers as far as they fit, strings whole, and
names as the file's identifier table has them.

Each opcode stands in the table of opcodes once, so an entry of the table is the handler of its
opcode.
-/

namespace SavedBasic

namespace Instruction

/-! ## Every opcode has one handler -/

/-- Whether numbers are all different and none of them is a bit that has been seen. -/
def distinct : List Nat → (seen : Nat) → Bool
  | [], _ => true
  | n :: rest, seen => !seen.testBit n && distinct rest (seen ||| Nat.pow 2 n)

theorem distinct_iff (numbers : List Nat) (seen : Nat) :
    distinct numbers seen ↔ numbers.Nodup ∧ ∀ n ∈ numbers, seen.testBit n = false := by
  induction numbers generalizing seen with
  | nil => simp [distinct]
  | cons n rest ih =>
    have hbit (m : Nat) : (seen ||| Nat.pow 2 n).testBit m = false ↔
        seen.testBit m = false ∧ n ≠ m := by
      rw [Nat.testBit_or, Nat.pow_eq, Nat.testBit_two_pow, Bool.or_eq_false_iff,
        decide_eq_false_iff_not]
    rw [distinct, Bool.and_eq_true, Bool.not_eq_true', ih, List.nodup_cons, List.forall_mem_cons]
    simp only [hbit]
    constructor
    · rintro ⟨hn, hnodup, hrest⟩
      exact ⟨⟨fun hmem => (hrest n hmem).2 rfl, hnodup⟩, hn, fun m hm => (hrest m hm).1⟩
    · rintro ⟨⟨hmem, hnodup⟩, hn, hrest⟩
      exact ⟨hn, hnodup, fun m hm => ⟨hrest m hm, fun heq => hmem (heq ▸ hm)⟩⟩

/-- No opcode stands in the table twice. -/
theorem nodup_table : (table.map Prod.fst).Nodup :=
  ((distinct_iff (table.map Prod.fst) 0).mp (by decide +kernel)).1

theorem lookup_eq_some_of_nodup {code : Nat} {handler : Handler} {t : Table}
    (hnodup : (t.map Prod.fst).Nodup) (h : (code, handler) ∈ t) : t.lookup code = some handler := by
  induction t with
  | nil => cases h
  | cons entry t ih =>
    obtain ⟨code', handler'⟩ := entry
    rw [List.map_cons, List.nodup_cons] at hnodup
    rw [List.lookup_cons]
    rcases List.mem_cons.mp h with heq | hmem
    · cases heq
      rw [beq_self_eq_true]
    · have hne : (code == code') = false := by
        rw [beq_eq_false_iff_ne]
        rintro rfl
        exact hnodup.1 (List.mem_map.mpr ⟨(code, handler), hmem, rfl⟩)
      rw [hne]
      exact ih hnodup.2 hmem

/-- An entry of the table is the handler of its opcode. -/
theorem lookup_table {code : Nat} {handler : Handler} (h : (code, handler) ∈ table) :
    table.lookup code = some handler :=
  lookup_eq_some_of_nodup nodup_table h

/-- An instruction of the common numbering is performed by its handler. -/
theorem perform_of_lookup {v : Version} {word code parameter : Nat} {handler : Handler}
    (hop : operation v word = .common code parameter) (hlookup : table.lookup code = some handler) :
    perform v word = handler v parameter := by
  rw [perform, hop]
  dsimp only
  rw [hlookup]

/-- An opcode that does not exist fails, under the number that the version has for it. -/
theorem perform_of_lookup_none {v : Version} {word code parameter : Nat}
    (hop : operation v word = .common code parameter) (hlookup : table.lookup code = none) :
    perform v word = throw (.invalidOpcode (codeOf v word)) := by
  rw [perform, hop]
  dsimp only
  rw [hlookup]

/-- From version 4.5 on, a word is its opcode and its parameter. -/
theorem operation_of_le {v : Version} (hv : v ≠ .qb40) {word : Nat}
    (hlast : word % 1024 ≤ v.lastOpcode) :
    operation v word = .common (word % 1024) (word / 1024) := by
  rw [operation, codeOf, if_neg hv, if_neg hv, if_neg (Nat.not_lt.mpr hlast)]

theorem operation_word {v : Version} (hv : v ≠ .qb40) {code : Nat} (parameter : Nat)
    (hcode : code < 1024) (hlast : code ≤ v.lastOpcode) :
    operation v (code + parameter * 1024) = .common code parameter := by
  have hmod : (code + parameter * 1024) % 1024 = code := by omega
  have hdiv : (code + parameter * 1024) / 1024 = parameter := by omega
  rw [operation_of_le hv (by rwa [hmod]), hmod, hdiv]

/-- The handler of an opcode is what it does, in every version from 4.5 on that has the opcode. -/
theorem perform_eq {v : Version} (hv : v ≠ .qb40) {code parameter : Nat} {handler : Handler}
    (hlookup : table.lookup code = some handler) (hcode : code < 1024)
    (hlast : code ≤ v.lastOpcode) : perform v (code + parameter * 1024) = handler v parameter :=
  perform_of_lookup (operation_word hv parameter hcode hlast) hlookup

end Instruction

/-! ## Operands without names -/

namespace Assembly

/-- Whether an operand is written through the identifier table. -/
def Operand.isName : Operand → Bool
  | name _ | line _ => true
  | _ => false

/-- The bytes of an operand that is no name. -/
def Operand.bytes : Operand → Bytes
  | byte n => Bytes.u8 n
  | word n => Bytes.u16 n
  | dword n => Bytes.u32 n
  | qword n => Bytes.u64 n
  | text bytes => Bytes.packed bytes
  | raw bytes => bytes
  | name _ | line _ => []

/-- The bytes of operands that are no names. -/
def operandBytes (operands : List Operand) : Bytes :=
  operands.flatMap Operand.bytes

/-- The bytes of an instruction without names. -/
def Instr.bytes (i : Instr) : Bytes :=
  Bytes.u16 (instructionWord i.code i.parameter) ++ operandBytes i.operands

/-- The bytes of instructions without names. -/
def codeBytes (code : List Instr) : Bytes :=
  code.flatMap Instr.bytes

theorem codeBytes_append (code code' : List Instr) :
    codeBytes (code ++ code') = codeBytes code ++ codeBytes code' :=
  List.flatMap_append

theorem codeBytes_cons (i : Instr) (code : List Instr) :
    codeBytes (i :: code) = i.bytes ++ codeBytes code :=
  List.flatMap_cons

theorem writeOperands_eq {operands : List Operand} (h : ∀ o ∈ operands, o.isName = false)
    (area : SymbolArea) : writeOperands operands area = .ok (operandBytes operands, area) := by
  induction operands with
  | nil => rfl
  | cons o operands ih =>
    rw [List.forall_mem_cons] at h
    have hfirst : o.write area = .ok (o.bytes, area) := by
      cases o <;> first | rfl | cases h.1
    rw [writeOperands, hfirst]
    change (writeOperands operands area >>= _) = _
    rw [ih h.2]
    rfl

/-- Writing instructions without names always succeeds and leaves the identifier table alone. -/
theorem write_eq {code : List Instr} (h : ∀ i ∈ code, ∀ o ∈ i.operands, o.isName = false)
    (area : SymbolArea) : write code area = .ok (codeBytes code, area) := by
  induction code with
  | nil => rfl
  | cons i code ih =>
    rw [List.forall_mem_cons] at h
    have hfirst : i.write area = .ok (i.bytes, area) := by
      rw [Instr.write, writeOperands_eq h.1]
      rfl
    rw [write, hfirst]
    change (write code area >>= _) = _
    rw [ih h.2]
    rfl

end Assembly

/-! ## Operands are read back -/

namespace Decode

theorem run_word_holds {src : Source} {pos n : Nat} (hn : n < 65536) (h : src.Holds pos (Bytes.u16 n))
    (s : State) : word.run src pos s = (.ok n, pos + 2, s) :=
  run_word_ok (h.natLE_u16 hn) s

theorem run_dword_holds {src : Source} {pos n : Nat} (hn : n < 0x100000000)
    (h : src.Holds pos (Bytes.u32 n)) (s : State) : dword.run src pos s = (.ok n, pos + 4, s) :=
  run_number_ok (h.natLE_u32 hn) s

/-- A packed string is read back whole, with the byte that fills it up. -/
theorem run_packed_holds {src : Source} {pos : Nat} {text : Bytes} (hn : text.length < 65536)
    (h : src.Holds pos (Bytes.packed text)) (s : State) :
    packed.run src pos s = (.ok text, pos + (Bytes.packed text).length, s) := by
  have hwidth : (Bytes.u16 text.length).length = 2 := Bytes.length_ofIntLE 2 _
  rw [Bytes.packed, Source.holds_append, Source.holds_append, List.length_append, hwidth] at h
  obtain ⟨⟨hlength, htext⟩, hfill⟩ := h
  have hfillRun := run_bytes_holds hfill s
  rw [List.length_replicate, ← Nat.add_assoc] at hfillRun
  rw [packed, run_bind_ok (run_word_holds hn hlength s), run_bind_ok (run_bytes_holds htext s),
    run_bind_ok hfillRun, run_pure, Bytes.packed, List.length_append, List.length_append, hwidth,
    List.length_replicate, ← Nat.add_assoc, ← Nat.add_assoc]

/-- The name that an offset and the number of a type stand for in a version; zero is no type. -/
inductive Named (v : Version) (names : Nat → Except Fault Identifier) (type offset : Nat) :
    Identifier → Prop where
  /-- the name as it stands in the identifier table -/
  | plain {id : Identifier} (hoffset : offset < 65536) (htype : type = 0) (h : names offset = .ok id) :
    Named v names type offset id
  /-- the name with the suffix of a built-in type -/
  | suffixed {id : Identifier} {scalar : Scalar} (hoffset : offset < 65536)
    (htype : v.scalar type = .ok scalar) (h : names offset = .ok id) :
    Named v names type offset (id.withSuffix scalar)

theorem scalar_ok {v : Version} {type : Nat} {scalar : Scalar} (h : v.scalar type = .ok scalar) :
    1 ≤ type ∧ type < 64 := by
  unfold Version.scalar at h
  split at h
  · rename_i heq
    split at h
    · rename_i hle
      have hlt := (List.getElem?_eq_some_iff.mp heq).1
      have hlength : v.scalars.length ≤ 7 := by cases v <;> decide
      omega
    · cases h
  · cases h

theorem Named.type_lt {v : Version} {names : Nat → Except Fault Identifier} {type offset : Nat}
    {id : Identifier} (h : Named v names type offset id) : type < 64 := by
  cases h with
  | plain _ htype _ => omega
  | suffixed _ htype _ => exact (scalar_ok htype).2

/-- A name is read back with the suffix of its type. -/
theorem Named.run_identifierOf {v : Version} {type offset : Nat} {id : Identifier} {src : Source}
    {s : State} (h : Named v (s.identifierAt src) type offset id) {pos : Nat}
    (hsrc : src.Holds pos (Bytes.u16 offset)) :
    (identifierOf v type).run src pos s = (.ok id, pos + 2, s.noting src offset) := by
  have hread : ∀ id, s.identifierAt src offset = .ok id → offset < 65536 →
      identifier.run src pos s = (.ok id, pos + 2, s.noting src offset) := by
    intro id hid hoffset
    rw [identifier, run_bind_ok (run_word_holds hoffset hsrc s), run_identifierAt, hid]
  cases h with
  | plain hoffset htype hid =>
    rw [identifierOf, run_bind_ok (hread _ hid hoffset), if_pos htype, run_pure]
  | suffixed hoffset htype hid =>
    have hne : type ≠ 0 := by have := (scalar_ok htype).1; omega
    rw [identifierOf, run_bind_ok (hread _ hid hoffset), if_neg hne, run_bind, run_given, htype]
    rfl

/-- Where an instruction was written, its handler is run behind the instruction word. -/
theorem run_step_written {v : Version} (hv : v ≠ .qb40) {code parameter : Nat}
    {operands : List Assembly.Operand} {handler : Instruction.Handler}
    (hlookup : Instruction.table.lookup code = some handler) (hcode : code < 1024)
    (hlast : code ≤ v.lastOpcode) (hparameter : parameter < 64) {src : Source} {pos : Nat}
    (hsrc : src.Holds pos (Assembly.Instr.bytes ⟨code, parameter, operands⟩)) (s : State) :
    (Instruction.step v).run src pos s = (handler v parameter).run src (pos + 2) s := by
  have hword : Assembly.instructionWord code parameter = (code + parameter * 1024 : Nat) := by
    unfold Assembly.instructionWord
    omega
  rw [Assembly.Instr.bytes, Source.holds_append, hword] at hsrc
  rw [Instruction.step, run_bind_ok (run_word_holds (by omega) hsrc.1 s),
    Instruction.perform_eq hv hlookup hcode hlast]

theorem holds_operands {code parameter : Int} {operands : List Assembly.Operand} {src : Source}
    {pos : Nat} (hsrc : src.Holds pos (Assembly.Instr.bytes ⟨code, parameter, operands⟩)) :
    src.Holds (pos + 2) (Assembly.operandBytes operands) := by
  rw [Assembly.Instr.bytes, Source.holds_append] at hsrc
  have hwidth : (Bytes.u16 (Assembly.instructionWord code parameter)).length = 2 :=
    Bytes.length_ofIntLE 2 _
  rw [hwidth] at hsrc
  exact hsrc.2

end Decode

end SavedBasic
