import SavedBasic.Proofs.Cutting
import SavedBasic.Proofs.Emission

/-!
# Values are read back

Numbers of the four widths and strings are written one after another, and read again in the same
order. A `Datum` is what is written: an integer of any size, of which its field keeps as much as it has
room for, or a string whose length fits into a word. Reading knows the kinds only. It gives back every
number, up to its width, and every string, and ends where the writing has ended.

A source that was cut is another matter: the end of the source is an error for a number, while a string
only gets shorter. `fixedReads` follows the reads of fixed width, among them those of the lengths of the
strings. Behind a string that was cut the position is that of the cut, and no number can be read there;
so the position is always the old one or the cut, and a read of fixed width gives what it gave before or
it fails. `min n pos` in the statements below is this position.
-/

namespace SavedBasic

open Decode

/-- A value to be written. -/
inductive Datum where
  /-- a byte -/
  | byte (n : Int)
  /-- a word -/
  | word (n : Int)
  /-- a double word -/
  | dword (n : Int)
  /-- a quadruple word -/
  | qword (n : Int)
  /-- a string, whose length has to fit into a word -/
  | text (bytes : Bytes) (fits : bytes.length ≤ 65535)

namespace Datum

/-- The kinds of values. -/
inductive Kind where
  /-- a byte -/
  | byte
  /-- a word -/
  | word
  /-- a double word -/
  | dword
  /-- a quadruple word -/
  | qword
  /-- a string -/
  | text

/-- A value that was read. -/
inductive Value where
  /-- a number -/
  | number (n : Nat)
  /-- a string -/
  | text (bytes : Bytes)

/-! ## Writing -/

/-- A value as an operand of an instruction. -/
def operand : Datum → Assembly.Operand
  | byte n => .byte n
  | word n => .word n
  | dword n => .dword n
  | qword n => .qword n
  | text bytes _ => .text bytes

/-- The bytes of a value. -/
def bytes (d : Datum) : Bytes :=
  d.operand.bytes

/-- The bytes of values one after another. -/
def record (data : List Datum) : Bytes :=
  Assembly.operandBytes (data.map operand)

theorem record_cons (d : Datum) (data : List Datum) : record (d :: data) = d.bytes ++ record data :=
  List.flatMap_cons

theorem writeOperands_record (data : List Datum) (area : SymbolArea) :
    Assembly.writeOperands (data.map operand) area = .ok (record data, area) := by
  refine Assembly.writeOperands_eq (fun o ho => ?_) area
  obtain ⟨d, -, rfl⟩ := List.mem_map.mp ho
  cases d <;> rfl

/-! ## Reading -/

namespace Kind

/-- Reads a value of a kind. -/
def read : Kind → Decode Value
  | byte => Value.number <$> Decode.byte
  | word => Value.number <$> Decode.word
  | dword => Value.number <$> Decode.dword
  | qword => Value.number <$> Decode.qword
  | text => Value.text <$> Decode.packed

/-- The width of the number that a value begins with: the number that it is, or the length of the
string. -/
def width : Kind → Nat
  | byte => 1
  | word => 2
  | dword => 4
  | qword => 8
  | text => 2

/-- What is left to read when the number in front has been read. -/
def finish : Kind → Nat → Decode Value
  | text, length => do
    let text ← Decode.bytes length
    let _ ← Decode.bytes (length % 2)
    return .text text
  | _, n => return .number n

/-- The number of bytes that are left to read when the number in front has been read. -/
def behind : Kind → Nat → Nat
  | text, length => length + length % 2
  | _, _ => 0

/-- Reading a value begins with a read of fixed width. -/
theorem read_eq (kind : Kind) : kind.read = number kind.width >>= kind.finish := by
  cases kind with
  | text =>
    simp only [read, packed, Decode.word, map_eq_pure_bind, bind_assoc, pure_bind]
    rfl
  | _ => exact map_eq_pure_bind _ _

theorem width_pos (kind : Kind) : 0 < kind.width := by
  cases kind <;> decide

/-- Behind the number in front nothing fails: the reading takes as much as there is. -/
theorem exists_run_finish (kind : Kind) (n : Nat) (src : Source) (pos : Nat) (s : State) :
    ∃ value, (kind.finish n).run src pos s =
      (.ok value, pos + (src.slice pos (kind.behind n)).length, s) := by
  cases kind with
  | text =>
    refine ⟨.text (src.slice pos n), ?_⟩
    rw [finish, run_bind_ok (run_bytes ..), run_bind_ok (run_bytes ..), run_pure, Nat.add_assoc,
      Source.length_slice_add]
    rfl
  | _ =>
    have hnothing : (src.slice pos 0).length = 0 := by rw [Source.length_slice, Nat.zero_min]
    exact ⟨.number n, congrArg (fun k => (Except.ok (Value.number n), pos + k, s)) hnothing.symm⟩

end Kind

/-- Reads values of the given kinds one after another. -/
def readAll (kinds : List Kind) : Decode (List Value) :=
  kinds.mapM Kind.read

/-- What the reads of fixed width give when values of the given kinds are read one after another: of
numbers and of the lengths of strings, up to the first that fails. They are the reads that the values
begin with, by `Kind.read_eq`. -/
def fixedReads (src : Source) : List Kind → Nat → State → List (Except Fault Nat)
  | [], _, _ => []
  | kind :: rest, pos, s =>
    ((number kind.width).run src pos s).1 ::
      match kind.read.run src pos s with
      | (.ok _, pos', s') => fixedReads src rest pos' s'
      | (.error _, _, _) => []

/-- The kind of a value. -/
def kind : Datum → Kind
  | byte _ => .byte
  | word _ => .word
  | dword _ => .dword
  | qword _ => .qword
  | text _ _ => .text

/-- What is read back of a value: an integer up to its width, a string as it is. -/
def value : Datum → Value
  | byte n => .number (n % Nat.pow 2 8).toNat
  | word n => .number (n % Nat.pow 2 16).toNat
  | dword n => .number (n % Nat.pow 2 32).toNat
  | qword n => .number (n % Nat.pow 2 64).toNat
  | text bytes _ => .text bytes

/-- The number that a value begins with: a number itself, and the length of a string. -/
def Value.leading : Value → Nat
  | number n => n
  | text bytes => bytes.length

/-! ## One value -/

variable {src : Source} {pos : Nat} {d : Datum}

/-- The number that a value begins with is read back. -/
theorem natLE_leading (h : src.Holds pos d.bytes) :
    src.natLE pos d.kind.width = .ok d.value.leading := by
  cases d with
  | text text fits =>
    rw [Datum.bytes, operand, Assembly.Operand.bytes, Bytes.packed, List.append_assoc,
      Source.holds_append] at h
    exact h.1.natLE_u16 (Nat.lt_succ_of_le fits)
  | _ => exact h.natLE_ofInt (Kind.width_pos _)

theorem length_bytes (d : Datum) :
    d.bytes.length = d.kind.width + d.kind.behind d.value.leading := by
  cases d with
  | text text fits =>
    change (Bytes.u16 text.length ++ text ++ List.replicate (text.length % 2) 0).length = _
    rw [List.length_append, List.length_append, Bytes.u16, Bytes.length_ofIntLE,
      List.length_replicate, Nat.add_assoc]
    rfl
  | _ => exact Bytes.length_ofIntLE _ _

/-- A value is read back, and reading ends behind it. -/
theorem run_read (h : src.Holds pos d.bytes) (s : State) :
    d.kind.read.run src pos s = (.ok d.value, pos + d.bytes.length, s) := by
  cases d with
  | text text fits =>
    change (Value.text <$> packed).run src pos s = _
    rw [map_eq_pure_bind, run_bind_ok (run_packed_holds (Nat.lt_succ_of_le fits) h s)]
    rfl
  | _ =>
    rw [Kind.read_eq, run_bind_ok (run_number_ok (natLE_leading h) s)]
    rfl

variable {n : Nat}

/-- In a source that was cut, a number in front that lies below the cut is read as before. -/
theorem run_number_cut_of_le (h : src.Holds pos d.bytes) (hle : pos + d.kind.width ≤ n) (s : State) :
    (number d.kind.width).run (src.cut n) pos s =
      (.ok d.value.leading, pos + d.kind.width, s) := by
  refine run_number_ok ?_ s
  rw [Source.natLE_cut_of_le d.kind.width_pos hle, natLE_leading h]

/-- Behind such a number, reading goes on to the end of the value or to the cut. -/
theorem exists_run_read_cut (h : src.Holds pos d.bytes) (hle : pos + d.kind.width ≤ n) (s : State) :
    ∃ value, d.kind.read.run (src.cut n) pos s =
      (.ok value, min n (pos + d.bytes.length), s) := by
  obtain ⟨value, hvalue⟩ :=
    d.kind.exists_run_finish d.value.leading (src.cut n) (pos + d.kind.width) s
  have hsize := h.length_le
  rw [Source.length_rest, d.length_bytes] at hsize
  have hfin : pos + d.kind.width +
      ((src.cut n).slice (pos + d.kind.width) (d.kind.behind d.value.leading)).length =
        min n (pos + d.bytes.length) := by
    rw [Source.length_slice, Source.size_cut, d.length_bytes]
    omega
  refine ⟨value, ?_⟩
  rw [Kind.read_eq, run_bind_ok (run_number_cut_of_le h hle s), hvalue, hfin]

/-- A number that reaches beyond the cut is not read, and neither is a value that begins with it. -/
theorem run_number_cut_of_lt (kind : Kind) (hlt : n < pos + kind.width) (s : State) :
    (number kind.width).run (src.cut n) pos s = (.error (.endOfData kind.width), pos, s) := by
  rw [run_number, Source.natLE_cut_of_lt kind.width_pos hlt]

theorem run_read_cut_of_lt (kind : Kind) (hlt : n < pos + kind.width) (s : State) :
    kind.read.run (src.cut n) pos s = (.error (.endOfData kind.width), pos, s) := by
  rw [Kind.read_eq, run_bind_error (run_number_cut_of_lt kind hlt s)]

/-! ## One value after another -/

/-- Values that stand one after another are read back. -/
theorem run_readAll {data : List Datum} (h : src.Holds pos (record data)) (s : State) :
    (readAll (data.map kind)).run src pos s =
      (.ok (data.map value), pos + (record data).length, s) := by
  induction data generalizing pos with
  | nil => rfl
  | cons d data ih =>
    rw [record_cons, Source.holds_append] at h
    rw [readAll] at ih ⊢
    rw [List.map_cons, List.mapM_cons, run_bind_ok (run_read h.1 s), run_bind_ok (ih h.2), run_pure,
      record_cons, List.length_append, Nat.add_assoc]
    rfl

/-- The reads of fixed width give the numbers in front of the values. -/
theorem fixedReads_eq {data : List Datum} (h : src.Holds pos (record data)) (s : State) :
    fixedReads src (data.map kind) pos s = data.map (fun d => .ok d.value.leading) := by
  induction data generalizing pos with
  | nil => rfl
  | cons d data ih =>
    rw [record_cons, Source.holds_append] at h
    rw [List.map_cons, fixedReads, run_number_ok (natLE_leading h.1) s, run_read h.1 s]
    dsimp only
    rw [ih h.2, List.map_cons]

/-- The reads of fixed width in a source that was cut: those that lie below the cut give the numbers in
front of their values, and the next one fails. -/
theorem fixedReads_cut {data : List Datum} (h : src.Holds pos (record data)) (s : State) :
    ∃ k,
      fixedReads (src.cut n) (data.map kind) (min n pos) s =
        (data.take k).map (fun d => .ok d.value.leading) ++
          ((data.drop k).take 1).map (fun d => .error (.endOfData d.kind.width)) ∧
      ∀ i : Fin data.length,
        ↑i < k ↔ pos + (record (data.take i)).length + (data.get i).kind.width ≤ n := by
  induction data generalizing pos with
  | nil => exact ⟨0, rfl, fun i => i.elim0⟩
  | cons d data ih =>
    rw [record_cons, Source.holds_append] at h
    obtain ⟨hfirst, hrest⟩ := h
    by_cases hle : pos + d.kind.width ≤ n
    · obtain ⟨k, hreads, hk⟩ := ih hrest
      obtain ⟨value, hvalue⟩ := exists_run_read_cut hfirst hle s
      refine ⟨k + 1, ?_, Fin.cases ?_ fun i => ?_⟩
      · rw [Nat.min_eq_right (by omega), List.map_cons, fixedReads, hvalue,
          run_number_cut_of_le hfirst hle]
        dsimp only
        rw [hreads]
        rfl
      · exact iff_of_true (Nat.succ_pos k) hle
      · change ↑i + 1 < k + 1 ↔
          pos + (record (d :: data.take i)).length + (data.get i).kind.width ≤ n
        rw [Nat.succ_lt_succ_iff, hk, record_cons, List.length_append, Nat.add_assoc pos]
    · -- the position is the old one, too near to the cut, or that of the cut, where nothing is left
      have hlt : n < min n pos + d.kind.width := by
        have := d.kind.width_pos
        omega
      refine ⟨0, ?_, fun i => iff_of_false (Nat.not_lt_zero i) ?_⟩
      · rw [List.map_cons, fixedReads, run_number_cut_of_lt _ hlt, run_read_cut_of_lt _ hlt]
        rfl
      · refine Fin.cases hle (fun i => ?_) i
        -- the value in front is at least as long as the number that it begins with
        have hlength := d.length_bytes
        change ¬pos + (record (d :: data.take i)).length + (data.get i).kind.width ≤ n
        rw [record_cons, List.length_append]
        omega

/-- Values are written one after another, as operands are. Read in the same order, each integer comes
back modulo the power of two of its width and each string unchanged, and reading ends at the end. When
only the first `n` bytes are there, the reads of fixed width that lie within them give the numbers that
they gave before, the next one fails, and there are no others. -/
theorem record_read_back (data : List Datum) (area : SymbolArea) (s : State) :
    Assembly.writeOperands (data.map operand) area = .ok (record data, area) ∧
    (readAll (data.map kind)).run (.ofBytes (record data)) 0 s =
      (.ok (data.map value), (record data).length, s) ∧
    fixedReads (.ofBytes (record data)) (data.map kind) 0 s =
      data.map (fun d => .ok d.value.leading) ∧
    ∀ n, ∃ k,
      fixedReads ((Source.ofBytes (record data)).cut n) (data.map kind) 0 s =
        (fixedReads (.ofBytes (record data)) (data.map kind) 0 s).take k ++
          ((data.drop k).take 1).map (fun d => .error (.endOfData d.kind.width)) ∧
      ∀ i : Fin data.length,
        ↑i < k ↔ (record (data.take i)).length + (data.get i).kind.width ≤ n := by
  have hholds : (Source.ofBytes (record data)).Holds 0 (record data) := List.prefix_refl _
  have hwhole := fixedReads_eq hholds s
  refine ⟨writeOperands_record data area, ?_, hwhole, fun n => ?_⟩
  · rw [run_readAll hholds s, Nat.zero_add]
  · obtain ⟨k, hreads, hk⟩ := fixedReads_cut (n := n) hholds s
    rw [Nat.min_zero] at hreads
    refine ⟨k, ?_, fun i => ?_⟩
    · rw [hreads, hwhole, List.map_take]
    · rw [hk, Nat.zero_add]

end Datum

end SavedBasic
