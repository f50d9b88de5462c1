import SavedBasic.Proofs.WrittenNames
import SavedBasic.Sample.Survey

/-!
# Code that is written again

A name keeps its offset in the identifier table. So instructions that have been written are written as
the same bytes whenever they are written again, and then no name is new. A program with copies of a
part of it has the identifier table of the program with one copy, and its instructions again and again.
-/

namespace SavedBasic

/-- One call that succeeds: the name is in the table afterwards, and nothing else has changed its
place. -/
theorem SymbolArea.add_eq_ok {area area' : SymbolArea} {key : Key} {offset : Nat}
    (h : area.add key = .ok (offset, area')) :
    area'.offset? key = some offset ∧ area.Grows area' ∧ (area.Sound → area'.Sound) := by
  rcases hfound : area.offset? key with _ | found
  · rw [offset?] at hfound
    rw [add, hfound] at h
    obtain ⟨entry, hentry, hnew⟩ := map_eq_ok_iff.mp h
    cases hnew
    refine ⟨?_, grows_append hfound entry, fun hsound => hsound.append hfound hentry⟩
    exact (area.offset?_append key entry key).trans (if_pos rfl)
  · cases (add_of_offset? hfound).symm.trans h
    exact ⟨hfound, .refl area, id⟩

namespace Assembly

/-! ## Writing the same once more -/

/-- A way to write bytes that names go into a table for. The table only grows, and as long as it has
all the names, the same bytes are written again and the table stays as it is. -/
structure Repeatable (w : SymbolArea → Except Fault (Bytes × SymbolArea)) : Prop where
  grows : ∀ {area area' bytes}, w area = .ok (bytes, area') → area.Grows area'
  sound : ∀ {area area' bytes}, w area = .ok (bytes, area') → area.Sound → area'.Sound
  again : ∀ {area area' bytes later}, w area = .ok (bytes, area') → area'.Grows later →
    w later = .ok (bytes, later)

theorem repeatable_bytes (bytes : Bytes) : Repeatable fun area => .ok (bytes, area) where
  grows h := by
    cases h
    exact .refl _
  sound h hsound := by
    cases h
    exact hsound
  again h _ := by
    cases h
    rfl

theorem repeatable_name (key : Key) :
    Repeatable fun area => (area.add key).map fun added => (Bytes.u16 added.1, added.2) where
  grows h := by
    obtain ⟨added, hadd, hbytes⟩ := map_eq_ok_iff.mp h
    cases hbytes
    exact (SymbolArea.add_eq_ok hadd).2.1
  sound h := by
    obtain ⟨added, hadd, hbytes⟩ := map_eq_ok_iff.mp h
    cases hbytes
    exact (SymbolArea.add_eq_ok hadd).2.2
  again h hlater := by
    obtain ⟨added, hadd, hbytes⟩ := map_eq_ok_iff.mp h
    cases hbytes
    rw [SymbolArea.add_of_offset? (hlater.offset? (SymbolArea.add_eq_ok hadd).1)]
    rfl

/-- One thing is written behind another. -/
def inRow (w w' : SymbolArea → Except Fault (Bytes × SymbolArea)) (area : SymbolArea) :
    Except Fault (Bytes × SymbolArea) := do
  let first ← w area
  let rest ← w' first.2
  return (first.1 ++ rest.1, rest.2)

theorem inRow_eq_ok {w w' : SymbolArea → Except Fault (Bytes × SymbolArea)}
    {area area' : SymbolArea} {bytes : Bytes} : inRow w w' area = .ok (bytes, area') ↔
      ∃ first middle rest, w area = .ok (first, middle) ∧ w' middle = .ok (rest, area') ∧
        bytes = first ++ rest := by
  constructor
  · intro h
    obtain ⟨⟨first, middle⟩, hfirst, h⟩ := bind_eq_ok_iff.mp h
    obtain ⟨⟨rest, last⟩, hrest, h⟩ := bind_eq_ok_iff.mp h
    cases h
    exact ⟨first, middle, rest, hfirst, hrest, rfl⟩
  · rintro ⟨first, middle, rest, hfirst, hrest, rfl⟩
    exact bind_eq_ok_iff.mpr ⟨_, hfirst, bind_eq_ok_iff.mpr ⟨_, hrest, rfl⟩⟩

theorem Repeatable.inRow {w w' : SymbolArea → Except Fault (Bytes × SymbolArea)}
    (h : Repeatable w) (h' : Repeatable w') : Repeatable (inRow w w') where
  grows hrow := by
    obtain ⟨_, _, _, hfirst, hrest, -⟩ := inRow_eq_ok.mp hrow
    exact (h.grows hfirst).trans (h'.grows hrest)
  sound hrow hsound := by
    obtain ⟨_, _, _, hfirst, hrest, -⟩ := inRow_eq_ok.mp hrow
    exact h'.sound hrest (h.sound hfirst hsound)
  again hrow hlater := by
    obtain ⟨first, middle, rest, hfirst, hrest, rfl⟩ := inRow_eq_ok.mp hrow
    have hmiddle := (h'.grows hrest).trans hlater
    exact inRow_eq_ok.mpr ⟨first, _, rest, h.again hfirst hmiddle, h'.again hrest hlater, rfl⟩

theorem repeatable_operand (operand : Operand) : Repeatable operand.write := by
  cases operand with
  | name id => exact repeatable_name (.text id)
  | line n => exact repeatable_name (.number n)
  | _ => exact repeatable_bytes _

theorem repeatable_operands (operands : List Operand) : Repeatable (writeOperands operands) := by
  induction operands with
  | nil => exact repeatable_bytes []
  | cons operand rest ih => exact (repeatable_operand operand).inRow ih

theorem repeatable_instr (i : Instr) : Repeatable i.write :=
  (repeatable_bytes (Bytes.u16 (instructionWord i.code i.parameter))).inRow
    (repeatable_operands i.operands)

theorem repeatable_write (code : List Instr) : Repeatable (write code) := by
  induction code with
  | nil => exact repeatable_bytes []
  | cons i rest ih => exact (repeatable_instr i).inRow ih

theorem inRow_nil (w : SymbolArea → Except Fault (Bytes × SymbolArea)) :
    inRow (fun area => .ok ([], area)) w = w := by
  funext area
  change (w area >>= fun rest => pure ([] ++ rest.1, rest.2)) = w area
  cases w area <;> rfl

theorem inRow_assoc (w₁ w₂ w₃ : SymbolArea → Except Fault (Bytes × SymbolArea)) :
    inRow (inRow w₁ w₂) w₃ = inRow w₁ (inRow w₂ w₃) := by
  funext area
  simp only [inRow, bind_assoc, pure_bind, List.append_assoc]

theorem write_append (code code' : List Instr) :
    write (code ++ code') = inRow (write code) (write code') := by
  induction code with
  | nil => exact (inRow_nil (write code')).symm
  | cons i rest ih =>
    have hcons : ∀ more, write (i :: more) = inRow i.write (write more) := fun _ => rfl
    rw [List.cons_append, hcons, ih, hcons, inRow_assoc]

/-- Instructions that are written again and again give the same bytes again and again. -/
theorem write_replicate {code : List Instr} {area area' : SymbolArea} {bytes : Bytes}
    (h : write code area = .ok (bytes, area')) (n : Nat) :
    write (List.replicate (n + 1) code).flatten area =
      .ok ((List.replicate (n + 1) bytes).flatten, area') := by
  have hagain : ∀ k, write (List.replicate k code).flatten area' =
      .ok ((List.replicate k bytes).flatten, area') := by
    intro k
    induction k with
    | zero => rfl
    | succ k ih =>
      rw [List.replicate_succ, List.flatten_cons, write_append]
      have hcode := (repeatable_write code).again h (.refl area')
      exact inRow_eq_ok.mpr ⟨bytes, area', _, hcode, ih, rfl⟩
  rw [List.replicate_succ, List.flatten_cons, write_append]
  exact inRow_eq_ok.mpr ⟨bytes, area', _, h, hagain n, rfl⟩

/-- The bytes of each line of a program, and the table with their names. -/
def writeLines : List (List Instr) → SymbolArea → Except Fault (List Bytes × SymbolArea)
  | [], area => .ok ([], area)
  | line :: rest, area => do
    let (first, area) ← write line area
    let (rest, area) ← writeLines rest area
    return (first :: rest, area)

/-- Written line by line a program has the same bytes. -/
theorem write_flatten {lines : List (List Instr)} {area area' : SymbolArea} {codes : List Bytes}
    (h : writeLines lines area = .ok (codes, area')) :
    write lines.flatten area = .ok (codes.flatten, area') := by
  induction lines generalizing area codes with
  | nil =>
    cases h
    rfl
  | cons line rest ih =>
    obtain ⟨⟨first, middle⟩, hfirst, h⟩ := bind_eq_ok_iff.mp h
    obtain ⟨⟨others, last⟩, hothers, h⟩ := bind_eq_ok_iff.mp h
    cases h
    rw [List.flatten_cons, List.flatten_cons, write_append]
    exact inRow_eq_ok.mpr ⟨first, middle, _, hfirst, ih hothers, rfl⟩

end Assembly

/-! ## Drafts with copies -/

namespace Draft

/-- A draft with other instructions in its main program. -/
def withMain (d : Draft) (main : Bytes) : Draft :=
  { d with main := main }

theorem appendMain_eq_ok {d d' : Draft} {code : List Assembly.Instr} :
    d.appendMain code = .ok d' ↔ ∃ bytes area, Assembly.write code d.symbols = .ok (bytes, area) ∧
      d' = { d with symbols := area, main := d.main ++ bytes } := by
  constructor
  · intro h
    obtain ⟨⟨bytes, area⟩, hwrite, hd⟩ := map_eq_ok_iff.mp h
    exact ⟨bytes, area, hwrite, hd.symm⟩
  · rintro ⟨bytes, area, hwrite, rfl⟩
    exact map_eq_ok_iff.mpr ⟨_, hwrite, rfl⟩

theorem appendMain_nil (d : Draft) : d.appendMain [] = .ok d :=
  appendMain_eq_ok.mpr ⟨[], d.symbols, rfl, by rw [List.append_nil]⟩

theorem appendMain_append (d : Draft) (code code' : List Assembly.Instr) :
    d.appendMain (code ++ code') = d.appendMain code >>= fun d' => d'.appendMain code' := by
  simp only [appendMain, Assembly.write_append, Assembly.inRow, bind, Except.bind]
  rcases Assembly.write code d.symbols with fault | first
  · rfl
  · simp only [Except.map]
    rcases Assembly.write code' first.2 with fault | second
    · rfl
    · simp only [pure, Except.pure, List.append_assoc]

/-- A procedure is added first, and then gets its instructions. -/
theorem addProcedure_append_eq_ok {d d' : Draft} {name : String} {flags : Int}
    {code : List Assembly.Instr} :
    (d.addProcedure name flags >>= fun added => added.append code) = .ok d' ↔
      ∃ encoded bytes area, Text.CodePage.encode name = .ok encoded ∧
        Assembly.write code d.symbols = .ok (bytes, area) ∧
        d' = { d with symbols := area, procedures := ⟨encoded, flags, bytes⟩ :: d.procedures } := by
  constructor
  · intro h
    obtain ⟨added, hadded, happend⟩ := bind_eq_ok_iff.mp h
    obtain ⟨encoded, hencoded, rfl⟩ := map_eq_ok_iff.mp hadded
    obtain ⟨⟨bytes, area⟩, hwrite, rfl⟩ := map_eq_ok_iff.mp happend
    exact ⟨encoded, bytes, area, hencoded, hwrite, rfl⟩
  · rintro ⟨encoded, bytes, area, hencoded, hwrite, rfl⟩
    refine bind_eq_ok_iff.mpr ⟨_, map_eq_ok_iff.mpr ⟨encoded, hencoded, rfl⟩, ?_⟩
    exact map_eq_ok_iff.mpr ⟨_, hwrite, rfl⟩

end Draft

namespace Sample

/-- The instructions that a part adds to the main program, if it adds nothing else. -/
def Part.code? : Part → Option (List Assembly.Instr)
  | common => some Sample.common.flatten
  | professional => some Sample.professional.flatten
  | preserving => some Sample.preserving.flatten
  | visual => some Sample.visual.flatten
  | first => some Sample.first.flatten
  | line code => some code
  | form => none
  | sub _ _ _ => none
  | function _ _ => none

theorem Part.addTo_of_code? {part : Part} {code : List Assembly.Instr} (h : part.code? = some code)
    (d : Draft) : part.addTo d = d.appendMain code := by
  cases part <;> cases h <;> rfl

/-- Adds parts one after another. -/
def addAll (parts : List Part) (d : Draft) : Except Fault Draft :=
  parts.foldlM (fun d part => part.addTo d) d

theorem addAll_append (parts others : List Part) (d : Draft) :
    addAll (parts ++ others) d = addAll parts d >>= addAll others :=
  List.foldlM_append

/-- Parts of the main program add their instructions one behind the other. -/
theorem addAll_of_code? {parts : List Part} {codes : List (List Assembly.Instr)}
    (h : parts.map Part.code? = codes.map some) (d : Draft) :
    addAll parts d = d.appendMain codes.flatten := by
  induction parts generalizing codes d with
  | nil =>
    rw [List.map_nil, eq_comm, List.map_eq_nil_iff] at h
    subst h
    exact d.appendMain_nil.symm
  | cons part rest ih =>
    rcases codes with _ | ⟨code, codes⟩
    · cases h
    · rw [List.map_cons, List.map_cons, List.cons.injEq] at h
      rw [List.flatten_cons, Draft.appendMain_append, addAll, List.foldlM_cons,
        Part.addTo_of_code? h.1]
      exact congrArg _ (funext (ih h.2))

theorem map_code?_copies {parts : List Part} {codes : List (List Assembly.Instr)}
    (h : parts.map Part.code? = codes.map some) (n : Nat) :
    (copies n parts).map Part.code? = (List.replicate n codes).flatten.map some := by
  simp only [copies, List.map_flatten, List.map_replicate, h]

/-- The other parts leave the main program alone and do not depend on it. -/
theorem Part.addTo_of_no_code {part : Part} (h : part.code? = none) {d d' : Draft}
    (hadd : part.addTo d = .ok d') :
    d'.main = d.main ∧ ∀ main, part.addTo (d.withMain main) = .ok (d'.withMain main) := by
  have hprocedure : ∀ {name : String} {flags : Int} {code : List Assembly.Instr},
      (d.addProcedure name flags >>= fun added => added.append code) = .ok d' →
      d'.main = d.main ∧ ∀ main, ((d.withMain main).addProcedure name flags >>= fun added =>
        added.append code) = .ok (d'.withMain main) := by
    intro name flags code hadd
    obtain ⟨encoded, bytes, area, hencoded, hwrite, rfl⟩ := Draft.addProcedure_append_eq_ok.mp hadd
    exact ⟨rfl, fun main =>
      Draft.addProcedure_append_eq_ok.mpr ⟨encoded, bytes, area, hencoded, hwrite, rfl⟩⟩
  cases part with
  | form =>
    cases hadd
    exact ⟨rfl, fun _ => rfl⟩
  | sub name static newForm => exact hprocedure hadd
  | function name newForm => exact hprocedure hadd
  | _ => cases h

theorem addAll_of_no_code {parts : List Part} (h : ∀ part ∈ parts, part.code? = none) {d d' : Draft}
    (hadd : addAll parts d = .ok d') :
    d'.main = d.main ∧ ∀ main, addAll parts (d.withMain main) = .ok (d'.withMain main) := by
  induction parts generalizing d with
  | nil =>
    cases hadd
    exact ⟨rfl, fun _ => rfl⟩
  | cons part rest ih =>
    obtain ⟨hpart, hrest⟩ := List.forall_mem_cons.mp h
    obtain ⟨middle, hfirst, hadd⟩ := bind_eq_ok_iff.mp hadd
    obtain ⟨hmain, hfirst'⟩ := part.addTo_of_no_code hpart hfirst
    obtain ⟨hmain', hadd'⟩ := ih hrest hadd
    exact ⟨hmain'.trans hmain, fun main => bind_eq_ok_iff.mpr ⟨_, hfirst' main, hadd' main⟩⟩

/-- **Copies of the main program.** A program with further copies of the parts of its main program is
written like the one with a single copy, with its instructions again and again. -/
theorem draft_copies {v : Version} {parts others : List Part} {codes : List (List Assembly.Instr)}
    (hparts : parts.map Part.code? = codes.map some) (hothers : ∀ part ∈ others, part.code? = none)
    {d : Draft} (h : draft v (parts ++ others) = .ok d) (n : Nat) :
    draft v (copies (n + 1) parts ++ others) =
      .ok (d.withMain (List.replicate (n + 1) d.main).flatten) := by
  have hdraft : ∀ parts, draft v parts = addAll parts (.start v) := fun _ => rfl
  rw [hdraft, addAll_append, addAll_of_code? hparts] at h
  obtain ⟨one, hone, hrest⟩ := bind_eq_ok_iff.mp h
  obtain ⟨hmain, hrest'⟩ := addAll_of_no_code hothers hrest
  obtain ⟨bytes, area, hwrite, rfl⟩ := Draft.appendMain_eq_ok.mp hone
  obtain rfl : d.main = bytes := hmain
  rw [hdraft, addAll_append, addAll_of_code? (map_code?_copies hparts (n + 1)), List.flatten_flatten,
    List.map_replicate]
  -- behind the first copy no name is new
  refine bind_eq_ok_iff.mpr ⟨_, Draft.appendMain_eq_ok.mpr ⟨_, _,
    Assembly.write_replicate hwrite n, rfl⟩, ?_⟩
  exact hrest' _

/-! ## Names of a draft -/

/-- Every part leaves all names at their offsets. -/
theorem Part.sound_addTo {part : Part} {d d' : Draft} (h : part.addTo d = .ok d')
    (hsound : d.symbols.Sound) : d'.symbols.Sound := by
  rcases hcode : part.code? with _ | code
  · have hprocedure : ∀ {name : String} {flags : Int} {code : List Assembly.Instr},
        (d.addProcedure name flags >>= fun added => added.append code) = .ok d' →
        d'.symbols.Sound := by
      intro name flags code hadd
      obtain ⟨encoded, bytes, area, -, hwrite, rfl⟩ := Draft.addProcedure_append_eq_ok.mp hadd
      exact (Assembly.repeatable_write code).sound hwrite hsound
    cases part with
    | form =>
      cases h
      exact hsound
    | sub name static newForm => exact hprocedure h
    | function name newForm => exact hprocedure h
    | _ => cases hcode
  · rw [Part.addTo_of_code? hcode] at h
    obtain ⟨bytes, area, hwrite, rfl⟩ := Draft.appendMain_eq_ok.mp h
    exact (Assembly.repeatable_write code).sound hwrite hsound

theorem sound_draft {v : Version} {parts : List Part} {d : Draft} (h : draft v parts = .ok d) :
    d.symbols.Sound := by
  suffices hall : ∀ {d' : Draft}, addAll parts d' = .ok d → d'.symbols.Sound → d.symbols.Sound from
    hall h SymbolArea.sound_empty
  clear h
  induction parts with
  | nil =>
    intro d' h hsound
    cases h
    exact hsound
  | cons part rest ih =>
    intro d' h hsound
    obtain ⟨middle, hfirst, hrest⟩ := bind_eq_ok_iff.mp h
    exact ih hrest (part.sound_addTo hfirst hsound)

end Sample

end SavedBasic
