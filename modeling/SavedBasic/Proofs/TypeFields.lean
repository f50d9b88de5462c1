import SavedBasic.Proofs.DeclarationLists

/-!
# Fields of record types

Two instructions make a field of a record type. One has the name, the type and the column of `AS`; the
other one, which came with version 7.0, also takes bounds from the stack. Both leave the same kind of
statement behind, with its bounds in a list, and the text of the statement puts parentheses around this
list whatever is in it. So a field without bounds is written like an array without dimensions. All else
is as it was stored: the name, the bounds, the type, and `AS` at its column or one space behind the
parenthesis if that reaches further.
-/

namespace SavedBasic

open Decode Instruction

variable {v : Version} {src : Source} {names : Nat → Except Fault Identifier} {p q : Nat}

/-! ## How fields are written -/

/-- A field of a record type. -/
structure RecordField where
  /-- the name -/
  name : Identifier
  /-- the bounds -/
  bounds : List Bound
  /-- the type -/
  type : DataType
  /-- the column of `AS` -/
  column : Nat

/-- From `p` to `q` a file has the type of a field. The first word tells how it is given: a string of
fixed length has a word of its own, and any other word goes with a number. -/
inductive FieldTypeAt (v : Version) (src : Source) (names : Nat → Except Fault Identifier) (p : Nat) :
    (q : Nat) → DataType → Prop where
  | numbered {mode n : Nat} {type : DataType} (hmode : src.natLE p 2 = .ok mode) (hne : mode ≠ 0x017C)
    (hn : src.natLE (p + 2) 2 = .ok n) (htype : TypeNumber v names n type) :
    FieldTypeAt v src names p (p + 4) type
  | fixedString {ignored length : Nat} (hmode : src.natLE p 2 = .ok 0x017C)
    (hword : src.natLE (p + 2) 2 = .ok ignored) (hlength : src.natLE (p + 4) 2 = .ok length) :
    FieldTypeAt v src names p (p + 6) (.fixedString length)

/-- From `p` to `q` a file has the instructions of a field. -/
inductive FieldAt (v : Version) (src : Source) (names : Nat → Except Fault Identifier) (p : Nat) :
    (q : Nat) → RecordField → Prop where
  | plain {q parameter offset column : Nat} {name : Identifier} {type : DataType}
    (h : InstructionAt v src p 0x0019 parameter) (hoffset : src.natLE (p + 2) 2 = .ok offset)
    (hname : names offset = .ok name) (htype : FieldTypeAt v src names (p + 4) q type)
    (hcolumn : src.natLE q 2 = .ok column) : FieldAt v src names p (q + 2) ⟨name, [], type, column⟩
  | array {q r parameter offset column : Nat} {name : Identifier} {bounds : List Bound}
    {type : DataType} (hbounds : SequenceAt (BoundAt v src names) p r bounds)
    (h : InstructionAt v src r 0x017E parameter)
    (hcount : src.natLE (r + 2) 2 = .ok (2 * bounds.length))
    (hoffset : src.natLE (r + 4) 2 = .ok offset) (hname : names offset = .ok name)
    (htype : FieldTypeAt v src names (r + 6) q type) (hcolumn : src.natLE q 2 = .ok column) :
    FieldAt v src names p (q + 2) ⟨name, bounds, type, column⟩

namespace RecordField

/-- The statement that is decoded. -/
def statement (f : RecordField) : Statement :=
  .typeField ⟨f.name, f.type, f.bounds.flatMap Bound.operands, f.column⟩

/-- The expressions of a field. -/
def values (f : RecordField) : List Expr :=
  f.bounds.flatMap Bound.values

/-- The name and the bounds, in parentheses. -/
def named (f : RecordField) (texts : Expr → String) : String :=
  f.name.render ++ ("(" ++ Text.join ", " (f.bounds.map (Bound.text · texts)) ++ ")")

/-- A line with a field behind it. -/
def addTo (texts : Expr → String) (line : String) (f : RecordField) : String :=
  Text.padTo (max f.column ((line ++ f.named texts).length + 1)) (line ++ f.named texts) ++ "AS " ++
    f.type.name

end RecordField

/-! ## How they are decoded -/

theorem turns_fieldType {type : DataType} (h : FieldTypeAt v src names p q type) {a : Workspace} :
    Turns src names (fieldType v) p q (.ok type) a a := by
  cases h with
  | @numbered mode _ _ hmode hne hn htype =>
    refine (turns_word hmode).bind ?_
    rw [if_neg (show mode ≠ fixedStringMark from hne)]
    exact (turns_word hn).bind (turns_dataType htype)
  | fixedString hmode hword hlength =>
    refine (turns_word hmode).bind ?_
    rw [if_pos (show 0x017C = fixedStringMark from rfl)]
    exact (turns_skipWord hword).bind ((turns_word hlength).bind (turns_pure _))

/-- The instructions of a field put exactly this field where nothing stands yet. -/
theorem FieldAt.carries {f : RecordField} (h : FieldAt v src names p q f) (stack : List Expr)
    (a : Arguments) : Carries v src names p q ⟨.empty, stack, a⟩ ⟨f.statement, stack, a⟩ := by
  cases h with
  | plain h hoffset hname htype hcolumn =>
    exact h.carries rfl ((turns_identifier hoffset hname).bind ((turns_fieldType htype).bind
      ((turns_word hcolumn).bind (turns_put rfl))))
  | array hbounds h hcount hoffset hname htype hcolumn =>
    rw [← length_operands] at hcount
    refine h.takes (hbounds.pushed BoundAt.pushed) rfl ?_
    exact (turns_word hcount).bind ((turns_identifier hoffset hname).bind ((turns_popMany _).bind
      ((turns_fieldType htype).bind ((turns_word hcolumn).bind (turns_put rfl)))))

/-! ## Their texts -/

namespace RecordField

/-- The array that is declared with the same name, bounds and type. -/
def declared (f : RecordField) : Declared :=
  ⟨f.name, some f.bounds, some ⟨f.type, f.column⟩⟩

/-- A field is written as the declaration of an array. -/
theorem render_statement {texts : Expr → String} {f : RecordField}
    (h : ∀ e ∈ f.values, e.render = .ok (texts e)) (before : String) :
    (f.statement.render before.length).map (before ++ ·) = .ok (f.addTo texts before) := by
  have hsame : f.statement.render before.length = f.declared.item.render before.length := rfl
  have hitem := Declared.render_item (d := f.declared) h before.length
  have hadd : before ++ renderTyped before.length (f.declared.named texts) f.declared.item.type
      f.declared.item.column = f.addTo texts before := f.declared.append_renderTyped before
  rw [hsame, hitem, ← hadd]
  rfl

/-- `AS` starts at its column, or one space behind the parenthesis. -/
theorem exists_addTo_eq (texts : Expr → String) (before : String) (f : RecordField) :
    ∃ gap, f.addTo texts before =
        before ++ f.named texts ++ Text.spaces gap ++ "AS " ++ f.type.name ∧
      (before ++ f.named texts ++ Text.spaces gap).length =
        max f.column ((before ++ f.named texts).length + 1) := by
  refine ⟨_, rfl, ?_⟩
  rw [String.length_append, Text.spaces, String.length_ofList, List.length_replicate]
  omega

end RecordField

/-! ## Fields on a line -/

/-- **Fields of record types.** Let a new line have the instructions of a field. Decoding succeeds, and
the line has exactly this field. Its text, behind whatever stands in front of it, is the name, the
bounds in parentheses, which are there also if there are no bounds, and then `AS` and the type. `AS`
starts at the column that was stored for it, or, if the parenthesis stands there or behind it, one space
behind the parenthesis. -/
theorem typeField_on_line {s : State} {pos indent : Nat} {label : Option Identifier} {f : RecordField}
    (hline : LineAt v src (s.identifierAt src) pos p label indent)
    (h : FieldAt v src (s.identifierAt src) p q f) :
    ∃ t l, (instructions v q).run src pos s = (.ok (), q, t) ∧ t.stack = [] ∧
      t.program.current.lines = l :: s.program.current.lines ∧ l.statements = [f.statement] ∧
      ∀ texts, (∀ e ∈ f.values, e.render = .ok (texts e)) →
        l.render = .ok (f.addTo texts (Line.margin label indent)) ∧
        ∀ before, (f.statement.render before.length).map (before ++ ·) = .ok (f.addTo texts before) ∧
          ∃ gap, f.addTo texts before =
              before ++ f.named texts ++ Text.spaces gap ++ "AS " ++ f.type.name ∧
            (before ++ f.named texts ++ Text.spaces gap).length =
              max f.column ((before ++ f.named texts).length + 1) := by
  obtain ⟨t, hrun, hstack, hlines⟩ := (h.carries [] .none).adds_line hline
  refine ⟨t, _, hrun, hstack, hlines, rfl, fun texts htexts => ⟨?_, fun before => ⟨?_, ?_⟩⟩⟩
  · rw [Line.render_setLast_start, RecordField.render_statement htexts]
  · exact RecordField.render_statement htexts before
  · exact f.exists_addTo_eq texts before

/-- An array of strings in a record, whose `AS` is moved to column 20. -/
def arrayField : RecordField :=
  ⟨nameA, [⟨none, .number 1⟩, ⟨some (.number 2), .number 3⟩], .fixedString 5, 20⟩

/-- A line with a label, an indentation and this field. -/
def arrayFieldFile : Source :=
  laterFile [0x05, 0x00, 0x00, 0x00, 0x00, 0x00, 0x02, 0x00, 0x18, 0x00, 0x64, 0x05, 0x64, 0x09, 0x64,
    0x0D, 0x7E, 0x01, 0x04, 0x00, 0x00, 0x00, 0x7C, 0x01, 0x00, 0x00, 0x05, 0x00, 0x14, 0x00]

theorem arrayFieldFile_decoded :
    ∃ t l, (instructions .qb70 0x41).run arrayFieldFile 0x23 (.start .qb70) = (.ok (), 0x41, t) ∧
      t.stack = [] ∧ t.program.current.lines = [l] ∧ l.statements = [arrayField.statement] ∧
      l.render = .ok "A:   A(1, 2 TO 3)   AS STRING * 5" := by
  have hline : LineAt .qb70 arrayFieldFile ((State.start .qb70).identifierAt arrayFieldFile) 0x23 0x2B
      (some nameA) 2 := .indented ⟨_, rfl, rfl⟩ rfl rfl rfl rfl
  have hbounds : SequenceAt (BoundAt .qb70 arrayFieldFile
      ((State.start .qb70).identifierAt arrayFieldFile)) 0x2B 0x33
      [⟨none, .number 1⟩, ⟨some (.number 2), .number 3⟩] :=
    .cons (.default ⟨_, rfl, rfl⟩ (pushed_number (by decide) (by decide) ⟨_, rfl⟩))
      (.cons (.given (pushed_number (by decide) (by decide) ⟨_, rfl⟩)
        (pushed_number (by decide) (by decide) ⟨_, rfl⟩)) .nil)
  have hfield : FieldAt .qb70 arrayFieldFile ((State.start .qb70).identifierAt arrayFieldFile) 0x2B 0x41
      arrayField :=
    .array hbounds ⟨_, rfl, rfl⟩ rfl rfl rfl (.fixedString rfl rfl rfl) rfl
  obtain ⟨t, l, hrun, hstack, hlines, hstatements, htext⟩ := typeField_on_line hline hfield
  refine ⟨t, l, hrun, hstack, hlines, hstatements, ?_⟩
  have htexts : ∀ e ∈ arrayField.values, e.render = .ok e.textOf := by
    intro e he
    simp only [arrayField, RecordField.values, Bound.values, List.flatMap_cons, List.flatMap_nil,
      Option.toList, List.cons_append, List.nil_append, List.append_nil, List.mem_cons,
      List.not_mem_nil, or_false] at he
    rcases he with rfl | rfl | rfl <;> rfl
  exact (htext _ htexts).1

/-- A line with a field without bounds. -/
def plainFieldFile : Source :=
  lineFile [0x19, 0x00, 0x00, 0x00, 0x16, 0x00, 0x01, 0x00, 0x00, 0x00]

/-- A field without bounds has parentheses all the same. -/
theorem plainField_parenthesized :
    FieldAt .qb45 plainFieldFile ((State.start .qb45).identifierAt plainFieldFile) 0x24 0x2E
      ⟨nameA, [], .scalar .integer, 0⟩ ∧
    ∃ t l, (instructions .qb45 0x2E).run plainFieldFile 0x22 (.start .qb45) = (.ok (), 0x2E, t) ∧
      t.program.current.lines = [l] ∧ l.render = .ok "A() AS INTEGER" := by
  have hfield : FieldAt .qb45 plainFieldFile ((State.start .qb45).identifierAt plainFieldFile) 0x24 0x2E
      ⟨nameA, [], .scalar .integer, 0⟩ :=
    .plain ⟨_, rfl, rfl⟩ rfl rfl (.numbered rfl (by decide) rfl (.scalar (by decide) rfl)) rfl
  obtain ⟨t, hrun, -, hlines⟩ := (hfield.carries [] .none).adds_line (.plain ⟨_, rfl, rfl⟩)
  exact ⟨hfield, t, _, hrun, hlines, rfl⟩

end SavedBasic
