import SavedBasic.Proofs.DeclarationLists

/-!
# Procedures and their parameters

`DECLARE` announces a procedure, and `SUB` and `FUNCTION` begin one. All three have a list of parameter
records behind a count. A record has a name, a word of modes and a number for the type, and from version
7.1 on one more word. What it stands for does not depend on the records in front of it, so as many
parameters are read as the count says, in their order, and the position behind them is that behind the
last record. An announcement ends with the name that the procedure has in other programs: its length is
in the flags, and a byte fills it up if it is odd.

The first line of a procedure gives the procedure its kind, so it changes more than a workspace.
`Begins` says what it does besides.
-/

namespace SavedBasic

open Decode Instruction

variable {v : Version} {src : Source} {names : Nat → Except Fault Identifier} {p q : Nat}

/-! ## How they are written -/

/-- What a file has about a parameter. -/
structure ParameterRecord where
  /-- the name -/
  name : Identifier
  /-- the modes -/
  mode : Nat
  /-- the type -/
  type : DataType

namespace ParameterRecord

/-- The parameter of a procedure that is announced, which always shows its type. -/
def announced (r : ParameterRecord) : Parameter :=
  ⟨r.name, some r.type, r.mode.testBit 10⟩

/-- The parameter of a procedure that begins, which shows its type if it stands behind `AS`. -/
def begun (r : ParameterRecord) : Parameter :=
  ⟨r.name, if r.mode.testBit 13 then some r.type else none, r.mode.testBit 10⟩

end ParameterRecord

/-- From `p` to `q` a file has the word that ends a parameter record from version 7.1 on. -/
inductive ExtraWordAt (v : Version) (src : Source) (p : Nat) : (q : Nat) → Prop where
  | missing (hv : v.atLeast .qb71 = false) : ExtraWordAt v src p p
  | given {ignored : Nat} (hv : v.atLeast .qb71 = true) (hword : src.natLE p 2 = .ok ignored) :
    ExtraWordAt v src p (p + 2)

/-- From `p` to `q` a file has a parameter record. -/
inductive RecordAt (v : Version) (src : Source) (names : Nat → Except Fault Identifier) (p : Nat) :
    (q : Nat) → ParameterRecord → Prop where
  | intro {q offset mode n : Nat} {name : Identifier} {type : DataType}
    (hoffset : src.natLE p 2 = .ok offset) (hname : names offset = .ok name)
    (hmode : src.natLE (p + 2) 2 = .ok mode) (hn : src.natLE (p + 4) 2 = .ok n)
    (htype : TypeNumber v names n type) (hextra : ExtraWordAt v src (p + 6) q) :
    RecordAt v src names p q ⟨name, mode, type⟩

/-- A line that announces or begins a procedure. -/
inductive Heading where
  /-- the announcement of a procedure, with its name in other programs -/
  | declare (kind : ProcedureKind) (name : Identifier) (records : List ParameterRecord) (cdecl : Bool)
    (externalName : Bytes)
  /-- the first line of a procedure -/
  | procedure (kind : ProcedureKind) (name : Identifier) (records : List ParameterRecord)

/-- A name gets the suffix that its flags ask for: bit 7 says that there is one, and the three lowest
bits are the number of its type. -/
inductive Suffixed (v : Version) (flags : Nat) (name : Identifier) : Identifier → Prop where
  | plain (h : flags.testBit 7 = false) : Suffixed v flags name name
  | typed {type : Scalar} (h : flags.testBit 7 = true)
    (htype : v.scalar (flags % 8 : Nat) = .ok type) : Suffixed v flags name (name.withSuffix type)

/-- From `p` to `q` a file has the instruction of a line that announces or begins a procedure. -/
inductive HeadingAt (v : Version) (src : Source) (names : Nat → Except Fault Identifier) (p : Nat) :
    (q : Nat) → Heading → Prop where
  | declare {q parameter ignored offset flags : Nat} {kind : ProcedureKind} {stored name : Identifier}
    {records : List ParameterRecord} {externalName filling : Bytes}
    (h : InstructionAt v src p 0x0044 parameter) (hword : src.natLE (p + 2) 2 = .ok ignored)
    (hoffset : src.natLE (p + 4) 2 = .ok offset) (hstored : names offset = .ok stored)
    (hflags : src.natLE (p + 6) 2 = .ok flags) (hsub : flags.testBit 8 = decide (kind = .sub))
    (hfunction : flags.testBit 9 = decide (kind = .function)) (hname : Suffixed v flags stored name)
    (hcount : src.natLE (p + 8) 2 = .ok records.length) (hlisted : records.length < 0xFFFF)
    (hrecords : SequenceAt (RecordAt v src names) (p + 10) q records)
    (hlength : flags / 1024 % 32 = externalName.length)
    (hfilling : filling.length = externalName.length % 2)
    (hexternal : src.Holds q externalName)
    (hfilled : src.Holds (q + externalName.length) filling) :
    HeadingAt v src names p (q + externalName.length + filling.length)
      (.declare kind name records (flags.testBit 15) externalName)
  | function {q parameter ignored offset flags : Nat} {stored name : Identifier}
    {records : List ParameterRecord} (h : InstructionAt v src p 0x0058 parameter)
    (hword : src.natLE (p + 2) 2 = .ok ignored) (hoffset : src.natLE (p + 4) 2 = .ok offset)
    (hstored : names offset = .ok stored) (hflags : src.natLE (p + 6) 2 = .ok flags)
    (hname : Suffixed v flags stored name) (hcount : src.natLE (p + 8) 2 = .ok records.length)
    (hrecords : SequenceAt (RecordAt v src names) (p + 10) q records) :
    HeadingAt v src names p q (.procedure .function name records)
  | sub {q parameter ignored offset flags : Nat} {name : Identifier} {records : List ParameterRecord}
    (h : InstructionAt v src p 0x0076 parameter) (hword : src.natLE (p + 2) 2 = .ok ignored)
    (hoffset : src.natLE (p + 4) 2 = .ok offset) (hname : names offset = .ok name)
    (hflags : src.natLE (p + 6) 2 = .ok flags) (hcount : src.natLE (p + 8) 2 = .ok records.length)
    (hrecords : SequenceAt (RecordAt v src names) (p + 10) q records) :
    HeadingAt v src names p q (.procedure .sub name records)

namespace Heading

/-- The statement that is decoded, in a procedure with or without static variables. -/
def statement (v : Version) (static : Bool) : Heading → Statement
  | declare kind name records cdecl externalName =>
    .declare ⟨kind, name, some (records.map ParameterRecord.announced), cdecl, externalName⟩
  | procedure kind name records =>
    .procedure ⟨kind, name, records.map ParameterRecord.begun, static, v.atLeast .vbdos⟩

/-- The kind of the procedure that begins; an announcement begins none. -/
def begun? : Heading → Option ProcedureKind
  | declare .. => none
  | procedure kind .. => some kind

end Heading

/-! ## Parameters -/

section Parameters

variable {a : Workspace}

theorem turns_skipExtraWord (h : ExtraWordAt v src p q) :
    Turns src names (skipExtraWord v) p q (.ok ()) a a := by
  cases h with
  | missing hv =>
    simp only [skipExtraWord, hv]
    exact turns_pure ()
  | given hv hword =>
    simp only [skipExtraWord, hv]
    exact turns_skipWord hword

theorem RecordAt.turns_declaredParameter {r : ParameterRecord} (h : RecordAt v src names p q r) :
    Turns src names (declaredParameter v) p q (.ok r.announced) a a := by
  cases h with
  | intro hoffset hname hmode hn htype hextra =>
    exact (turns_identifier hoffset hname).bind ((turns_word hmode).bind ((turns_word hn).bind
      ((turns_dataType htype).bind ((turns_skipExtraWord hextra).bind (turns_pure _)))))

theorem RecordAt.turns_headerParameter {r : ParameterRecord} (h : RecordAt v src names p q r) :
    Turns src names (headerParameter v) p q (.ok r.begun) a a := by
  cases h with
  | @intro _ mode n name type hoffset hname hmode hn htype hextra =>
    refine (turns_identifier hoffset hname).bind ((turns_word hmode).bind ((turns_word hn).bind ?_))
    have hend : ∀ shown, Turns src names (skipExtraWord v >>= fun _ =>
        pure (Parameter.mk name shown (mode.testBit arrayBit))) (p + 6) q
        (.ok (Parameter.mk name shown (mode.testBit 10))) a a := by
      intro shown
      exact (turns_skipExtraWord hextra).bind (turns_pure _)
    -- the type is looked up only if it stands behind `AS`
    cases has : mode.testBit 13 with
    | true =>
      simp only [asBit, ParameterRecord.begun, has]
      exact ((turns_dataType htype).bind (turns_pure (some type))).bind (hend (some type))
    | false =>
      simp only [asBit, ParameterRecord.begun, has]
      exact (turns_pure none).bind (hend none)

/-- Where one record after another is read, as many parameters come out as there are records. -/
theorem SequenceAt.turns_parameters {one : Decode Parameter} {make : ParameterRecord → Parameter}
    (hone : ∀ {p q : Nat} {r : ParameterRecord}, RecordAt v src names p q r →
      Turns src names one p q (.ok (make r)) a a)
    {records : List ParameterRecord} (h : SequenceAt (RecordAt v src names) p q records) :
    Turns src names (parameters one records.length) p q (.ok (records.map make)) a a := by
  induction h with
  | nil => exact turns_pure []
  | cons hr _ ih => exact (hone hr).bind (ih.bind (turns_pure _))

theorem turns_flaggedName {check : Nat → Decode Unit} {offset flags : Nat} {stored name : Identifier}
    (hoffset : src.natLE p 2 = .ok offset) (hstored : names offset = .ok stored)
    (hflags : src.natLE (p + 2) 2 = .ok flags)
    (hcheck : Turns src names (check flags) (p + 4) (p + 4) (.ok ()) a a)
    (hname : Suffixed v flags stored name) :
    Turns src names (flaggedName v 3 check) p (p + 4) (.ok (name, flags)) a a := by
  refine (turns_identifier hoffset hstored).bind ((turns_word hflags).bind (hcheck.bind ?_))
  cases hname with
  | plain h =>
    simp only [h]
    exact turns_pure _
  | @typed type h htype =>
    simp only [h]
    have hgiven : Turns src names (given (v.scalar (flags % 8 : Nat))) (p + 4) (p + 4) (.ok type) a a :=
      htype ▸ turns_given (v.scalar (flags % 8 : Nat))
    exact hgiven.bind (turns_pure _)

end Parameters

/-! ## Announcements -/

theorem turns_kindOfFlags {flags : Nat} {kind : ProcedureKind}
    (hsub : flags.testBit 8 = decide (kind = .sub))
    (hfunction : flags.testBit 9 = decide (kind = .function)) {a : Workspace} :
    Turns src names (given (kindOfFlags flags)) p p (.ok kind) a a := by
  have hkind : kindOfFlags flags = .ok kind := by
    rw [kindOfFlags, hsub, hfunction]
    cases kind <;> rfl
  rw [hkind]
  exact turns_given (.ok kind)

/-! ## First lines of procedures -/

/-- An action between two positions puts the first line of a procedure where nothing stands yet, and
gives the procedure its kind. The line may depend on whether the procedure has static variables. -/
def Begins (src : Source) (names : Nat → Except Fault Identifier) (m : Decode Unit) (p q : Nat)
    (kind : ProcedureKind) (first : Bool → Statement) : Prop :=
  ∀ s : State, s.identifierAt src = names → s.Has .fresh → ∃ symbols,
    m.run src p s =
      (.ok (), q, (s.turned ⟨first s.program.current.static, [], .none⟩ symbols).withKind kind)

theorem Decode.Turns.begins {α : Type} {m : Decode α} {f : α → Decode Unit} {x : α} {p₁ : Nat}
    {kind : ProcedureKind} {first : Bool → Statement}
    (hm : Turns src names m p p₁ (.ok x) .fresh .fresh) (hf : Begins src names (f x) p₁ q kind first) :
    Begins src names (m >>= f) p q kind first := by
  intro s hnames hs
  obtain ⟨symbols, hrun, hnames'⟩ := hm s hnames hs
  obtain ⟨symbols', hrun'⟩ := hf _ hnames' (hs.turned .fresh symbols)
  rw [State.turned_turned] at hrun'
  exact ⟨symbols', by rw [run_bind_ok hrun, hrun']; rfl⟩

theorem begins_procedureHeader {records : List ParameterRecord}
    (hcount : src.natLE p 2 = .ok records.length)
    (hrecords : SequenceAt (RecordAt v src names) (p + 2) q records) (kind : ProcedureKind)
    (name : Identifier) :
    Begins src names (procedureHeader v kind name) p q kind fun static =>
      .procedure ⟨kind, name, records.map ParameterRecord.begun, static, v.atLeast .vbdos⟩ := by
  have hread := hrecords.turns_parameters (a := .fresh) RecordAt.turns_headerParameter
  refine (turns_word hcount).begins (hread.begins ?_)
  intro s _ hs
  refine ⟨s.symbols, ?_⟩
  have hkind : (modifyProcedure fun p => { p with kind := some kind }).run src q s =
      (.ok (), q, s.withKind kind) := rfl
  have hstatic : procedure.run src q (s.withKind kind) =
      (.ok (s.withKind kind).program.current, q, s.withKind kind) := rfl
  have hlast : (s.withKind kind).last? = some .empty := hs.last
  rw [run_bind_ok hkind, run_bind_ok hstatic, run_put_placed hlast rfl]
  exact congrArg (fun t : State => (Except.ok (), q, t.withKind kind)) (hs.turned_statement _).symm

/-! ## Lines that announce or begin a procedure -/

/-- What has become of a state that had nothing on its last line, once an announcement or the first
line of a procedure has been put there. -/
structure HasHeading (v : Version) (s : State) (head : Heading) (t : State) : Prop where
  stack : t.stack = []
  lines : t.program.current.lines = s.program.current.lines.modifyHead fun l =>
    l.setLast (head.statement v s.program.current.static)
  kind : ∀ kind, head.begun? = some kind → t.program.current.kind = some kind

theorem InstructionAt.begins {code parameter : Nat} {handler : Handler} {kind : ProcedureKind}
    {name : Identifier} {records : List ParameterRecord} {s : State}
    (h : InstructionAt v src p code parameter) (hlookup : table.lookup code = some handler)
    (hbegins : Begins src (s.identifierAt src) (handler v parameter) (p + 2) q kind fun static =>
      Heading.statement v static (.procedure kind name records)) (hs : s.Has .fresh) :
    ∃ t, (step v).run src p s = (.ok (), q, t) ∧
      HasHeading v s (.procedure kind name records) t := by
  obtain ⟨symbols, hrun⟩ := hbegins s rfl hs
  refine ⟨_, (h.run_step hlookup s).trans hrun, rfl, rfl, ?_⟩
  rintro _ ⟨⟩
  rfl

/-- The instruction puts exactly the line that it stands for, and nothing behind it has been read. -/
theorem HeadingAt.run_step {head : Heading} {s : State}
    (h : HeadingAt v src (s.identifierAt src) p q head) (hs : s.Has .fresh) :
    ∃ t, (step v).run src p s = (.ok (), q, t) ∧ HasHeading v s head t := by
  cases h with
  | @declare q parameter ignored offset flags kind stored name records externalName filling h hword
      hoffset hstored hflags hsub hfunction hname hcount hlisted hrecords hlength hfilling hexternal
      hfilled =>
    have hturns : Turns src (s.identifierAt src) (declareProcedure v) (p + 2)
        (q + externalName.length + filling.length) (.ok ()) .fresh
        ⟨Heading.statement v s.program.current.static
          (.declare kind name records (flags.testBit 15) externalName), [], .none⟩ := by
      refine (turns_skipWord hword).bind ((turns_flaggedName hoffset hstored hflags
        ((turns_kindOfFlags hsub hfunction).bind (turns_pure ())) hname).bind
          ((turns_kindOfFlags hsub hfunction).bind ((turns_word hcount).bind ?_)))
      rw [if_neg (Nat.ne_of_lt hlisted)]
      refine ((hrecords.turns_parameters RecordAt.turns_declaredParameter).bind
        (turns_pure (some _))).bind ?_
      rw [hlength]
      refine (turns_bytes hexternal).bind ?_
      rw [← hfilling]
      exact (turns_bytes hfilled).bind (turns_put rfl)
    obtain ⟨symbols, hrun, -⟩ := hturns s rfl hs
    refine ⟨_, (h.run_step rfl s).trans hrun, rfl, rfl, ?_⟩
    rintro _ ⟨⟩
  | function h hword hoffset hstored hflags hname hcount hrecords =>
    exact h.begins rfl ((turns_skipWord hword).begins
      ((turns_flaggedName hoffset hstored hflags (turns_pure ()) hname).begins
        (begins_procedureHeader hcount hrecords .function _))) hs
  | sub h hword hoffset hname hflags hcount hrecords =>
    exact h.begins rfl ((turns_skipWord hword).begins ((turns_identifier hoffset hname).begins
      ((turns_skipWord hflags).begins (begins_procedureHeader hcount hrecords .sub _)))) hs

/-- **Procedures and their parameters.** Let a new line have the instruction of `DECLARE`, `FUNCTION` or
`SUB` with its parameter records and, for `DECLARE`, the name in other programs. Decoding succeeds, and
the line has exactly this statement: its parameters are those of the records, in their order, each of
them an array if its modes say so, with the type of its number, which `FUNCTION` and `SUB` show behind
`AS` only; the name in other programs has exactly the bytes behind the last record. `FUNCTION` and `SUB`
give the procedure its kind. Decoding goes on behind the records, the name and the byte that fills it
up, whatever stands there. -/
theorem heading_on_line {s : State} {pos indent : Nat} {label : Option Identifier} {head : Heading}
    (hline : LineAt v src (s.identifierAt src) pos p label indent)
    (h : HeadingAt v src (s.identifierAt src) p q head) :
    ∃ t l, (∀ fin, q ≤ fin →
        (instructions v fin).run src pos s = (instructions v fin).run src q t) ∧
      t.stack = [] ∧ t.program.current.lines = l :: s.program.current.lines ∧
      l.statements = [head.statement v s.program.current.static] ∧
      ∀ kind, head.begun? = some kind → t.program.current.kind = some kind := by
  obtain ⟨s₁, hnew, hfresh, hnames, hlines⟩ := hline.run_step
  rw [← hnames] at h
  obtain ⟨t, hstep, ht⟩ := h.run_step hfresh
  have hstatic : s₁.program.current.static = s.program.current.static := by
    have hchanges := changes_step v src pos s
    rw [hnew] at hchanges
    exact hchanges.keeps.static
  have hproceeds : Proceeds v src (pos, s) (q, t) := (Proceeds.step .refl hnew).step hstep
  refine ⟨t, (Line.start label indent).setLast (head.statement v s.program.current.static),
    fun fin hfin => hproceeds.run_instructions hfin, ht.stack, ?_, rfl, ht.kind⟩
  rw [ht.lines, hlines, hstatic, List.modifyHead_cons]

/-- A file of version 7.1 with the announcement of a function that has an array and a number for its
parameters, and three bytes for its name in other programs. -/
def announcementFile : Source :=
  laterFile [0x00, 0x00, 0x44, 0x00, 0x00, 0x00, 0x00, 0x00, 0x81, 0x8E, 0x02, 0x00, 0x00, 0x00, 0x00,
    0x04, 0x05, 0x80, 0x00, 0x00, 0x00, 0x00, 0x00, 0x00, 0x01, 0x00, 0x00, 0x00, 0x61, 0x62, 0x63,
    0x00]

/-- A line that begins a function with the same parameters, of which one shows its type. -/
def functionFile : Source :=
  lineFile [0x58, 0x00, 0x00, 0x00, 0x00, 0x00, 0x00, 0x02, 0x02, 0x00, 0x00, 0x00, 0x00, 0x24, 0x05,
    0x80, 0x00, 0x00, 0x00, 0x00, 0x01, 0x00]

/-- The records of these parameters, with the modes of the first one. -/
def arrayAndNumber (mode : Nat) : List ParameterRecord :=
  [⟨nameA, mode, .fixedString 5⟩, ⟨nameA, 0, .scalar .integer⟩]

theorem headings_decoded :
    (∃ t l, (∀ fin, 0x43 ≤ fin → (instructions .qb71 fin).run announcementFile 0x23 (.start .qb71) =
        (instructions .qb71 fin).run announcementFile 0x43 t) ∧
      t.stack = [] ∧ t.program.current.lines = [l] ∧
      l.statements = [.declare ⟨.function, nameA.withSuffix .integer,
        some [⟨nameA, some (.fixedString 5), true⟩, ⟨nameA, some (.scalar .integer), false⟩], true,
        [0x61, 0x62, 0x63]⟩]) ∧
    ∃ t l, (∀ fin, 0x3A ≤ fin → (instructions .qb45 fin).run functionFile 0x22 (.start .qb45) =
        (instructions .qb45 fin).run functionFile 0x3A t) ∧
      t.stack = [] ∧ t.program.current.lines = [l] ∧ t.program.current.kind = some .function ∧
      l.statements = [.procedure ⟨.function, nameA,
        [⟨nameA, some (.fixedString 5), true⟩, ⟨nameA, none, false⟩], false, false⟩] := by
  constructor
  · have hrecords : SequenceAt (RecordAt .qb71 announcementFile
        ((State.start .qb71).identifierAt announcementFile)) 0x2F 0x3F (arrayAndNumber 0x0400) :=
      .cons (.intro rfl rfl rfl rfl (.fixedString (by decide) (by decide)) (.given rfl rfl))
        (.cons (.intro rfl rfl rfl rfl (.scalar (by decide) rfl) (.given rfl rfl)) .nil)
    have hheading : HeadingAt .qb71 announcementFile
        ((State.start .qb71).identifierAt announcementFile) 0x25 0x43
        (.declare .function (nameA.withSuffix .integer) (arrayAndNumber 0x0400) true
          [0x61, 0x62, 0x63]) :=
      @HeadingAt.declare .qb71 announcementFile _ 0x25 0x3F 0 0 0 0x8E81 .function nameA _ _
        [0x61, 0x62, 0x63] [0x00] ⟨_, rfl, rfl⟩ rfl rfl rfl rfl rfl rfl (.typed rfl rfl) rfl (by decide)
        hrecords rfl rfl ⟨_, rfl⟩ ⟨_, rfl⟩
    obtain ⟨t, l, hrun, hstack, hlines, hstatements, -⟩ :=
      heading_on_line (.plain ⟨_, rfl, rfl⟩) hheading
    exact ⟨t, l, hrun, hstack, hlines, hstatements⟩
  · have hrecords : SequenceAt (RecordAt .qb45 functionFile
        ((State.start .qb45).identifierAt functionFile)) 0x2E 0x3A (arrayAndNumber 0x2400) :=
      .cons (.intro rfl rfl rfl rfl (.fixedString (by decide) (by decide)) (.missing rfl))
        (.cons (.intro rfl rfl rfl rfl (.scalar (by decide) rfl) (.missing rfl)) .nil)
    have hheading : HeadingAt .qb45 functionFile ((State.start .qb45).identifierAt functionFile) 0x24 0x3A
        (.procedure .function nameA (arrayAndNumber 0x2400)) :=
      .function ⟨_, rfl, rfl⟩ rfl rfl rfl rfl (.plain rfl) rfl hrecords
    obtain ⟨t, l, hrun, hstack, hlines, hstatements, hkind⟩ :=
      heading_on_line (.plain ⟨_, rfl, rfl⟩) hheading
    exact ⟨t, l, hrun, hstack, hlines, hkind _ rfl, hstatements⟩

end SavedBasic
