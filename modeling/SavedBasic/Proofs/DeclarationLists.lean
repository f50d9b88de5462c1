import SavedBasic.Proofs.Workspace

/-!
# Lists of declarations

`DIM`, `SHARED`, `STATIC` and `COMMON` are followed by their declarations, each of which takes several
instructions: its bounds are pushed, its type waits at the end of the statement, and its name takes
both. Nothing waits when a declaration has got its name, so each declaration gets its own bounds and its
own type, and none is merged with its neighbour or split. In the text, the `AS` of a declaration stands
at the column that was stored for it, counted from the start of the line, or one space behind the name
and the bounds if these reach further.
-/

namespace SavedBasic

open Decode Instruction

variable {v : Version} {src : Source} {names : Nat → Except Fault Identifier} {p q : Nat}

/-! ## Declarations -/

/-- The bounds of one dimension of an array. -/
structure Bound where
  /-- the lower bound, if it is not the default -/
  lower : Option Expr
  /-- the upper bound -/
  upper : Expr

/-- The type behind `AS`. -/
structure AsClause where
  /-- the type -/
  type : DataType
  /-- the column of `AS` -/
  column : Nat

/-- A variable that is declared. -/
structure Declared where
  /-- the name -/
  name : Identifier
  /-- the bounds, if it is an array -/
  bounds : Option (List Bound)
  /-- the type behind `AS` -/
  clause : Option AsClause

/-- A statement with a list of declarations. -/
structure DeclarationList where
  /-- the statement -/
  kind : DeclarationKind
  /-- the name of the common block -/
  block : Option Identifier
  /-- whether `SHARED` stands behind the keyword -/
  shared : Bool
  /-- the declarations -/
  items : List Declared

/-- The declaration that waits for its name when its type has arrived. -/
def AsClause.pending (clause : AsClause) : PendingDeclaration :=
  ⟨some clause.type, clause.column⟩

namespace Bound

/-- What is pushed for the bounds of a dimension. -/
def operands (b : Bound) : List Expr :=
  [b.lower.getD .omitted, b.upper]

/-- The expressions of a dimension. -/
def values (b : Bound) : List Expr :=
  b.lower.toList ++ [b.upper]

def text (b : Bound) (texts : Expr → String) : String :=
  b.lower.elim "" (texts · ++ " TO ") ++ texts b.upper

end Bound

namespace Declared

/-- The declaration as the statement has it. -/
def item (d : Declared) : VariableDeclaration where
  name := .identifier d.name
  type := d.clause.map AsClause.type
  column := (d.clause.map AsClause.column).getD 0
  bounds := d.bounds.map (List.flatMap Bound.operands)

/-- The expressions of a declaration. -/
def values (d : Declared) : List Expr :=
  (d.bounds.getD []).flatMap Bound.values

/-- The name and the bounds. -/
def named (d : Declared) (texts : Expr → String) : String :=
  d.name.render ++ d.bounds.elim "" fun bounds =>
    "(" ++ Text.join ", " (bounds.map (Bound.text · texts)) ++ ")"

/-- A line with a declaration behind it. -/
def addTo (texts : Expr → String) (line : String) (d : Declared) : String :=
  d.clause.elim (line ++ d.named texts) fun clause =>
    Text.padTo (max clause.column ((line ++ d.named texts).length + 1)) (line ++ d.named texts) ++
      "AS " ++ clause.type.name

end Declared

/-- A line with declarations behind it, and a separator in front of the first one. -/
def withDeclared (texts : Expr → String) (line separator : String) : List Declared → String
  | [] => line
  | d :: ds => withDeclared texts (d.addTo texts (line ++ separator)) ", " ds

namespace DeclarationList

/-- The statement that is decoded. -/
def statement (ds : DeclarationList) : Statement :=
  .declarations ⟨some ds.kind, ds.block, if ds.shared then some "SHARED" else none,
    ds.items.map Declared.item, none⟩

/-- The expressions of a list of declarations. -/
def values (ds : DeclarationList) : List Expr :=
  ds.items.flatMap Declared.values

/-- What stands in front of the declarations. -/
def head (ds : DeclarationList) : String :=
  ds.kind.word ++ " " ++ (if ds.shared then "SHARED " else "") ++
    ds.block.elim "" fun name => "/" ++ name.render ++ "/ "

/-- The text of a line with some of the declarations; `margin` is what stands in front of them all. -/
def lineWith (ds : DeclarationList) (texts : Expr → String) (margin : String) (items : List Declared) :
    String :=
  withDeclared texts (margin ++ ds.head) "" items

/-- The text of a line up to the end of the name and the bounds of a declaration. -/
def lineUpTo (ds : DeclarationList) (texts : Expr → String) (margin : String) (before : List Declared)
    (d : Declared) : String :=
  ds.lineWith texts margin before ++ (if before.isEmpty then "" else ", ") ++ d.named texts

end DeclarationList

/-! ## How they are written -/

/-- From `p` to `q` a file has the instructions of the bounds of a dimension. -/
inductive BoundAt (v : Version) (src : Source) (names : Nat → Except Fault Identifier) (p : Nat) :
    (q : Nat) → Bound → Prop where
  | given {q r : Nat} {lower upper : Expr} (hlower : Pushed v src names p q [lower])
    (hupper : Pushed v src names q r [upper]) : BoundAt v src names p r ⟨some lower, upper⟩
  | default {q parameter : Nat} {upper : Expr} (h : InstructionAt v src p 0x0018 parameter)
    (hupper : Pushed v src names (p + 2) q [upper]) : BoundAt v src names p q ⟨none, upper⟩

/-- A number stands for a type. -/
inductive TypeNumber (v : Version) (names : Nat → Except Fault Identifier) : Nat → DataType → Prop where
  | any : TypeNumber v names 0 .any
  | scalar {n : Nat} {type : Scalar} (hle : n ≤ v.lastScalar) (h : v.scalar n = .ok type) :
    TypeNumber v names n (.scalar type)
  | fixedString {n : Nat} (hlt : v.lastScalar < n) (hbit : n.testBit 15 = true) :
    TypeNumber v names n (.fixedString (n % 0x8000))
  | custom {n : Nat} {name : Identifier} (hlt : v.lastScalar < n) (hbit : n.testBit 15 = false)
    (h : names n = .ok name) : TypeNumber v names n (.custom name)

/-- From `p` to `q` a file has the instruction of an `AS` clause, or nothing. -/
inductive ClauseAt (v : Version) (src : Source) (names : Nat → Except Fault Identifier) (p : Nat) :
    (q : Nat) → Option AsClause → Prop where
  | missing : ClauseAt v src names p p none
  | numbered {parameter n column : Nat} {type : DataType} (h : InstructionAt v src p 0x0015 parameter)
    (hn : src.natLE (p + 2) 2 = .ok n) (hcolumn : src.natLE (p + 4) 2 = .ok column)
    (htype : TypeNumber v names n type) : ClauseAt v src names p (p + 6) (some ⟨type, column⟩)
  | scalar {parameter n column : Nat} {type : Scalar} (h : InstructionAt v src p 0x0016 parameter)
    (hn : src.natLE (p + 2) 2 = .ok n) (hcolumn : src.natLE (p + 4) 2 = .ok column)
    (htype : v.scalar n = .ok type) : ClauseAt v src names p (p + 6) (some ⟨.scalar type, column⟩)
  | fixedString {parameter ignored length column : Nat} (h : InstructionAt v src p 0x017C parameter)
    (hword : src.natLE (p + 2) 2 = .ok ignored) (hlength : src.natLE (p + 4) 2 = .ok length)
    (hcolumn : src.natLE (p + 6) 2 = .ok column) :
    ClauseAt v src names p (p + 8) (some ⟨.fixedString length, column⟩)

/-- From `p` to `q` a file has the instructions of a declaration. -/
inductive DeclaredAt (v : Version) (src : Source) (names : Nat → Except Fault Identifier) (p : Nat) :
    (q : Nat) → Declared → Prop where
  | simple {q type offset : Nat} {clause : Option AsClause} {name : Identifier}
    (hclause : ClauseAt v src names p q clause) (h : InstructionAt v src q 0x000D type)
    (hname : Named v names type offset name) (hoffset : src.Holds (q + 2) (Bytes.u16 offset)) :
    DeclaredAt v src names p (q + 4) ⟨name, none, clause⟩
  | array {q r type offset : Nat} {bounds : List Bound} {clause : Option AsClause} {name : Identifier}
    (hbounds : SequenceAt (BoundAt v src names) p q bounds) (hclause : ClauseAt v src names q r clause)
    (h : InstructionAt v src r 0x0010 type) (hcount : src.natLE (r + 2) 2 = .ok (2 * bounds.length))
    (hname : Named v names type offset name) (hoffset : src.Holds (r + 4) (Bytes.u16 offset)) :
    DeclaredAt v src names p (r + 6) ⟨name, some bounds, clause⟩

/-- From `p` to `q` a file has the mark of `SHARED` behind the keyword, or nothing. -/
inductive SharedAt (v : Version) (src : Source) (p : Nat) : (q : Nat) → (shared : Bool) → Prop where
  | marked {parameter : Nat} (h : InstructionAt v src p 0x001A parameter) :
    SharedAt v src p (p + 2) true
  | unmarked : SharedAt v src p p false

/-- From `p` to `q` a file has the instruction of a statement that declares variables. -/
inductive KeywordAt (v : Version) (src : Source) (names : Nat → Except Fault Identifier) (p : Nat) :
    (q : Nat) → DeclarationKind → (block : Option Identifier) → Prop where
  | dim {parameter ignored : Nat} (h : InstructionAt v src p 0x017D parameter)
    (hword : src.natLE (p + 2) 2 = .ok ignored) : KeywordAt v src names p (p + 4) .dim none
  | shared {parameter ignored : Nat} (h : InstructionAt v src p 0x001E parameter)
    (hword : src.natLE (p + 2) 2 = .ok ignored) : KeywordAt v src names p (p + 4) .shared none
  | static {parameter ignored : Nat} (h : InstructionAt v src p 0x001F parameter)
    (hword : src.natLE (p + 2) 2 = .ok ignored) : KeywordAt v src names p (p + 4) .static none
  | common {parameter ignored : Nat} (h : InstructionAt v src p 0x00A5 parameter)
    (hword : src.natLE (p + 2) 2 = .ok ignored) (hoffset : src.natLE (p + 4) 2 = .ok 0xFFFF) :
    KeywordAt v src names p (p + 6) .common none
  | block {parameter ignored offset : Nat} {name : Identifier}
    (h : InstructionAt v src p 0x00A5 parameter) (hword : src.natLE (p + 2) 2 = .ok ignored)
    (hoffset : src.natLE (p + 4) 2 = .ok offset) (hne : offset ≠ 0xFFFF)
    (hname : names offset = .ok name) : KeywordAt v src names p (p + 6) .common (some name)

/-- From `p` to `q` a file has the instructions of a list of declarations. -/
inductive DeclarationsAt (v : Version) (src : Source) (names : Nat → Except Fault Identifier)
    (p q : Nat) (ds : DeclarationList) : Prop where
  | intro {p₁ p₂ : Nat} (hshared : SharedAt v src p p₁ ds.shared)
    (hkeyword : KeywordAt v src names p₁ p₂ ds.kind ds.block)
    (hitems : SequenceAt (DeclaredAt v src names) p₂ q ds.items)

/-! ## How they are decoded -/

theorem BoundAt.pushed {b : Bound} (h : BoundAt v src names p q b) :
    Pushed v src names p q b.operands := by
  cases h with
  | given hlower hupper => exact hlower.append hupper
  | default h hupper => exact (h.pushed rfl).append hupper

theorem length_operands (bounds : List Bound) :
    (bounds.flatMap Bound.operands).length = 2 * bounds.length := by
  induction bounds with
  | nil => rfl
  | cons b bounds ih =>
    have htwo : b.operands.length = 2 := rfl
    rw [List.flatMap_cons, List.length_append, ih, htwo, List.length_cons]
    omega

section Turns

variable {kind : Option DeclarationKind} {block : Option Identifier} {mode : Option String}
  {items : List VariableDeclaration} {pending : Option PendingDeclaration} {stack : List Expr}
  {a : Arguments}

theorem turns_dataType {n : Nat} {type : DataType} (h : TypeNumber v names n type) {a : Workspace} :
    Turns src names (dataType v n) p p (.ok type) a a := by
  rw [dataType]
  cases h with
  | any => exact turns_pure _
  | scalar hle h =>
    obtain ⟨hone, -⟩ := scalar_ok h
    rw [if_neg (by omega), if_pos (by omega), h]
    exact turns_pure _
  | fixedString hlt hbit =>
    rw [if_neg (by omega), if_neg (by omega), Int.toNat_natCast, if_pos hbit]
    exact turns_pure _
  | custom hlt hbit h =>
    rw [if_neg (by omega), if_neg (by omega), Int.toNat_natCast, if_neg (by rw [hbit]; decide)]
    exact (turns_identifierAt h).bind (turns_pure _)

theorem turns_amendDeclarations (f : Declarations → Declarations) {d : Declarations} :
    Turns src names (amendDeclarations f) p p (.ok ()) ⟨.declarations d, stack, a⟩
      ⟨.declarations (f d), stack, a⟩ :=
  turns_amend rfl

/-- A declaration that waits for its name goes on waiting, or begins to. -/
theorem turns_declaration :
    Turns src names declaration p p (.ok ())
      ⟨.declarations ⟨kind, block, mode, items, pending⟩, stack, a⟩
      ⟨.declarations ⟨kind, block, mode, items, some (pending.getD ⟨none, 0⟩)⟩, stack, a⟩ :=
  (turns_continueWith (.same rfl)).bind (turns_amendDeclarations _)

theorem turns_typeDeclaration (type : DataType) (column : Nat) :
    Turns src names (typeDeclaration type column) p p (.ok ())
      ⟨.declarations ⟨kind, block, mode, items, some ⟨none, 0⟩⟩, stack, a⟩
      ⟨.declarations ⟨kind, block, mode, items, some ⟨some type, column⟩⟩, stack, a⟩ :=
  turns_lastStatement.bind (turns_amendDeclarations _)

/-- The type waits for the name. -/
theorem ClauseAt.carries {clause : Option AsClause} (h : ClauseAt v src names p q clause) :
    Carries v src names p q ⟨.declarations ⟨kind, block, mode, items, none⟩, stack, a⟩
      ⟨.declarations ⟨kind, block, mode, items, clause.map AsClause.pending⟩, stack, a⟩ := by
  cases h with
  | missing => exact .refl
  | numbered h hn hcolumn htype =>
    exact h.carries rfl ((turns_word hn).bind ((turns_word hcolumn).bind (turns_declaration.bind
      ((turns_dataType htype).bind (turns_typeDeclaration _ _)))))
  | @scalar _ n _ type h hn hcolumn htype =>
    have hgiven : ∀ {p : Nat} {a : Workspace},
        Turns src names (given (v.scalar n)) p p (.ok type) a a := htype ▸ turns_given (v.scalar n)
    exact h.carries rfl ((turns_word hn).bind ((turns_word hcolumn).bind (turns_declaration.bind
      (hgiven.bind (turns_typeDeclaration _ _)))))
  | fixedString h hword hlength hcolumn =>
    exact h.carries rfl ((turns_skipWord hword).bind ((turns_word hlength).bind
      ((turns_word hcolumn).bind (turns_declaration.bind (turns_typeDeclaration _ _)))))

/-- The name takes the bounds and the type that waits, and nothing waits any more. -/
theorem turns_named (name : Identifier) (bounds : Option (List Expr)) (clause : Option AsClause) :
    Turns src names (declaration >>= fun _ => nameDeclaration (.identifier name) bounds) p p (.ok ())
      ⟨.declarations ⟨kind, block, mode, items, clause.map AsClause.pending⟩, stack, a⟩
      ⟨.declarations ⟨kind, block, mode, items ++ [⟨.identifier name, clause.map AsClause.type,
        (clause.map AsClause.column).getD 0, bounds⟩], none⟩, stack, a⟩ := by
  refine turns_declaration.bind ?_
  cases clause <;> exact turns_amendDeclarations _

/-- A declaration is added, and nothing else changes. -/
theorem DeclaredAt.carries (hv : v ≠ .qb40) {d : Declared} (h : DeclaredAt v src names p q d) :
    Carries v src names p q ⟨.declarations ⟨kind, block, mode, items, none⟩, stack, a⟩
      ⟨.declarations ⟨kind, block, mode, items ++ [d.item], none⟩, stack, a⟩ := by
  cases h with
  | simple hclause h hname hoffset =>
    exact hclause.carries.trans (h.carries rfl ((turns_identifierOf hname hoffset).bind
      (turns_named _ none _)))
  | @array _ _ _ _ bounds _ _ hbounds hclause h hcount hname hoffset =>
    rw [← length_operands] at hcount
    have hpushed := hbounds.pushed BoundAt.pushed
    refine (hpushed.carries _ _ _).trans (hclause.carries.trans (h.carries rfl ?_))
    rw [if_neg hv]
    exact (turns_word hcount).bind ((turns_identifierOf hname hoffset).bind
      ((turns_popMany _).bind (turns_named _ (some _) _)))

/-- At the end of a line stands a statement that declares variables, or nothing, so that one begins
here. -/
abbrev Declares (st : Statement) (d : Declarations) : Prop :=
  Continues isDeclarations Statement.emptyDeclarations st (.declarations d)

theorem SharedAt.carries (names : Nat → Except Fault Identifier) {shared : Bool}
    (h : SharedAt v src p q shared) :
    ∃ st, Declares st ⟨none, none, if shared then some "SHARED" else none, [], none⟩ ∧
      Carries v src names p q .fresh ⟨st, [], .none⟩ := by
  cases h with
  | marked h =>
    exact ⟨_, .same rfl, h.carries rfl ((turns_continueWith (.placed rfl rfl)).bind
      (turns_lastStatement.bind (turns_amendDeclarations _)))⟩
  | unmarked => exact ⟨_, .placed rfl rfl, .refl⟩

theorem turns_declareAs {st : Statement} (h : Declares st ⟨none, block, mode, items, pending⟩)
    (kind : DeclarationKind) :
    Turns src names (declareAs kind) p p (.ok ()) ⟨st, stack, a⟩
      ⟨.declarations ⟨some kind, block, mode, items, pending⟩, stack, a⟩ :=
  (turns_continueWith h).bind (turns_lastStatement.bind (turns_amendDeclarations _))

theorem KeywordAt.carries {st : Statement} {kind : DeclarationKind}
    (h : KeywordAt v src names p q kind block) (hst : Declares st ⟨none, none, mode, items, pending⟩) :
    Carries v src names p q ⟨st, stack, a⟩
      ⟨.declarations ⟨some kind, block, mode, items, pending⟩, stack, a⟩ := by
  cases h with
  | dim h hword => exact h.carries rfl ((turns_declareAs hst _).bind (turns_skipWord hword))
  | shared h hword => exact h.carries rfl ((turns_skipWord hword).bind (turns_declareAs hst _))
  | static h hword => exact h.carries rfl ((turns_skipWord hword).bind (turns_declareAs hst _))
  | common h hword hoffset =>
    exact h.carries rfl ((turns_skipWord hword).bind ((turns_word hoffset).bind
      ((turns_pure none).bind ((turns_declareAs hst _).bind (turns_amendDeclarations _)))))
  | block h hword hoffset hne hname =>
    refine h.carries rfl ((turns_skipWord hword).bind ((turns_word hoffset).bind ?_))
    rw [if_neg hne]
    exact ((turns_identifierAt hname).bind (turns_pure (some _))).bind
      ((turns_declareAs hst _).bind (turns_amendDeclarations _))

end Turns

/-- The instructions of a list of declarations put exactly this list on a new line. -/
theorem DeclarationsAt.carries (hv : v ≠ .qb40) {ds : DeclarationList}
    (h : DeclarationsAt v src names p q ds) :
    Carries v src names p q .fresh ⟨ds.statement, [], .none⟩ := by
  let Added (done : List Declared) (b : Workspace) : Prop :=
    b = ⟨.declarations ⟨some ds.kind, ds.block, if ds.shared then some "SHARED" else none,
      done.map Declared.item, none⟩, [], .none⟩
  have hadds : ∀ {p q : Nat} {d : Declared} {done : List Declared} {b : Workspace},
      DeclaredAt v src names p q d → Added done b →
        ∃ b', Added (done ++ [d]) b' ∧ Carries v src names p q b b' := by
    rintro p q d done _ hd rfl
    refine ⟨_, ?_, hd.carries hv⟩
    change _ = _
    rw [List.map_append]
    rfl
  cases h with
  | intro hshared hkeyword hitems =>
    obtain ⟨st, hst, hmarked⟩ := hshared.carries names
    obtain ⟨_, rfl, hlisted⟩ := hitems.carries Added hadds (show Added [] _ from rfl)
    exact (hmarked.trans (hkeyword.carries hst)).trans hlisted

/-! ## Their texts -/

section Texts

variable {texts : Expr → String}

theorem renderBounds_cons {b : Bound} (h : ∀ e ∈ b.values, e.render = .ok (texts e))
    (rest : List Expr) :
    renderBounds (b.operands ++ rest) = (renderBounds rest).map (b.text texts :: ·) := by
  obtain ⟨lower, upper⟩ := b
  have hupper : upper.render = .ok (texts upper) := h upper (by simp [Bound.values])
  cases lower with
  | none =>
    change renderBounds (.omitted :: upper :: rest) = _
    rw [renderBounds, hupper]
    cases renderBounds rest with
    | error fault => rfl
    | ok bounds => exact congrArg (fun text => Except.ok (text :: bounds)) String.empty_append.symm
  | some lower =>
    have hlower : lower.render = .ok (texts lower) := h lower (by simp [Bound.values])
    have hcons : renderBounds (lower :: upper :: rest) = lower.render >>= fun first =>
        upper.render >>= fun last => (renderBounds rest).map ((first ++ " TO " ++ last) :: ·) := by
      cases lower with
      | omitted => cases hlower
      | _ => rfl
    change renderBounds (lower :: upper :: rest) = _
    rw [hcons, hlower, hupper]
    rfl

theorem renderBounds_operands {bounds : List Bound}
    (h : ∀ e ∈ bounds.flatMap Bound.values, e.render = .ok (texts e)) :
    renderBounds (bounds.flatMap Bound.operands) = .ok (bounds.map (Bound.text · texts)) := by
  induction bounds with
  | nil => rfl
  | cons b bounds ih =>
    rw [List.flatMap_cons] at h
    rw [List.flatMap_cons, renderBounds_cons fun e he => h e (List.mem_append_left _ he),
      ih fun e he => h e (List.mem_append_right _ he)]
    rfl

namespace Declared

theorem render_item {d : Declared} (h : ∀ e ∈ d.values, e.render = .ok (texts e)) (column : Nat) :
    d.item.render column =
      .ok (renderTyped column (d.named texts) d.item.type d.item.column) := by
  obtain ⟨name, bounds, clause⟩ := d
  cases bounds with
  | none => rfl
  | some bounds =>
    have hbounds : renderBounds (bounds.flatMap Bound.operands) =
        .ok (bounds.map (Bound.text · texts)) := renderBounds_operands h
    have hdimensions : renderDimensions (bounds.flatMap Bound.operands) =
        .ok ("(" ++ Text.join ", " (bounds.map (Bound.text · texts)) ++ ")") := by
      rw [renderDimensions, hbounds]
      rfl
    have hrender : (item ⟨name, some bounds, clause⟩).render column =
        renderDimensions (bounds.flatMap Bound.operands) >>= fun dimensions =>
          .ok (renderTyped column (name.render ++ dimensions) (item ⟨name, some bounds, clause⟩).type
            (item ⟨name, some bounds, clause⟩).column) := rfl
    rw [hrender, hdimensions]
    rfl

/-- `AS` is brought to its column. -/
theorem append_renderTyped (d : Declared) (line : String) :
    line ++ renderTyped line.length (d.named texts) d.item.type d.item.column = d.addTo texts line := by
  rcases hclause : d.clause with _ | clause
  · rw [item, addTo, hclause]
    rfl
  · have hgap : max 1 (clause.column - (line.length + (d.named texts).length)) =
        max clause.column ((line ++ d.named texts).length + 1) - (line ++ d.named texts).length := by
      rw [String.length_append]
      omega
    rw [item, addTo, hclause]
    change line ++ (d.named texts ++ Text.spaces (max 1 (clause.column - (line.length +
      (d.named texts).length))) ++ "AS " ++ clause.type.name) =
        line ++ d.named texts ++ Text.spaces _ ++ "AS " ++ clause.type.name
    rw [hgap, String.append_assoc, String.append_assoc, String.append_assoc, String.append_assoc,
      String.append_assoc]

end Declared

/-- Declarations are added to a line one by one. -/
theorem renderDeclarations_eq {items : List Declared}
    (h : ∀ e ∈ items.flatMap Declared.values, e.render = .ok (texts e)) (margin text : String)
    (first : Bool) :
    (renderDeclarations margin.length text first (items.map Declared.item)).map (margin ++ ·) =
      .ok (withDeclared texts (margin ++ text) (if first then "" else ", ") items) := by
  induction items generalizing text first with
  | nil => rfl
  | cons d items ih =>
    rw [List.flatMap_cons] at h
    have hitem := Declared.render_item fun e he => h e (List.mem_append_left _ he)
    have hrest := ih fun e he => h e (List.mem_append_right _ he)
    -- the text so far, with the separator
    have hcons : ∀ line, (if first then text else text ++ ", ") = line →
        renderDeclarations margin.length text first (d.item :: items.map Declared.item) =
          d.item.render (margin.length + line.length) >>= fun added =>
            renderDeclarations margin.length (line ++ added) false (items.map Declared.item) := by
      rintro line rfl
      rfl
    have hline : (if first then text else text ++ ", ") = text ++ if first then "" else ", " := by
      cases first
      · rfl
      · exact String.append_empty.symm
    have hlength : margin.length + (text ++ if first then "" else ", ").length =
        (margin ++ text ++ if first then "" else ", ").length := by
      rw [String.append_assoc, String.length_append margin]
    rw [List.map_cons, hcons _ hline, hitem, hlength, withDeclared, ← d.append_renderTyped]
    have hadded := hrest ((text ++ if first then "" else ", ") ++
      renderTyped (margin ++ text ++ if first then "" else ", ").length (d.named texts) d.item.type
        d.item.column) false
    rw [← String.append_assoc, ← String.append_assoc] at hadded
    exact hadded

/-! ### Where a declaration stands -/

/-- What is added to a line stands behind it. -/
theorem exists_withDeclared_eq (texts : Expr → String) (line separator : String)
    (items : List Declared) :
    ∃ behind, withDeclared texts line separator items = line ++ behind := by
  induction items generalizing line separator with
  | nil => exact ⟨"", String.append_empty.symm⟩
  | cons d items ih =>
    obtain ⟨behind, hbehind⟩ := ih (d.addTo texts (line ++ separator)) ", "
    rw [withDeclared, hbehind, ← d.append_renderTyped, String.append_assoc, String.append_assoc]
    exact ⟨_, rfl⟩

/-- A declaration is added to a line with those in front of it. -/
theorem withDeclared_append (line separator : String) (before : List Declared) (d : Declared)
    (behind : List Declared) :
    withDeclared texts line separator (before ++ d :: behind) =
      withDeclared texts (d.addTo texts (withDeclared texts line separator before ++
        if before.isEmpty then separator else ", ")) ", " behind := by
  induction before generalizing line separator with
  | nil => rfl
  | cons d' before ih =>
    rw [List.cons_append, withDeclared, ih, ite_self]
    rfl

namespace DeclarationList

theorem render_statement {ds : DeclarationList} (h : ∀ e ∈ ds.values, e.render = .ok (texts e))
    (margin : String) :
    (ds.statement.render margin.length).map (margin ++ ·) =
      .ok (ds.lineWith texts margin ds.items) := by
  have hhead : ((some ds.kind).map DeclarationKind.word).getD "????" ++ " " ++
      ((if ds.shared then some "SHARED" else none).map (· ++ " ")).getD "" ++
      (ds.block.map fun name => "/" ++ name.render ++ "/ ").getD "" = ds.head := by
    rw [head]
    cases ds.shared <;> cases ds.block <;> rfl
  have hrender : ds.statement.render margin.length =
      renderDeclarations margin.length ds.head true (ds.items.map Declared.item) >>= pure := by
    rw [← hhead]
    rfl
  rw [hrender, bind_pure]
  exact renderDeclarations_eq h margin ds.head true

/-- `AS` starts at its column, or one space behind the name and the bounds. -/
theorem exists_lineWith_eq (ds : DeclarationList) (margin : String) {before behind : List Declared}
    {d : Declared} {clause : AsClause} (hclause : d.clause = some clause) :
    ∃ gap back, ds.lineWith texts margin (before ++ d :: behind) =
        ds.lineUpTo texts margin before d ++ Text.spaces gap ++ "AS " ++ clause.type.name ++ back ∧
      (ds.lineUpTo texts margin before d ++ Text.spaces gap).length =
        max clause.column ((ds.lineUpTo texts margin before d).length + 1) := by
  obtain ⟨back, hback⟩ := exists_withDeclared_eq texts
    (d.addTo texts (ds.lineWith texts margin before ++ if before.isEmpty then "" else ", ")) ", " behind
  refine ⟨max clause.column ((ds.lineUpTo texts margin before d).length + 1) -
    (ds.lineUpTo texts margin before d).length, back, ?_, ?_⟩
  · rw [lineWith, withDeclared_append, ← lineWith, hback, Declared.addTo, hclause]
    rfl
  · rw [String.length_append, Text.spaces, String.length_ofList, List.length_replicate]
    omega

end DeclarationList

end Texts

/-! ## Lists of declarations on a line -/

/-- **Lists of declarations.** Let a new line have the instructions of a list of declarations.
Decoding succeeds, and the line has exactly these declarations, each with its own name, bounds and
type. In the text of the line, the `AS` of each of them starts at the column that was stored for it,
or, if the name and the bounds end there or behind it, one space behind them. -/
theorem declarations_on_line {s : State} {pos indent : Nat} {label : Option Identifier}
    {ds : DeclarationList} (hv : v ≠ .qb40)
    (hline : LineAt v src (s.identifierAt src) pos p label indent)
    (h : DeclarationsAt v src (s.identifierAt src) p q ds) :
    ∃ t l, (instructions v q).run src pos s = (.ok (), q, t) ∧ t.stack = [] ∧
      t.program.current.lines = l :: s.program.current.lines ∧ l.statements = [ds.statement] ∧
      ∀ texts, (∀ e ∈ ds.values, e.render = .ok (texts e)) →
        l.render = .ok (ds.lineWith texts (Line.margin label indent) ds.items) ∧
        ∀ before d behind clause, ds.items = before ++ d :: behind → d.clause = some clause →
          ∃ gap back, l.render = .ok (ds.lineUpTo texts (Line.margin label indent) before d ++
              Text.spaces gap ++ "AS " ++ clause.type.name ++ back) ∧
            (ds.lineUpTo texts (Line.margin label indent) before d ++ Text.spaces gap).length =
              max clause.column
                ((ds.lineUpTo texts (Line.margin label indent) before d).length + 1) := by
  obtain ⟨t, hrun, hstack, hlines⟩ := (h.carries hv).adds_line hline
  refine ⟨t, _, hrun, hstack, hlines, rfl, fun texts htexts => ?_⟩
  have hrender := DeclarationList.render_statement htexts (Line.margin label indent)
  rw [← Line.render_setLast_start] at hrender
  refine ⟨hrender, fun before d behind clause hitems hclause => ?_⟩
  obtain ⟨gap, back, hline, hcolumn⟩ :=
    ds.exists_lineWith_eq (Line.margin label indent) hclause
  rw [hitems, hline] at hrender
  exact ⟨gap, back, hrender, hcolumn⟩

/-- A list with a variable whose `AS` is moved to column 24 and an array whose `AS` follows at once. -/
def sharedList : DeclarationList :=
  ⟨.dim, none, true, [⟨nameA.withSuffix .integer, none, some ⟨.scalar .integer, 24⟩⟩,
    ⟨nameA, some [⟨none, .number 1⟩, ⟨some (.number 2), .number 3⟩], some ⟨.fixedString 5, 0⟩⟩]⟩

/-- A line with a label, an indentation and this list. -/
def sharedListFile : Source :=
  lineFile [0x05, 0x00, 0x00, 0x00, 0x00, 0x00, 0x02, 0x00, 0x1A, 0x00, 0x7D, 0x01, 0x00, 0x00, 0x16,
    0x00, 0x01, 0x00, 0x18, 0x00, 0x0D, 0x04, 0x00, 0x00, 0x18, 0x00, 0x64, 0x05, 0x64, 0x09, 0x64,
    0x0D, 0x15, 0x00, 0x05, 0x80, 0x00, 0x00, 0x10, 0x00, 0x04, 0x00, 0x00, 0x00]

theorem declarationsAt_sharedListFile :
    DeclarationsAt .qb45 sharedListFile ((State.start .qb45).identifierAt sharedListFile) 0x2C 0x50
      sharedList := by
  have hinteger : Named .qb45 ((State.start .qb45).identifierAt sharedListFile) 1 0
      (nameA.withSuffix .integer) := .suffixed (by decide) rfl rfl
  have harray : Named .qb45 ((State.start .qb45).identifierAt sharedListFile) 0 0 nameA :=
    .plain (by decide) rfl rfl
  have hbounds : SequenceAt (BoundAt .qb45 sharedListFile
      ((State.start .qb45).identifierAt sharedListFile)) 0x3C 0x44
      [⟨none, .number 1⟩, ⟨some (.number 2), .number 3⟩] :=
    .cons (.default ⟨_, rfl, rfl⟩ (pushed_small (by decide) ⟨_, rfl⟩))
      (.cons (.given (pushed_small (by decide) ⟨_, rfl⟩) (pushed_small (by decide) ⟨_, rfl⟩)) .nil)
  exact .intro (.marked ⟨_, rfl, rfl⟩) (.dim ⟨_, rfl, rfl⟩ rfl)
    (.cons (.simple (.scalar ⟨_, rfl, rfl⟩ rfl rfl rfl) ⟨_, rfl, rfl⟩ hinteger ⟨_, rfl⟩)
      (.cons (.array hbounds
        (.numbered ⟨_, rfl, rfl⟩ rfl rfl (.fixedString (by decide) (by decide))) ⟨_, rfl, rfl⟩ rfl
        harray ⟨_, rfl⟩) .nil))

theorem sharedListFile_decoded :
    ∃ t l, (instructions .qb45 0x50).run sharedListFile 0x24 (.start .qb45) = (.ok (), 0x50, t) ∧
      t.stack = [] ∧ t.program.current.lines = [l] ∧ l.statements = [sharedList.statement] ∧
      l.render = .ok "A:   DIM SHARED A%      AS INTEGER, A(1, 2 TO 3) AS STRING * 5" := by
  have hline : LineAt .qb45 sharedListFile ((State.start .qb45).identifierAt sharedListFile) 0x24 0x2C
      (some nameA) 2 := .indented ⟨_, rfl, rfl⟩ rfl rfl rfl rfl
  obtain ⟨t, l, hrun, hstack, hlines, hstatements, htext⟩ :=
    declarations_on_line (by decide) hline declarationsAt_sharedListFile
  refine ⟨t, l, hrun, hstack, hlines, hstatements, ?_⟩
  have htexts : ∀ e ∈ sharedList.values, e.render = .ok e.textOf := by
    intro e he
    simp only [sharedList, DeclarationList.values, Declared.values, Bound.values, List.flatMap_cons,
      List.flatMap_nil, Option.getD_some, Option.getD_none, Option.toList, List.cons_append,
      List.nil_append, List.append_nil, List.mem_cons, List.not_mem_nil, or_false] at he
    rcases he with rfl | rfl | rfl <;> rfl
  exact (htext _ htexts).1

end SavedBasic
