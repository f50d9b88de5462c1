import SavedBasic.Proofs.Conditionals

/-!
# Instructions that build on a statement

Most instructions put a finished statement into the open place of the line. Some look at the last
statement of the line first and build it up further, so that several of them make one statement. They
see that statement only as a whole, never a part of it: where a single-line `IF` is the last statement,
an instruction that adds to a `PRINT` or names a variable in a declaration does not find what stands
in its branch, and fails.

`Operation.buildsOn` says which instructions build on which statements. Assignments look for lists of
constants and for a bare `LET` only, and otherwise put a statement as any other instruction does.
-/

namespace SavedBasic

open Decode Instruction

variable {α β : Type} {v : Version}

/-! ## Instructions and statements -/

/-- Whether there is no statement. -/
def Statement.isNothing : Statement → Bool
  | empty => true
  | _ => false

namespace Instruction

/-- The opcodes of assignments and their like. -/
def assigners : List Nat :=
  [0x000C, 0x00C4, 0x00C8, 0x00C9, 0x00CA, 0x00E6] ++ assignments.map Prod.fst ++
    callAssignments.map Prod.fst

/-- Whether an instruction builds on a statement that stands at the end of the line, if it succeeds. A
`PRINT` without anything behind it only goes on with a statement, and a mark such as `SHARED` makes
one if there is none. -/
def Operation.buildsOn (v : Version) (st : Statement) : Operation → Bool
  | .common code _ =>
    if assigners.contains code then st.takesTransfer
    else if code = 0x0093 then isPrint st
    else if code = 0x001A then isDeclarations st || st.isNothing
    else if code = 0x00AC then v.atLeast .qb70
    else builders.contains code
  | .dimension | .dimensionArray _ => true
  | .undefined => false

end Instruction

/-! ## Assignments put a statement -/

/-- An action that reads, looks up names and takes operands, and does nothing else. -/
inductive Reads : {α : Type} → Decode α → Prop where
  | pure {α : Type} (a : α) : Reads (Pure.pure a : Decode α)
  | throw {α : Type} (fault : Fault) : Reads (throw fault : Decode α)
  | bind {α β : Type} {m : Decode α} {f : α → Decode β} (hm : Reads m) (hf : ∀ a, Reads (f a)) :
    Reads (m >>= f)
  | number (width : Nat) (h : 0 < width) : Reads (number width)
  | identifierAt (offset : Nat) : Reads (identifierAt offset)
  | pop : Reads pop
  | popMany (n : Nat) : Reads (popMany n)

namespace Reads

theorem given (r : Except Fault α) : Reads (given r) := by
  cases r with
  | ok a => exact .pure a
  | error fault => exact .throw fault

theorem word : Reads word := .number 2 (by decide)

theorem identifierOf (v : Version) (type : Nat) : Reads (identifierOf v type) := by
  refine .bind (.bind word fun offset => .identifierAt offset) fun id => ?_
  split
  · exact .pure id
  · exact .bind (given _) fun _ => .pure _

theorem popTwo : Reads popTwo := by
  refine .bind (.popMany 2) fun operands => ?_
  split
  · exact .pure _
  · exact .throw _

/-- Nothing is written. -/
theorem program_eq {m : Decode α} (h : Reads m) (src : Source) (pos : Nat) (s : State) :
    (m.run src pos s).2.2.program = s.program := by
  induction h generalizing pos s with
  | pure a => rfl
  | throw fault => rfl
  | @bind _ _ m f _ _ ihm ihf =>
    have hm := ihm pos s
    rw [run_bind]
    rcases hrun : m.run src pos s with ⟨fault | a, pos', s'⟩ <;> rw [hrun] at hm
    · exact hm
    · exact (ihf a pos' s').trans hm
  | number width h =>
    rw [run_number]
    rcases src.natLE pos width with fault | n <;> rfl
  | identifierAt offset =>
    rw [run_identifierAt]
    exact s.program_noting src offset
  | pop =>
    rw [run_pop]
    split <;> rfl
  | popMany n => rfl

theorem last?_eq {m : Decode α} (h : Reads m) {src : Source} {pos pos' : Nat} {s s' : State}
    {r : Except Fault α} (hrun : m.run src pos s = (r, pos', s')) : s'.last? = s.last? := by
  have hprogram := h.program_eq src pos s
  rw [hrun] at hprogram
  rw [State.last?, hprogram, ← State.last?]

end Reads

/-- An action that reads and takes operands and then puts an assignment or its like, unless it fails. -/
inductive Transfers : Decode Unit → Prop where
  | transfer (t : Transfer) : Transfers (transfer t)
  | throw (fault : Fault) : Transfers (throw fault)
  | bind {α : Type} {m : Decode α} {f : α → Decode Unit} (hm : Reads m) (hf : ∀ a, Transfers (f a)) :
    Transfers (m >>= f)

theorem transfers_align (keyword : String) (parameter : Nat) : Transfers (align keyword v parameter) :=
  .bind .pop fun _ => .bind .pop fun _ => .transfer _

theorem transfers_openFile (withLength : Bool) (parameter : Nat) :
    Transfers (openFile withLength v parameter) := by
  refine .bind .word fun flags => ?_
  dsimp only
  split
  all_goals
    refine .bind (by first | exact .pop | exact .pure _) fun length => ?_
    refine .bind (.popMany 2) fun operands => ?_
    split
    · exact .bind (.given _) fun mode => .transfer _
    · exact .throw _

theorem transfers_assignTo (target : List Expr → Expr) (count : Nat) :
    Transfers (assignTo target count) := by
  refine .bind (.popMany _) fun operands => ?_
  split
  · exact .transfer _
  · exact .throw _

theorem transfers_of_mem_assigners {code : Nat} (h : code ∈ assigners) :
    ∃ handler, table.lookup code = some handler ∧ ∀ v parameter, Transfers (handler v parameter) := by
  simp only [assigners, List.mem_append, List.mem_map, List.mem_cons, List.not_mem_nil, or_false] at h
  rcases h with ((rfl | rfl | rfl | rfl | rfl | rfl) | ⟨⟨code, name⟩, h, rfl⟩) |
    ⟨⟨code, name, count⟩, h, rfl⟩
  · exact ⟨_, rfl, fun v type => .bind (.identifierOf v type) fun _ => .bind .pop fun _ => .transfer _⟩
  · exact ⟨_, rfl, fun _ _ => transfers_align _ _⟩
  · exact ⟨_, rfl, fun _ _ => .bind .popTwo fun _ => .transfer _⟩
  · exact ⟨_, rfl, fun _ _ => transfers_openFile _ _⟩
  · exact ⟨_, rfl, fun _ _ => transfers_openFile _ _⟩
  · exact ⟨_, rfl, fun _ _ => transfers_align _ _⟩
  · refine ⟨_, lookup_builtins ?_, fun _ _ => transfers_assignTo (fun _ => .builtin name) 0⟩
    simp only [builtins, List.mem_append]
    exact .inl (.inr (List.mem_map.mpr ⟨_, h, rfl⟩))
  · refine ⟨_, lookup_builtins ?_, fun _ _ => transfers_assignTo (.call name) count⟩
    simp only [builtins, List.mem_append]
    exact .inr (List.mem_map.mpr ⟨_, h, rfl⟩)

/-! ## Failing -/

/-- An action fails at a position and in a state. -/
def Fails (m : Decode α) (src : Source) (pos : Nat) (s : State) : Prop :=
  ∃ fault pos' s', m.run src pos s = (.error fault, pos', s')

theorem Fails.bind {m : Decode α} {f : α → Decode β} {src : Source} {pos : Nat} {s : State}
    (h : Fails m src pos s) : Fails (m >>= f) src pos s := by
  obtain ⟨fault, pos', s', hrun⟩ := h
  exact ⟨fault, pos', s', run_bind_error hrun⟩

theorem Fails.not_ok {m : Decode α} {src : Source} {pos pos' : Nat} {s s' : State} {a : α}
    (h : Fails m src pos s) : m.run src pos s ≠ (.ok a, pos', s') := by
  intro hrun
  obtain ⟨fault, pos'', s'', hrun'⟩ := h
  rw [hrun'] at hrun
  cases hrun

/-- An action that fails in every state that the one before it can leave makes both fail. -/
theorem fails_bind {m : Decode α} {f : α → Decode β} {src : Source} {pos : Nat} {s : State}
    (h : ∀ a pos' s', m.run src pos s = (.ok a, pos', s') → Fails (f a) src pos' s') :
    Fails (m >>= f) src pos s := by
  rcases hrun : m.run src pos s with ⟨fault | a, pos', s'⟩
  · exact ⟨fault, pos', s', run_bind_error hrun⟩
  · obtain ⟨fault, pos'', s'', hrun'⟩ := h a pos' s' hrun
    exact ⟨fault, pos'', s'', (run_bind_ok hrun).trans hrun'⟩

/-- A statement is not put where there is no place for it. -/
theorem fails_put {s : State} {st new : Statement} (hlast : s.last? = some st)
    (h : ∀ st', st.place new ≠ .placed st') (src : Source) (pos : Nat) : Fails (put new) src pos s := by
  refine ⟨.cannotCombine, pos, s, ?_⟩
  rw [run_put, hlast]
  dsimp only
  split
  · rename_i st' hplace
    exact absurd hplace (h st')
  · rfl

/-- An assignment fails where the last statement has no use and no place for it. -/
theorem Transfers.fails {m : Decode Unit} (hm : Transfers m) {s : State} {st : Statement}
    (hlast : s.last? = some st) (htakes : st.takesTransfer = false)
    (h : ∀ t st', st.place (.transfer t) ≠ .placed st') (src : Source) (pos : Nat) :
    Fails m src pos s := by
  induction hm generalizing pos s with
  | transfer t =>
    obtain ⟨fault, pos', s', hrun⟩ := fails_put hlast (h t) src pos
    exact ⟨fault, pos', s', (run_transfer_of_not_takes hlast htakes t pos).trans hrun⟩
  | throw fault => exact ⟨fault, pos, s, rfl⟩
  | @bind _ m f hm _ ih =>
    exact fails_bind fun a pos' s' hrun => ih a ((hm.last?_eq hrun).trans hlast) pos'

/-! ## A conditional stands in the way -/

/-- A statement is a single-line `IF`. -/
inductive Statement.IsConditional : Statement → Prop where
  | ifThen (condition : Expr) (action : Statement) : IsConditional (.ifThen condition action)
  | ifThenElse (condition : Expr) (action alternative : Statement) :
    IsConditional (.ifThenElse condition action alternative)

theorem Statement.IsConditional.place {st new st' : Statement} (hst : st.IsConditional)
    (h : st.place new = .placed st') : st'.IsConditional := by
  cases hst with
  | ifThen condition action =>
    unfold Statement.place at h
    split at h
    · cases h
      exact .ifThen condition _
    · split at h
      · cases h
        exact .ifThenElse condition action _
      · cases h
    · cases h
  | ifThenElse condition action alternative =>
    unfold Statement.place at h
    split at h
    · cases h
      exact .ifThenElse condition action _
    · cases h

/-- The last statement is a single-line `IF`. -/
def Decode.State.InConditional (s : State) : Prop :=
  ∃ st, s.last? = some st ∧ st.IsConditional

/-- What builds on a statement leaves a conditional a conditional. -/
theorem Decode.Change.inConditional {src : Source} {s s' : State} (h : Change src (some .build) s s')
    (hs : s.InConditional) : s'.InConditional := by
  obtain ⟨st, hlast, hst⟩ := hs
  cases h with
  | noted offset => exact ⟨st, by rw [State.last?, s.program_noting]; exact hlast, hst⟩
  | operands stack arguments => exact ⟨st, hlast, hst⟩
  | line he l => cases he
  | @placed _ st' new hlast' hplace =>
    rw [hlast] at hlast'
    cases hlast'
    exact ⟨st', last?_setLast st' hlast, hst.place hplace⟩
  | amended he st' hlast' hassembled =>
    rw [hlast] at hlast'
    cases hlast'
    cases hst <;> cases hassembled
  | colon he column => cases he
  | commented he hlines hearlier hlast' => cases he
  | kind kind => exact ⟨st, hlast, hst⟩
  | opened he h => exact ⟨st, hlast, hst⟩
  | closed he x => cases he

theorem Decode.ChangesBy.inConditional {src : Source} {s s' : State}
    (h : ChangesBy src (some .build) s s') (hs : s.InConditional) : s'.InConditional := by
  induction h with
  | refl => exact hs
  | tail _ hchange ih => exact hchange.inConditional ih

theorem Decode.Composed.inConditional {m : Decode α} (hm : Composed (some .build) m) {src : Source}
    {pos pos' : Nat} {s s' : State} {r : Except Fault α} (hrun : m.run src pos s = (r, pos', s'))
    (hs : s.InConditional) : s'.InConditional := by
  have hchanges := hm.changesBy src pos s
  rw [hrun] at hchanges
  exact hchanges.inConditional hs

/-- An action fails where a single-line `IF` is the last statement. -/
def Blocked (m : Decode α) : Prop :=
  ∀ src pos (s : State), s.InConditional → Fails m src pos s

namespace Blocked

theorem left {m : Decode α} {f : α → Decode β} (h : Blocked m) : Blocked (m >>= f) :=
  fun src pos s hs => (h src pos s hs).bind

theorem right {m : Decode α} {f : α → Decode β} (hm : Composed (some .build) m)
    (hf : ∀ a, Blocked (f a)) : Blocked (m >>= f) :=
  fun src _ _ hs => fails_bind fun a pos' s' hrun => hf a src pos' s' (hm.inConditional hrun hs)

theorem throw (fault : Fault) : Blocked (throw fault : Decode α) :=
  fun _ pos s _ => ⟨fault, pos, s, rfl⟩

/-- What depends on the last statement is blocked if it fails for a conditional. -/
theorem lastStatement {f : Statement → Decode α} (h : ∀ st, st.IsConditional → Blocked (f st)) :
    Blocked (lastStatement >>= f) := by
  rintro src pos s ⟨st, hlast, hst⟩
  have hrun : Decode.lastStatement.run src pos s = (.ok st, pos, s) := by
    rw [run_lastStatement, hlast]
  obtain ⟨fault, pos', s', hfails⟩ := h st hst src pos s ⟨st, hlast, hst⟩
  exact ⟨fault, pos', s', (run_bind_ok hrun).trans hfails⟩

theorem amend {f : Statement → Option Statement} (h : ∀ st, st.IsConditional → f st = none) :
    Blocked (amend f) := by
  rw [amend_eq]
  refine .lastStatement fun st hst => ?_
  rw [h st hst]
  exact .throw _

theorem require {isKind : Statement → Bool} (h : ∀ st, st.IsConditional → isKind st = false) :
    Blocked (require isKind) := by
  refine .lastStatement fun st hst => ?_
  rw [h st hst]
  exact .throw _

end Blocked

/-! ## Instructions that are blocked -/

namespace Instruction

theorem blocked_amendDeclarations (f : Declarations → Declarations) : Blocked (amendDeclarations f) :=
  .amend fun _ hst => by cases hst <;> rfl

theorem blocked_declaration : Blocked declaration :=
  .right (.continueWith _ _) fun _ => blocked_amendDeclarations _

theorem blocked_redimension : Blocked redimension :=
  .right .pop fun _ => blocked_declaration.left

theorem blocked_setKind (kind : DeclarationKind) : Blocked (setKind kind) :=
  .lastStatement fun _ hst => by cases hst <;> exact .throw _

theorem blocked_declareAs (kind : DeclarationKind) : Blocked (declareAs kind) :=
  .right (.continueWith _ _) fun _ => blocked_setKind kind

theorem blocked_caseOption (option : Except Fault CaseOption) : Blocked (caseOption option) :=
  .right (.continueWith _ _) fun _ =>
    .lastStatement fun _ hst => by cases hst <;> exact .throw _

theorem blocked_caseCompare (operator : String) (parameter : Nat) :
    Blocked (caseCompare operator v parameter) :=
  .right .pop fun _ => blocked_caseOption _

theorem blocked_nextCounter : Blocked nextCounter :=
  .right .pop fun _ => .right (.continueWith _ _) fun _ =>
    .left (.amend fun _ hst => by cases hst <;> rfl)

theorem blocked_amendPrint (f : Print → Print) : Blocked (amendPrint f) :=
  .amend fun _ hst => by cases hst <;> rfl

theorem blocked_printPart (part : Decode PrintPart) (parameter : Nat) :
    Blocked (printPart part v parameter) :=
  .right (.continueWith _ _) fun _ => (blocked_amendPrint id).left

theorem blocked_require_isInput : Blocked (require isInput) :=
  .require fun _ hst => by cases hst <;> rfl

theorem blocked_fieldPart : Blocked fieldPart :=
  .right (.popMany 2) fun _ =>
    .left (.require fun _ hst => by cases hst <;> rfl)

theorem blocked_lineInput : Blocked lineInput :=
  .right .word fun _ => .right .pop fun _ => .right (.continueWith _ _) fun _ =>
    .left (.amend fun _ hst => by cases hst <;> rfl)

theorem blocked_eraseArrays (hv : v.atLeast .qb70 = true) : Blocked (eraseArrays v) := by
  rw [eraseArrays, if_pos hv]
  exact .right .pop fun _ => .right (.continueWith _ _) fun _ =>
    .amend fun _ hst => by cases hst <;> rfl

/-- The opcodes that always build on a statement. -/
def blockedCodes : List Nat :=
  [0x000D, 0x0010, 0x0015, 0x0016, 0x001C, 0x001E, 0x001F, 0x003B, 0x003C, 0x003D, 0x003E, 0x003F,
   0x0040, 0x0041, 0x0042, 0x0066, 0x007D, 0x0086, 0x0088, 0x008F, 0x0090, 0x0091, 0x0092, 0x0094,
   0x0095, 0x0096, 0x00A5, 0x00B6, 0x00C0, 0x00E2, 0x00FF, 0x017C, 0x017D, 0x01A8]

theorem blocked_of_mem (hv : v ≠ .qb40) {code : Nat} (h : code ∈ blockedCodes) :
    ∃ handler, table.lookup code = some handler ∧ ∀ parameter, Blocked (handler v parameter) := by
  simp only [blockedCodes, List.mem_cons, List.not_mem_nil, or_false] at h
  rcases h with rfl | rfl | rfl | rfl | rfl | rfl | rfl | rfl | rfl | rfl | rfl | rfl | rfl | rfl |
    rfl | rfl | rfl | rfl | rfl | rfl | rfl | rfl | rfl | rfl | rfl | rfl | rfl | rfl | rfl | rfl |
    rfl | rfl | rfl | rfl
  · exact ⟨_, rfl, fun p => .right (.identifierOf v p) fun _ => blocked_declaration.left⟩
  · refine ⟨_, rfl, fun p => ?_⟩
    rw [if_neg hv]
    exact .right .word fun _ => .right (.identifierOf v p) fun _ => .right (.popMany _) fun _ =>
      blocked_declaration.left
  · exact ⟨_, rfl, fun _ => .right .word fun _ => .right .word fun _ => blocked_declaration.left⟩
  · exact ⟨_, rfl, fun _ => .right .word fun _ => .right .word fun _ => blocked_declaration.left⟩
  · exact ⟨_, rfl, fun _ => blocked_redimension⟩
  · exact ⟨_, rfl, fun _ => .right (.skipWords 1) fun _ => blocked_declareAs _⟩
  · exact ⟨_, rfl, fun _ => .right (.skipWords 1) fun _ => blocked_declareAs _⟩
  · exact ⟨_, rfl, fun _ => .right .pop fun _ => blocked_caseOption _⟩
  · refine ⟨_, rfl, fun _ => .right (.popMany 2) fun operands => ?_⟩
    split <;> exact blocked_caseOption _
  iterate 6 exact ⟨_, rfl, fun _ => blocked_caseCompare _ _⟩
  · exact ⟨_, rfl, fun _ => blocked_nextCounter⟩
  · exact ⟨_, rfl, fun _ => .right (.continueWith _ _) fun _ => (blocked_amendPrint id).left⟩
  · exact ⟨_, rfl, fun _ => blocked_fieldPart⟩
  · exact ⟨_, rfl, fun _ => blocked_require_isInput.left⟩
  iterate 7 exact ⟨_, rfl, fun _ => blocked_printPart _ _⟩
  · refine ⟨_, rfl, fun _ => .right (.skipWords 1) fun _ => .right .word fun _ => ?_⟩
    dsimp only
    split
    · exact .right (.pure _) fun _ => (blocked_declareAs _).left
    · exact .right (.map _ (.identifierAt _)) fun _ => (blocked_declareAs _).left
  · exact ⟨_, rfl, fun _ => .right .pop fun _ => blocked_require_isInput.left⟩
  · exact ⟨_, rfl, fun _ => blocked_lineInput⟩
  · exact ⟨_, rfl, fun _ => .right .pop fun _ => .right (.continueWith _ _) fun _ =>
      .amend fun _ hst => by cases hst <;> rfl⟩
  · exact ⟨_, rfl, fun _ => blocked_printPart _ _⟩
  · exact ⟨_, rfl, fun _ => .right (.skipWords 1) fun _ => .right .word fun _ => .right .word fun _ =>
      blocked_declaration.left⟩
  · exact ⟨_, rfl, fun _ => (blocked_declareAs _).left⟩
  · exact ⟨_, rfl, fun _ => blocked_redimension.left⟩

theorem power?_of_mem_builders {code : Nat} (h : code ∈ builders) : power? code = some .build := by
  revert code
  decide

theorem mem_builders_of_power? {code : Nat} (h : power? code = some .build) : code ∈ builders := by
  unfold power? at h
  split at h
  · cases h
  · split at h
    · cases h
    · split at h
      · cases h
      · split at h
        · cases h
        · split at h
          · rename_i hcode
            exact List.contains_iff_mem.mp hcode
          · cases h

/-- An opcode that builds on statements is one of those that are blocked, or looks for some of them
only. -/
theorem mem_builders_cases {code : Nat} (h : code ∈ builders) :
    code ∈ assigners ∨ code = 0x0093 ∨ code = 0x001A ∨ code = 0x00AC ∨ code ∈ blockedCodes := by
  revert code
  decide

namespace Operation

theorem buildsOn_assigner {code : Nat} (h : code ∈ assigners) (v : Version) (st : Statement)
    (parameter : Nat) : (Operation.common code parameter).buildsOn v st = st.takesTransfer := by
  rw [buildsOn, if_pos (List.contains_iff_mem.mpr h)]

theorem buildsOn_blocked {code : Nat} (h : code ∈ blockedCodes) (v : Version) (st : Statement)
    (parameter : Nat) : (Operation.common code parameter).buildsOn v st = true := by
  have hcodes : ∀ code ∈ blockedCodes, assigners.contains code = false ∧ code ≠ 0x0093 ∧
      code ≠ 0x001A ∧ code ≠ 0x00AC ∧ builders.contains code = true := by decide
  obtain ⟨hassign, hprint, hmark, herase, hbuilds⟩ := hcodes code h
  rw [buildsOn, hassign, if_neg (by decide), if_neg hprint, if_neg hmark, if_neg herase, hbuilds]

/-- What has no power to build builds on nothing. -/
theorem buildsOn_of_power?_ne {op : Operation} (h : op.power? ≠ some .build) (v : Version)
    (st : Statement) : op.buildsOn v st = false := by
  cases op with
  | common code parameter =>
    have hsubset : ∀ code ∈ assigners, code ∈ builders := by decide
    have hcode : code ∉ builders := fun hmem => h (power?_of_mem_builders hmem)
    have hne : ∀ other ∈ builders, code ≠ other := fun other hother heq => hcode (heq ▸ hother)
    rw [buildsOn, if_neg (mt List.contains_iff_mem.mp (mt (hsubset code) hcode)),
      if_neg (hne 0x0093 (by decide)), if_neg (hne 0x001A (by decide)),
      if_neg (hne 0x00AC (by decide)), Bool.eq_false_iff]
    exact mt List.contains_iff_mem.mp hcode
  | dimension | dimensionArray type => exact absurd rfl h
  | undefined => rfl

end Operation

end Instruction

end SavedBasic
