import SavedBasic.Proofs.Composition

/-!
# What instructions read

An instruction reads words, and runs of bytes that are filled up to whole words. Which ones is fixed by
its opcode, by the version and by what it has read so far: a `Layout`. The state of the decoder has no
say in it. An operand that is missing or a line that is not there makes the instruction fail, and a
name may be looked up elsewhere in the source; but an instruction that succeeds has read by its layout.
-/

namespace SavedBasic

namespace Decode

variable {α β : Type}

/-- What an action reads from the source as it moves on. -/
inductive Layout where
  /-- nothing more -/
  | done
  /-- a number of so many words, on which the rest may depend -/
  | words (n : Nat) (next : Nat → Layout)
  /-- a run of bytes, filled up to whole words -/
  | text (length : Nat) (next : Layout)

namespace Layout

/-- The position behind a layout, if all its numbers are complete. -/
def fin? (src : Source) : Layout → Nat → Option Nat
  | done, pos => some pos
  | words n next, pos =>
    match src.natLE pos (2 * n) with
    | .ok k => (next k).fin? src (pos + 2 * n)
    | .error _ => none
  | text length next, pos => next.fin? src (pos + (src.slice pos (length + length % 2)).length)

/-- One layout after another. -/
def andThen : Layout → Layout → Layout
  | done, l => l
  | words n next, l => words n fun k => (next k).andThen l
  | text length next, l => text length (next.andThen l)

/-- A layout as often as a count says. -/
def repeated (l : Layout) : Nat → Layout
  | 0 => done
  | n + 1 => l.andThen (l.repeated n)

/-- So many words, whatever they are. -/
def skip (n : Nat) : Layout :=
  (words 1 fun _ => done).repeated n

theorem fin?_andThen (src : Source) (a b : Layout) (pos : Nat) :
    (a.andThen b).fin? src pos = (a.fin? src pos).bind (b.fin? src) := by
  induction a generalizing pos with
  | done => rfl
  | words n next ih =>
    simp only [andThen, fin?]
    split
    · exact ih _ _
    · rfl
  | text length next ih => exact ih _

theorem andThen_done (l : Layout) : l.andThen done = l := by
  induction l with
  | done => rfl
  | words n next ih => exact congrArg (words n) (funext ih)
  | text length next ih => exact congrArg (text length) ih

end Layout

/-- An action reads by a layout: whenever it succeeds, it ends behind the layout. -/
structure ReadsBy (l : Layout) (m : Decode α) : Prop where
  fin?_eq : ∀ {src pos s a pos' s'}, m.run src pos s = (.ok a, pos', s') →
    l.fin? src pos = some pos'

namespace ReadsBy

variable {l l' : Layout}

theorem bind {m : Decode α} {f : α → Decode β} (hm : ReadsBy l m) (hf : ∀ a, ReadsBy l' (f a)) :
    ReadsBy (l.andThen l') (m >>= f) := by
  refine ⟨fun h => ?_⟩
  obtain ⟨a, pos₁, s₁, hfirst, hrest⟩ := run_bind_eq_ok.mp h
  rw [Layout.fin?_andThen, hm.fin?_eq hfirst]
  exact (hf a).fin?_eq hrest

@[simp] theorem done_bind {m : Decode α} {f : α → Decode β} (hm : ReadsBy .done m)
    (hf : ∀ a, ReadsBy l (f a)) : ReadsBy l (m >>= f) :=
  hm.bind hf

theorem bind_done {m : Decode α} {f : α → Decode β} (hm : ReadsBy l m)
    (hf : ∀ a, ReadsBy .done (f a)) : ReadsBy l (m >>= f) := by
  have h := hm.bind hf
  rwa [Layout.andThen_done] at h

/-- What is read behind a number may depend on it. -/
theorem number_bind (n : Nat) {next : Nat → Layout} {f : Nat → Decode α}
    (hf : ∀ k, ReadsBy (next k) (f k)) : ReadsBy (.words n next) (number (2 * n) >>= f) := by
  refine ⟨fun {src pos s b pos' s'} h => ?_⟩
  obtain ⟨k, pos₁, s₁, hfirst, hrest⟩ := run_bind_eq_ok.mp h
  rw [run_number] at hfirst
  rcases hk : src.natLE pos (2 * n) with fault | k' <;> rw [hk] at hfirst <;> cases hfirst
  rw [Layout.fin?, hk]
  exact (hf k).fin?_eq hrest

theorem word_bind {next : Nat → Layout} {f : Nat → Decode α} (hf : ∀ n, ReadsBy (next n) (f n)) :
    ReadsBy (.words 1 next) (word >>= f) :=
  number_bind 1 hf

/-- A run of bytes and its filling. -/
theorem text_bind {n : Nat} {f : Bytes → Bytes → Decode α}
    (hf : ∀ text filling, ReadsBy l (f text filling)) :
    ReadsBy (.text n l) (Decode.bytes n >>= fun text => Decode.bytes (n % 2) >>= f text) := by
  refine ⟨fun {src pos s b pos' s'} h => ?_⟩
  rw [run_bind, run_bytes] at h
  dsimp only at h
  rw [run_bind, run_bytes] at h
  rw [Layout.fin?, ← Source.length_slice_add, ← Nat.add_assoc]
  exact (hf _ _).fin?_eq h

theorem ite {c : Prop} [Decidable c] {m m' : Decode α} (hm : ReadsBy l m) (hm' : ReadsBy l' m') :
    ReadsBy (if c then l else l') (if c then m else m') := by
  split
  · exact hm
  · exact hm'

theorem either {c : Prop} [Decidable c] {m m' : Decode α} (hm : ReadsBy l m) (hm' : ReadsBy l m') :
    ReadsBy l (if c then m else m') := by
  split
  · exact hm
  · exact hm'

theorem throw (l : Layout) (fault : Fault) : ReadsBy l (throw fault : Decode α) := by
  refine ⟨fun h => ?_⟩
  cases h

/-! ## Actions that read nothing -/

theorem of_pos_eq {m : Decode α} (h : ∀ src pos s, (m.run src pos s).2.1 = pos) :
    ReadsBy .done m := by
  refine ⟨fun {src pos s a pos' s'} hrun => ?_⟩
  have hpos := h src pos s
  rw [hrun] at hpos
  exact congrArg some hpos.symm

@[simp] theorem pure (a : α) : ReadsBy .done (Pure.pure a : Decode α) := .of_pos_eq fun _ _ _ => rfl

@[simp] theorem fails (fault : Fault) : ReadsBy .done (MonadExcept.throw fault : Decode α) :=
  throw .done fault

@[simp] theorem get : ReadsBy .done get := .of_pos_eq fun _ _ _ => rfl

@[simp] theorem modify (f : State → State) : ReadsBy .done (modify f) := .of_pos_eq fun _ _ _ => rfl

@[simp] theorem map {m : Decode α} (f : α → β) (hm : ReadsBy l m) : ReadsBy l (f <$> m) := by
  rw [map_eq_pure_bind]
  exact hm.bind_done fun _ => pure _

@[simp] theorem given (r : Except Fault α) : ReadsBy .done (given r) :=
  .of_pos_eq fun _ _ _ => by rw [run_given]

@[simp] theorem identifierAt (offset : Nat) : ReadsBy .done (identifierAt offset) :=
  .of_pos_eq fun _ _ _ => by rw [run_identifierAt]

@[simp] theorem dataType (v : Version) (index : Int) : ReadsBy .done (dataType v index) := by
  unfold Decode.dataType
  repeat' split
  all_goals simp

@[simp] theorem push (x : Expr) : ReadsBy .done (push x) := modify _

@[simp] theorem pop : ReadsBy .done pop := by
  refine done_bind get fun s => ?_
  split <;> simp

@[simp] theorem popMany (n : Nat) : ReadsBy .done (popMany n) :=
  done_bind get fun _ => done_bind (modify _) fun _ => pure _

@[simp] theorem popTwo : ReadsBy .done popTwo := by
  refine done_bind (popMany 2) fun operands => ?_
  split <;> simp

@[simp] theorem arguments : ReadsBy .done arguments := done_bind get fun _ => pure _

@[simp] theorem setArgument (isGiven : Arguments → Bool) (set : Arguments → Arguments) :
    ReadsBy .done (setArgument isGiven set) :=
  done_bind arguments fun _ => either (fails _) (modify _)

@[simp] theorem procedure : ReadsBy .done procedure := done_bind get fun _ => pure _

@[simp] theorem line : ReadsBy .done line := by
  refine done_bind procedure fun p => ?_
  split <;> simp

@[simp] theorem setLine (l : Line) : ReadsBy .done (setLine l) := modify _

@[simp] theorem colon (column : Option Nat) : ReadsBy .done (colon column) :=
  done_bind line fun _ => setLine _

@[simp] theorem lastStatement : ReadsBy .done lastStatement := done_bind line fun _ => pure _

@[simp] theorem put (new : Statement) : ReadsBy .done (put new) :=
  done_bind line fun _ => done_bind (given _) fun _ => setLine _

@[simp] theorem amend (f : Statement → Option Statement) : ReadsBy .done (amend f) := by
  refine done_bind line fun l => ?_
  split <;> simp

@[simp] theorem continueWith (isKind : Statement → Bool) (fresh : Statement) :
    ReadsBy .done (continueWith isKind fresh) :=
  done_bind lastStatement fun _ => either (put fresh) (pure ())

@[simp] theorem require (isKind : Statement → Bool) : ReadsBy .done (require isKind) :=
  done_bind lastStatement fun _ => either (fails _) (pure ())

@[simp] theorem transfer (t : Transfer) : ReadsBy .done (transfer t) := by
  refine done_bind line fun l => ?_
  split
  · exact setLine _
  · exact either (setLine _) (put _)
  · exact put _

@[simp] theorem metacommand (command : MetaCommand) : ReadsBy .done (metacommand command) := by
  rw [Instruction.metacommand_eq]
  exact done_bind line fun _ => done_bind (given _) fun _ => setLine _

@[simp] theorem openFn (d : DefFn) : ReadsBy .done (openFn d) :=
  done_bind get fun _ => done_bind line fun _ => done_bind (put _) fun _ => modify _

@[simp] theorem closeFn (x : Expr) : ReadsBy .done (closeFn (.value x)) := by
  rw [closeFn_value_eq]
  exact done_bind (done_bind get fun _ => pure _) fun _ => either (modify _) (fails _)

@[simp] theorem exitBlock : ReadsBy .done exitBlock :=
  done_bind get fun _ => either (pure _) (pure _)

/-! ## Actions that read -/

theorem word : ReadsBy (.skip 1) word := by
  have h : ReadsBy (.skip 1) (Decode.word >>= Pure.pure) := word_bind pure
  rwa [bind_pure] at h

theorem dword : ReadsBy (.words 2 fun _ => .done) dword := by
  have h : ReadsBy (.words 2 fun _ => .done) (Decode.dword >>= Pure.pure) := number_bind 2 pure
  rwa [bind_pure] at h

theorem qword : ReadsBy (.words 4 fun _ => .done) qword := by
  have h : ReadsBy (.words 4 fun _ => .done) (Decode.qword >>= Pure.pure) := number_bind 4 pure
  rwa [bind_pure] at h

theorem packed : ReadsBy (.words 1 fun n => .text n .done) packed :=
  word_bind fun _ => text_bind fun _ _ => pure _

theorem skipWords (n : Nat) : ReadsBy (.skip n) (skipWords n) := by
  induction n with
  | zero => exact pure ()
  | succ n ih => exact bind word fun _ => ih

theorem identifier : ReadsBy (.skip 1) identifier :=
  bind_done word identifierAt

theorem identifiers (n : Nat) : ReadsBy (.skip n) (identifiers n) := by
  induction n with
  | zero => exact pure []
  | succ n ih => exact bind identifier fun _ => ih.bind_done fun _ => pure _

theorem identifierOf (v : Version) (type : Nat) : ReadsBy (.skip 1) (identifierOf v type) :=
  identifier.bind_done fun _ => either (pure _) (done_bind (given _) fun _ => pure _)

end ReadsBy

end Decode

namespace Instruction

open Decode

/-! ## Variables and declarations -/

@[simp] theorem readsBy_amendDeclarations (f : Declarations → Declarations) :
    ReadsBy .done (amendDeclarations f) := .amend _

@[simp] theorem readsBy_declaration : ReadsBy .done declaration :=
  .done_bind (.continueWith _ _) fun _ => .amend _

@[simp] theorem readsBy_nameDeclaration (name : Head) (bounds : Option (List Expr)) :
    ReadsBy .done (nameDeclaration name bounds) := readsBy_amendDeclarations _

@[simp] theorem readsBy_typeDeclaration (type : DataType) (column : Nat) :
    ReadsBy .done (typeDeclaration type column) := by
  refine .done_bind .lastStatement fun st => ?_
  split <;> simp

@[simp] theorem readsBy_setKind (kind : DeclarationKind) : ReadsBy .done (setKind kind) := by
  refine .done_bind .lastStatement fun st => ?_
  split
  · exact .either (.fails _) (.amend _)
  · exact .fails _

@[simp] theorem readsBy_declareAs (kind : DeclarationKind) : ReadsBy .done (declareAs kind) :=
  .done_bind (.continueWith _ _) fun _ => readsBy_setKind kind

@[simp] theorem readsBy_setMode (mode : String) : ReadsBy .done (setMode mode) := by
  refine .done_bind (.continueWith _ _) fun _ => .done_bind .lastStatement fun st => ?_
  split <;> simp

@[simp] theorem readsBy_redimension : ReadsBy .done redimension := by
  refine .done_bind .pop fun array => .done_bind readsBy_declaration fun _ => ?_
  split <;> simp

theorem readsBy_dimension : ReadsBy .done dimension :=
  .done_bind (.require _) fun _ => readsBy_setKind .dim

theorem readsBy_suffixed (v : Version) (type : Nat) (name : Head) :
    ReadsBy .done (suffixed v type name) := by
  refine .either (.pure _) (.done_bind (.given _) fun suffix => ?_)
  split <;> simp

theorem readsBy_dimensionArray (v : Version) (type : Nat) :
    ReadsBy .done (dimensionArray v type) := by
  refine .done_bind .pop fun array => .done_bind ?_ fun _ => readsBy_dimension
  unfold declareArray
  split
  · exact .fails _
  · exact .done_bind (readsBy_suffixed v type _) fun _ => .done_bind readsBy_declaration fun _ =>
      readsBy_nameDeclaration _ _

theorem readsBy_element (v : Version) (type : Nat) : ReadsBy (.skip 2) (element v type) :=
  .word_bind fun _ => (ReadsBy.identifierOf v type).bind_done fun _ =>
    .either (.push _) (.done_bind (.popMany _) fun _ => .push _)

theorem readsBy_declaredArray (v : Version) (type : Nat) :
    ReadsBy (.skip 2) (declaredArray v type) :=
  .word_bind fun _ => (ReadsBy.identifierOf v type).bind_done fun _ => by simp

/-- A string of fixed length has one word more than another type of a field. -/
theorem readsBy_fieldType (v : Version) :
    ReadsBy (.words 1 fun mark => if mark = fixedStringMark then .skip 2 else .skip 1)
      (fieldType v) :=
  .word_bind fun _ => .ite (.bind (.skipWords 1) fun _ => ReadsBy.word.bind_done fun _ => .pure _)
    (ReadsBy.word.bind_done fun _ => .dataType v _)

/-! ## Procedures -/

/-- The words of a parameter record. -/
def recordLayout (v : Version) : Layout :=
  .words 1 fun _ => .words 1 fun _ => .words 1 fun _ => if v.atLeast .qb71 then .skip 1 else .done

theorem readsBy_skipExtraWord (v : Version) :
    ReadsBy (if v.atLeast .qb71 then .skip 1 else .done) (skipExtraWord v) :=
  .ite (.skipWords 1) (.pure ())

theorem readsBy_declaredParameter (v : Version) : ReadsBy (recordLayout v) (declaredParameter v) :=
  .bind .identifier fun _ => .word_bind fun _ => .word_bind fun _ => .bind (.dataType v _) fun _ =>
    (readsBy_skipExtraWord v).bind_done fun _ => .pure _

theorem readsBy_headerParameter (v : Version) : ReadsBy (recordLayout v) (headerParameter v) :=
  .bind .identifier fun _ => .word_bind fun _ => .word_bind fun _ => .either
    (.bind (.map _ (.dataType v _)) fun _ => (readsBy_skipExtraWord v).bind_done fun _ => .pure _)
    (.bind (.pure none) fun _ => (readsBy_skipExtraWord v).bind_done fun _ => .pure _)

theorem readsBy_functionParameter (v : Version) : ReadsBy (recordLayout v) (functionParameter v) :=
  .bind .identifier fun _ => .word_bind fun _ => .word_bind fun _ =>
    (readsBy_skipExtraWord v).bind_done fun _ => .either (.done_bind (.given _) fun _ => .pure _)
      (.either (.done_bind (.given _) fun _ => .pure _) (.pure _))

theorem readsBy_parameters {l : Layout} {one : Decode Parameter} (h : ReadsBy l one) (n : Nat) :
    ReadsBy (l.repeated n) (parameters one n) := by
  induction n with
  | zero => exact .pure []
  | succ n ih => exact .bind h fun _ => ih.bind_done fun _ => .pure _

/-- Behind a name and its flags, what is read may depend on the flags. -/
theorem readsBy_flaggedName_bind {α : Type} (v : Version) (width : Nat) {check : Nat → Decode Unit}
    {next : Nat → Layout} {f : Identifier × Nat → Decode α}
    (hcheck : ∀ flags, ReadsBy .done (check flags))
    (hf : ∀ name flags, ReadsBy (next flags) (f (name, flags))) :
    ReadsBy (.words 1 fun _ => .words 1 next) (flaggedName v width check >>= f) := by
  simp only [flaggedName, bind_assoc]
  refine .bind .identifier fun name => .word_bind fun flags => .bind (hcheck flags) fun _ => ?_
  split
  · simp only [bind_assoc, pure_bind]
    exact .bind (.given _) fun _ => hf _ flags
  · simp only [pure_bind]
    exact hf _ flags

theorem readsBy_flaggedName (v : Version) (width : Nat) {check : Nat → Decode Unit}
    (hcheck : ∀ flags, ReadsBy .done (check flags)) :
    ReadsBy (.skip 2) (flaggedName v width check) := by
  have h := readsBy_flaggedName_bind v width (f := pure) hcheck fun _ _ => .pure _
  rwa [bind_pure] at h

theorem readsBy_declareProcedure (v : Version) :
    ReadsBy (.words 1 fun _ => .words 1 fun _ => .words 1 fun flags => .words 1 fun count =>
      if count = 0xFFFF then .text (flags / 1024 % 32) .done
      else ((recordLayout v).repeated count).andThen (.text (flags / 1024 % 32) .done))
      (declareProcedure v) :=
  .bind (.skipWords 1) fun _ => readsBy_flaggedName_bind v 3 (fun _ => by simp) fun _ flags =>
    .bind (.given _) fun _ => .word_bind fun count => .ite
      (.bind (.pure none) fun _ => .text_bind fun _ _ => .put _)
      (.bind (.map _ (readsBy_parameters (readsBy_declaredParameter v) count)) fun _ =>
        .text_bind fun _ _ => .put _)

/-! ## The other opcodes -/

@[simp] theorem readsBy_choose {α : Type} (choices : List α) (i : Nat) :
    ReadsBy .done (choose choices i) := by
  unfold choose
  split <;> simp

@[simp] theorem readsBy_lookUp {α : Type} (table : List (Nat × α)) (key : Nat) :
    ReadsBy .done (lookUp table key) := by
  unfold lookUp
  split <;> simp

@[simp] theorem readsBy_caseOption (option : Except Fault CaseOption) :
    ReadsBy .done (caseOption option) := by
  refine .done_bind (.continueWith _ _) fun _ => .done_bind .lastStatement fun st => ?_
  split <;> simp

theorem readsBy_startLine {l : Layout} {label : Decode (Option Identifier × Nat)}
    (h : ReadsBy l label) : ReadsBy l (startLine label) :=
  .bind (.modify _) fun _ => h.bind_done fun _ => .modify _

theorem readsBy_comment : ReadsBy (.words 1 fun n => .text n .done) comment := by
  refine .bind .line fun l => .either (.throw _ _) (ReadsBy.packed.bind_done fun bytes => ?_)
  split <;> simp

theorem readsBy_methodOf (count : Nat) : ReadsBy (.skip 1) (methodOf count) :=
  .done_bind (.popMany _) fun _ => .done_bind .pop fun _ => ReadsBy.word.bind_done fun _ =>
    .done_bind (readsBy_lookUp _ _) fun _ => .pure _

theorem readsBy_thenWord {action : Decode Unit} (h : ReadsBy .done action) :
    ReadsBy (.skip 1) (thenWord action) :=
  h.done_bind fun _ => .skipWords 1

theorem readsBy_procedureHeader (v : Version) (kind : ProcedureKind) (name : Identifier) :
    ReadsBy (.words 1 fun n => (recordLayout v).repeated n) (procedureHeader v kind name) :=
  .word_bind fun n => (readsBy_parameters (readsBy_headerParameter v) n).bind_done fun _ =>
    .done_bind (.modify _) fun _ => .done_bind .procedure fun _ => .put _

@[simp] theorem readsBy_command (name : String) (count : Nat) : ReadsBy .done (command name count) :=
  .done_bind (.popMany _) fun _ => .put _

@[simp] theorem readsBy_markedCommand (name : String) (count : Nat) :
    ReadsBy .done (markedCommand name count) :=
  .done_bind (.popMany _) fun _ => .put _

@[simp] theorem readsBy_assignTo (target : List Expr → Expr) (count : Nat) :
    ReadsBy .done (assignTo target count) := by
  refine .done_bind (.popMany _) fun operands => ?_
  split <;> simp

/-- The head of an input statement has one word more if its count says so. -/
theorem readsBy_inputHead :
    ReadsBy (.words 1 fun count => .words 1 fun _ => if 2 < count then .skip 1 else .done)
      inputHead :=
  .word_bind fun _ => .word_bind fun _ => .either
    (.done_bind .pop fun _ => .ite ((ReadsBy.skipWords 1).bind_done fun _ => .put _) (.put _))
    (.done_bind (.pure _) fun _ => .ite ((ReadsBy.skipWords 1).bind_done fun _ => .put _) (.put _))

/-- What an opcode reads is laid out by the version and the parameter, not by the state. -/
theorem exists_layout_table :
    ∀ entry ∈ table, ∀ v parameter, ∃ l, ReadsBy l (entry.2 v parameter) := by
  simp only [table, lines, storage, declarations, procedures, control, events, output, input, files,
    graphics, operators, objects, builtins, always, caseCompare, withOperand, forLoop, nextCounter,
    onValue, errorTarget, eventWith, eventAlone, eventState, printPart, printing, amendPrint,
    amendInput, lineInput, eraseArrays, fieldPart, lockRange, openFile, align, openTable, binary, wrap,
    convert, methodCall, methodValue, plainMethod, startPoint, stopPoint, point, circle, drawLine,
    paint, setPoint, view, window, function, commandWithGap, callWith, List.forall_mem_append,
    List.forall_mem_map, List.forall_mem_cons, List.not_mem_nil, Prod.forall, false_implies,
    implies_true, and_true]
  repeat' apply And.intro
  all_goals
    intros
    apply Exists.intro
    repeat' first
      | intro _
      | with_reducible apply ReadsBy.word_bind
      | with_reducible apply ReadsBy.bind
      | with_reducible exact ReadsBy.word
      | with_reducible exact ReadsBy.dword
      | with_reducible exact ReadsBy.qword
      | with_reducible exact ReadsBy.packed
      | with_reducible exact ReadsBy.skipWords _
      | with_reducible exact ReadsBy.identifier
      | with_reducible exact ReadsBy.identifiers _
      | with_reducible exact ReadsBy.identifierOf _ _
      | (change ReadsBy .done _; simp; done)
      | with_reducible exact readsBy_element _ _
      | with_reducible exact readsBy_declaredArray _ _
      | with_reducible exact readsBy_fieldType _
      | with_reducible exact readsBy_comment
      | with_reducible exact readsBy_methodOf _
      | with_reducible exact readsBy_declareProcedure _
      | with_reducible exact readsBy_procedureHeader _ _ _
      | with_reducible exact readsBy_parameters (readsBy_functionParameter _) _
      | with_reducible exact readsBy_flaggedName _ _ fun _ => .pure ()
      | with_reducible exact readsBy_inputHead
      | with_reducible apply readsBy_startLine
      | with_reducible apply readsBy_thenWord
      | with_reducible apply ReadsBy.ite
      | split

theorem exists_layout_step (v : Version) : ∃ l, ReadsBy l (step v) := by
  have hperform : ∀ word, ∃ l, ReadsBy l (perform v word) := by
    intro word
    unfold perform
    cases operation v word with
    | common code parameter =>
      dsimp only
      cases h : table.lookup code with
      | none => exact ⟨.done, .throw _ _⟩
      | some handler => exact exists_layout_table _ (mem_of_lookup_eq_some h) v parameter
    | dimension => exact ⟨.done, readsBy_dimension⟩
    | dimensionArray type => exact ⟨.done, readsBy_dimensionArray v type⟩
    | undefined => exact ⟨.done, .throw _ _⟩
  obtain ⟨layout, h⟩ := Classical.axiomOfChoice hperform
  exact ⟨.words 1 layout, .word_bind h⟩

end Instruction

end SavedBasic
