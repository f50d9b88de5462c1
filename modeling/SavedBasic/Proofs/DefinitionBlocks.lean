import SavedBasic.Proofs.AppendOnly

/-!
# Function definitions that stay open

A function definition is closed by its value, if it has one, and otherwise by `END DEF`. The decoder
keeps a list of the definitions that are open, and an `EXIT` that does not say what it leaves reads
from it whether it leaves a definition or the procedure. Only a value takes a definition off that
list: `END DEF` is put on its line like any other statement. So behind instructions in which every
definition is closed the list has grown by one definition for every `END DEF`, and each `EXIT` behind
the first of them is taken for an `EXIT DEF`, in whatever procedure it stands.
-/

namespace SavedBasic

namespace Instruction

open Decode

/-- Whether an instruction is the head of a function definition. -/
def Operation.opensFn : Operation → Bool
  | .common code _ => code == opener
  | _ => false

/-- Whether an instruction is `END DEF`. -/
def Operation.endsFn : Operation → Bool
  | .common code _ => code == 0x004F
  | _ => false

/-- Whether an instruction is an `EXIT` that does not say what it leaves. -/
def Operation.leavesBlock : Operation → Bool
  | .common code _ => code == 0x0055
  | _ => false

/-- The number of function definitions that are open behind an instruction, if `depth` are open in
front of it; nothing if it closes one where none is open. -/
def Operation.depthBehind (depth : Nat) (op : Operation) : Option Nat :=
  if op.opensFn then some (depth + 1)
  else if op.givesValue || op.endsFn then
    if depth = 0 then none else some (depth - 1)
  else some depth

/-- Every function definition that instructions open is closed by one of them, and they close no
others. -/
def BlocksClosed (ops : List Operation) : Prop :=
  ops.foldlM Operation.depthBehind 0 = some 0

instance (ops : List Operation) : Decidable (BlocksClosed ops) :=
  inferInstanceAs (Decidable (_ = _))

theorem Operation.of_opensFn {op : Operation} (h : op.opensFn = true) :
    op.givesValue = false ∧ op.endsFn = false := by
  cases op with
  | common code parameter =>
    obtain rfl : code = opener := beq_iff_eq.mp h
    exact ⟨rfl, rfl⟩
  | _ => cases h

theorem Operation.of_givesValue {op : Operation} (h : op.givesValue = true) :
    op.opensFn = false ∧ op.endsFn = false := by
  cases op with
  | common code parameter =>
    obtain rfl : code = 0x0026 := beq_iff_eq.mp h
    exact ⟨rfl, rfl⟩
  | _ => cases h

theorem Operation.depthBehind_of_opensFn {op : Operation} (h : op.opensFn = true) (depth : Nat) :
    op.depthBehind depth = some (depth + 1) :=
  if_pos h

theorem Operation.depthBehind_of_closes {op : Operation} {depth depth' : Nat}
    (hopens : op.opensFn = false) (hcloses : (op.givesValue || op.endsFn) = true)
    (h : op.depthBehind depth = some depth') : depth = depth' + 1 := by
  simp only [depthBehind, hopens, hcloses, Bool.false_eq_true, if_false, if_true] at h
  split at h
  · cases h
  · cases h
    omega

theorem Operation.depthBehind_of_other {op : Operation} (hopens : op.opensFn = false)
    (hcloses : (op.givesValue || op.endsFn) = false) (depth : Nat) :
    op.depthBehind depth = some depth := by
  simp only [depthBehind, hopens, hcloses, Bool.false_eq_true, if_false]

theorem Operation.opensFn_of_power? {op : Operation} (h : op.power? = some .opens) :
    op.opensFn = true := by
  cases op with
  | common code parameter =>
    dsimp only [Operation.power?] at h
    unfold Instruction.power? at h
    split at h
    · cases h
    · split at h
      · cases h
      · split at h
        · rename_i hcode
          exact beq_iff_eq.mpr hcode
        · split at h
          · cases h
          · split at h <;> cases h
  | _ => cases h

theorem perform_of_opensFn {v : Version} {w : Nat} (h : (operation v w).opensFn = true) :
    perform v w = (do
      skipWords 2
      let (name, _) ← flaggedName v 4 fun _ => pure ()
      let params ← parameters (functionParameter v) (← word)
      openFn { name := name, params := params, parentheses := v = .vbdos, definition := none }) := by
  cases hop : operation v w with
  | common code parameter =>
    rw [hop, Operation.opensFn, beq_iff_eq] at h
    rw [perform, hop, h]
    rfl
  | _ => rw [hop] at h; cases h

theorem perform_of_leavesBlock {v : Version} {w : Nat} (h : (operation v w).leavesBlock = true) :
    perform v w = (do
      match ← exitBlock with
      | some block => put (.exitFrom block)
      | none => throw .brokenPromise
      skipWords 1) := by
  cases hop : operation v w with
  | common code parameter =>
    rw [hop, Operation.leavesBlock, beq_iff_eq] at h
    rw [perform, hop, h]
    rfl
  | _ => rw [hop] at h; cases h

end Instruction

namespace Decode

open Instruction

variable {v : Version} {src : Source} {s s' : State} {pos pos' : Nat}

/-! ## One instruction -/

/-- Without the power to open or to close function definitions, the same ones stay open. -/
theorem Change.openFns_eq {e : Option Power} (h : Change src e s s') (hopens : e ≠ some .opens)
    (hclose : e ≠ some .close) : s'.openFns = s.openFns := by
  cases h with
  | noted => exact State.openFns_noting src s _
  | opened he => exact absurd he hopens
  | closed he => exact absurd he hclose
  | _ => rfl

theorem ChangesBy.openFns_eq {e : Option Power} (h : ChangesBy src e s s')
    (hopens : e ≠ some .opens) (hclose : e ≠ some .close) : s'.openFns = s.openFns := by
  induction h with
  | refl => rfl
  | tail _ hlast ih => rw [hlast.openFns_eq hopens hclose, ih]

theorem Composed.keepsOpen {α : Type} {m : Decode α} {e : Option Power} (hm : Composed e m)
    (hopens : e ≠ some .opens) (hclose : e ≠ some .close) : KeepsOpen m :=
  fun src pos s => (hm.changesBy src pos s).openFns_eq hopens hclose

theorem KeepsOpen.openFns_eq {α : Type} {m : Decode α} (hm : KeepsOpen m) {r : Except Fault α}
    (hrun : m.run src pos s = (r, pos', s')) : s'.openFns = s.openFns := by
  have hkept := hm src pos s
  rwa [hrun] at hkept

/-- What is done without any power leaves the same function definitions open. -/
theorem openFns_of_composed {α : Type} {m : Decode α} (hm : Composed none m) {r : Except Fault α}
    (hrun : m.run src pos s = (r, pos', s')) : s'.openFns = s.openFns :=
  (hm.keepsOpen (by decide) (by decide)).openFns_eq hrun

theorem openFns_of_openFn {d : DefFn} (hrun : (openFn d).run src pos s = (.ok (), pos', s')) :
    ∃ place, s'.openFns = place :: s.openFns := by
  rw [openFn_eq, run_bind, run_lastStatement] at hrun
  rcases hlast : s.last? with _ | st <;> rw [hlast] at hrun
  · cases hrun
  · obtain ⟨_, _, s₁, hput, hrun⟩ := run_bind_eq_ok.mp hrun
    have hsame := openFns_of_composed (.put _) hput
    rw [run_modify] at hrun
    cases hrun
    exact ⟨_, congrArg _ hsame⟩

/-- The head of a function definition opens one. -/
theorem openFns_of_opensFn {w : Nat} (h : (operation v w).opensFn = true)
    (hrun : (perform v w).run src pos s = (.ok (), pos', s')) :
    ∃ place, s'.openFns = place :: s.openFns := by
  rw [perform_of_opensFn h] at hrun
  obtain ⟨_, _, s₁, hskip, hrun⟩ := run_bind_eq_ok.mp hrun
  obtain ⟨x, _, s₂, hname, hrun⟩ := run_bind_eq_ok.mp hrun
  obtain ⟨n, _, s₃, hword, hrun⟩ := run_bind_eq_ok.mp hrun
  obtain ⟨params, _, s₄, hparams, hrun⟩ := run_bind_eq_ok.mp hrun
  obtain ⟨place, hplace⟩ := openFns_of_openFn hrun
  have h₁ := openFns_of_composed (.skipWords 2) hskip
  have h₂ := openFns_of_composed (composed_flaggedName v 4 fun _ => .pure ()) hname
  have h₃ := openFns_of_composed .word hword
  have h₄ := openFns_of_composed (composed_parameters (composed_functionParameter v) n) hparams
  exact ⟨place, by rw [hplace, h₄, h₃, h₂, h₁]⟩

/-- A value closes the innermost definition. -/
theorem openFns_of_givesValue {w : Nat} (h : (operation v w).givesValue = true)
    (hrun : (perform v w).run src pos s = (.ok (), pos', s')) :
    ∃ place, s.openFns = place :: s'.openFns := by
  rw [perform_of_givesValue h] at hrun
  obtain ⟨x, _, s₁, hpop, hrun⟩ := run_bind_eq_ok.mp hrun
  obtain ⟨_, pos₂, s₂, hclose, hrun⟩ := run_bind_eq_ok.mp hrun
  have hpopped := openFns_of_composed .pop hpop
  have hskipped := state_skipWords 2 src pos₂ s₂
  rw [hrun] at hskipped
  rw [closeFn_value_eq, isOpen, bind_assoc, run_bind, run_get] at hclose
  rcases hopen : s₁.openFns with _ | ⟨place, rest⟩ <;> simp [hopen] at hclose
  refine ⟨place, ?_⟩
  rw [← hpopped, hopen, show s' = s₂ from hskipped, ← hclose.2, State.closeTop, hopen]

/-- **What an instruction opens and closes.** The head of a function definition opens one, a value
closes the innermost one, and behind every other instruction, `END DEF` among them, the same ones are
open as before. -/
theorem openFns_of_perform {w : Nat} (hrun : (perform v w).run src pos s = (.ok (), pos', s')) :
    ((operation v w).opensFn = true ∧ ∃ place, s'.openFns = place :: s.openFns) ∨
    ((operation v w).givesValue = true ∧ ∃ place, s.openFns = place :: s'.openFns) ∨
    ((operation v w).opensFn = false ∧ (operation v w).givesValue = false ∧
      s'.openFns = s.openFns) := by
  by_cases hopens : (operation v w).opensFn = true
  · exact .inl ⟨hopens, openFns_of_opensFn hopens hrun⟩
  by_cases hvalue : (operation v w).givesValue = true
  · exact .inr (.inl ⟨hvalue, openFns_of_givesValue hvalue hrun⟩)
  refine .inr (.inr ⟨Bool.not_eq_true _ ▸ hopens, Bool.not_eq_true _ ▸ hvalue, ?_⟩)
  have hkeeps := (composed_perform v w).keepsOpen
    (fun h => hopens (Operation.opensFn_of_power? h)) fun h => hvalue (Operation.givesValue_of_power? h)
  exact hkeeps.openFns_eq hrun

/-! ## Instructions of a file -/

/-- Instructions that succeed one after another, with what each of them asks for. Between them
procedures may begin. -/
inductive Performs (v : Version) (src : Source) : List Operation → State → State → Prop where
  /-- there are no more instructions -/
  | done (s : State) : Performs v src [] s s
  /-- one instruction, and the others behind it -/
  | step {w pos pos₁ : Nat} {s s₁ s₂ : State} {ops : List Operation}
    (hw : src.natLE pos 2 = .ok w)
    (hp : (perform v w).run src (pos + 2) s = (.ok (), pos₁, s₁))
    (rest : Performs v src ops s₁ s₂) : Performs v src (operation v w :: ops) s s₂
  /-- a procedure begins -/
  | enter {s s₁ : State} {ops : List Operation} (name : Bytes) (static : Bool)
    (rest : Performs v src ops (s.enter name static) s₁) : Performs v src ops s s₁

theorem Performs.append {ops ops' : List Operation} {s₁ s₂ s₃ : State}
    (h : Performs v src ops s₁ s₂) (h' : Performs v src ops' s₂ s₃) :
    Performs v src (ops ++ ops') s₁ s₃ := by
  induction h with
  | done => exact h'
  | step hw hp _ ih => exact .step hw hp (ih h')
  | enter name static _ ih => exact .enter name static (ih h')

theorem Trace.performs {fin : Nat} {ops : List Operation} (h : Trace v src fin ops pos s pos' s') :
    Performs v src ops s s' := by
  induction h with
  | done => exact .done _
  | step _ hw hp _ ih => exact .step hw hp ih

theorem performs_body (hrun : (body v).run src pos s = (.ok (), pos', s')) :
    ∃ ops, Performs v src ops s s' := by
  obtain ⟨length, -, hrun⟩ := run_body_eq_ok.mp hrun
  obtain ⟨ops, htrace⟩ := run_instructions_eq_ok.mp hrun
  exact ⟨ops, htrace.performs⟩

theorem performs_nextProcedure (hrun : (nextProcedure v).run src pos s = (.ok (), pos', s')) :
    ∃ ops, Performs v src ops s s' := by
  rw [nextProcedure_eq] at hrun
  obtain ⟨name, pos₁, s₁, hname, hrun⟩ := run_bind_eq_ok.mp hrun
  obtain ⟨flags, pos₂, s₂, hflags, hrun⟩ := run_bind_eq_ok.mp hrun
  obtain ⟨_, pos₃, s₃, henter, hrun⟩ := run_bind_eq_ok.mp hrun
  obtain ⟨ops, hbody⟩ := performs_body hrun
  have hsame := state_procedureName src pos s
  rw [hname] at hsame
  obtain rfl : s₁ = s := hsame
  rw [run_number] at hflags
  rcases hn : src.natLE pos₁ 1 with fault | n <;> rw [hn] at hflags <;> cases hflags
  cases henter
  exact ⟨ops, .enter name _ hbody⟩

theorem performs_furtherProcedures
    (hrun : (furtherProcedures v).run src pos s = (.ok (), pos', s')) :
    ∃ ops, Performs v src ops s s' := by
  -- every procedure lies behind a trailer, so the rest of the file shrinks
  induction hd : src.size - pos using Nat.strongRecOn generalizing pos s with
  | _ d ih =>
    by_cases hmore : pos + trailerSize < src.size
    · rw [run_furtherProcedures_of_lt hmore] at hrun
      obtain ⟨_, pos₁, s₁, hnext, hrest⟩ := run_bind_eq_ok.mp hrun
      have hle := le_of_run hnext
      rw [trailerSize] at hmore hle
      obtain ⟨ops, hops⟩ := performs_nextProcedure hnext
      obtain ⟨ops', hops'⟩ := ih (src.size - pos₁) (by omega) hrest rfl
      exact ⟨ops ++ ops', hops.append hops'⟩
    · rw [run_furtherProcedures_of_le (Nat.not_lt.mp hmore)] at hrun
      cases hrun
      exact ⟨[], .done _⟩

/-- A whole file is decoded in this way, with no definition open at first. -/
theorem performs_file (hrun : (file v).run src 0 (.start v) = (.ok (), pos', s')) :
    ∃ ops s, s.openFns = [] ∧ Performs v src ops s s' := by
  rw [file_eq] at hrun
  obtain ⟨_, pos₁, s₁, hopening, hrun⟩ := run_bind_eq_ok.mp hrun
  obtain ⟨_, pos₂, s₂, hbody, hrun⟩ := run_bind_eq_ok.mp hrun
  obtain ⟨ops, hops⟩ := performs_body hbody
  obtain ⟨ops', hops'⟩ := performs_furtherProcedures hrun
  have hkeeps : KeepsOpen (opening v) :=
    (keepsOpen_header v).bind fun _ => .bind (fun _ _ _ => rfl) fun _ => fun _ _ _ => rfl
  exact ⟨ops ++ ops', s₁, hkeeps.openFns_eq hopening, hops.append hops'⟩

/-! ## What stays open -/

/-- Above the definitions `base` there are `n` more open. -/
def State.OpenAbove (base : List Place) (n : Nat) (s : State) : Prop :=
  ∃ recent, s.openFns = recent ++ base ∧ recent.length = n

/-- An `END DEF` leaves open the definition that it should close. -/
theorem openAbove_of_perform {w depth depth' left : Nat} {base : List Place}
    (hs : s.OpenAbove base (depth + left))
    (hdepth : (operation v w).depthBehind depth = some depth')
    (hrun : (perform v w).run src pos s = (.ok (), pos', s')) :
    s'.OpenAbove base (depth' + (left + [operation v w].countP Operation.endsFn)) := by
  obtain ⟨recent, hrecent, hlength⟩ := hs
  rcases openFns_of_perform hrun with
    ⟨hopens, place, hs'⟩ | ⟨hvalue, place, hs'⟩ | ⟨hopens, hvalue, hs'⟩
  · obtain ⟨-, hends⟩ := Operation.of_opensFn hopens
    rw [Operation.depthBehind_of_opensFn hopens, Option.some.injEq] at hdepth
    refine ⟨place :: recent, by rw [hs', hrecent, List.cons_append], ?_⟩
    simp only [List.length_cons, List.countP_singleton, hends, Bool.false_eq_true, if_false]
    omega
  · obtain ⟨hopens, hends⟩ := Operation.of_givesValue hvalue
    have hone := Operation.depthBehind_of_closes hopens (by rw [hvalue, Bool.true_or]) hdepth
    obtain ⟨first, recent, rfl⟩ := List.exists_cons_of_length_pos (l := recent) (by omega)
    rw [hs', List.cons_append] at hrecent
    refine ⟨recent, (List.cons.inj hrecent).2, ?_⟩
    simp only [List.length_cons] at hlength
    simp only [List.countP_singleton, hends, Bool.false_eq_true, if_false]
    omega
  · refine ⟨recent, by rw [hs', hrecent], ?_⟩
    rcases hends : (operation v w).endsFn
    · rw [Operation.depthBehind_of_other hopens (by rw [hvalue, hends]; rfl), Option.some.injEq]
        at hdepth
      simp only [List.countP_singleton, hends, Bool.false_eq_true, if_false]
      omega
    · -- the list does not shrink, but the depth does
      have hone := Operation.depthBehind_of_closes hopens (by rw [hends, Bool.or_true]) hdepth
      simp only [List.countP_singleton, hends, if_true]
      omega

/-- **Every `END DEF` leaves a definition open.** -/
theorem Performs.openAbove {ops : List Operation} (h : Performs v src ops s s')
    {depth depth' left : Nat} {base : List Place}
    (hdepth : ops.foldlM Operation.depthBehind depth = some depth')
    (hs : s.OpenAbove base (depth + left)) :
    s'.OpenAbove base (depth' + (left + ops.countP Operation.endsFn)) := by
  induction h generalizing depth left with
  | done s =>
    obtain rfl : depth = depth' := Option.some.inj hdepth
    exact hs
  | enter name static _ ih => exact ih hdepth hs
  | @step w pos pos₁ _ s₁ _ ops hw hp _ ih =>
    rw [List.foldlM_cons] at hdepth
    obtain ⟨depth₁, hfirst, hrest⟩ := Option.bind_eq_some_iff.mp hdepth
    have hlast := ih hrest (openAbove_of_perform hs hfirst hp)
    rwa [Nat.add_assoc, ← List.countP_append, List.singleton_append] at hlast

theorem run_exitBlock (src : Source) (pos : Nat) (s : State) :
    exitBlock.run src pos s =
      (.ok (if s.openFns.isEmpty then s.program.current.kind.map .procedure else some .defFn),
        pos, s) := by
  rw [exitBlock, run_bind, run_get]
  dsimp only
  split <;> rfl

/-- An `EXIT` leaves a function definition if one is open, and otherwise the procedure. -/
theorem exits_of_leavesBlock {w : Nat} (h : (operation v w).leavesBlock = true)
    (hrun : (perform v w).run src pos s = (.ok (), pos', s')) :
    ∃ block pos₁, (put (.exitFrom block)).run src pos s = (.ok (), pos₁, s') ∧
      (if s.openFns.isEmpty then s.program.current.kind.map .procedure else some .defFn) =
        some block := by
  rw [perform_of_leavesBlock h, run_bind, run_exitBlock] at hrun
  dsimp only at hrun
  split at hrun
  · rename_i block hblock
    obtain ⟨_, pos₁, s₁, hput, hskip⟩ := run_bind_eq_ok.mp hrun
    have hsame := state_skipWords 1 src pos₁ s₁
    rw [hskip] at hsame
    obtain rfl : s' = s₁ := hsame
    exact ⟨block, pos₁, hput, hblock⟩
  · obtain ⟨_, _, _, hthrow, -⟩ := run_bind_eq_ok.mp hrun
    cases hthrow

/-- **`END DEF` closes nothing.** Instructions succeed one after another, in one or several
procedures, and every function definition that they open is closed by its value or by an `END DEF`.
Then one definition for each `END DEF` is still open behind them, above those that were open in front
of them. So an `EXIT` that follows, outside all of these definitions, leaves the procedure that it
stands in if none was open at first and there was no `END DEF`; otherwise it is an `EXIT DEF`. -/
theorem definitions_left_open {ops : List Operation} (h : Performs v src ops s s')
    (hclosed : BlocksClosed ops) :
    (∃ left, s'.openFns = left ++ s.openFns ∧ left.length = ops.countP Operation.endsFn) ∧
    ∀ w pos pos' s'', (operation v w).leavesBlock = true →
      (perform v w).run src pos s' = (.ok (), pos', s'') →
      ∃ block pos₁, (put (.exitFrom block)).run src pos s' = (.ok (), pos₁, s'') ∧
        (s.openFns = [] ∧ ops.countP Operation.endsFn = 0 →
          s'.program.current.kind.map .procedure = some block) ∧
        (¬(s.openFns = [] ∧ ops.countP Operation.endsFn = 0) → block = .defFn) := by
  have hstart : s.OpenAbove s.openFns (0 + 0) := ⟨[], rfl, rfl⟩
  obtain ⟨left, hleft, hlength⟩ := h.openAbove hclosed hstart
  have hcount : left.length = ops.countP Operation.endsFn := by omega
  have hempty : s'.openFns.isEmpty = true ↔
      s.openFns = [] ∧ ops.countP Operation.endsFn = 0 := by
    rw [List.isEmpty_iff, hleft, List.append_eq_nil_iff, ← hcount, List.length_eq_zero_iff, and_comm]
  refine ⟨⟨left, hleft, hcount⟩, ?_⟩
  intro w pos pos' s'' hleaves hrun
  obtain ⟨block, pos₁, hput, hblock⟩ := exits_of_leavesBlock hleaves hrun
  refine ⟨block, pos₁, hput, fun hnone => ?_, fun hsome => ?_⟩
  · rwa [if_pos (hempty.mpr hnone)] at hblock
  · rw [if_neg fun hnil => hsome (hempty.mp hnil)] at hblock
    exact (Option.some.inj hblock).symm

/-- A file with two `EXIT`s in a procedure: behind one name stand the instructions of the head of a
`SUB`, of an `EXIT`, of the head of a function definition, of `END DEF` and of another `EXIT`, each on
a line of its own. -/
def twoExits : Source :=
  .ofBytes (List.replicate 0x1C 0 ++ Key.namedEntry [0x41] ++
    [0x00, 0x00, 0x76, 0x00, 0x00, 0x00, 0x00, 0x00, 0x00, 0x00, 0x00, 0x00,
     0x00, 0x00, 0x55, 0x00, 0x00, 0x00,
     0x00, 0x00, 0x45, 0x00, 0x00, 0x00, 0x00, 0x00, 0x00, 0x00, 0x00, 0x00, 0x00, 0x00,
     0x00, 0x00, 0x4F, 0x00, 0x00, 0x00, 0x00, 0x00,
     0x00, 0x00, 0x55, 0x00, 0x00, 0x00])

/-- The state in which the header of this file has been read. -/
def atTwoExits : State :=
  ((header .qb45).run twoExits 0 (.start .qb45)).2.2

/-- The state in which the first `EXIT` of this file is met. -/
def atFirstExit : State :=
  atTwoExits.steps .qb45 twoExits [0x22, 0x24, 0x2E]

/-- The state in which the second `EXIT` of this file is met. -/
def atSecondExit : State :=
  atFirstExit.steps .qb45 twoExits [0x30, 0x34, 0x36, 0x42, 0x44, 0x4A]

theorem performs_firstExit : Performs .qb45 twoExits
    ([0x0000, 0x0076, 0x0000].map (operation .qb45)) atTwoExits atFirstExit := by
  have htrace : Trace .qb45 twoExits 0x30 ([0x0000, 0x0076, 0x0000].map (operation .qb45))
      0x22 atTwoExits 0x30 atFirstExit :=
    .step (by decide) rfl rfl (.step (by decide) rfl rfl (.step (by decide) rfl rfl
      (.done (Nat.le_refl _))))
  exact htrace.performs

theorem performs_secondExit : Performs .qb45 twoExits
    ([0x0000, 0x0076, 0x0000, 0x0055, 0x0000, 0x0045, 0x0000, 0x004F, 0x0000].map (operation .qb45))
    atTwoExits atSecondExit := by
  have htrace : Trace .qb45 twoExits 0x4C
      ([0x0055, 0x0000, 0x0045, 0x0000, 0x004F, 0x0000].map (operation .qb45))
      0x30 atFirstExit 0x4C atSecondExit :=
    .step (by decide) rfl rfl (.step (by decide) rfl rfl (.step (by decide) rfl rfl
      (.step (by decide) rfl rfl (.step (by decide) rfl rfl (.step (by decide) rfl rfl
        (.done (Nat.le_refl _)))))))
  exact performs_firstExit.append htrace.performs

/-- Of the two `EXIT`s in a `SUB`, the one in front of the `END DEF` leaves the `SUB`, and the one
behind it a definition that has been closed. -/
theorem exits_around_endDef :
    (∃ pos, (put (.exitFrom (.procedure .sub))).run twoExits 0x32 atFirstExit =
      (.ok (), pos, ((perform .qb45 0x0055).run twoExits 0x32 atFirstExit).2.2)) ∧
    atSecondExit.openFns.length = 1 ∧
    ∃ pos, (put (.exitFrom .defFn)).run twoExits 0x4E atSecondExit =
      (.ok (), pos, ((perform .qb45 0x0055).run twoExits 0x4E atSecondExit).2.2) := by
  obtain ⟨-, hfirst⟩ := definitions_left_open performs_firstExit (by decide)
  obtain ⟨⟨left, hleft, hlength⟩, hsecond⟩ := definitions_left_open performs_secondExit (by decide)
  obtain ⟨block, pos, hput, hprocedure, -⟩ := hfirst 0x0055 0x32 0x34 _ rfl rfl
  obtain ⟨block', pos', hput', -, hdefFn⟩ := hsecond 0x0055 0x4E 0x50 _ rfl rfl
  obtain rfl : Block.procedure .sub = block := Option.some.inj (hprocedure ⟨rfl, by decide⟩)
  obtain rfl : block' = .defFn := hdefFn fun hnone => absurd hnone.2 (by decide)
  refine ⟨⟨pos, hput⟩, ?_, pos', hput'⟩
  rw [hleft, List.length_append, hlength]
  rfl

/-- A `SUB` with a definition that its `END DEF` closes: an `EXIT` behind it is an `EXIT DEF`. -/
theorem exit_behind_endDef :
    ∃ ops, Performs .qb45 twoExits ops atTwoExits atSecondExit ∧ BlocksClosed ops ∧
      atTwoExits.openFns = [] ∧ atSecondExit.openFns ≠ [] ∧
      atSecondExit.program.current.kind = some .sub ∧
      ((perform .qb45 0x0055).run twoExits 0x4E atSecondExit).2.2.last? =
        some (.exitFrom .defFn) := by
  refine ⟨_, performs_secondExit, by decide, rfl, ?_, rfl, rfl⟩
  intro hnil
  cases hnil

end Decode

end SavedBasic
