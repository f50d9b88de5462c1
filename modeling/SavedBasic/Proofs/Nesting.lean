import Mathlib.Data.List.Forall2
import SavedBasic.Proofs.Builders
import SavedBasic.Proofs.Colon

/-!
# Statements in a branch

The instructions of a statement may stand behind a single-line `IF` instead of on a line of their own.
They then give the `IF` with the same statement in its branch exactly if none of them builds on the
statement that it finds at the end of the line. What puts a statement finds the open place in the
branch; what builds on one finds the `IF` and fails, with one exception: a mark such as `SHARED` that
makes a declaration of its own is lost, and the declaration in the branch stays without it.

The two runs are related by `Nested`: they have written the same, but for the last statements, and
function definitions that are open in the statement are open in the branch. The relation is
parametrised by how the last statements correspond. In general the one is the branch of the other
(`InBranch`); once a mark has been lost, the one is a declaration with a mark and the other an `IF`
with an empty one (`MarkLost`), and nothing brings them together again.
-/

namespace SavedBasic

open Decode Instruction

variable {α β : Type} {v : Version} {src : Source}

/-! ## One run follows another -/

namespace Decode

variable {R : State → State → Prop} {e : Option Power}

/-- From related states, an action that succeeds in the first one succeeds alike in the second one and
leaves related states. -/
def Follows (src : Source) (R : State → State → Prop) (m : Decode α) : Prop :=
  ∀ ⦃pos pos' : Nat⦄ ⦃s s' t : State⦄ ⦃a : α⦄, R s t → m.run src pos s = (.ok a, pos', s') →
    ∃ t', m.run src pos t = (.ok a, pos', t') ∧ R s' t'

theorem Respects.follows {m : Decode α} (h : Respects src src R m) : Follows src R m := by
  intro pos pos' s s' t a hR hrun
  obtain ⟨r, n, s₁, t₁, hs, ht, hR'⟩ := @h pos pos s t rfl hR
  rw [hrun] at hs
  cases hs
  exact ⟨t₁, ht, hR'⟩

theorem Follows.bind {m : Decode α} {f : α → Decode β} (hm : Follows src R m)
    (hf : ∀ a, Follows src R (f a)) : Follows src R (m >>= f) := by
  intro pos pos' s s' t b hR hrun
  obtain ⟨a, pos₁, s₁, hs, hrest⟩ := run_bind_eq_ok.mp hrun
  obtain ⟨t₁, ht, hR₁⟩ := hm hR hs
  obtain ⟨t', ht', hR'⟩ := hf a hR₁ hrest
  exact ⟨t', (run_bind_ok ht).trans ht', hR'⟩

/-- The powers that do not reach the last statement of the line as a whole. -/
def Quiet (e : Option Power) : Prop :=
  e ≠ some .build ∧ ∀ effect, e = some (.effect effect) → effect = .arguments

/-- What does not look at the last statement follows wherever putting a statement and opening a
function definition do. -/
theorem Composed.follows {m : Decode α} (hm : Composed e m) (hquiet : Quiet e)
    (h : AsideCongruent src src R) (he : EffectCongruent R e)
    (hput : ∀ new, Follows src R (Decode.put new)) (hopen : ∀ d, Follows src R (Decode.openFn d)) :
    Follows src R m := by
  induction hm with
  | pure a => exact (respects_pure a).follows
  | throw fault => exact (respects_throw fault).follows
  | bind _ _ ihm ihf => exact Follows.bind ihm ihf
  | number width hw => exact (respects_number hw).follows
  | bytes n => exact (respects_bytes n).follows
  | identifierAt offset => exact (h.identifierAt offset).follows
  | push x => exact (h.push x).follows
  | pop => exact h.pop.follows
  | popMany n => exact (h.popMany n).follows
  | put new => exact hput new
  | isOpen _ => exact h.testOpen.follows
  | openFn _ d => exact hopen d
  | closeFn _ x => exact (h.closeFn x).follows
  | currentKind => exact h.currentKind.follows
  | currentStatic => exact h.currentStatic.follows
  | setProcedureKind kind => exact (respects_modify fun _ _ hR => h.withKind kind hR).follows
  | arguments heq =>
    refine Respects.follows (respects_of_still fun _ _ s₁ s₂ hR => ?_)
    exact ⟨.ok s₁.arguments, s₁, s₂, rfl, by rw [he.arguments heq hR]; rfl, hR⟩
  | modifyArguments heq f =>
    exact (respects_modify fun _ _ hR => he.modifyArguments heq f hR).follows
  | lastStatement heq => exact absurd heq hquiet.1
  | amend heq f _ => exact absurd heq hquiet.1
  | clear heq => cases hquiet.2 _ heq
  | beginLine heq label indent => cases hquiet.2 _ heq
  | colon heq column => cases hquiet.2 _ heq
  | line heq => cases hquiet.2 _ heq
  | amendLine heq f _ => cases hquiet.2 _ heq

end Decode

theorem Reads.follows {R : State → State → Prop} {m : Decode α} (hm : Reads m)
    (h : AsideCongruent src src R) : Follows src R m := by
  induction hm with
  | pure a => exact (respects_pure a).follows
  | throw fault => exact (respects_throw fault).follows
  | bind _ _ ihm ihf => exact Follows.bind ihm ihf
  | number width hw => exact (respects_number hw).follows
  | identifierAt offset => exact (h.identifierAt offset).follows
  | pop => exact h.pop.follows
  | popMany n => exact (h.popMany n).follows

/-- An assignment that nothing takes follows wherever putting a statement does. -/
theorem Transfers.follows {R : State → State → Prop} {m : Decode Unit} (hm : Transfers m)
    (h : AsideCongruent src src R) (hput : ∀ new, Follows src R (put new)) {pos pos' : Nat}
    {s s' t : State} {st L : Statement} (hR : R s t) (hs : s.last? = some st)
    (hst : st.takesTransfer = false) (ht : t.last? = some L) (hL : L.takesTransfer = false)
    (hrun : m.run src pos s = (.ok (), pos', s')) :
    ∃ t', m.run src pos t = (.ok (), pos', t') ∧ R s' t' := by
  induction hm generalizing pos s t with
  | transfer x =>
    rw [run_transfer_of_not_takes hs hst] at hrun
    rw [run_transfer_of_not_takes ht hL]
    exact hput _ hR hrun
  | throw fault => cases hrun
  | bind hreads _ ih =>
    obtain ⟨a, pos₁, s₁, hs₁, hrest⟩ := run_bind_eq_ok.mp hrun
    obtain ⟨t₁, ht₁, hR₁⟩ := hreads.follows h hR hs₁
    obtain ⟨t', ht', hR'⟩ :=
      ih a hR₁ ((hreads.last?_eq hs₁).trans hs) ((hreads.last?_eq ht₁).trans ht) hrest
    exact ⟨t', (run_bind_ok ht₁).trans ht', hR'⟩

/-! ## Nested states -/

/-- How the last statement of a line and that of another one, with a single-line `IF` in front,
correspond: what goes into the open place of the one goes into the other one's, which is in the branch,
and function definitions get their values alike. -/
structure Statement.Corresponds (Q : Statement → Statement → Prop) : Prop where
  place {st L new st' : Statement} (h : Q st L) (hplace : st.place new = .placed st') :
    ∃ L', L.place new = .placed L' ∧ Q st' L'
  openPlace {st L new st' : Statement} (h : Q st L) (hplace : st.place new = .placed st') :
    L.openPlace = .action :: st.openPlace
  define {st L : Statement} (h : Q st L) (closing : Closing) (way : List Branch) :
    Q (st.amendAt (.define closing) way) (L.amendAt (.define closing) (.action :: way))

/-- A line with one statement. -/
theorem Line.statements_of_alone {l : Line} (h : l.earlier = []) : l.statements = [l.last.statement] := by
  rw [statements_eq, h]
  rfl

namespace Decode

variable {Q : Statement → Statement → Prop} {k m : Nat} {s t : State}

/-- The places of function definitions, where the line counted `m` of the procedure `k` has a
statement, and the other one has it in the branch of an `IF`. -/
inductive Shifted (k m : Nat) : Place → Place → Prop where
  /-- a place on another line -/
  | same {p : Place} (h : p.procedure = k → p.line ≠ m) : Shifted k m p p
  /-- a place in the statement -/
  | branch (way : List Statement.Branch) : Shifted k m ⟨k, m, 0, way⟩ ⟨k, m, 0, .action :: way⟩

/-- The same lines, but for the last statement. It is the only one of the last line, which is counted
`m`. -/
def NestedLines (Q : Statement → Statement → Prop) (m : Nat) (lines lines' : List Line) : Prop :=
  ∃ l L rest, lines = l :: rest ∧ lines' = l.setLast L :: rest ∧ l.earlier = [] ∧ rest.length = m ∧
    Q l.last.statement L

/-- Two states of the decoding of one statement: on a line of its own, and behind a single-line
`IF`. -/
structure Nested (src : Source) (Q : Statement → Statement → Prop) (k m : Nat) (s t : State) :
    Prop where
  names : s.nameAt src = t.nameAt src
  stack : s.stack = t.stack
  arguments : s.arguments = t.arguments
  earlier : s.program.earlier = t.program.earlier
  length : s.program.earlier.length = k
  kind : s.program.current.kind = t.program.current.kind
  static : s.program.current.static = t.program.current.static
  lines : NestedLines Q m s.program.current.lines t.program.current.lines
  openFns : List.Forall₂ (Shifted k m) s.openFns t.openFns

theorem NestedLines.amend_other {lines lines' : List Line} (h : NestedLines Q m lines lines') {i : Nat}
    (hi : i ≠ m) (f : Line → Line) :
    NestedLines Q m (amendFromEnd f i lines) (amendFromEnd f i lines') := by
  obtain ⟨l, L, rest, rfl, rfl, hl, hrest, hQ⟩ := h
  rw [amendFromEnd_cons, amendFromEnd_cons, if_neg (by omega), if_neg (by omega)]
  exact ⟨l, L, _, rfl, rfl, hl, (length_amendFromEnd ..).trans hrest, hQ⟩

theorem NestedLines.amend_branch {lines lines' : List Line} (h : NestedLines Q m lines lines')
    (hQ : Statement.Corresponds Q) (closing : Closing) (way : List Statement.Branch) :
    NestedLines Q m (amendFromEnd (Line.amendAt (.define closing) 0 way) m lines)
      (amendFromEnd (Line.amendAt (.define closing) 0 (.action :: way)) m lines') := by
  obtain ⟨l, L, rest, rfl, rfl, hl, hrest, hst⟩ := h
  rw [amendFromEnd_cons, amendFromEnd_cons, if_pos hrest.symm, if_pos hrest.symm]
  have hamend {l : Line} (hl : l.earlier = []) (way : List Statement.Branch) :
      l.amendAt (.define closing) 0 way =
        l.setLast (l.last.statement.amendAt (.define closing) way) := by
    rw [Line.amendAt, if_pos (by rw [hl]; rfl)]
    rfl
  have hl' : (l.setLast L).earlier = [] := hl
  rw [hamend hl, hamend hl']
  exact ⟨_, _, rest, rfl, rfl, hl, hrest, hQ.define hst closing way⟩

namespace Nested

/-- The last statements correspond. -/
theorem last (h : Nested src Q k m s t) :
    ∃ st L, s.last? = some st ∧ t.last? = some L ∧ Q st L := by
  obtain ⟨l, L, rest, hs, ht, -, -, hst⟩ := h.lines
  refine ⟨l.last.statement, L, ?_, ?_, hst⟩
  · rw [State.last?, hs]
    rfl
  · rw [State.last?, ht]
    rfl

/-- The last lines have one statement each, and the others are the same. -/
theorem lines_of_eq (h : Nested src Q k m s t) {l : Line} {older : List Line}
    (hs : s.program.current.lines = l :: older) :
    ∃ l' L, t.program.current.lines = l' :: older ∧ l'.statements = [L] ∧ Q l.last.statement L := by
  obtain ⟨l₁, L, rest, hs', ht, hl, -, hst⟩ := h.lines
  rw [hs] at hs'
  cases hs'
  have hl' : (l.setLast L).earlier = [] := hl
  exact ⟨l.setLast L, L, ht, Line.statements_of_alone hl', hst⟩

theorem setLast {Q' : Statement → Statement → Prop} (h : Nested src Q k m s t) {st L : Statement}
    (hst : Q' st L) : Nested src Q' k m (s.setLast st) (t.setLast L) := by
  obtain ⟨l, L', rest, hs, ht, hl, hrest, -⟩ := h.lines
  refine { h with lines := ⟨l.setLast st, L, rest, ?_, ?_, hl, hrest, hst⟩ }
  · rw [State.setLast, hs]
    rfl
  · rw [State.setLast, ht]
    rfl

theorem placeOn (h : Nested src Q k m s t) (way : List Statement.Branch) :
    Shifted k m (s.placeOn way) (t.placeOn (.action :: way)) := by
  obtain ⟨l, L, rest, hs, ht, hl, hrest, -⟩ := h.lines
  have hplace : s.placeOn way = ⟨k, m, 0, way⟩ := by
    rw [State.placeOn, hs, h.length, List.length_cons, hrest, List.head?_cons, Option.map_some,
      Option.getD_some, hl]
    rfl
  have hplace' : t.placeOn (.action :: way) = ⟨k, m, 0, .action :: way⟩ := by
    rw [State.placeOn, ht, ← h.earlier, h.length, List.length_cons, hrest, List.head?_cons,
      Option.map_some, Option.getD_some, Line.setLast, hl]
    rfl
  rw [hplace, hplace']
  exact .branch way

theorem closeTop (h : Nested src Q k m s t) (hQ : Statement.Corresponds Q) (closing : Closing) :
    Nested src Q k m (s.closeTop closing) (t.closeTop closing) := by
  have hopen := h.openFns
  unfold State.closeTop
  rcases hs : s.openFns with _ | ⟨place, places⟩ <;>
    rcases ht : t.openFns with _ | ⟨place', places'⟩ <;> rw [hs, ht] at hopen
  · exact h
  · cases hopen
  · cases hopen
  · obtain ⟨hplace, hplaces⟩ := List.forall₂_cons.mp hopen
    have hlength : t.program.earlier.length = k := h.earlier ▸ h.length
    cases hplace with
    | same hother =>
      simp only [Program.amendAt, h.length, hlength]
      split
      · rename_i hk
        exact { h with lines := h.lines.amend_other (hother hk) _, openFns := hplaces }
      · exact
          { h with
            earlier := by dsimp only; rw [h.earlier]
            length := (length_amendFromEnd ..).trans h.length
            openFns := hplaces }
    | branch way =>
      simp only [Program.amendAt, h.length, hlength, if_true]
      exact { h with lines := h.lines.amend_branch hQ closing way, openFns := hplaces }

theorem asideCongruent (hQ : Statement.Corresponds Q) (src : Source) (k m : Nat) :
    AsideCongruent src src (Nested src Q k m) where
  names h := h.names
  noting offset h :=
    { names := by rw [State.nameAt_noting, State.nameAt_noting, h.names]
      stack := by rw [State.stack_noting, State.stack_noting, h.stack]
      arguments := by rw [State.arguments_noting, State.arguments_noting, h.arguments]
      earlier := by rw [State.program_noting, State.program_noting, h.earlier]
      length := by rw [State.program_noting, h.length]
      kind := by rw [State.program_noting, State.program_noting, h.kind]
      static := by rw [State.program_noting, State.program_noting, h.static]
      lines := by rw [State.program_noting, State.program_noting]; exact h.lines
      openFns := by rw [State.openFns_noting, State.openFns_noting]; exact h.openFns }
  stack h := h.stack
  withStack _ h := { h with stack := rfl }
  isOpen h := isEmpty_congr h.openFns.length_eq
  closeTop x h := h.closeTop hQ (.value x)
  kind h := h.kind
  static h := h.static
  withKind _ h := { h with kind := rfl }

theorem effectCongruent {e : Option Power} (hquiet : Quiet e) :
    EffectCongruent (Nested src Q k m) e where
  clear he := nomatch hquiet.2 _ he
  beginLine he := nomatch hquiet.2 _ he
  head he := by rcases he with he | he <;> cases hquiet.2 _ he
  setHead he := by rcases he with he | he <;> cases hquiet.2 _ he
  arguments _ _ _ h := h.arguments
  modifyArguments _ _ _ f h := { h with arguments := congrArg f h.arguments }

theorem follows_put (hQ : Statement.Corresponds Q) (new : Statement) :
    Follows src (Nested src Q k m) (put new) := by
  intro pos pos' s s' t _ hR hrun
  obtain ⟨st, L, hs, ht, hst⟩ := hR.last
  rw [run_put, hs] at hrun
  dsimp only at hrun
  split at hrun
  · rename_i st' hplace
    cases hrun
    obtain ⟨L', hplace', hst'⟩ := hQ.place hst hplace
    exact ⟨_, run_put_placed ht hplace' pos, hR.setLast hst'⟩
  · cases hrun

theorem follows_openFn (hQ : Statement.Corresponds Q) (d : DefFn) :
    Follows src (Nested src Q k m) (openFn d) := by
  intro pos pos' s s' t _ hR hrun
  obtain ⟨st, L, hs, ht, hst⟩ := hR.last
  simp only [openFn_eq, run_bind, run_lastStatement, run_put, hs] at hrun
  simp only [openFn_eq, run_bind, run_lastStatement, run_put, ht]
  rcases hplace : st.place (.defFn d) with st' | _ | _ <;> rw [hplace] at hrun
  · cases hrun
    obtain ⟨L', hplace', hst'⟩ := hQ.place hst hplace
    have hnested := hR.setLast hst'
    refine ⟨_, by rw [hplace']; rfl, ?_⟩
    rw [hQ.openPlace hst hplace]
    exact { hnested with openFns := .cons (hnested.placeOn st.openPlace) hnested.openFns }
  · cases hrun
  · cases hrun

/-- What does not look at the last statement does the same on a line of its own and in a branch. -/
theorem follows (hQ : Statement.Corresponds Q) {m' : Decode α} {e : Option Power}
    (hm : Composed e m') (hquiet : Quiet e) : Follows src (Nested src Q k m) m' :=
  hm.follows hquiet (asideCongruent hQ src k m) (effectCongruent hquiet) (follows_put hQ)
    (follows_openFn hQ)

end Nested

end Decode

/-! ## How last statements correspond -/

namespace Statement

/-- The one statement is the branch of the other. -/
def InBranch (condition : Expr) (st L : Statement) : Prop :=
  L = ifThen condition st

/-- The one statement is a declaration with a mark, and the other an `IF` with an empty one. -/
def MarkLost (condition : Expr) (st L : Statement) : Prop :=
  (∃ d : Declarations, st = declarations d ∧ d.mode ≠ none) ∧ L = ifThen condition emptyDeclarations

theorem corresponds_inBranch (condition : Expr) : Corresponds (InBranch condition) where
  place := by
    rintro st _ new st' rfl hplace
    exact ⟨ifThen condition st', by simp only [place, hplace], rfl⟩
  openPlace := by
    rintro st _ new st' rfl -
    rfl
  define := by
    rintro st _ rfl closing way
    rfl

theorem corresponds_markLost (condition : Expr) : Corresponds (MarkLost condition) where
  place := by
    rintro _ _ new st' ⟨⟨d, rfl, -⟩, -⟩ hplace
    cases hplace
  openPlace := by
    rintro _ _ new st' ⟨⟨d, rfl, -⟩, -⟩ hplace
    cases hplace
  define := by
    rintro _ _ ⟨⟨d, rfl, hmode⟩, rfl⟩ closing way
    have hkeeps : ∀ d, (declarations d).amendAt (.define closing) way = declarations d := by
      intro d
      rcases way with _ | ⟨branch, way⟩
      · rfl
      · cases branch <;> rfl
    exact ⟨⟨d, hkeeps d, hmode⟩, congrArg (ifThen condition) (hkeeps _)⟩

/-- Only another `ELSE` finds a place behind a full branch. -/
theorem place_ifThen_of_full {st new : Statement} (hst : st.place new = .full)
    (hnew : ∀ alternative, new ≠ otherwise alternative) (condition : Expr) (st' : Statement) :
    (ifThen condition st).place new ≠ .placed st' := by
  intro h
  rw [place] at h
  · rw [hst] at h
    cases h
  · exact hnew

theorem place_behind_declarations (condition : Expr) (d : Declarations) (st' : Statement) :
    (ifThen condition (declarations d)).place emptyDeclarations ≠ .placed st' :=
  @place_ifThen_of_full (declarations d) emptyDeclarations rfl nofun condition st'

end Statement

/-! ## Instructions in a statement -/

namespace Instruction

/-- How an instruction inside a statement deals with the last statement of the line. -/
inductive Manner (v : Version) (w : Nat) : Prop where
  /-- it looks for the open place only -/
  | puts {e : Option Power} (h : Composed e (perform v w)) (hquiet : Quiet e)
    (hbuilds : ∀ st, (operation v w).buildsOn v st = false)
  /-- it makes an assignment or its like -/
  | assigns (h : Transfers (perform v w))
    (hbuilds : ∀ st, (operation v w).buildsOn v st = st.takesTransfer)
  /-- it goes on with an output statement -/
  | prints (h : perform v w = printing) (hbuilds : ∀ st, (operation v w).buildsOn v st = isPrint st)
  /-- it marks a declaration -/
  | marks (h : perform v w = setMode "SHARED")
    (hbuilds : ∀ st, (operation v w).buildsOn v st = (isDeclarations st || st.isNothing))
  /-- it builds on the last statement, whatever that is -/
  | builds (h : Blocked (perform v w)) (hbuilds : ∀ st, (operation v w).buildsOn v st = true)

/-- An opcode that builds deals with the last statement in one of these ways. -/
theorem manner_of_mem_builders (hv : v ≠ .qb40) {w code parameter : Nat}
    (hop : operation v w = .common code parameter) (hcode : code ∈ builders) : Manner v w := by
  rcases mem_builders_cases hcode with hassign | rfl | rfl | rfl | hblocked
  · obtain ⟨handler, hlookup, htransfers⟩ := transfers_of_mem_assigners hassign
    refine .assigns ?_ fun st => by rw [hop, Operation.buildsOn_assigner hassign]
    rw [perform_of_lookup hop hlookup]
    exact htransfers v parameter
  · exact .prints (perform_of_lookup hop rfl) fun st => by rw [hop]; rfl
  · exact .marks (perform_of_lookup hop rfl) fun st => by rw [hop]; rfl
  · have hperform : perform v w = eraseArrays v := perform_of_lookup hop rfl
    rcases hversion : v.atLeast .qb70
    · refine .puts (e := none) ?_ ⟨nofun, nofun⟩ fun st => by rw [hop]; exact hversion
      rw [hperform, eraseArrays, if_neg (by rw [hversion]; decide)]
      exact .bind .word fun _ => .bind (.popMany _) fun _ => .put _
    · exact .builds (hperform ▸ blocked_eraseArrays hversion) fun st => by rw [hop]; exact hversion
  · obtain ⟨handler, hlookup, hhandler⟩ := blocked_of_mem hv hblocked
    refine .builds ?_ fun st => by rw [hop, Operation.buildsOn_blocked hblocked]
    rw [perform_of_lookup hop hlookup]
    exact hhandler parameter

/-- The only effect of an instruction inside a statement is on operands under a name. -/
theorem effect_of_inStatement {op : Operation} (hin : InStatement op) {effect : Effect}
    (hpower : op.power? = some (.effect effect)) : effect = .arguments := by
  have heffect := Operation.effect?_of_power? hpower
  rcases hin.effect?_eq with hnone | harguments
  · rw [hnone] at heffect
    cases heffect
  · rw [harguments] at heffect
    exact (Option.some.inj heffect).symm

/-- From version 4.5 on, so does every instruction inside a statement. -/
theorem manner_of_inStatement (hv : v ≠ .qb40) {w : Nat} (hin : InStatement (operation v w)) :
    Manner v w := by
  by_cases hbuild : (operation v w).power? = some .build
  · unfold operation at hbuild
    rw [if_neg hv] at hbuild
    split at hbuild
    · cases hbuild
    · rename_i hlast
      have hop : operation v w = .common (w % 1024) (w / 1024) := by
        rw [operation, if_neg hlast, if_neg hv]
      exact manner_of_mem_builders hv hop (mem_builders_of_power? hbuild)
  · exact .puts (composed_perform v w) ⟨hbuild, fun _ => effect_of_inStatement hin⟩
      fun st => Operation.buildsOn_of_power?_ne hbuild v st

end Instruction

/-- What goes on with a statement of a kind puts one where there is none. -/
theorem run_continueWith_of_not {isKind : Statement → Bool} {s : State} {st : Statement}
    (hlast : s.last? = some st) (h : isKind st = false) (fresh : Statement) (pos : Nat) :
    (continueWith isKind fresh).run src pos s = (put fresh).run src pos s := by
  rw [continueWith, run_bind, run_lastStatement, hlast]
  dsimp only
  rw [h]
  rfl

/-- Where no declaration stands and none can be put, a mark fails. -/
theorem fails_setMode {s : State} {st : Statement} (hlast : s.last? = some st)
    (h : isDeclarations st = false)
    (hplace : ∀ st', st.place Statement.emptyDeclarations ≠ .placed st') (mode : String) (pos : Nat) :
    Fails (setMode mode) src pos s := by
  obtain ⟨fault, pos', s', hrun⟩ := fails_put hlast hplace src pos
  exact Fails.bind ⟨fault, pos', s', (run_continueWith_of_not hlast h _ pos).trans hrun⟩

/-- Inside another statement, a mark is lost on the declaration that it makes. -/
theorem run_setMode_of_lost {s : State} {st st' : Statement} (hlast : s.last? = some st)
    (h : isDeclarations st = false) (hplace : st.place Statement.emptyDeclarations = .placed st')
    (h' : isDeclarations st' = false) (mode : String) (pos : Nat) :
    (setMode mode).run src pos s = (.ok (), pos, s.setLast st') := by
  have hput : declaring.run src pos s = (.ok (), pos, s.setLast st') :=
    (run_continueWith_of_not hlast h _ pos).trans (run_put_placed hlast hplace pos)
  rw [setMode, run_bind_ok hput, run_bind, run_lastStatement, last?_setLast st' hlast]
  dsimp only
  split
  · cases h'
  · rfl

/-- A mark without a declaration makes one. -/
theorem run_setMode_of_empty {s : State} (hlast : s.last? = some .empty) (mode : String) (pos : Nat) :
    (setMode mode).run src pos s = (.ok (), pos, s.setLast (.declarations
      { kind := none, block := none, mode := some mode, items := [], pending := none })) := by
  have hput : declaring.run src pos s = (.ok (), pos, s.setLast Statement.emptyDeclarations) :=
    (run_continueWith_of_not hlast rfl _ pos).trans (run_put_placed hlast rfl pos)
  have hlast' := last?_setLast Statement.emptyDeclarations hlast
  have hamend : (amendDeclarations fun d => { d with mode := some mode }).run src pos
      (s.setLast Statement.emptyDeclarations) = (.ok (), pos, s.setLast (.declarations
        { kind := none, block := none, mode := some mode, items := [], pending := none })) := by
    rw [amendDeclarations, amend_eq, run_bind, run_lastStatement, hlast']
    exact congrArg (fun s' => (Except.ok (), pos, s')) (setLast_setLast s _ _)
  rw [setMode, run_bind_ok hput, run_bind, run_lastStatement, hlast']
  exact hamend

/-- Only in place of an empty statement, a new declaration becomes the whole statement. -/
theorem Statement.isDeclarations_of_place {st st' : Statement} (h : st.isNothing = false)
    (hplace : st.place emptyDeclarations = .placed st') : isDeclarations st' = false := by
  cases st with
  | empty => cases h
  | misread text =>
    cases hplace
    rfl
  | ifThen condition action =>
    cases (IsConditional.ifThen condition action).place hplace <;> rfl
  | ifThenElse condition action alternative =>
    cases (IsConditional.ifThenElse condition action alternative).place hplace <;> rfl
  | _ => cases hplace

/-- What takes an assignment has no place for one behind it. -/
theorem Statement.place_of_takesTransfer {st : Statement} (h : st.takesTransfer = true)
    (t : Transfer) : st.place (.transfer t) = .full := by
  cases st <;> first | rfl | cases h

/-! ## Instructions in a branch -/

namespace Decode.Nested

variable {condition : Expr} {k m w pos pos' : Nat} {s s' t : State} {st : Statement}

theorem last_inBranch (hR : Nested src (Statement.InBranch condition) k m s t)
    (hlast : s.last? = some st) : t.last? = some (.ifThen condition st) := by
  obtain ⟨_, L, hs, ht, rfl⟩ := hR.last
  obtain rfl := Option.some.inj (hs.symm.trans hlast)
  exact ht

/-- An instruction that does not build on the statement does the same in the branch. -/
theorem perform_of_not_buildsOn (hmanner : Manner v w)
    (hR : Nested src (Statement.InBranch condition) k m s t) (hlast : s.last? = some st)
    (hbuilds : (operation v w).buildsOn v st = false)
    (hrun : (perform v w).run src pos s = (.ok (), pos', s')) :
    ∃ t', (perform v w).run src pos t = (.ok (), pos', t') ∧
      Nested src (Statement.InBranch condition) k m s' t' := by
  have hQ := Statement.corresponds_inBranch condition
  have ht := hR.last_inBranch hlast
  cases hmanner with
  | puts h hquiet _ => exact Nested.follows hQ h hquiet hR hrun
  | assigns h hb =>
    rw [hb] at hbuilds
    exact h.follows (asideCongruent hQ src k m) (follows_put hQ) hR hlast hbuilds ht rfl hrun
  | prints h hb =>
    rw [hb] at hbuilds
    rw [h, printing, run_continueWith_of_not hlast hbuilds] at hrun
    rw [h, printing, run_continueWith_of_not ht rfl]
    exact follows_put hQ _ hR hrun
  | marks h hb =>
    rw [hb, Bool.or_eq_false_iff] at hbuilds
    rw [h] at hrun ⊢
    rcases hplace : Statement.place _ Statement.emptyDeclarations with st' | _ | _
    · have hst' := Statement.isDeclarations_of_place hbuilds.2 hplace
      rw [run_setMode_of_lost hlast hbuilds.1 hplace hst'] at hrun
      cases hrun
      obtain ⟨L', hplace', rfl⟩ := hQ.place rfl hplace
      exact ⟨_, run_setMode_of_lost ht rfl hplace' rfl _ pos, hR.setLast rfl⟩
    all_goals
      have hfull : ∀ st', Statement.place st Statement.emptyDeclarations ≠ .placed st' := by
        rw [hplace]
        exact nofun
      exact absurd hrun (fails_setMode hlast hbuilds.1 hfull _ pos).not_ok
  | builds _ hb =>
    rw [hb] at hbuilds
    cases hbuilds

/-- One that builds on the statement fails in the branch, or its mark is lost there. -/
theorem perform_of_buildsOn (hmanner : Manner v w)
    (hR : Nested src (Statement.InBranch condition) k m s t) (hlast : s.last? = some st)
    (hbuilds : (operation v w).buildsOn v st = true)
    (hrun : (perform v w).run src pos s = (.ok (), pos', s')) :
    Fails (perform v w) src pos t ∨ ∃ t', (perform v w).run src pos t = (.ok (), pos', t') ∧
      Nested src (Statement.MarkLost condition) k m s' t' := by
  have ht := hR.last_inBranch hlast
  cases hmanner with
  | puts _ _ hb =>
    rw [hb] at hbuilds
    cases hbuilds
  | assigns h hb =>
    rw [hb] at hbuilds
    exact .inl (h.fails ht rfl (fun x => Statement.place_ifThen_of_full
      (Statement.place_of_takesTransfer hbuilds x) nofun condition) src pos)
  | prints h hb =>
    rw [hb] at hbuilds
    cases st with
    | print p =>
      rw [h, printing]
      obtain ⟨fault, pos'', t', hfails⟩ := fails_put ht
        (@Statement.place_ifThen_of_full _ (.emptyPrint .print .omitted) rfl nofun condition) src pos
      exact .inl ⟨fault, pos'', t', (run_continueWith_of_not ht rfl _ pos).trans hfails⟩
    | _ => cases hbuilds
  | marks h hb =>
    rw [hb] at hbuilds
    rw [h] at hrun ⊢
    cases st with
    | empty =>
      rw [run_setMode_of_empty hlast] at hrun
      cases hrun
      exact .inr ⟨_, run_setMode_of_lost ht rfl rfl rfl _ pos, hR.setLast ⟨⟨_, rfl, nofun⟩, rfl⟩⟩
    | declarations d =>
      exact .inl (fails_setMode ht rfl (Statement.place_behind_declarations condition _) _ pos)
    | _ => cases hbuilds
  | builds h _ => exact .inl (h src pos t ⟨_, ht, .ifThen condition _⟩)

/-- Once a mark has been lost, an instruction fails in the branch, or it changes nothing there. -/
theorem perform_of_markLost (hmanner : Manner v w)
    (hR : Nested src (Statement.MarkLost condition) k m s t)
    (hrun : (perform v w).run src pos s = (.ok (), pos', s')) :
    Fails (perform v w) src pos t ∨ ∃ t', (perform v w).run src pos t = (.ok (), pos', t') ∧
      Nested src (Statement.MarkLost condition) k m s' t' := by
  obtain ⟨_, _, hs, ht, ⟨d, rfl, -⟩, rfl⟩ := hR.last
  cases hmanner with
  | puts h hquiet _ =>
    exact .inr (Nested.follows (Statement.corresponds_markLost condition) h hquiet hR hrun)
  | assigns h _ => exact absurd hrun (h.fails hs rfl (fun _ _ => nofun) src pos).not_ok
  | prints h _ =>
    rw [h, printing, run_continueWith_of_not hs rfl] at hrun
    exact absurd hrun (fails_put hs (fun _ => nofun) src pos).not_ok
  | marks h _ =>
    rw [h]
    exact .inl (fails_setMode ht rfl (Statement.place_behind_declarations condition _) _ pos)
  | builds h _ => exact .inl (h src pos t ⟨_, ht, .ifThen condition _⟩)

end Decode.Nested

/-! ## Statements in a branch -/

/-- No instruction from a position and a state on, up to an end, builds on the statement that it
finds at the end of the line. -/
def PutsOnly (v : Version) (src : Source) (fin : Nat) (a : Nat × State) : Prop :=
  ∀ (b : Nat × State) (w : Nat) (st : Statement), Proceeds v src a b → b.1 < fin →
    src.natLE b.1 2 = .ok w → b.2.last? = some st → (operation v w).buildsOn v st = false

variable {fin : Nat}

/-- Nothing from here on builds on a statement exactly if the first instruction does not, and nothing
behind it does. -/
theorem putsOnly_step {pos pos₁ w : Nat} {s s₁ : State} {st : Statement} (hlt : pos < fin)
    (hw : src.natLE pos 2 = .ok w) (hp : (perform v w).run src (pos + 2) s = (.ok (), pos₁, s₁))
    (hlast : s.last? = some st) :
    PutsOnly v src fin (pos, s) ↔
      (operation v w).buildsOn v st = false ∧ PutsOnly v src fin (pos₁, s₁) := by
  have hstep : (step v).run src pos s = (.ok (), pos₁, s₁) := run_step_eq_ok.mpr ⟨w, hw, hp⟩
  constructor
  · intro h
    exact ⟨h (pos, s) w st .refl hlt hw hlast, fun b w' st' hproceeds =>
      h b w' st' (Relation.ReflTransGen.head hstep hproceeds)⟩
  · rintro ⟨hbuilds, h⟩ b w' st' hproceeds hlt' hw' hlast'
    rcases Relation.ReflTransGen.cases_head hproceeds with rfl | ⟨c, hstep', hproceeds⟩
    · obtain rfl := Except.ok.inj (hw.symm.trans hw')
      obtain rfl := Option.some.inj (hlast.symm.trans hlast')
      exact hbuilds
    · rw [hstep] at hstep'
      cases hstep'
      exact h b w' st' hproceeds hlt' hw' hlast'

theorem putsOnly_of_le {pos : Nat} {s : State} (h : fin ≤ pos) : PutsOnly v src fin (pos, s) := by
  intro b w st hproceeds hlt
  have hle := hproceeds.le
  omega

/-- Where an instruction fails, so do those in a row that begin with it. -/
theorem Fails.instructions {pos w : Nat} {t : State} (hlt : pos < fin)
    (hw : src.natLE pos 2 = .ok w) (h : Fails (perform v w) src (pos + 2) t) :
    Fails (instructions v fin) src pos t := by
  obtain ⟨fault, pos', t', hrun⟩ := h
  refine ⟨fault, pos', t', run_instructions_fault hlt ?_⟩
  rw [step, run_bind_ok (run_word_ok hw t), hrun]

namespace Decode.Trace

variable {condition : Expr} {k m pos pos' : Nat} {s s' t : State} {ops : List Operation}

/-- Once a mark has been lost, the instructions fail in the branch, or the mark stays lost. -/
theorem markLost (hv : v ≠ .qb40) (h : Trace v src fin ops pos s pos' s')
    (hops : ∀ op ∈ ops, InStatement op) (hR : Nested src (Statement.MarkLost condition) k m s t) :
    Fails (instructions v fin) src pos t ∨
      ∃ t', (instructions v fin).run src pos t = (.ok (), pos', t') ∧
        Nested src (Statement.MarkLost condition) k m s' t' := by
  induction h generalizing t with
  | done h => exact .inr ⟨t, run_instructions_of_le h src t, hR⟩
  | step hlt hw hp _ ih =>
    rw [List.forall_mem_cons] at hops
    rcases hR.perform_of_markLost (manner_of_inStatement hv hops.1) hp with hfails | ⟨t₁, ht₁, hR₁⟩
    · exact .inl (hfails.instructions hlt hw)
    · rw [Fails, run_instructions_step hlt (run_step_eq_ok.mpr ⟨_, hw, ht₁⟩)]
      exact ih hops.2 hR₁

/-- In the branch, the instructions do the same if none of them builds on a statement. Otherwise they
fail, or a mark is lost. -/
theorem nested (hv : v ≠ .qb40) (h : Trace v src fin ops pos s pos' s')
    (hops : ∀ op ∈ ops, InStatement op) (hR : Nested src (Statement.InBranch condition) k m s t) :
    (PutsOnly v src fin (pos, s) ∧ ∃ t', (instructions v fin).run src pos t = (.ok (), pos', t') ∧
      Nested src (Statement.InBranch condition) k m s' t') ∨
    (¬PutsOnly v src fin (pos, s) ∧ (Fails (instructions v fin) src pos t ∨
      ∃ t', (instructions v fin).run src pos t = (.ok (), pos', t') ∧
        Nested src (Statement.MarkLost condition) k m s' t')) := by
  induction h generalizing t with
  | done h => exact .inl ⟨putsOnly_of_le h, t, run_instructions_of_le h src t, hR⟩
  | @step w pos _ _ s _ _ _ hlt hw hp hrest ih =>
    rw [List.forall_mem_cons] at hops
    have hmanner := manner_of_inStatement hv hops.1
    obtain ⟨st, -, hlast, -⟩ := hR.last
    rw [putsOnly_step hlt hw hp hlast]
    rcases hbuilds : (operation v w).buildsOn v st
    · obtain ⟨t₁, ht₁, hR₁⟩ := hR.perform_of_not_buildsOn hmanner hlast hbuilds hp
      rw [Fails, run_instructions_step hlt (run_step_eq_ok.mpr ⟨_, hw, ht₁⟩)]
      rcases ih hops.2 hR₁ with ⟨hputs, hok⟩ | ⟨hputs, hnot⟩
      · exact .inl ⟨⟨rfl, hputs⟩, hok⟩
      · exact .inr ⟨fun h => hputs h.2, hnot⟩
    · refine .inr ⟨fun h => (nomatch h.1), ?_⟩
      rcases hR.perform_of_buildsOn hmanner hlast hbuilds hp with hfails | ⟨t₁, ht₁, hR₁⟩
      · exact .inl (hfails.instructions hlt hw)
      · rw [Fails, run_instructions_step hlt (run_step_eq_ok.mpr ⟨_, hw, ht₁⟩)]
        exact hrest.markLost hv hops.2 hR₁

end Decode.Trace

/-! ## One statement stays one statement -/

/-- The last line has one statement. -/
def Decode.State.OneStatement (s : State) : Prop :=
  ∃ l rest, s.program.current.lines = l :: rest ∧ l.earlier = []

theorem oneStatement_setLast {s : State} (hs : s.OneStatement) (st : Statement) :
    (s.setLast st).OneStatement := by
  obtain ⟨l, rest, hlines, hl⟩ := hs
  exact ⟨l.setLast st, rest, by rw [State.setLast, hlines]; rfl, hl⟩

theorem Decode.Change.oneStatement {e : Option Power} {s s' : State} (h : Change src e s s')
    (he : ∀ effect, e = some (.effect effect) → effect = .arguments) (hs : s.OneStatement) :
    s'.OneStatement := by
  cases h with
  | noted offset =>
    obtain ⟨l, rest, hlines, hl⟩ := hs
    exact ⟨l, rest, by rw [State.program_noting]; exact hlines, hl⟩
  | operands stack arguments => exact hs
  | line he' l => cases he _ he'
  | placed hlast h => exact oneStatement_setLast hs _
  | amended he' st' hlast h => exact oneStatement_setLast hs st'
  | colon he' column => cases he _ he'
  | commented he' hlines hearlier hlast => cases he _ he'
  | kind kind => exact hs
  | opened he h => exact hs
  | closed he' x =>
    unfold State.closeTop
    split
    · exact hs
    · rename_i place _ _
      obtain ⟨l, rest, hlines, hl⟩ := hs
      obtain ⟨l', rest', hl', -, rfl | rfl⟩ :=
        Program.lines_amendAt hlines (Statement.define (.value x)) place
      · exact ⟨_, rest', hl', hl⟩
      · refine ⟨_, rest', hl', List.eq_nil_of_length_eq_zero ?_⟩
        rw [Line.length_earlier_amendAt, hl]
        rfl

theorem Decode.ChangesBy.oneStatement {e : Option Power} {s s' : State} (h : ChangesBy src e s s')
    (he : ∀ effect, e = some (.effect effect) → effect = .arguments) (hs : s.OneStatement) :
    s'.OneStatement := by
  induction h with
  | refl => exact hs
  | tail _ hchange ih => exact hchange.oneStatement he ih

theorem Decode.Trace.oneStatement {pos pos' : Nat} {s s' : State} {ops : List Operation}
    (h : Trace v src fin ops pos s pos' s') (hops : ∀ op ∈ ops, InStatement op)
    (hs : s.OneStatement) : s'.OneStatement := by
  induction h with
  | done _ => exact hs
  | @step w pos _ _ s s₁ _ _ hlt hw hp hrest ih =>
    rw [List.forall_mem_cons] at hops
    refine ih hops.2 ?_
    have hchanges := (composed_perform v w).changesBy src (pos + 2) s
    rw [hp] at hchanges
    exact hchanges.oneStatement (fun _ => effect_of_inStatement hops.1) hs

/-- A new line, and a single-line `IF` on it, make nested states. -/
theorem nested_start {s t : State} (hs : Reachable v src s) (hcleared : Cleared src s t)
    (label : Option Identifier) (indent : Nat) {condition : Expr} {symbols : SymbolTable}
    (hnames : ((t.withLines (Line.start label indent :: t.program.current.lines)).revised
      (.ifThen condition .empty) symbols).nameAt src =
        (t.withLines (Line.start label indent :: t.program.current.lines)).nameAt src) :
    Nested src (Statement.InBranch condition) s.program.earlier.length s.program.current.lines.length
      (t.withLines (Line.start label indent :: t.program.current.lines))
      ((t.withLines (Line.start label indent :: t.program.current.lines)).revised
        (.ifThen condition .empty) symbols) where
  names := hnames.symm
  stack := rfl
  arguments := rfl
  earlier := rfl
  length := by rw [State.withLines, hcleared.program]
  kind := rfl
  static := rfl
  lines := ⟨Line.start label indent, .ifThen condition .empty, t.program.current.lines, rfl, rfl, rfl,
    by rw [hcleared.program], rfl⟩
  openFns := by
    rw [State.withLines, State.revised, State.setLast, hcleared.openFns]
    refine List.forall₂_same.mpr fun place hplace => .same fun hk => ?_
    rcases hs.openWritten place hplace with hlt | ⟨-, l, rest, hlines, hplace⟩
    · exact absurd hk (Nat.ne_of_lt hlt)
    · rw [hlines, List.length_cons]
      omega

/-- **A statement in a branch.** Let instructions without lines, colons and comments give a statement
on a new line, from version 4.5 on. Behind a single-line `IF` on that line they succeed and give the
`IF` with exactly this statement in its branch if and only if none of them builds on the statement that
it finds at the end of the line of its own. -/
theorem statement_in_branch_iff (hv : v.atLeast .qb45) {s t : State} (hs : Reachable v src s)
    {w code indent pos p : Nat} (hline : operation v w = .common code indent)
    (hcode : code = 0x0000 ∨ code = 0x0004 ∨ code = 0x0005)
    (hnew : (perform v w).run src pos s = (.ok (), p, t)) {q parameter ignored : Nat}
    {condition : Expr} (hcondition : Pushed v src (s.identifierAt src) p q [condition])
    (hthen : InstructionAt v src q 0x005D parameter) (hword : src.natLE (q + 2) 2 = .ok ignored)
    (hfin : q + 4 ≤ fin) {ops : List Operation} {pos' : Nat} {f : State}
    (htrace : Trace v src fin ops (q + 4) t pos' f) (hops : ∀ op ∈ ops, InStatement op) :
    ∃ l st older, f.program.current.lines = l :: older ∧ l.statements = [st] ∧
      ((∃ g l', (instructions v fin).run src p t = (.ok (), pos', g) ∧
          g.program.current.lines = l' :: older ∧ l'.statements = [.ifThen condition st]) ↔
        PutsOnly v src fin (q + 4, t)) := by
  have hv' : v ≠ .qb40 := by
    rintro rfl
    exact absurd hv (by decide)
  obtain ⟨label, indent, t', hcleared, rfl⟩ := exists_cleared_of_line hline hcode hnew
  have hnames : (t'.withLines (Line.start label indent :: t'.program.current.lines)).identifierAt src =
      s.identifierAt src := identifierAt_congr hcleared.names
  rw [← hnames] at hcondition
  obtain ⟨symbols, hproceeds⟩ := proceeds_ifThen Statement.Opens.here hcondition hthen hword rfl
  have hR := nested_start hs hcleared label indent hproceeds.nameAt_eq
  obtain ⟨l, older, hf, hl⟩ := htrace.oneStatement hops ⟨Line.start label indent, _, rfl, rfl⟩
  refine ⟨l, l.last.statement, older, hf, Line.statements_of_alone hl, ?_⟩
  rw [hproceeds.run_instructions hfin]
  rcases htrace.nested hv' hops hR with ⟨hputs, g, hg, hR'⟩ | ⟨hputs, hnot⟩
  · obtain ⟨l', _, hg', hl', rfl⟩ := hR'.lines_of_eq hf
    exact ⟨fun _ => hputs, fun _ => ⟨g, l', hg, hg', hl'⟩⟩
  · refine ⟨fun ⟨g, l', hg, hlines, hbranch⟩ => ?_, fun h => absurd h hputs⟩
    rcases hnot with hfails | ⟨g', hg', hR'⟩
    · exact absurd hg hfails.not_ok
    · -- a mark was lost in the branch, so the statements are not the same
      obtain ⟨l₂, _, hlines', hl₂, ⟨d, hd, hmode⟩, rfl⟩ := hR'.lines_of_eq hf
      rw [hg'] at hg
      cases hg
      rw [hlines'] at hlines
      cases hlines
      rw [hl₂, hd] at hbranch
      cases hbranch
      exact absurd rfl hmode

/-- A line with `IF A THEN A = 1`. -/
def assignmentFile : Source :=
  lineFile [0x0B, 0x00, 0x00, 0x00, 0x5D, 0x00, 0x00, 0x00, 0x64, 0x05, 0x0C, 0x00, 0x00, 0x00]

/-- The state in which the header of a file has been read. -/
def afterHeader (src : Source) : State :=
  ((header .qb45).run src 0 (.start .qb45)).2.2

/-- An assignment finds its place in the branch. -/
theorem assignment_in_branch :
    ∃ g l, (instructions .qb45 0x32).run assignmentFile 0x24
        ((perform .qb45 0x0000).run assignmentFile 0x24 (afterHeader assignmentFile)).2.2 =
          (.ok (), 0x32, g) ∧
      g.program.current.lines = [l] ∧ l.statements = [.ifThen (.var nameA) (assignA 1)] := by
  have hA : (afterHeader assignmentFile).identifierAt assignmentFile 0 = .ok nameA := rfl
  have hcondition : Postfix .qb45 ((afterHeader assignmentFile).identifierAt assignmentFile)
      [.var nameA] _ := .cons .nil (.var (.plain (by decide) rfl hA)) .nil
  have hline : operation .qb45 0x0000 = .common 0x0000 0 := rfl
  have hnew : (perform .qb45 0x0000).run assignmentFile 0x24 (afterHeader assignmentFile) =
      (.ok (), 0x24, _) := rfl
  have hthen : InstructionAt .qb45 assignmentFile 0x28 0x005D 0 := ⟨_, rfl, rfl⟩
  have htrace : ∃ f, Trace .qb45 assignmentFile 0x32
      ([0x0564, 0x000C].map (operation .qb45)) 0x2C
      ((perform .qb45 0x0000).run assignmentFile 0x24 (afterHeader assignmentFile)).2.2 0x32 f ∧
      f.program.current.lines.map Line.statements = [[assignA 1]] :=
    ⟨_, .step (by decide) rfl rfl (.step (by decide) rfl rfl (.done (Nat.le_refl _))), rfl⟩
  obtain ⟨f, htrace, hstatements⟩ := htrace
  obtain ⟨l, st, older, hf, hst, hiff⟩ := statement_in_branch_iff (by decide) .start hline (.inl rfl)
    hnew (hcondition.pushed (by decide) ⟨_, rfl⟩) hthen rfl (by decide) htrace (by decide)
  obtain ⟨g, l', hrun, hlines, hl'⟩ := hiff.mpr
    ((putsOnly_step (by decide) rfl rfl rfl).mpr ⟨rfl, (putsOnly_step (by decide) rfl rfl rfl).mpr
      ⟨rfl, putsOnly_of_le (Nat.le_refl _)⟩⟩)
  rw [hf, List.map_cons, hst, List.cons.injEq, List.map_eq_nil_iff] at hstatements
  obtain ⟨hst, rfl⟩ := hstatements
  cases hst
  exact ⟨g, l', hrun, hlines, hl'⟩

/-- A line with `IF 1 THEN PRINT 2`. -/
def printFile : Source :=
  lineFile [0x64, 0x05, 0x5D, 0x00, 0x00, 0x00, 0x64, 0x09, 0x96, 0x00]

/-- On a line of its own `PRINT 2` is decoded, but its item does not find the `PRINT` in the branch. -/
theorem print_in_branch_fails :
    (∃ f, Trace .qb45 printFile 0x2E ([0x0964, 0x0096].map (operation .qb45)) 0x2A
        ((perform .qb45 0x0000).run printFile 0x24 (afterHeader printFile)).2.2 0x2E f ∧
      f.last? = some (.print
        { kind := .print, target := .omitted, file := .omitted, parts := [.last (.number 2)] })) ∧
    ((instructions .qb45 0x2E).run printFile 0x24
      ((perform .qb45 0x0000).run printFile 0x24 (afterHeader printFile)).2.2).1 =
        .error .noSuchPart := by
  refine ⟨⟨_, .step (by decide) rfl rfl (.step (by decide) rfl rfl (.done (Nat.le_refl _))), rfl⟩, ?_⟩
  iterate 3 rw [run_instructions_step (by decide) (by rfl)]
  rw [run_instructions_fault (by decide) (by rfl)]

end SavedBasic
