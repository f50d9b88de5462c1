import SavedBasic.Proofs.Reachable

/-!
# Where function definitions stand

A function definition that is open is remembered by its place: a procedure, a line, a statement, and
the way into it, all counted from the oldest entry. Nothing that is written later moves what stands at
such a place, and what stands there stays a function definition. So wherever decoding has come to,
the places that it remembers lead to function definitions.
-/

namespace SavedBasic

/-! ## Growing in the order of writing -/

/-- Entries in the order of writing: all those of the first list stand at the same positions in the
second one, as they were or as something has become of them. -/
def Grown {α : Type} (Keeps : α → α → Prop) (entries entries' : List α) : Prop :=
  ∀ (i : Nat) (a : α), entries[i]? = some a → ∃ a', entries'[i]? = some a' ∧ Keeps a a'

section Grown

variable {α : Type} {Keeps : α → α → Prop}

theorem grown_append (hrefl : ∀ a, Keeps a a) (entries more : List α) :
    Grown Keeps entries (entries ++ more) := by
  intro i a ha
  obtain ⟨hi, -⟩ := List.getElem?_eq_some_iff.mp ha
  exact ⟨a, by rw [List.getElem?_append_left hi, ha], hrefl a⟩

theorem grown_refl (hrefl : ∀ a, Keeps a a) (entries : List α) : Grown Keeps entries entries :=
  fun _ a ha => ⟨a, ha, hrefl a⟩

theorem grown_last (hrefl : ∀ a, Keeps a a) (entries : List α) {a a' : α} (h : Keeps a a') :
    Grown Keeps (entries ++ [a]) (entries ++ [a']) := by
  intro i b hb
  rw [List.getElem?_append] at hb ⊢
  split
  · rename_i hi
    rw [if_pos hi] at hb
    exact ⟨b, hb, hrefl b⟩
  · rename_i hi
    rw [if_neg hi, List.getElem?_singleton] at hb
    rw [List.getElem?_singleton]
    split at hb
    · rename_i hzero
      cases hb
      exact ⟨a', if_pos hzero, h⟩
    · cases hb

theorem grown_modify (hrefl : ∀ a, Keeps a a) {f : α → α} (h : ∀ a, Keeps a (f a)) (i : Nat)
    (entries : List α) : Grown Keeps entries (entries.modify i f) := by
  intro j a ha
  rw [List.getElem?_modify, ha]
  split
  · exact ⟨f a, rfl, h a⟩
  · exact ⟨a, rfl, hrefl a⟩

end Grown

/-! ## Statements by their places -/

/-- The statement at a place of a program. -/
def Program.at? (p : Program) (place : Place) : Option Statement := do
  let procedure ← p.procedures[place.procedure]?
  let line ← procedure.listing[place.line]?
  let slot ← line.slots[place.statement]?
  slot.statement.at? place.way

/-- Function definitions in a statement stay function definitions. -/
def Statement.Keeps (st st' : Statement) : Prop :=
  ∀ way d, at? way st = some (defFn d) → ∃ d', at? way st' = some (defFn d')

/-- Function definitions in the statement of a slot stay function definitions. -/
def Slot.Keeps (slot slot' : Slot) : Prop :=
  slot.statement.Keeps slot'.statement

/-- Function definitions on a line stay where they are. -/
def Line.Keeps (l l' : Line) : Prop :=
  Grown Slot.Keeps l.slots l'.slots

/-- Function definitions in a procedure stay where they are. -/
def Procedure.Keeps (p p' : Procedure) : Prop :=
  Grown Line.Keeps p.listing p'.listing

/-- Function definitions in a program stay where they are. -/
def Program.Keeps (p p' : Program) : Prop :=
  Grown Procedure.Keeps p.procedures p'.procedures

namespace Statement

theorem Keeps.refl (st : Statement) : st.Keeps st :=
  fun _ d h => ⟨d, h⟩

theorem keeps_of_place {st new st' : Statement} (h : st.place new = .placed st') : st.Keeps st' :=
  fun _ d hat => ⟨d, at?_of_place rfl hat h⟩

theorem keeps_of_isAssembled {st : Statement} (h : st.isAssembled = true) (st' : Statement) :
    st.Keeps st' := by
  intro way d hat
  rw [not_isAssembled_of_at? rfl hat] at h
  cases h

theorem keeps_of_holdsRemark {st : Statement} (h : st.holdsRemark = true) (st' : Statement) :
    st.Keeps st' := by
  intro way d hat
  rw [not_holdsRemark_of_at? rfl hat] at h
  cases h

theorem keeps_amendAt_define (closing : Closing) (target : List Branch) (st : Statement) :
    st.Keeps (st.amendAt (define closing) target) := by
  intro way d hat
  rcases at?_amendAt_define rfl hat closing target with hsame | hdefined
  · exact ⟨d, hsame⟩
  · exact ⟨_, hdefined⟩

/-- Changing a statement inside another one changes what stands at the end of the way. -/
theorem at?_amendAt (f : Statement → Statement) (way : List Branch) (st : Statement) :
    at? way (st.amendAt f way) = (at? way st).map f := by
  induction way generalizing st with
  | nil => rfl
  | cons branch way ih => cases branch <;> cases st <;> first | rfl | exact ih _

end Statement

theorem Slot.Keeps.refl (slot : Slot) : slot.Keeps slot :=
  Statement.Keeps.refl slot.statement

namespace Line

theorem Keeps.refl (l : Line) : l.Keeps l :=
  grown_refl Slot.Keeps.refl _

theorem slots_eq (l : Line) : l.slots = l.earlier.reverse ++ [l.last] :=
  List.reverse_cons

theorem keeps_of_last {l l' : Line} (hearlier : l'.earlier = l.earlier)
    (h : l.last.statement.Keeps l'.last.statement) : l.Keeps l' := by
  rw [Keeps, slots_eq, slots_eq, hearlier]
  exact grown_last Slot.Keeps.refl _ h

theorem keeps_colon (l : Line) (column : Option Nat) : l.Keeps (l.colon column) := by
  have hslots : (l.colon column).slots = l.slots ++ [⟨column, .empty⟩] := List.reverse_cons
  rw [Keeps, hslots]
  exact grown_append Slot.Keeps.refl _ _

theorem slots_amendAt (f : Statement → Statement) (i : Nat) (way : List Statement.Branch)
    (l : Line) :
    (l.amendAt f i way).slots =
      l.slots.modify i fun slot => { slot with statement := slot.statement.amendAt f way } := by
  unfold slots
  rw [← reverse_amendFromEnd, amendFromEnd_cons, amendAt]
  split <;> rfl

theorem keeps_amendAt_define (closing : Closing) (i : Nat) (way : List Statement.Branch)
    (l : Line) : l.Keeps (l.amendAt (Statement.define closing) i way) := by
  rw [Keeps, slots_amendAt]
  refine grown_modify Slot.Keeps.refl (fun slot => ?_) i _
  exact Statement.keeps_amendAt_define closing way slot.statement

end Line

namespace Procedure

theorem Keeps.refl (p : Procedure) : p.Keeps p :=
  grown_refl Line.Keeps.refl _

theorem listing_amendAt (f : Statement → Statement) (place : Place) (p : Procedure) :
    (p.amendAt f place).listing =
      p.listing.modify place.line (Line.amendAt f place.statement place.way) :=
  reverse_amendFromEnd ..

theorem keeps_amendAt_define (closing : Closing) (place : Place) (p : Procedure) :
    p.Keeps (p.amendAt (Statement.define closing) place) := by
  rw [Keeps, listing_amendAt]
  exact grown_modify Line.Keeps.refl
    (Line.keeps_amendAt_define closing place.statement place.way) _ _

end Procedure

namespace Program

theorem Keeps.refl (p : Program) : p.Keeps p :=
  grown_refl Procedure.Keeps.refl _

theorem procedures_eq (p : Program) : p.procedures = p.earlier.reverse ++ [p.current] :=
  List.reverse_cons

theorem keeps_of_current {p p' : Program} (hearlier : p'.earlier = p.earlier)
    (h : p.current.Keeps p'.current) : p.Keeps p' := by
  rw [Keeps, procedures_eq, procedures_eq, hearlier]
  exact grown_last Procedure.Keeps.refl _ h

theorem keeps_amendAt_define (closing : Closing) (place : Place) (p : Program) :
    p.Keeps (p.amendAt (Statement.define closing) place) := by
  rw [Keeps, procedures_amendAt]
  exact grown_modify Procedure.Keeps.refl (Procedure.keeps_amendAt_define closing place) _ _

/-- What is found at a place stands in a slot of a line of a procedure. -/
theorem at?_eq_some_iff {p : Program} {place : Place} {st : Statement} :
    p.at? place = some st ↔ ∃ proc l slot, p.procedures[place.procedure]? = some proc ∧
      proc.listing[place.line]? = some l ∧ l.slots[place.statement]? = some slot ∧
      slot.statement.at? place.way = some st := by
  simp only [at?, Option.bind_eq_bind, Option.bind_eq_some_iff]
  constructor
  · rintro ⟨proc, hproc, l, hl, slot, hslot, hat⟩
    exact ⟨proc, l, slot, hproc, hl, hslot, hat⟩
  · rintro ⟨proc, l, slot, hproc, hl, hslot, hat⟩
    exact ⟨proc, hproc, l, hl, slot, hslot, hat⟩

/-- A function definition that has been written stays one. -/
theorem Keeps.at? {p p' : Program} (h : p.Keeps p') {place : Place} {d : DefFn}
    (hat : p.at? place = some (.defFn d)) : ∃ d', p'.at? place = some (.defFn d') := by
  obtain ⟨proc, l, slot, hproc, hl, hslot, hat⟩ := at?_eq_some_iff.mp hat
  obtain ⟨proc', hproc', hkeeps⟩ := h _ _ hproc
  obtain ⟨l', hl', hkeeps⟩ := hkeeps _ _ hl
  obtain ⟨slot', hslot', hkeeps⟩ := hkeeps _ _ hslot
  obtain ⟨d', hat'⟩ := hkeeps _ _ hat
  exact ⟨d', at?_eq_some_iff.mpr ⟨proc', l', slot', hproc', hl', hslot', hat'⟩⟩

/-- Changing the statement at a place changes what is found there. -/
theorem at?_amendAt (f : Statement → Statement) (place : Place) (p : Program) :
    (p.amendAt f place).at? place = (p.at? place).map f := by
  simp only [at?, procedures_amendAt, List.getElem?_modify_eq, Option.bind_eq_bind,
    Option.map_eq_map]
  rcases p.procedures[place.procedure]? with _ | proc
  · rfl
  · simp only [Option.map_some, Option.bind_some, Procedure.listing_amendAt,
      List.getElem?_modify_eq, Option.map_eq_map]
    rcases proc.listing[place.line]? with _ | l
    · rfl
    · simp only [Option.map_some, Option.bind_some, Line.slots_amendAt, List.getElem?_modify_eq,
        Option.map_eq_map]
      rcases l.slots[place.statement]? with _ | slot
      · rfl
      · exact Statement.at?_amendAt f place.way slot.statement

end Program

/-! ## Open function definitions -/

namespace Decode

/-- All places that are remembered are those of function definitions. -/
def State.OpenDefined (s : State) : Prop :=
  ∀ place ∈ s.openFns, ∃ d, s.program.at? place = some (.defFn d)

theorem State.OpenDefined.mono {s s' : State} (hs : s.OpenDefined) (hopen : s'.openFns ⊆ s.openFns)
    (h : s.program.Keeps s'.program) : s'.OpenDefined := by
  intro place hplace
  obtain ⟨d, hat⟩ := hs place (hopen hplace)
  exact h.at? hat

/-- The last line of the last procedure may change where its function definitions stay. -/
theorem keeps_withLines {s : State} {l l' : Line} {rest : List Line}
    (hlines : s.program.current.lines = l :: rest) (h : l.Keeps l') :
    s.program.Keeps (s.withLines (l' :: rest)).program := by
  refine Program.keeps_of_current rfl ?_
  rw [Procedure.Keeps, Procedure.listing, hlines, List.reverse_cons, Procedure.listing,
    State.withLines, List.reverse_cons]
  exact grown_last Line.Keeps.refl _ h

theorem keeps_setLast {s : State} {st st' : Statement} (hlast : s.last? = some st)
    (h : st.Keeps st') : s.program.Keeps (s.setLast st').program := by
  rcases hlines : s.program.current.lines with _ | ⟨l, rest⟩
  · exact absurd hlines (lines_ne_nil_of_last? hlast)
  · have hst : l.last.statement = st := by
      rw [State.last?, hlines] at hlast
      exact Option.some.inj hlast
    have hset : s.setLast st' = s.withLines (l.setLast st' :: rest) := by
      rw [State.setLast, hlines]
      rfl
    rw [hset]
    exact keeps_withLines hlines (Line.keeps_of_last rfl (hst ▸ h))

/-- The place that is remembered for the last statement is that of the last statement. -/
theorem at?_placeOn {s : State} {way : List Statement.Branch} {st : Statement}
    (h : s.lastAt way = some st) : s.program.at? (s.placeOn way) = some st := by
  obtain ⟨last, hlast, hat⟩ := Option.bind_eq_some_iff.mp h
  rcases hlines : s.program.current.lines with _ | ⟨l, rest⟩
  · exact absurd hlines (lines_ne_nil_of_last? hlast)
  · rw [State.last?, hlines] at hlast
    cases hlast
    refine Program.at?_eq_some_iff.mpr
      ⟨s.program.current, l, l.last, s.program.getElem?_procedures_length, ?_, ?_, hat⟩
    · rw [Procedure.listing, State.placeOn, hlines]
      simp
    · rw [Line.slots_eq, State.placeOn, hlines]
      simp

theorem Change.openDefined {src : Source} {e : Option Power} {s s' : State}
    (h : Change src e s s') (hs : s.OpenDefined) : s'.OpenDefined := by
  cases h with
  | noted offset =>
    refine hs.mono (by rw [State.openFns_noting]; exact fun _ => id) ?_
    rw [State.program_noting]
    exact .refl _
  | operands stack arguments => exact hs
  | line he l =>
    refine hs.mono (fun _ => id) (Program.keeps_of_current rfl ?_)
    rw [Procedure.Keeps, Procedure.listing, Procedure.listing, State.withLines, List.reverse_cons]
    exact grown_append Line.Keeps.refl _ _
  | placed hlast h => exact hs.mono (fun _ => id) (keeps_setLast hlast (Statement.keeps_of_place h))
  | amended he st' hlast h =>
    exact hs.mono (fun _ => id) (keeps_setLast hlast (Statement.keeps_of_isAssembled h st'))
  | colon he column =>
    refine hs.mono (fun _ => id) ?_
    rcases hlines : s.program.current.lines with _ | ⟨l, rest⟩
    · rw [List.modifyHead_nil, ← hlines]
      exact .refl _
    · exact keeps_withLines hlines (l.keeps_colon column)
  | @commented l l' rest he hlines hearlier hlast =>
    refine hs.mono (fun _ => id) (keeps_withLines hlines (Line.keeps_of_last hearlier ?_))
    rcases hlast with hsame | hremark
    · rw [hsame]
      exact .refl _
    · exact Statement.keeps_of_holdsRemark hremark _
  | kind kind => exact hs.mono (fun _ => id) (Program.keeps_of_current rfl (.refl _))
  | @opened he way d h =>
    intro place hplace
    rcases List.mem_cons.mp hplace with rfl | hold
    · exact ⟨d, at?_placeOn h⟩
    · exact hs place hold
  | closed he x =>
    unfold State.closeTop
    split
    · exact hs
    · rename_i place rest hopen
      refine hs.mono ?_ (Program.keeps_amendAt_define _ _ _)
      rw [hopen]
      exact List.subset_cons_self _ _

theorem Changes.openDefined {src : Source} {s s' : State} (h : Changes src s s')
    (hs : s.OpenDefined) : s'.OpenDefined := by
  induction h with
  | refl => exact hs
  | tail _ hstep ih =>
    obtain ⟨e, hstep⟩ := hstep
    exact hstep.openDefined ih

/-- The places of open function definitions lead to function definitions, wherever decoding has come
to. -/
theorem Reachable.openDefined {v : Version} {src : Source} {s : State} (h : Reachable v src s) :
    s.OpenDefined := by
  induction h with
  | start =>
    intro place hplace
    rw [keepsOpen_header] at hplace
    cases hplace
  | @step s pos _ ih => exact (changes_step v src pos s).openDefined ih
  | @enter s name static _ ih =>
    refine ih.mono (fun _ => id) ?_
    have hprocedures : (s.enter name static).program.procedures =
        s.program.procedures ++ [.start (some name) static] := List.reverse_cons
    rw [Program.Keeps, hprocedures]
    exact grown_append Procedure.Keeps.refl _ _

end Decode

end SavedBasic
