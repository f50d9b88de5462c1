import Mathlib.Data.List.Chain
import Mathlib.Data.List.Perm.Subperm
import Mathlib.Logic.Relation
import SavedBasic.Proofs.FormLayout

/-!
# The hierarchy of a form

A control has at most one parent, so each control is contained in at most one other. That alone does not
make the controls a tree: nothing keeps the parents from leading back to where they started. Reading
accepts such a form, and two frames that contain each other are not even noticed when they are not part
of the main form.

Printing the main form goes over what it contains, directly or not. This ends exactly if the main form is
not contained in itself: a descent through as many levels as there are controls comes to one of them
twice, and by the one way up that there is, this leads back to the main form
(`Layout.Linked.cycle_of_descends`). If it ends, the controls that are printed are a tree.
-/

namespace SavedBasic.Form

open Relation

/-! ## Containment -/

/-- A control contains another one directly. -/
def Layout.Contains (layout : Layout) (parent child : Nat) : Prop :=
  child ∈ layout.members parent

/-- The links of a layout are those that finding the parents of its controls gives. -/
def Layout.Linked (layout : Layout) : Prop :=
  link layout.controls 0 layout.controls = (layout.links, none)

theorem linked_of_read {src : Source} {layout : Layout} (h : read src = (layout, none)) :
    layout.Linked := by
  rw [read] at h
  dsimp only at h
  split at h
  · cases h
  · split at h
    · cases h
    · obtain ⟨hlayout, hfault⟩ := Prod.mk.inj h
      cases hlayout
      exact Prod.ext rfl hfault

namespace Layout.Linked

variable {layout : Layout} (h : layout.Linked) {parent child : Nat}

include h

theorem contains_iff : layout.Contains parent child ↔ parentOf? layout.controls child = some parent := by
  rw [Contains, members_of_link h, List.mem_filter, List.mem_range]
  simp only [decide_eq_true_eq, and_iff_right_iff_imp]
  exact fun hparent => (lt_of_parentOf? hparent).1

theorem nodup_members (parent : Nat) : (layout.members parent).Nodup := by
  rw [members_of_link h]
  exact List.nodup_range.filter _

/-- No control is contained in two others. -/
theorem unique {parent' : Nat} (hcontains : layout.Contains parent child)
    (hcontains' : layout.Contains parent' child) : parent = parent' := by
  rw [h.contains_iff] at hcontains hcontains'
  exact Option.some.inj (hcontains.symm.trans hcontains')

/-- Whatever contains something or is contained in something is a control. -/
theorem lt (hcontains : layout.Contains parent child) :
    parent < layout.controls.length ∧ child < layout.controls.length :=
  (lt_of_parentOf? (h.contains_iff.mp hcontains)).symm

/-- A cycle below a control goes through that control itself, as there is one way up only. -/
theorem cycle_above {top below : Nat} (hbelow : ReflTransGen layout.Contains top below)
    (hcycle : TransGen layout.Contains below below) : TransGen layout.Contains top top := by
  induction hbelow with
  | refl => exact hcycle
  | tail _ hlast ih =>
    obtain ⟨parent, hback, hparent⟩ := TransGen.tail'_iff.mp hcycle
    cases h.unique hlast hparent
    exact ih (.head' hlast hback)

/-- Two controls with a common control inside them are inside each other, one way or the other. -/
theorem comparable {a b inner : Nat} (ha : ReflTransGen layout.Contains a inner)
    (hb : ReflTransGen layout.Contains b inner) :
    ReflTransGen layout.Contains a b ∨ ReflTransGen layout.Contains b a := by
  have hunique : Relator.RightUnique (Function.swap layout.Contains) := fun _ _ _ hp hq => h.unique hp hq
  rcases ReflTransGen.total_of_right_unique hunique ha.swap hb.swap with hab | hba
  · exact .inr hab.swap
  · exact .inl hba.swap

/-- A member that lies inside another one, too, lies inside itself. -/
theorem cycle_of_members {a b : Nat} (ha : layout.Contains parent a) (hb : layout.Contains parent b)
    (hne : a ≠ b) (hab : ReflTransGen layout.Contains a b) : TransGen layout.Contains a a := by
  rcases ReflTransGen.cases_tail hab with heq | ⟨parent', hto, hlast⟩
  · exact absurd heq.symm hne
  · cases h.unique hb hlast
    exact .tail' hto ha

end Layout.Linked

/-! ## Depth -/

/-- From a control one can descend a number of levels, each time to a control that the last one
contains. -/
def Layout.Descends (layout : Layout) (depth index : Nat) : Prop :=
  ∃ path, path.length = depth ∧ List.IsChain layout.Contains (index :: path)

theorem descends_zero (layout : Layout) (index : Nat) : layout.Descends 0 index :=
  ⟨[], rfl, .singleton index⟩

theorem descends_succ_iff {layout : Layout} {depth index : Nat} :
    layout.Descends (depth + 1) index ↔ ∃ child ∈ layout.members index, layout.Descends depth child := by
  constructor
  · rintro ⟨_ | ⟨child, path⟩, hlength, hchain⟩
    · cases hlength
    · rw [List.isChain_cons_cons] at hchain
      exact ⟨child, hchain.1, path, Nat.succ.inj hlength, hchain.2⟩
  · rintro ⟨child, hchild, path, hlength, hchain⟩
    exact ⟨child :: path, congrArg Nat.succ hlength, List.isChain_cons_cons.mpr ⟨hchild, hchain⟩⟩

/-- From a control inside itself one can descend as far as one likes. -/
theorem descends_of_cycle {layout : Layout} {index : Nat}
    (hcycle : TransGen layout.Contains index index) (depth : Nat) : layout.Descends depth index := by
  induction depth generalizing index with
  | zero => exact descends_zero layout index
  | succ depth ih =>
    obtain ⟨child, hchild, hback⟩ := TransGen.head'_iff.mp hcycle
    exact descends_succ_iff.mpr ⟨child, hchild, ih (.tail' hback hchild)⟩

/-- A descent of as many levels as there are controls comes to one of them twice, so that the control
where it started lies inside itself. -/
theorem Layout.Linked.cycle_of_descends {layout : Layout} (h : layout.Linked) {index : Nat}
    (hindex : index < layout.controls.length)
    (hdescends : layout.Descends layout.controls.length index) :
    TransGen layout.Contains index index := by
  obtain ⟨path, hlength, hchain⟩ := hdescends
  by_contra hnone
  have hpairwise : (index :: path).Pairwise (TransGen layout.Contains) :=
    (hchain.imp fun _ _ => TransGen.single).pairwise
  have hbelow : ∀ i ∈ path, TransGen layout.Contains index i := (List.pairwise_cons.mp hpairwise).1
  have hlt : index :: path ⊆ List.range layout.controls.length := by
    intro i hi
    rw [List.mem_range]
    rcases List.mem_cons.mp hi with rfl | hi
    · exact hindex
    · obtain ⟨_, -, hlast⟩ := TransGen.tail'_iff.mp (hbelow i hi)
      exact (h.lt hlast).2
  have hnodup : (index :: path).Nodup := by
    refine hpairwise.imp_of_mem fun {a b} ha _ hab heq => ?_
    cases heq
    rcases List.mem_cons.mp ha with rfl | ha
    · exact hnone hab
    · exact hnone (h.cycle_above (hbelow a ha).to_reflTransGen hab)
  have hle := (List.Nodup.subperm hnodup hlt).length_le
  rw [List.length_cons, hlength, List.length_range] at hle
  exact Nat.not_succ_le_self _ hle

/-! ## Printing -/

/-- Controls are printed: one after another, each as a block with its attributes and the blocks of its
members in it. The controls are listed in the order in which their blocks begin. -/
inductive Layout.Prints (layout : Layout) : String → List Nat → List Nat → List String → Prop where
  /-- nothing to print -/
  | nil {indent : String} : Prints layout indent [] [] []
  /-- a block and those behind it -/
  | cons {indent : String} {index : Nat} {rest order order' : List Nat} {c : Control}
    {lines lines' : List String} (hc : layout.controls[index]? = some c)
    (inner : Prints layout (indent ++ "\t") (layout.members index) order lines)
    (behind : Prints layout indent rest order' lines') :
    Prints layout indent (index :: rest) (index :: (order ++ order'))
      ((indent ++ "BEGIN " ++ c.type ++ " " ++ c.name) ::
        c.shownAttributes.map (fun a => indent ++ "\t" ++ a.render) ++ lines ++ [indent ++ "END"] ++
          lines')

theorem Layout.Prints.append {layout : Layout} {indent : String} {a b order order' : List Nat}
    {lines lines' : List String} (ha : layout.Prints indent a order lines)
    (hb : layout.Prints indent b order' lines') :
    layout.Prints indent (a ++ b) (order ++ order') (lines ++ lines') := by
  induction ha with
  | nil => exact hb
  | cons hc inner _ _ ih =>
    have hall := Layout.Prints.cons hc inner (ih hb)
    simpa only [List.cons_append, List.append_assoc] using hall

/-- What printing some controls comes to: it fails if one can descend too far from one of them, and
prints their blocks if not. -/
def Layout.Printed (layout : Layout) (depth : Nat) (indent : String) (indices : List Nat) :
    Except Fault (List String) → Prop
  | .error fault => fault = .cyclicForm ∧ ∃ index ∈ indices, layout.Descends depth index
  | .ok lines => (∃ order, layout.Prints indent indices order lines) ∧
      ∀ index ∈ indices, ¬ layout.Descends depth index

theorem printed_members {layout : Layout} {depth : Nat} {indent : String} {indices : List Nat}
    (h : ∀ index ∈ indices,
      layout.Printed depth indent [index] (layout.renderFrom depth indent index)) :
    layout.Printed depth indent indices
      ((indices.mapM (layout.renderFrom depth indent)).map List.flatten) := by
  induction indices with
  | nil => exact ⟨⟨[], .nil⟩, fun _ h => nomatch h⟩
  | cons index rest ih =>
    obtain ⟨hfirst, hrest⟩ := List.forall_mem_cons.mp h
    have hrest := ih hrest
    rw [List.mapM_cons]
    cases hindex : layout.renderFrom depth indent index with
    | error fault =>
      rw [hindex] at hfirst
      obtain ⟨hfault, other, hother, hdescends⟩ := hfirst
      cases List.mem_singleton.mp hother
      exact ⟨hfault, index, List.mem_cons_self, hdescends⟩
    | ok lines =>
      rw [hindex] at hfirst
      obtain ⟨⟨order, hprints⟩, hnone⟩ := hfirst
      cases hmembers : rest.mapM (layout.renderFrom depth indent) with
      | error fault =>
        rw [hmembers] at hrest
        obtain ⟨hfault, other, hother, hdescends⟩ := hrest
        exact ⟨hfault, other, List.mem_cons_of_mem _ hother, hdescends⟩
      | ok members =>
        rw [hmembers] at hrest
        obtain ⟨⟨order', hprints'⟩, hnone'⟩ := hrest
        refine ⟨⟨order ++ order', hprints.append hprints'⟩, List.forall_mem_cons.mpr ⟨?_, hnone'⟩⟩
        exact hnone index (List.mem_singleton_self index)

/-- Printing a control fails exactly if one can descend too far from it. -/
theorem Layout.Linked.printed {layout : Layout} (h : layout.Linked) (depth : Nat) (indent : String)
    {index : Nat} (hindex : index < layout.controls.length) :
    layout.Printed depth indent [index] (layout.renderFrom depth indent index) := by
  induction depth generalizing indent index with
  | zero => exact ⟨rfl, index, List.mem_singleton_self index, descends_zero layout index⟩
  | succ depth ih =>
    have hc := List.getElem?_eq_getElem hindex
    have hmembers : layout.Printed depth (indent ++ "\t") (layout.members index) _ :=
      printed_members fun child hchild => ih (indent ++ "\t") (h.lt hchild).2
    rw [Layout.renderFrom, hc]
    dsimp only
    cases hall : (layout.members index).mapM (layout.renderFrom depth (indent ++ "\t")) with
    | error fault =>
      rw [hall] at hmembers
      obtain ⟨hfault, hdescends⟩ := hmembers
      exact ⟨hfault, index, List.mem_singleton_self index, descends_succ_iff.mpr hdescends⟩
    | ok members =>
      rw [hall] at hmembers
      obtain ⟨⟨order, hprints⟩, hnone⟩ := hmembers
      have hblock := Layout.Prints.cons hc hprints .nil
      rw [List.append_nil, List.append_nil] at hblock
      refine ⟨⟨index :: order, hblock⟩, fun other hother hdescends => ?_⟩
      cases List.mem_singleton.mp hother
      obtain ⟨child, hchild, hdescends⟩ := descends_succ_iff.mp hdescends
      exact hnone child hchild hdescends

/-! ## Each control once -/

/-- The controls that are printed are those that are asked for and all inside them. -/
theorem Layout.Prints.mem_order_iff {layout : Layout} {indent : String} {indices order : List Nat}
    {lines : List String} (h : layout.Prints indent indices order lines) {index : Nat} :
    index ∈ order ↔ ∃ top ∈ indices, ReflTransGen layout.Contains top index := by
  induction h with
  | nil => exact ⟨fun h => (nomatch h), fun ⟨_, h, _⟩ => nomatch h⟩
  | @cons _ first rest order order' _ _ _ _ _ _ ihInner ihBehind =>
    rw [List.mem_cons, List.mem_append, ihInner, ihBehind]
    constructor
    · rintro (rfl | ⟨child, hchild, hinside⟩ | ⟨top, htop, hinside⟩)
      · exact ⟨index, List.mem_cons_self, .refl⟩
      · exact ⟨first, List.mem_cons_self, .head hchild hinside⟩
      · exact ⟨top, List.mem_cons_of_mem _ htop, hinside⟩
    · rintro ⟨top, htop, hinside⟩
      rcases List.mem_cons.mp htop with rfl | htop
      · rcases ReflTransGen.cases_head hinside with rfl | ⟨child, hchild, hinside⟩
        · exact .inl rfl
        · exact .inr (.inl ⟨child, hchild, hinside⟩)
      · exact .inr (.inr ⟨top, htop, hinside⟩)

/-- Two controls have nothing inside them in common. -/
def Layout.Apart (layout : Layout) (a b : Nat) : Prop :=
  ∀ inner, ReflTransGen layout.Contains a inner → ¬ ReflTransGen layout.Contains b inner

/-- The members of a control that does not lie inside itself have nothing in common. -/
theorem Layout.Linked.apart_members {layout : Layout} (h : layout.Linked) {parent : Nat}
    (hacyclic : ¬ TransGen layout.Contains parent parent) :
    (layout.members parent).Pairwise layout.Apart := by
  refine List.Pairwise.imp_of_mem (fun {a b} ha hb hne inner hainner hbinner => ?_)
    (h.nodup_members parent)
  rcases h.comparable hainner hbinner with hab | hba
  · exact hacyclic (h.cycle_above (.single ha) (h.cycle_of_members ha hb hne hab))
  · exact hacyclic (h.cycle_above (.single hb) (h.cycle_of_members hb ha hne.symm hba))

/-- Controls that have nothing in common, and of which none lies inside itself, are printed once each,
and so is all that is inside them. -/
theorem Layout.Linked.nodup_order {layout : Layout} (h : layout.Linked) {indent : String}
    {indices order : List Nat} {lines : List String} (hprints : layout.Prints indent indices order lines)
    (hapart : indices.Pairwise layout.Apart)
    (hacyclic : ∀ index ∈ indices, ¬ TransGen layout.Contains index index) : order.Nodup := by
  induction hprints with
  | nil => exact List.nodup_nil
  | @cons _ first rest order order' _ _ _ _ inner behind ihInner ihBehind =>
    obtain ⟨hfirst, hrest⟩ := List.forall_mem_cons.mp hacyclic
    obtain ⟨hapartFirst, hapartRest⟩ := List.pairwise_cons.mp hapart
    have hinner : order.Nodup := by
      refine ihInner (h.apart_members hfirst) fun child hchild hcycle => ?_
      exact hfirst (h.cycle_above (.single hchild) hcycle)
    rw [List.nodup_cons, List.mem_append, List.nodup_append]
    refine ⟨?_, hinner, ihBehind hapartRest hrest, ?_⟩
    · rw [inner.mem_order_iff, behind.mem_order_iff]
      rintro (⟨child, hchild, hback⟩ | ⟨top, htop, hinside⟩)
      · exact hfirst (.head' hchild hback)
      · exact hapartFirst top htop first .refl hinside
    · rintro a ha b hb rfl
      obtain ⟨child, hchild, hinside⟩ := inner.mem_order_iff.mp ha
      obtain ⟨top, htop, hinside'⟩ := behind.mem_order_iff.mp hb
      exact hapartFirst top htop a (.head hchild hinside) hinside'

/-- **The main form is printed unless it lies inside itself.** In every form that can be read, no control
lies directly in two others. If the main form does not lie inside itself, printing it ends, with the block
of each control that lies inside it, exactly once, and of no other control. If it does, printing it fails
for that reason. -/
theorem main_form_printed_unless_inside_itself {src : Source} {layout : Layout}
    (hread : read src = (layout, none)) (hne : layout.controls ≠ []) :
    (∀ child parent parent', layout.Contains parent child → layout.Contains parent' child →
      parent = parent') ∧
    (¬ TransGen layout.Contains 0 0 → ∃ order lines, layout.render = .ok lines ∧
      layout.Prints "" [0] order lines ∧ order.Nodup ∧
      ∀ index, index ∈ order ↔ ReflTransGen layout.Contains 0 index) ∧
    (TransGen layout.Contains 0 0 → layout.render = .error .cyclicForm) := by
  have h := linked_of_read hread
  have hmain : 0 < layout.controls.length := List.length_pos_iff.mpr hne
  have hprinted := h.printed layout.controls.length "" hmain
  rw [← Layout.render] at hprinted
  refine ⟨fun child parent parent' hin hin' => h.unique hin hin', fun hacyclic => ?_, fun hcycle => ?_⟩
  · cases hrender : layout.render with
    | error fault =>
      rw [hrender] at hprinted
      obtain ⟨-, index, hindex, hdescends⟩ := hprinted
      cases List.mem_singleton.mp hindex
      exact absurd (h.cycle_of_descends hmain hdescends) hacyclic
    | ok lines =>
      rw [hrender] at hprinted
      obtain ⟨⟨order, hprints⟩, -⟩ := hprinted
      refine ⟨order, lines, rfl, hprints, ?_, fun index => ?_⟩
      · refine h.nodup_order hprints (List.pairwise_singleton _ 0) fun index hindex => ?_
        rwa [List.mem_singleton.mp hindex]
      · rw [hprints.mem_order_iff]
        simp only [List.mem_singleton, exists_eq_left]
  · cases hrender : layout.render with
    | error fault =>
      rw [hrender] at hprinted
      rw [hprinted.1]
    | ok lines =>
      rw [hrender] at hprinted
      exact absurd (descends_of_cycle hcycle _) (hprinted.2 0 (List.mem_singleton_self 0))

/-! ## Forms without strings -/

/-- The form of a file without strings: records and a table of names behind them. The flags are zero, and
with the byte behind them they are the empty string, which all records can refer to. -/
def bareForm (records : List Record) : Bytes :=
  let area := records.flatMap Record.bytes
  List.replicate 6 0 ++ (Bytes.u16 (10 + area.length : Nat) ++ (Bytes.u16 area.length ++ area))

/-- A file with such a form and without code. -/
def bareSource (records : List Record) (table : Bytes) : Source :=
  .ofBytes ([0xFC, 0x08, 0x01] ++ List.replicate 17 0 ++
    Bytes.u16 ((bareForm records).length + table.length : Nat) ++ bareForm records ++
    (table ++ List.replicate 12 0))

/-- Every record has room for a parent. -/
theorem nine_le_length_of_mem_controlTypes : ∀ type ∈ controlTypes, 9 ≤ type.length := by
  decide

/-- A record of zeros, but for the parent. -/
def bareRecord (index : UInt8) (number : Fin controlTypes.length) (parent : UInt8) : Record where
  index := index
  number := number
  payload := List.replicate 5 0 ++ [parent, 0] ++
    List.replicate ((controlTypes.get number).length - 9) 0
  length_payload := by
    have hlength := nine_le_length_of_mem_controlTypes _ (List.get_mem controlTypes number)
    simp only [List.length_append, List.length_replicate, List.length_cons, List.length_nil]
    omega

theorem area_bareSource {records : List Record} {table : Bytes} {names : List String}
    (hlength : (records.flatMap Record.bytes).length < 65526)
    (hnames : NamesAt (bareSource records table) (0x20 + (records.flatMap Record.bytes).length) names)
    (hstrings : ∀ r ∈ records, ∀ displacement ∈ r.references, displacement = 0)
    (hindex : ∀ r ∈ records, r.index.toNat < names.length)
    (hplain : ∀ r ∈ records, r.type.name ≠ menuName)
    (hparent : ∀ r ∈ records, r.parent = 0 ∨
      r.parent < 0x8000 ∧ ∃ place ∈ placed 0x20 records, place.1 = base + r.parent) :
    Area (bareSource records table) 0 names (fun _ => []) records := by
  have hform : (bareSource records table).Holds base (bareForm records) := Source.holds_ofBytes ..
  obtain ⟨hzeros, hbehind⟩ := Source.holds_append.mp hform
  have hempty : (bareSource records table).HoldsText base [] :=
    ⟨by decide, ((Source.holds_append (a := [0, 0]) (b := List.replicate 4 0)).mp hzeros).1⟩
  obtain ⟨hnamesAt, hbehind⟩ := Source.holds_append.mp hbehind
  obtain ⟨hlengthAt, hrecords⟩ := Source.holds_append.mp hbehind
  exact {
    flagsAt := hzeros.natLE_eq (by decide) (by decide)
    namesAt := ⟨_, hnamesAt.natLE_u16 (by omega), by
      rwa [base, ← Nat.add_assoc]⟩
    lengthAt := ⟨0, Nat.zero_le 2, hlengthAt.natLE_u16 (by omega)⟩
    recordsAt := hrecords
    stringsAt := fun r hr displacement hdisplacement => by
      rwa [hstrings r hr displacement hdisplacement]
    index_lt := hindex
    plain := fun r hr hmenu => absurd hmenu (hplain r hr)
    parent := hparent }

/-- A main form, and two frames that name each other as their parents. -/
def mutualRecords : List Record :=
  [bareRecord 0 formNumber 0, bareRecord 1 frameNumber 0x43, bareRecord 2 frameNumber 0x29]

/-- The file with the two frames. -/
def mutualSource : Source :=
  bareSource mutualRecords [1, 0, 0, 4, 0x4D, 0x61, 0x69, 0x6E, 1, 0, 0, 1, 0x41, 0, 0, 0, 1, 0x42]

theorem area_mutualSource : Area mutualSource 0 ["Main", "A", "B"] (fun _ => []) mutualRecords := by
  refine area_bareSource (by decide) ?_ (by decide) (by decide) (by decide) (by decide)
  refine @NamesAt.cons _ _ 1 0 0 4 [0x4D, 0x61, 0x69, 0x6E] _ (by decide) (by decide) (by decide) ?_
  refine @NamesAt.cons _ _ 1 0 0 1 [0x41] _ (by decide) (by decide) (by decide) ?_
  exact @NamesAt.last _ _ 0 1 [0x42] (by decide) (by decide)

/-- Two frames that contain each other are read without an error. -/
theorem frames_inside_each_other :
    ∃ layout, read mutualSource = (layout, none) ∧ TransGen layout.Contains 1 1 := by
  obtain ⟨controls, links, hread, hcontrols, hlinks⟩ := area_mutualSource.read_eq
  have hfirst : Layout.members ⟨controls, links⟩ 1 = [2] :=
    area_mutualSource.members_eq hcontrols hlinks 1 rfl
  have hsecond : Layout.members ⟨controls, links⟩ 2 = [1] :=
    area_mutualSource.members_eq hcontrols hlinks 2 rfl
  refine ⟨⟨controls, links⟩, hread, .tail (b := 2) (.single ?_) ?_⟩
  · rw [Layout.Contains, hfirst]
    exact List.mem_singleton_self 2
  · rw [Layout.Contains, hsecond]
    exact List.mem_singleton_self 1

/-- A main form that names itself as its parent. -/
def ownParent : List Record :=
  [bareRecord 0 formNumber 0x0A]

theorem area_ownParent :
    Area (bareSource ownParent [0, 0, 0, 4, 0x4D, 0x61, 0x69, 0x6E]) 0 ["Main"] (fun _ => [])
      ownParent := by
  refine area_bareSource (by decide) ?_ (by decide) (by decide) (by decide) (by decide)
  exact @NamesAt.last _ _ 0 4 [0x4D, 0x61, 0x69, 0x6E] (by decide) (by decide)

/-- A main form that lies inside itself is read without an error and cannot be printed. -/
theorem own_parent_not_printed :
    ∃ layout, read (bareSource ownParent [0, 0, 0, 4, 0x4D, 0x61, 0x69, 0x6E]) = (layout, none) ∧
      layout.controls ≠ [] ∧ layout.render = .error .cyclicForm := by
  obtain ⟨controls, links, hread, hcontrols, hlinks⟩ := area_ownParent.read_eq
  have hne : controls ≠ [] := by
    rw [← List.length_pos_iff, length_controls hcontrols]
    decide
  have hmembers : Layout.members ⟨controls, links⟩ 0 = [0] :=
    area_ownParent.members_eq hcontrols hlinks 0 rfl
  refine ⟨⟨controls, links⟩, hread, hne, ?_⟩
  refine (main_form_printed_unless_inside_itself hread hne).2.2 (.single ?_)
  rw [Layout.Contains, hmembers]
  exact List.mem_singleton_self 0

end SavedBasic.Form
