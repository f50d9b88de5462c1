import Mathlib.Data.List.Nodup
import SavedBasic.Proofs.FormRecords

/-!
# The layout of a form

A form area has a word of flags, a table of names, the records of the controls and, anywhere in the
file, the strings that the records refer to. Which control lies in which is said by the records alone:
each of them has the displacement of the record of its parent, or zero. When all records have been read,
the parents are looked up by their positions.

The links are the same for every area whose parents are found: the members of a control are those that
name it, in the order of their records (`members_of_link`). For an area in which records stand one
behind the other this gives the whole layout, from the bytes of the records.
-/

namespace SavedBasic.Form

open Text

/-! ## Names -/

/-- A table of names stands at a position: entries of a link, a type, a length and a name, up to one
whose link is zero. The end of the file may cut the last name short. -/
inductive NamesAt (src : Source) : Nat → List String → Prop where
  /-- the last entry -/
  | last {pos : Nat} {kind length : UInt8} {name : Bytes}
    (h : src.Holds pos [0, 0, kind, length]) (hname : (src.rest (pos + 4)).take length.toNat = name) :
    NamesAt src pos [CodePage.decode name]
  /-- an entry in front of others -/
  | cons {pos : Nat} {low high kind length : UInt8} {name : Bytes} {names : List String}
    (h : src.Holds pos [low, high, kind, length]) (hlink : low ≠ 0 ∨ high ≠ 0)
    (hname : (src.rest (pos + 4)).take length.toNat = name)
    (rest : NamesAt src (pos + 4 + name.length) names) :
    NamesAt src pos (CodePage.decode name :: names)

/-- The link and the length of an entry are read. -/
theorem read_nameEntry {src : Source} {pos : Nat} {low high kind length : UInt8}
    (h : src.Holds pos [low, high, kind, length]) :
    pos + 4 ≤ src.size ∧ src.natLE pos 2 = .ok (low.toNat + 256 * high.toNat) ∧
      src.natLE (pos + 3) 1 = .ok length.toNat := by
  have hsize := h.length_le
  rw [Source.length_rest] at hsize
  exact ⟨by simp only [List.length_cons] at hsize; omega,
    h.natLE_eq Nat.two_pos (Nat.le_add_left _ _),
    (h.drop (n := 3) (Nat.le_add_left _ _)).natLE_eq Nat.one_pos (Nat.le_refl _)⟩

theorem readNames_of_namesAt {src : Source} {pos : Nat} {names : List String}
    (h : NamesAt src pos names) : readNames src pos = .ok names := by
  induction h with
  | last h hname =>
    obtain ⟨hsize, hlink, hlength⟩ := read_nameEntry h
    rw [readNames, dif_pos hsize, hlink, hlength]
    simp only [bind, Except.bind, Source.slice_eq, hname]
    rfl
  | @cons pos low high kind length name names h hne hname rest ih =>
    obtain ⟨hsize, hlink, hlength⟩ := read_nameEntry h
    have hlink' : ¬ low.toNat + 256 * high.toNat = 0 := by
      intro hzero
      have hlow : low.toNat = 0 := by omega
      have hhigh : high.toNat = 0 := by omega
      rcases hne with hne | hne
      · exact hne (UInt8.toNat_inj.mp hlow)
      · exact hne (UInt8.toNat_inj.mp hhigh)
    rw [readNames, dif_pos hsize, hlink, hlength]
    simp only [bind, Except.bind, Source.slice_eq, hname, if_neg hlink', ih]
    rfl

/-! ## Links -/

/-- The position of the parent among the controls, if the control has one. -/
def Control.parentIndex? (controls : List Control) (c : Control) : Option Nat :=
  if c.parent = 0 then none else controls.findIdx? fun p => (p.offset : Int) = base + c.parent

/-- The position of the parent of the control at a position. -/
def parentOf? (controls : List Control) (index : Nat) : Option Nat :=
  controls[index]?.bind (Control.parentIndex? controls)

theorem lt_of_parentOf? {controls : List Control} {index parent : Nat}
    (h : parentOf? controls index = some parent) :
    index < controls.length ∧ parent < controls.length := by
  obtain ⟨c, hc, hparent⟩ := Option.bind_eq_some_iff.mp h
  refine ⟨(List.getElem?_eq_some_iff.mp hc).1, ?_⟩
  rw [Control.parentIndex?] at hparent
  split at hparent
  · cases hparent
  · exact (List.findIdx?_eq_some_iff_findIdx_eq.mp hparent).1

/-- All parents are found if each control that names one names the record of a control. -/
theorem exists_link {controls : List Control} (index : Nat) {rest : List Control}
    (h : ∀ c ∈ rest, c.parent = 0 ∨ ∃ p ∈ controls, (p.offset : Int) = base + c.parent) :
    ∃ links, link controls index rest = (links, none) := by
  induction rest generalizing index with
  | nil => exact ⟨[], rfl⟩
  | cons c rest ih =>
    rw [List.forall_mem_cons] at h
    obtain ⟨links, hlinks⟩ := ih (index + 1) h.2
    rw [link]
    split
    · exact ⟨links, hlinks⟩
    · rename_i hparent
      obtain ⟨p, hp, hoffset⟩ := h.1.resolve_left hparent
      split
      · rename_i hnone
        exact absurd (decide_eq_true hoffset) (by simpa using List.findIdx?_eq_none_iff.mp hnone p hp)
      · rw [hlinks]
        exact ⟨_, rfl⟩

/-- What finding the parents of some controls gives, if all of them are found: nothing for the first
one, or a link to its parent. -/
theorem link_cons {controls rest : List Control} {c : Control} {index : Nat}
    {links : List (Nat × Nat)} (h : link controls index (c :: rest) = (links, none)) :
    (c.parentIndex? controls = none ∧ link controls (index + 1) rest = (links, none)) ∨
      ∃ parent links', c.parentIndex? controls = some parent ∧ links = (parent, index) :: links' ∧
        link controls (index + 1) rest = (links', none) := by
  rw [link] at h
  rw [Control.parentIndex?]
  split at h
  · rename_i hzero
    exact .inl ⟨if_pos hzero, h⟩
  · rename_i hparent
    rw [if_neg hparent]
    split at h
    · cases h
    · rename_i parent hfound
      obtain ⟨hlinks, hnone⟩ := Prod.mk.inj h
      exact .inr ⟨parent, _, hfound, hlinks.symm, Prod.ext rfl hnone⟩

/-- The members of a control among those from an index on. -/
theorem members_of_link_from {controls : List Control} {index : Nat} {rest : List Control}
    {links : List (Nat × Nat)} (hrest : controls.drop index = rest)
    (h : link controls index rest = (links, none)) (parent : Nat) :
    Layout.members ⟨controls, links⟩ parent =
      (List.range' index rest.length).filter fun child => parentOf? controls child = some parent := by
  induction rest generalizing index links with
  | nil =>
    cases h
    rfl
  | cons c rest ih =>
    have hc : controls[index]? = some c := by
      rw [← List.head?_drop, hrest]
      rfl
    have hrest' : controls.drop (index + 1) = rest := by
      rw [← List.tail_drop, hrest]
      rfl
    have hparent : parentOf? controls index = c.parentIndex? controls := by
      rw [parentOf?, hc, Option.bind_some]
    rw [List.length_cons, List.range'_succ, List.filter_cons, hparent]
    rcases link_cons h with ⟨hnone, hlink⟩ | ⟨first, links', hfirst, rfl, hlink⟩
    · rw [hnone, ih hrest' hlink]
      rfl
    · have hmembers := ih hrest' hlink
      rw [Layout.members] at hmembers ⊢
      rw [hfirst, List.filterMap_cons]
      by_cases heq : first = parent
      · simp [heq, hmembers]
      · simp [heq, hmembers]

/-- The members of a control are those that name it as their parent, in the order of their records. -/
theorem members_of_link {controls : List Control} {links : List (Nat × Nat)}
    (h : link controls 0 controls = (links, none)) (parent : Nat) :
    Layout.members ⟨controls, links⟩ parent =
      (List.range controls.length).filter fun child => parentOf? controls child = some parent := by
  rw [members_of_link_from List.drop_zero h, List.range_eq_range']

/-- Where all records stand at different places, the parent is the control whose record it is. -/
theorem parentIndex?_eq_some_iff {controls : List Control}
    (hnodup : (controls.map Control.offset).Nodup) {c p : Control} {parent : Nat}
    (hp : controls[parent]? = some p) :
    c.parentIndex? controls = some parent ↔ c.parent ≠ 0 ∧ (p.offset : Int) = base + c.parent := by
  obtain ⟨hlt, hget⟩ := List.getElem?_eq_some_iff.mp hp
  rw [Control.parentIndex?]
  split
  · rename_i hzero
    exact ⟨(nomatch ·), fun h => absurd hzero h.1⟩
  · rename_i hparent
    rw [List.findIdx?_eq_some_iff_getElem]
    constructor
    · rintro ⟨_, hfound, -⟩
      rw [hget] at hfound
      exact ⟨hparent, of_decide_eq_true hfound⟩
    · rintro ⟨-, hoffset⟩
      refine ⟨hlt, by rw [hget]; exact decide_eq_true hoffset, fun j hj hother => ?_⟩
      -- an earlier record would stand at the same place
      have hlt' : parent < (controls.map Control.offset).length := by rwa [List.length_map]
      have hsame : (controls.map Control.offset)[j] = (controls.map Control.offset)[parent] := by
        have := of_decide_eq_true hother
        rw [List.getElem_map, List.getElem_map, hget]
        omega
      have hindex : j = parent := (List.Nodup.getElem_inj_iff hnodup).mp hsame
      omega

/-! ## Records and their parents -/

/-- The displacement of the parent, as it is stored. -/
def Record.parent (r : Record) : Nat :=
  Bytes.toNatLE ((r.payload.drop 5).take 2)

/-- The fields of all types begin in the same way. -/
theorem exists_opening_of_mem_controlTypes :
    ∀ type ∈ controlTypes, ∃ bits rest, type.fields = Field.opening bits ++ rest := by
  simp only [controlTypes, List.forall_mem_cons]
  refine ⟨?_, ?_, ?_, ?_, ?_, ?_, ?_, ?_, ?_, ?_, ?_, ?_, ?_, ?_, ?_, ?_, ?_, ?_⟩
  all_goals first | exact ⟨_, _, rfl⟩ | exact fun _ h => nomatch h

theorem Record.parent_mem_settings (strings : Nat → Bytes) (r : Record) :
    (parentName, .number .plain (storedNumber 2 .plain r.parent)) ∈ r.settings strings := by
  obtain ⟨bits, rest, hfields⟩ := exists_opening_of_mem_controlTypes r.type r.type_mem
  rw [Record.settings, hfields]
  simp [Field.opening, Form.settings, Field.settings, Field.size, Record.parent]

theorem storedNumber_of_lt {n : Nat} (h : n < 0x8000) : storedNumber 2 .plain n = n := by
  rw [storedNumber, if_neg (by decide), BitVec.toInt_eq_toNat_cond, BitVec.toNat_ofNat]
  omega

/-- A control names the parent that its record names. -/
theorem Control.IsOf.parent {names : List String} {mdi : Bool} {strings : Nat → Bytes}
    {place : Nat × Record} {c : Control} (h : c.IsOf names mdi strings place)
    (hlt : place.2.parent < 0x8000) : c.parent = place.2.parent := by
  have hvalue := h.value _ (place.2.parent_mem_settings strings)
  rw [storedNumber_of_lt hlt, Control.value?] at hvalue
  rw [Control.parent, Control.number?, hvalue]
  rfl

theorem map_snd_placed (pos : Nat) (records : List Record) :
    (placed pos records).map Prod.snd = records := by
  induction records generalizing pos with
  | nil => rfl
  | cons r rest ih => rw [placed, List.map_cons, ih]

theorem le_of_mem_placed {pos : Nat} {records : List Record} {place : Nat × Record}
    (h : place ∈ placed pos records) : pos ≤ place.1 := by
  induction records generalizing pos with
  | nil => cases h
  | cons r rest ih =>
    rcases List.mem_cons.mp h with rfl | h
    · exact Nat.le_refl pos
    · exact Nat.le_trans (Nat.le_add_right ..) (ih h)

theorem nodup_placed (pos : Nat) (records : List Record) :
    ((placed pos records).map Prod.fst).Nodup := by
  induction records generalizing pos with
  | nil => exact List.nodup_nil
  | cons r rest ih =>
    rw [placed, List.map_cons, List.nodup_cons]
    refine ⟨fun hmem => ?_, ih _⟩
    obtain ⟨place, hplace, heq⟩ := List.mem_map.mp hmem
    have hle := le_of_mem_placed hplace
    have hlong := long_of_mem_controlTypes r.type r.type_mem
    rw [r.length_bytes] at hle
    omega

/-! ## The whole area -/

/-- A form area: a word of flags, a table of names, records one behind the other with at most two bytes
behind them, and the strings that these refer to. Each record names a parent by the displacement of its
record, or none by zero. -/
structure Area (src : Source) (flags : Nat) (names : List String) (strings : Nat → Bytes)
    (records : List Record) : Prop where
  flagsAt : src.natLE base 1 = .ok flags
  namesAt : ∃ displacement, src.natLE 0x1C 2 = .ok displacement ∧
    NamesAt src (base + displacement) names
  lengthAt : ∃ extra ≤ 2, src.natLE 0x1E 2 = .ok ((records.flatMap Record.bytes).length + extra)
  recordsAt : src.Holds 0x20 (records.flatMap Record.bytes)
  stringsAt : ∀ r ∈ records, ∀ displacement ∈ r.references,
    src.HoldsText (base + displacement) (strings displacement)
  index_lt : ∀ r ∈ records, r.index.toNat < names.length
  plain : ∀ r ∈ records, r.Plain strings
  parent : ∀ r ∈ records, r.parent = 0 ∨
    r.parent < 0x8000 ∧ ∃ place ∈ placed 0x20 records, place.1 = base + r.parent

section

variable {src : Source} {flags : Nat} {names : List String} {strings : Nat → Bytes}
  {records : List Record} {controls : List Control}

theorem Area.parent_lt (h : Area src flags names strings records) {r : Record} (hr : r ∈ records) :
    r.parent < 0x8000 := by
  rcases h.parent r hr with hzero | ⟨hlt, -⟩
  · omega
  · exact hlt

/-- The control and the record at a position belong to each other. -/
theorem exists_control_at {mdi : Bool}
    (h : List.Forall₂ (Control.IsOf names mdi strings) (placed 0x20 records) controls)
    {index : Nat} {place : Nat × Record} (hplace : (placed 0x20 records)[index]? = some place) :
    ∃ c, controls[index]? = some c ∧ c.IsOf names mdi strings place ∧ place.2 ∈ records := by
  obtain ⟨hlt, rfl⟩ := List.getElem?_eq_some_iff.mp hplace
  have hlt' : index < controls.length := h.length_eq ▸ hlt
  have hmem := List.mem_map_of_mem (f := Prod.snd) (List.getElem_mem hlt)
  rw [map_snd_placed] at hmem
  exact ⟨controls[index], List.getElem?_eq_getElem hlt', h.get hlt hlt', hmem⟩

theorem map_offset_controls {mdi : Bool}
    (h : List.Forall₂ (Control.IsOf names mdi strings) (placed 0x20 records) controls) :
    controls.map Control.offset = (placed 0x20 records).map Prod.fst := by
  rw [← List.forall₂_eq_eq_eq, List.forall₂_map_left_iff, List.forall₂_map_right_iff]
  exact h.flip.imp fun _ _ hc => hc.offset

/-- Each control of an area has no parent, or it names the record of a control. -/
theorem Area.parent_control (h : Area src flags names strings records) {mdi : Bool}
    (hcontrols : List.Forall₂ (Control.IsOf names mdi strings) (placed 0x20 records) controls)
    {c : Control} (hc : c ∈ controls) :
    c.parent = 0 ∨ ∃ p ∈ controls, (p.offset : Int) = base + c.parent := by
  obtain ⟨index, hindex, rfl⟩ := List.getElem_of_mem hc
  have hplace := List.getElem?_eq_getElem (hcontrols.length_eq ▸ hindex)
  obtain ⟨c, hget, hOf, hmem⟩ := exists_control_at hcontrols hplace
  rw [List.getElem?_eq_getElem hindex] at hget
  cases hget
  rw [hOf.parent (h.parent_lt hmem)]
  refine (h.parent _ hmem).imp (fun hzero => by rw [hzero]; rfl) fun hparent => ?_
  obtain ⟨-, place', hplace', hstart⟩ := hparent
  have hoffset : place'.1 ∈ controls.map Control.offset := by
    rw [map_offset_controls hcontrols]
    exact List.mem_map_of_mem hplace'
  obtain ⟨p, hp, hpoffset⟩ := List.mem_map.mp hoffset
  exact ⟨p, hp, by omega⟩

/-- Each record of an area is read to its control, and all parents are found. -/
theorem Area.read_eq (h : Area src flags names strings records) :
    ∃ controls links, read src = (⟨controls, links⟩, none) ∧
      List.Forall₂ (Control.IsOf names (flags.testBit 2) strings) (placed 0x20 records) controls ∧
      link controls 0 controls = (links, none) := by
  obtain ⟨displacement, hdisplacement, hnames⟩ := h.namesAt
  obtain ⟨extra, hextra, hlength⟩ := h.lengthAt
  obtain ⟨controls, hread, hcontrols⟩ :
      ∃ controls, readControls src names (flags.testBit 2)
          (0x20 + ((records.flatMap Record.bytes).length + extra)) 0x20 = (controls, none) ∧
        List.Forall₂ (Control.IsOf names (flags.testBit 2) strings) (placed 0x20 records) controls :=
    readControls_records h.recordsAt (by omega) (by omega) h.index_lt h.stringsAt h.plain
  obtain ⟨links, hlinks⟩ := exists_link 0 fun c hc => h.parent_control hcontrols hc
  refine ⟨controls, links, ?_, hcontrols, hlinks⟩
  simp only [read, h.flagsAt, hdisplacement, hlength, readNames_of_namesAt hnames, bind, pure,
    Except.bind, Except.pure, hread, hlinks]

theorem length_controls {mdi : Bool}
    (h : List.Forall₂ (Control.IsOf names mdi strings) (placed 0x20 records) controls) :
    controls.length = records.length := by
  rw [← h.length_eq, ← List.length_map, map_snd_placed]

/-- The members of a control are those whose records name its record. -/
theorem Area.members_eq (h : Area src flags names strings records) {mdi : Bool}
    (hcontrols : List.Forall₂ (Control.IsOf names mdi strings) (placed 0x20 records) controls)
    {links : List (Nat × Nat)} (hlinks : link controls 0 controls = (links, none)) (index : Nat)
    {place : Nat × Record} (hplace : (placed 0x20 records)[index]? = some place) :
    Layout.members ⟨controls, links⟩ index =
      (List.range records.length).filter fun child =>
        records[child]?.any fun r => base + r.parent = place.1 := by
  have hnodup : (controls.map Control.offset).Nodup := by
    rw [map_offset_controls hcontrols]
    exact nodup_placed 0x20 records
  have hlength := length_controls hcontrols
  obtain ⟨p, hp, hpOf, -⟩ := exists_control_at hcontrols hplace
  have hstart : 0x20 ≤ place.1 := le_of_mem_placed (List.mem_of_getElem? hplace)
  rw [members_of_link hlinks, hlength]
  refine List.filter_congr fun child hchild => ?_
  have hlt : child < (placed 0x20 records).length := by
    rw [hcontrols.length_eq, hlength]
    exact List.mem_range.mp hchild
  have hplaced := List.getElem?_eq_getElem hlt
  generalize (placed 0x20 records)[child] = place' at hplaced
  obtain ⟨c, hc, hcOf, hmem⟩ := exists_control_at hcontrols hplaced
  have hrecord : records[child]? = some place'.2 := by
    rw [← map_snd_placed 0x20 records, List.getElem?_map, hplaced]
    rfl
  have hiff := parentIndex?_eq_some_iff hnodup (c := c) hp
  rw [hcOf.parent (h.parent_lt hmem), hpOf.offset] at hiff
  rw [parentOf?, hc, Option.bind_some, hrecord, Option.any_some, decide_eq_decide, hiff]
  simp only [base]
  omega

end

/-- A layout that has been read is kept as the form of the file, behind a longer header. -/
theorem run_formArea_of_read {src : Source} {layout : Layout} {extra : Nat}
    (hread : read src = (layout, none)) (hne : layout.controls ≠ [])
    (hextra : src.natLE 0x14 2 = .ok extra) (hpos : 0 < extra) (pos : Nat) (s : Decode.State) :
    Decode.formArea.run src pos s =
      (.ok (), pos, { s with headerSize := s.headerSize + extra, form := some layout }) := by
  have hempty : layout.controls.isEmpty = false := List.isEmpty_eq_false_iff.mpr hne
  simp only [Decode.formArea, Decode.run_bind, Decode.run_source, Decode.run_given, hextra,
    Decode.run_modify, if_pos hpos, hread, hempty]
  rfl

/-- **The layout of a form area.** Reading succeeds, with one control for each record, in the order of
the records; the first of them is the main form. Each control has the name, the type and the attributes
that its record gives, and contains those controls whose records name its record as their parent, in the
order of their records. A file with such an area is given this layout. -/
theorem read_area {src : Source} {flags : Nat} {names : List String} {strings : Nat → Bytes}
    {records : List Record} (h : Area src flags names strings records) (hne : records ≠ []) :
    ∃ layout, read src = (layout, none) ∧
      layout.controls.length = records.length ∧
      List.Forall₂ (Control.IsOf names (flags.testBit 2) strings) (placed 0x20 records)
        layout.controls ∧
      (∀ index place, (placed 0x20 records)[index]? = some place →
        layout.members index = (List.range records.length).filter fun child =>
          records[child]?.any fun r => base + r.parent = place.1) ∧
      ∀ extra, src.natLE 0x14 2 = .ok extra → 0 < extra → ∀ pos s,
        Decode.formArea.run src pos s =
          (.ok (), pos, { s with headerSize := s.headerSize + extra, form := some layout }) := by
  obtain ⟨controls, links, hread, hcontrols, hlinks⟩ := h.read_eq
  have hlength := length_controls hcontrols
  have hne' : controls ≠ [] := by
    rwa [← List.length_pos_iff, hlength, List.length_pos_iff]
  refine ⟨⟨controls, links⟩, hread, hlength, hcontrols, fun index place hplace => ?_,
    fun extra hextra hpos pos s => run_formArea_of_read hread hne' hextra hpos pos s⟩
  exact h.members_eq hcontrols hlinks index hplace

/-! An area with a form that contains a frame that contains a timer, and with one byte too many behind
the records. -/

/-- The number of the type of forms. -/
def formNumber : Fin controlTypes.length :=
  ⟨0, by decide⟩

/-- The number of the type of frames. -/
def frameNumber : Fin controlTypes.length :=
  ⟨7, by decide⟩

/-- The number of the type of timers. -/
def timerNumber : Fin controlTypes.length :=
  ⟨15, by decide⟩

/-- The records of the sample. -/
def nestedRecords : List Record :=
  [⟨0, formNumber, [0, 0, 0x80, 0, 0, 0, 0, 0x77, 0, 0, 0, 0, 0, 5, 6, 7, 8, 0, 1, 4, 7, 0, 0x79, 0, 2,
      0, 0, 23, 78], rfl⟩,
    ⟨1, frameNumber, [0, 0, 1, 0, 0, 0x0A, 0, 0x77, 0, 0, 0, 0, 0, 1, 2, 3, 4, 0, 0, 7, 0, 0, 0x79, 0],
      rfl⟩,
    ⟨2, timerNumber, [0, 0, 3, 0, 0, 0x29, 0, 0x77, 0, 0xFE, 0xFF, 0, 0, 0xF6, 2, 0, 0, 0, 0, 0, 0, 0,
      0xFF, 0xFF, 0, 0], rfl⟩]

/-- The file of the sample, up to the end of its strings. -/
def nestedSource : Source :=
  .ofBytes (List.replicate 0x14 0 ++ [0x7D, 0, 4, 0, 0, 0, 0, 0, 0x60, 0, 0x56, 0] ++
    nestedRecords.flatMap Record.bytes ++ ([0] ++
    [1, 0, 0, 4, 0x4D, 0x61, 0x69, 0x6E] ++ [1, 0, 0, 3, 0x42, 0x6F, 0x78] ++
    [0, 0, 0, 4, 0x54, 0x69, 0x63, 0x6B] ++ [0, 0] ++ [2, 0, 0x48, 0x69]))

/-- The strings of the sample. -/
def nestedStrings (displacement : Nat) : Bytes :=
  if displacement = 0x79 then [0x48, 0x69] else []

theorem namesAt_nestedSource : NamesAt nestedSource (base + 0x60) ["Main", "Box", "Tick"] := by
  refine @NamesAt.cons _ _ 1 0 0 4 [0x4D, 0x61, 0x69, 0x6E] _ (by decide) (by decide) (by decide) ?_
  refine @NamesAt.cons _ _ 1 0 0 3 [0x42, 0x6F, 0x78] _ (by decide) (by decide) (by decide) ?_
  exact @NamesAt.last _ _ 0 4 [0x54, 0x69, 0x63, 0x6B] (by decide) (by decide)

theorem area_nestedSource :
    Area nestedSource 4 ["Main", "Box", "Tick"] nestedStrings nestedRecords := by
  have hheading : nestedSource.Holds base [4, 0, 0, 0, 0, 0, 0x60, 0, 0x56, 0] := by decide
  exact {
    flagsAt := hheading.natLE_eq (by decide) (by decide)
    namesAt := ⟨0x60, (hheading.drop (n := 6) (by decide)).natLE_eq (by decide) (by decide),
      namesAt_nestedSource⟩
    lengthAt := ⟨1, by decide, (hheading.drop (n := 8) (by decide)).natLE_eq (by decide) (by decide)⟩
    recordsAt := Source.holds_ofBytes ..
    stringsAt := by decide
    index_lt := by decide
    plain := by
      have hother : ∀ r ∈ nestedRecords, r.type.name ≠ menuName := by decide
      exact fun r hr hmenu => absurd hmenu (hother r hr)
    parent := by decide }

/-- The sample is read: a form, in it the frame, and in that the timer, with numbers of both signs. -/
theorem nestedSource_read :
    Area nestedSource 4 ["Main", "Box", "Tick"] nestedStrings nestedRecords ∧ nestedRecords ≠ [] ∧
      ∃ main frame timer links, read nestedSource = (⟨[main, frame, timer], links⟩, none) ∧
        (main.type, main.name) = ("MDIForm", "Main") ∧
        frame.value? "Caption" = some (.text [0x48, 0x69]) ∧
        timer.value? "Index" = some (.number .plain (-2)) ∧
        timer.value? "Interval" = some (.number .unsigned 0xFFFF) ∧
        Layout.members ⟨[main, frame, timer], links⟩ 0 = [1] ∧
        Layout.members ⟨[main, frame, timer], links⟩ 1 = [2] := by
  refine ⟨area_nestedSource, by decide, ?_⟩
  obtain ⟨⟨controls, links⟩, hread, -, hcontrols, hmembers, -⟩ :=
    read_area area_nestedSource (by decide)
  obtain ⟨main, _, hmain, hbehind, rfl⟩ := List.forall₂_cons_left_iff.mp hcontrols
  obtain ⟨frame, _, hframe, hlast, rfl⟩ := List.forall₂_cons_left_iff.mp hbehind
  obtain ⟨timer, _, htimer, hend, rfl⟩ := List.forall₂_cons_left_iff.mp hlast
  cases hend
  exact ⟨main, frame, timer, links, hread, Prod.ext hmain.type (Option.some.inj hmain.name).symm,
    hframe.value ("Caption", _) (List.mem_of_getElem? (i := 15) rfl),
    htimer.value ("Index", _) (List.mem_of_getElem? (i := 4) rfl),
    htimer.value ("Interval", _) (List.mem_of_getElem? (i := 7) rfl), hmembers 0 _ rfl, hmembers 1 _ rfl⟩

end SavedBasic.Form
