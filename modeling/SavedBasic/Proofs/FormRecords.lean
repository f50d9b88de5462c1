import Mathlib.Data.List.Forall2
import SavedBasic.Proofs.HeaderReads

/-!
# Records of controls

The form area of a file has one record for each control: the index of a name, the number of a type, and
the fields that a control of this type has, at fixed places. A field gives its bytes a meaning: some of
them are skipped, a word of flags gives an attribute for each of its bits, a number is read with or
without a sign, and a reference leads to a string that stands elsewhere.

`Record.settings` says what a record means by its own bytes alone. Reading goes over the file instead,
field after field, and away to the strings and back; then it adjusts what it has read. The two agree:
where records stand one behind the other, reading gives one control for each of them, which has the
attributes that its record means.
-/

namespace SavedBasic

/-! ## Reading inside bytes that stand in a file -/

theorem Bytes.toNatLE_lt (bytes : Bytes) : toNatLE bytes < Nat.pow 256 bytes.length := by
  induction bytes with
  | nil => exact Nat.zero_lt_one
  | cons b rest ih =>
    have hb := b.toNat_lt
    have hpow : Nat.pow 256 (b :: rest).length = Nat.pow 256 rest.length * 256 := rfl
    rw [toNatLE, hpow]
    omega

namespace Source

variable {src : Source} {pos : Nat} {bytes : Bytes}

theorem Holds.drop (h : src.Holds pos bytes) {n : Nat} (hn : n ≤ bytes.length) :
    src.Holds (pos + n) (bytes.drop n) := by
  rw [← List.take_append_drop n bytes, holds_append, List.length_take_of_le hn] at h
  exact h.2

theorem Holds.natLE_eq (h : src.Holds pos bytes) {width : Nat} (hw : 0 < width)
    (hle : width ≤ bytes.length) : src.natLE pos width = .ok (Bytes.toNatLE (bytes.take width)) := by
  obtain ⟨behind, hrest⟩ := h
  rw [Source.natLE_eq _ _ hw, ← hrest, if_pos (by rw [List.length_append]; omega),
    List.take_append_of_le_length hle]

instance (src : Source) (pos : Nat) (bytes : Bytes) : Decidable (src.Holds pos bytes) :=
  inferInstanceAs (Decidable (_ <+: _))

/-- A whole string stands in the source: a word with its length and its bytes. -/
def HoldsText (src : Source) (pos : Nat) (text : Bytes) : Prop :=
  text.length < 65536 ∧ src.Holds pos (Bytes.u16 text.length ++ text)

instance (src : Source) (pos : Nat) (text : Bytes) : Decidable (src.HoldsText pos text) :=
  inferInstanceAs (Decidable (_ ∧ _))

theorem HoldsText.packed {text : Bytes} (h : src.HoldsText pos text) :
    ∃ fin, src.packed pos = .ok (text, fin) := by
  obtain ⟨hlength, hholds⟩ := h
  obtain ⟨hword, htext⟩ := holds_append.mp hholds
  rw [Bytes.u16, Bytes.length_ofIntLE] at htext
  simp only [Source.packed, hword.natLE_u16 hlength, htext.slice_eq]
  exact ⟨_, rfl⟩

end Source

namespace Form

open Text

/-! ## Attributes of a control -/

namespace Control

/-- The value of the attribute of the given name. -/
def value? (c : Control) (name : String) : Option Value :=
  (c.attribute? name).map Attribute.value

theorem attribute?_set (c : Control) (name name' : String) (value : Value) :
    (c.set name value).attribute? name' =
      if name' = name then some ⟨name, value, true⟩ else c.attribute? name' := by
  rw [attribute?, set, List.find?_append]
  by_cases h : name' = name
  · subst h
    have hnone : (c.attributes.filter (·.name != name')).find? (·.name == name') = none :=
      List.find?_eq_none.mpr fun a ha => by simpa using (List.mem_filter.mp ha).2
    rw [hnone, if_pos rfl]
    simp
  · have hsame : (c.attributes.filter (·.name != name)).find? (·.name == name') =
        c.attribute? name' := by
      rw [List.find?_filter, attribute?]
      congr 1
      funext a
      by_cases ha : a.name = name' <;> simp [ha, h]
    rw [hsame, if_neg h]
    simp [Ne.symm h]

theorem value?_set (c : Control) (name name' : String) (value : Value) :
    (c.set name value).value? name' = if name' = name then some value else c.value? name' := by
  rw [value?, attribute?_set]
  split <;> rfl

/-- Hiding an attribute leaves its value. -/
@[simp] theorem value?_hide (c : Control) (name name' : String) :
    (c.hide name).value? name' = c.value? name' := by
  have hsame : (fun a : Attribute => a.name == name') ∘
      (fun a => if a.name == name then { a with shown := false } else a) =
        fun a => a.name == name' := by
    funext a
    dsimp only [Function.comp]
    split <;> rfl
  rw [value?, value?, attribute?, attribute?, hide, List.find?_map, hsame, Option.map_map]
  congr 1
  funext a
  dsimp only [Function.comp]
  split <;> rfl

/-- Gives a control attributes one after another. -/
def setAll (c : Control) (settings : List (String × Value)) : Control :=
  settings.foldl (fun c setting => c.set setting.1 setting.2) c

theorem setAll_append (c : Control) (a b : List (String × Value)) :
    c.setAll (a ++ b) = (c.setAll a).setAll b :=
  List.foldl_append

theorem setAll_map {α : Type} (c : Control) (f : α → String × Value) (l : List α) :
    c.setAll (l.map f) = l.foldl (fun c a => c.set (f a).1 (f a).2) c :=
  List.foldl_map

theorem value?_setAll_of_notMem (c : Control) {settings : List (String × Value)} {name : String}
    (h : name ∉ settings.map Prod.fst) : (c.setAll settings).value? name = c.value? name := by
  induction settings generalizing c with
  | nil => rfl
  | cons setting rest ih =>
    rw [List.map_cons, List.mem_cons, not_or] at h
    rw [setAll, List.foldl_cons, ← setAll, ih _ h.2, value?_set, if_neg h.1]

/-- Of attributes with different names each keeps the value that it was given. -/
theorem value?_setAll_of_mem (c : Control) {settings : List (String × Value)}
    (hnodup : (settings.map Prod.fst).Nodup) {setting : String × Value} (h : setting ∈ settings) :
    (c.setAll settings).value? setting.1 = some setting.2 := by
  induction settings generalizing c with
  | nil => cases h
  | cons first rest ih =>
    rw [List.map_cons, List.nodup_cons] at hnodup
    rw [setAll, List.foldl_cons, ← setAll]
    rcases List.mem_cons.mp h with rfl | hrest
    · rw [value?_setAll_of_notMem _ hnodup.1, value?_set, if_pos rfl]
    · exact ih _ hnodup.2 hrest

/-- An attribute that was not there before has been given. -/
theorem mem_of_value?_setAll {c : Control} {settings : List (String × Value)}
    (hnodup : (settings.map Prod.fst).Nodup) {name : String} {value : Value}
    (hc : c.value? name = none) (h : (c.setAll settings).value? name = some value) :
    (name, value) ∈ settings := by
  by_cases hname : name ∈ settings.map Prod.fst
  · obtain ⟨setting, hsetting, rfl⟩ := List.mem_map.mp hname
    rw [value?_setAll_of_mem c hnodup hsetting] at h
    cases h
    exact hsetting
  · rw [value?_setAll_of_notMem c hname, hc] at h
    cases h

/-- What a control is, its attributes apart: the place of its record, its name and its type. -/
def head (c : Control) : Nat × String × String :=
  (c.offset, c.name, c.type)

theorem head_setAll (c : Control) (settings : List (String × Value)) :
    (c.setAll settings).head = c.head := by
  induction settings generalizing c with
  | nil => rfl
  | cons setting rest ih =>
    rw [setAll, List.foldl_cons, ← setAll, ih]
    rfl

end Control

/-! ## Adjustments -/

namespace Control

/-- The attributes that the state of a window determines. -/
def areaNames : List String :=
  ["Left", "Top", "Height", "Width"]

theorem value?_adjustArea {c : Control} {name : String}
    (h : c.value? "WindowState" = none ∨ name ∉ areaNames) :
    c.adjustArea.value? name = c.value? name := by
  rcases h with hstate | hname
  · have hnone : c.number? "WindowState" = none := by
      rw [value?] at hstate
      rw [number?, hstate]
    rw [adjustArea, hnone]
  · have harea : ∀ left top height width : Int,
        ((((c.setChar "Left" left).setChar "Top" top).setChar "Height" height).setChar "Width"
          width).value? name = c.value? name := by
      simp only [areaNames, List.mem_cons, List.not_mem_nil, or_false, not_or] at hname
      obtain ⟨hleft, htop, hheight, hwidth⟩ := hname
      intro left top height width
      simp only [setChar, value?_set, hleft, htop, hheight, hwidth, if_false]
    rw [adjustArea]
    split <;> first | exact harea .. | rfl

theorem value?_adjustIndex (c : Control) (name : String) :
    c.adjustIndex.value? name = c.value? name := by
  rw [adjustIndex]
  split
  · rw [value?_hide]
  · rfl

theorem value?_adjustState (c : Control) (name : String) :
    c.adjustState.value? name = c.value? name := by
  rw [adjustState]
  split
  · rw [value?_hide]
  · rfl

theorem head_adjusted (c : Control) : c.adjustArea.adjustIndex.adjustState.head = c.head := by
  have harea : c.adjustArea.head = c.head := by
    rw [adjustArea]
    split <;> rfl
  rw [← harea, adjustState, adjustIndex]
  split <;> split <;> rfl

/-- A menu whose caption has no tabulator is left as it is, and so is any other control. -/
theorem adjustCaption_of_notMem {c : Control}
    (h : c.type = menuName → ∀ caption, c.value? "Caption" = some (.text caption) → tab ∉ caption) :
    c.adjustCaption = .ok c := by
  rw [adjustCaption]
  split
  · rename_i caption hmenu hcaption
    rw [if_neg (h (eq_of_beq hmenu) caption hcaption)]
  · rfl

/-- Adjusting a control without a shortcut succeeds. Nothing but the area of a form changes its
value. -/
theorem adjust_of_notMem {c : Control}
    (h : c.type = menuName → ∀ caption, c.value? "Caption" = some (.text caption) → tab ∉ caption) :
    ∃ c', c.adjust = .ok c' ∧ c'.head = c.head ∧
      ∀ name, c.value? "WindowState" = none ∨ name ∉ areaNames → c'.value? name = c.value? name := by
  have hvalue : ∀ name, c.value? "WindowState" = none ∨ name ∉ areaNames →
      c.adjustArea.adjustIndex.adjustState.value? name = c.value? name := by
    intro name hname
    rw [value?_adjustState, value?_adjustIndex, value?_adjustArea hname]
  have hhead := head_adjusted c
  refine ⟨_, adjustCaption_of_notMem fun hmenu caption hcaption => ?_, hhead, hvalue⟩
  have htype : c.adjustArea.adjustIndex.adjustState.type = c.type :=
    congrArg (fun head => head.2.2) hhead
  rw [hvalue "Caption" (.inr (by decide))] at hcaption
  exact h (htype ▸ hmenu) caption hcaption

end Control

/-! ## Fields -/

/-- The number of bytes of a field. -/
def Field.size : Field → Nat
  | .skip count => count
  | .flags _ => 2
  | .number width _ _ => width
  | .text _ => 2

/-- The names of the attributes that a field gives. -/
def Field.names : Field → List String
  | .skip _ => []
  | .flags bits => bits.map Prod.snd
  | .number _ _ name => [name]
  | .text name => [name]

/-- The number that a field stores: in two's complement, unless it is one without sign. -/
def storedNumber (width : Nat) (kind : NumberKind) (n : Nat) : Int :=
  if kind = .unsigned then n else (BitVec.ofNat (8 * width) n).toInt

/-- The attributes that a field gives by the bytes from it on. The strings that can be referred to are
given by their displacements. -/
def Field.settings (strings : Nat → Bytes) (bytes : Bytes) : Field → List (String × Value)
  | .skip _ => []
  | .flags bits =>
    bits.map fun flag =>
      (flag.2, .number .plain (if (Bytes.toNatLE (bytes.take 2)).testBit flag.1 then -1 else 0))
  | .number width kind name =>
    [(name, .number kind (storedNumber width kind (Bytes.toNatLE (bytes.take width))))]
  | .text name => [(name, .text (strings (Bytes.toNatLE (bytes.take 2))))]

/-- The attributes that fields give which stand one behind the other. -/
def settings (strings : Nat → Bytes) : Bytes → List Field → List (String × Value)
  | _, [] => []
  | bytes, field :: rest => field.settings strings bytes ++ settings strings (bytes.drop field.size) rest

/-- The displacements of the strings that fields refer to. -/
def references : Bytes → List Field → List Nat
  | _, [] => []
  | bytes, .text _ :: rest => Bytes.toNatLE (bytes.take 2) :: references (bytes.drop 2) rest
  | bytes, field :: rest => references (bytes.drop field.size) rest

/-- The number of bytes of fields that stand one behind the other. -/
def fieldsSize : List Field → Nat
  | [] => 0
  | field :: rest => field.size + fieldsSize rest

theorem map_fst_settings (strings : Nat → Bytes) (bytes : Bytes) (fields : List Field) :
    (settings strings bytes fields).map Prod.fst = fields.flatMap Field.names := by
  induction fields generalizing bytes with
  | nil => rfl
  | cons field rest ih =>
    rw [settings, List.map_append, ih, List.flatMap_cons]
    congr 1
    cases field <;> simp [Field.settings, Field.names, Function.comp_def]

theorem signedValue_eq {width n : Nat} (hw : 0 < width) (hn : n < Nat.pow 256 width) :
    signedValue width n = (BitVec.ofNat (8 * width) n).toInt := by
  have hpow : Nat.pow 256 width = 2 ^ (8 * width) := by
    rw [Nat.pow_mul]
    rfl
  have hhalf : 2 ^ (8 * width) = 2 * Nat.pow 2 (8 * width - 1) := by
    rw [Nat.pow_eq, ← Nat.pow_succ']
    congr 1
    omega
  have htoNat : (BitVec.ofNat (8 * width) n).toNat = n := by
    rw [BitVec.toNat_ofNat, Nat.mod_eq_of_lt (hpow ▸ hn)]
  rw [signedValue, BitVec.toInt_eq_toNat_cond, htoNat, hhalf]
  by_cases h : n < Nat.pow 2 (8 * width - 1)
  · rw [if_pos h, if_pos (by omega)]
  · rw [if_neg h, if_neg (by omega), ← hhalf]
    rfl

/-- Where the bytes of a record stand, reading its fields gives what they mean. -/
theorem readFields_eq {src : Source} {strings : Nat → Bytes} {pos : Nat} {bytes : Bytes}
    {fields : List Field} (hbytes : src.Holds pos bytes) (hsize : fieldsSize fields ≤ bytes.length)
    (hsized : ∀ field ∈ fields, field.isSized = true)
    (hstrings : ∀ displacement ∈ references bytes fields,
      src.HoldsText (base + displacement) (strings displacement)) (c : Control) :
    readFields src pos fields c = .ok (c.setAll (settings strings bytes fields)) := by
  induction fields generalizing pos bytes c with
  | nil => rfl
  | cons field rest ih =>
    rw [fieldsSize] at hsize
    rw [List.forall_mem_cons] at hsized
    have hrest : src.Holds (pos + field.size) (bytes.drop field.size) := hbytes.drop (by omega)
    have hsize' : fieldsSize rest ≤ (bytes.drop field.size).length := by
      rw [List.length_drop]
      omega
    rw [settings, Control.setAll_append]
    cases field with
    | skip count => exact ih hrest hsize' hsized.2 hstrings c
    | flags bits =>
      have hword : src.natLE pos 2 = .ok _ :=
        hbytes.natLE_eq (by decide) (by rw [Field.size] at hsize; omega)
      rw [readFields, hword, Field.settings, Control.setAll_map]
      exact ih hrest hsize' hsized.2 hstrings _
    | number width kind name =>
      have hw : 0 < width := of_decide_eq_true hsized.1
      have hle : width ≤ bytes.length := by rw [Field.size] at hsize; omega
      have hlt : Bytes.toNatLE (bytes.take width) < Nat.pow 256 width := by
        have := Bytes.toNatLE_lt (bytes.take width)
        rwa [List.length_take_of_le hle] at this
      rw [readFields, hbytes.natLE_eq hw hle]
      dsimp only [bind, Except.bind]
      rw [signedValue_eq hw hlt]
      exact ih hrest hsize' hsized.2 hstrings _
    | text name =>
      rw [references, List.forall_mem_cons] at hstrings
      have hword : src.natLE pos 2 = .ok _ :=
        hbytes.natLE_eq (by decide) (by rw [Field.size] at hsize; omega)
      obtain ⟨fin, htext⟩ := hstrings.1.packed
      rw [readFields, hword]
      dsimp only [bind, Except.bind]
      rw [htext]
      exact ih hrest hsize' hsized.2 hstrings.2 _

/-! ## Records -/

/-- A record as it is stored: the index of a name, the number of a type, and as many bytes behind them
as a record of this type has. -/
structure Record where
  /-- the index of the name -/
  index : UInt8
  /-- the number of the type -/
  number : Fin controlTypes.length
  /-- the bytes of the fields -/
  payload : Bytes
  /-- the record is as long as its type says -/
  length_payload : payload.length + 2 = (controlTypes.get number).length

namespace Record

/-- The type of the control. -/
def type (r : Record) : ControlType :=
  controlTypes.get r.number

/-- The bytes of a record. -/
def bytes (r : Record) : Bytes :=
  [r.index, UInt8.ofNat r.number] ++ r.payload

/-- The attributes that a record gives. -/
def settings (strings : Nat → Bytes) (r : Record) : List (String × Value) :=
  Form.settings strings r.payload r.type.fields

/-- The displacements of the strings that a record refers to. -/
def references (r : Record) : List Nat :=
  Form.references r.payload r.type.fields

/-- The name of the type; a form in an area with the flag for it contains other forms. -/
def typeName (mdi : Bool) (r : Record) : String :=
  if r.type.name = formName ∧ mdi then mdiFormName else r.type.name

theorem type_mem (r : Record) : r.type ∈ controlTypes :=
  List.get_mem _ _

theorem map_fst_settings (strings : Nat → Bytes) (r : Record) :
    (r.settings strings).map Prod.fst = r.type.fields.flatMap Field.names :=
  Form.map_fst_settings ..

theorem type_name_of_typeName {mdi : Bool} {r : Record} (h : r.typeName mdi = menuName) :
    r.type.name = menuName := by
  unfold typeName at h
  split at h
  · exact absurd h (by decide)
  · exact h

theorem length_bytes (r : Record) : r.bytes.length = r.type.length := by
  rw [bytes, List.length_append, type, ← length_payload]
  exact Nat.add_comm _ _

end Record

/-- The fields of all types fit into their records behind the first two bytes. -/
theorem fieldsSize_le_of_mem_controlTypes :
    ∀ type ∈ controlTypes, fieldsSize type.fields + 2 ≤ type.length := by
  decide

/-- No record is so short that it could be taken for bytes behind the last one. -/
theorem long_of_mem_controlTypes : ∀ type ∈ controlTypes, 2 < type.length := by
  decide

/-- In no type do two attributes have the same name. -/
theorem nodup_names_of_mem_controlTypes :
    ∀ type ∈ controlTypes, (type.fields.flatMap Field.names).Nodup := by
  decide

/-- A type with a state of the window has no area of its own among its fields. -/
theorem area_of_mem_controlTypes :
    ∀ type ∈ controlTypes, "WindowState" ∉ type.fields.flatMap Field.names ∨
      ∀ name ∈ type.fields.flatMap Field.names, name ∉ Control.areaNames := by
  decide

/-- No record of a menu has a caption with a shortcut. -/
def Record.Plain (strings : Nat → Bytes) (r : Record) : Prop :=
  r.type.name = menuName → ∀ caption, ("Caption", .text caption) ∈ r.settings strings →
    Control.tab ∉ caption

/-- A control is the one of a record at a position: it has the name and the type of the record and all
attributes that the record gives. -/
structure Control.IsOf (names : List String) (mdi : Bool) (strings : Nat → Bytes)
    (place : Nat × Record) (c : Control) : Prop where
  offset : c.offset = place.1
  name : names[place.2.index.toNat]? = some c.name
  type : c.type = place.2.typeName mdi
  value : ∀ setting ∈ place.2.settings strings, c.value? setting.1 = some setting.2

section

variable {src : Source} {names : List String} {mdi : Bool} {strings : Nat → Bytes} {pos : Nat}

theorem recordHead?_eq {r : Record} (hbytes : src.Holds pos r.bytes)
    (hindex : r.index.toNat < names.length) :
    recordHead? src names pos = some (names[r.index.toNat], r.type) := by
  have hlt : r.number.val < 256 := Nat.lt_trans r.number.isLt (by decide)
  have hfirst : src.natLE pos 1 = .ok r.index.toNat :=
    hbytes.natLE_eq (by decide) (Nat.le_add_left _ _)
  have hsecond : src.natLE (pos + 1) 1 = .ok r.number.val := by
    have h := (hbytes.drop (n := 1) (Nat.le_add_left _ _)).natLE_eq (by decide) (Nat.le_add_left _ _)
    rw [h]
    change Except.ok ((UInt8.ofNat r.number.val).toNat) = _
    rw [UInt8.toNat_ofNat_of_lt' hlt]
  have htype : controlTypes[r.number.val]? = some r.type := List.getElem?_eq_getElem r.number.isLt
  have hname : names[r.index.toNat]? = some names[r.index.toNat] := List.getElem?_eq_getElem hindex
  rw [recordHead?, hfirst, hsecond]
  simp only [htype, hname]

/-- The fields of one record are read and adjusted. -/
theorem exists_control (mdi : Bool) {r : Record} (hbytes : src.Holds pos r.bytes)
    (hindex : r.index.toNat < names.length)
    (hstrings : ∀ displacement ∈ r.references,
      src.HoldsText (base + displacement) (strings displacement))
    (hplain : r.Plain strings) :
    ∃ c c', readFields src (pos + 2) r.type.fields
        ⟨pos, names[r.index.toNat], r.typeName mdi, []⟩ = .ok c ∧
      c.adjust = .ok c' ∧ c'.IsOf names mdi strings (pos, r) := by
  have hpayload : src.Holds (pos + 2) r.payload := (Source.holds_append.mp hbytes).2
  have hsize : fieldsSize r.type.fields ≤ r.payload.length := by
    have hfits := fieldsSize_le_of_mem_controlTypes r.type r.type_mem
    have hlength := r.length_payload
    rw [← Record.type] at hlength
    omega
  have hnodup : ((r.settings strings).map Prod.fst).Nodup := by
    rw [r.map_fst_settings]
    exact nodup_names_of_mem_controlTypes r.type r.type_mem
  have hread := readFields_eq hpayload hsize (isSized_of_mem_controlTypes r.type r.type_mem) hstrings
    ⟨pos, names[r.index.toNat], r.typeName mdi, []⟩
  rw [← Record.settings] at hread
  generalize hstart : Control.mk pos names[r.index.toNat] (r.typeName mdi) [] = start at hread
  have hempty : ∀ name, start.value? name = none := fun name => hstart ▸ rfl
  have hhead := Control.head_setAll start (r.settings strings)
  have htype : (start.setAll (r.settings strings)).type = r.typeName mdi := by
    rw [← hstart] at hhead ⊢
    exact congrArg (fun head => head.2.2) hhead
  obtain ⟨c', hadjust, hhead', hvalue⟩ :=
    Control.adjust_of_notMem (c := start.setAll (r.settings strings)) fun hmenu caption hcaption =>
      hplain (Record.type_name_of_typeName (htype ▸ hmenu)) caption
        (Control.mem_of_value?_setAll hnodup (hempty _) hcaption)
  rw [hhead, ← hstart] at hhead'
  have hname : names[r.index.toNat]? = some names[r.index.toNat] := List.getElem?_eq_getElem hindex
  refine ⟨_, c', hread, hadjust, congrArg Prod.fst hhead', ?_,
    congrArg (fun head => head.2.2) hhead', fun setting hsetting => ?_⟩
  · rw [hname]
    exact congrArg (fun head => some head.2.1) hhead'.symm
  · rw [hvalue, Control.value?_setAll_of_mem start hnodup hsetting]
    -- the area that is adjusted is not among the attributes of a type that has it adjusted
    have hmem : setting.1 ∈ r.type.fields.flatMap Field.names := by
      rw [← r.map_fst_settings strings]
      exact List.mem_map_of_mem hsetting
    refine (area_of_mem_controlTypes r.type r.type_mem).imp (fun hstate => ?_) fun harea => ?_
    · rw [← r.map_fst_settings strings] at hstate
      rw [Control.value?_setAll_of_notMem start hstate, hempty]
    · exact harea _ hmem

/-- Records with their positions, where they stand one behind the other. -/
def placed : (pos : Nat) → List Record → List (Nat × Record)
  | _, [] => []
  | pos, r :: rest => (pos, r) :: placed (pos + r.bytes.length) rest

/-- Where records stand one behind the other, with at most two bytes behind the last of them, reading
gives one control for each of them. -/
theorem readControls_records {records : List Record} {limit : Nat}
    (hbytes : src.Holds pos (records.flatMap Record.bytes))
    (hlimit : pos + (records.flatMap Record.bytes).length ≤ limit)
    (hextra : limit ≤ pos + (records.flatMap Record.bytes).length + 2)
    (hindex : ∀ r ∈ records, r.index.toNat < names.length)
    (hstrings : ∀ r ∈ records, ∀ displacement ∈ r.references,
      src.HoldsText (base + displacement) (strings displacement))
    (hplain : ∀ r ∈ records, r.Plain strings) :
    ∃ controls, readControls src names mdi limit pos = (controls, none) ∧
      List.Forall₂ (fun place c => Control.IsOf names mdi strings place c) (placed pos records)
        controls := by
  induction records generalizing pos with
  | nil =>
    rw [List.flatMap_nil, List.length_nil] at hextra
    rw [readControls, if_neg (by omega)]
    exact ⟨[], rfl, .nil⟩
  | cons r rest ih =>
    rw [List.flatMap_cons, Source.holds_append] at hbytes
    rw [List.flatMap_cons, List.length_append] at hlimit hextra
    rw [List.forall_mem_cons] at hindex hstrings hplain
    have hlength := r.length_bytes
    have hlong : 2 < r.type.length := long_of_mem_controlTypes r.type r.type_mem
    obtain ⟨c, c', hread, hadjust, hcontrol⟩ :=
      exists_control mdi hbytes.1 hindex.1 hstrings.1 hplain.1
    obtain ⟨controls, hcontrols, hall⟩ :=
      ih hbytes.2 (by omega) (by omega) hindex.2 hstrings.2 hplain.2
    rw [readControls, if_pos (by omega), recordHead?_eq hbytes.1 hindex.1]
    dsimp only
    rw [if_neg (by omega), ← Record.typeName, hread]
    dsimp only
    rw [hadjust, ← hlength, hcontrols]
    exact ⟨c' :: controls, rfl, .cons hcontrol hall⟩

end

end Form

end SavedBasic
