import SavedBasic.Proofs.Container
import SavedBasic.Proofs.Reachable

/-!
# Names that were written are found

A program under construction keeps its names in an identifier table: a name that is new is written
behind the others, a name that is there already keeps its offset. The decoder knows nothing of this
table but its bytes. It takes an offset, reads a flag, a length and a name there, and remembers the
name for the next time.

What carries the argument is that the table only grows. An entry, once written, stays where it is
(`SymbolArea.Grows`), every entry stands whole at the offset of its name, and no two of them share a
byte (`SymbolArea.Sound`). So the offset of a name may be used from the call that gave it to the end,
and in the file it leads to an entry that reads as the name.
-/

namespace SavedBasic

open Text Decode

/-! ## Entries -/

/-- A key can be written, and this is the name it stands for: a text of the code page or a byte string
of at most 255 bytes, or a number of two bytes. -/
inductive Key.Spells : Key → Name → Prop where
  | text {t : String} {b : Bytes} (h : CodePage.encode t = .ok b) (hlength : b.length ≤ 255) :
    Spells (.text t) (.bytes b)
  | bytes {b : Bytes} (hlength : b.length ≤ 255) : Spells (.bytes b) (.bytes b)
  | number {n : Nat} (h : n ≤ 65535) : Spells (.number n) (.number n)

/-- The entry of a name: flags and a length in front of the name itself. -/
inductive Name.HasEntry : Name → Bytes → Prop where
  | bytes {b : Bytes} (hlength : b.length ≤ 255) : HasEntry (.bytes b) (Key.namedEntry b)
  | number {n : Nat} (h : n ≤ 65535) : HasEntry (.number n) ([0, 0, 2, 2] ++ Bytes.u16 n)

theorem Key.Spells.entry {key : Key} {name : Name} (h : key.Spells name) :
    ∃ entry, key.entry = .ok entry ∧ name.HasEntry entry := by
  cases h with
  | text h hlength => exact ⟨_, by rw [Key.entry, h]; rfl, .bytes hlength⟩
  | bytes hlength => exact ⟨_, rfl, .bytes hlength⟩
  | number h => exact ⟨_, rfl, .number h⟩

namespace SymbolTable

/-- An entry reads as its name. A name of two bytes is not taken for a number: its flag is not set. -/
theorem entryAt_of_holds {src : Source} {pos : Nat} {name : Name} {entry : Bytes}
    (hentry : name.HasEntry entry) (h : src.Holds pos entry) : entryAt src pos = .ok name := by
  cases hentry with
  | @bytes b hlength =>
    have hparts : Key.namedEntry b =
        [0, 0] ++ Bytes.ofNatLE 1 0 ++ Bytes.ofIntLE 1 b.length ++ b ++
          List.replicate (b.length % 2) 0 := rfl
    rw [hparts] at h
    simp only [Source.holds_append, List.length_append, Bytes.length_ofNatLE, Bytes.length_ofIntLE,
      List.length_cons, List.length_nil] at h
    obtain ⟨⟨⟨⟨-, hflags⟩, hcount⟩, hname⟩, -⟩ := h
    have hflags' : src.natLE (pos + 2) 1 = .ok 0 := hflags.natLE_ofNatLE (by decide)
    have hcount' : src.natLE (pos + 3) 1 = .ok b.length :=
      hcount.natLE_ofIntLE (by decide) (Nat.lt_succ_of_le hlength)
    have hname' : src.slice (pos + 4) b.length = b := hname.slice_eq
    simp [entryAt, hflags', hcount', hname', bind, Except.bind, pure, Except.pure]
  | @number n hn =>
    have hparts : [0, 0, 2, 2] ++ Bytes.u16 n =
        [0, 0] ++ Bytes.ofNatLE 1 2 ++ Bytes.ofNatLE 1 2 ++ Bytes.u16 n := rfl
    rw [hparts] at h
    simp only [Source.holds_append, List.length_append, Bytes.length_ofNatLE, List.length_cons,
      List.length_nil] at h
    obtain ⟨⟨⟨-, hflags⟩, hcount⟩, hnumber⟩ := h
    have hflags' : src.natLE (pos + 2) 1 = .ok 2 := hflags.natLE_ofNatLE (by decide)
    have hcount' : src.natLE (pos + 3) 1 = .ok 2 := hcount.natLE_ofNatLE (by decide)
    have hnumber' : src.natLE (pos + 4) 2 = .ok n := hnumber.natLE_u16 (Nat.lt_succ_of_le hn)
    simp [entryAt, hflags', hcount', hnumber', numberFlag, bind, Except.bind, pure, Except.pure]

end SymbolTable

/-! ## The table while it is written -/

namespace SymbolArea

/-- The offset that a name has in the table. -/
def offset? (area : SymbolArea) (key : Key) : Option Nat :=
  area.offsets.lookup key

/-- The offset of a name that is in the table. -/
def offsetOf (area : SymbolArea) (key : Key) : Nat :=
  (area.offset? key).getD 0

/-- An entry stands in the table at an offset. -/
def StandsAt (area : SymbolArea) (entry : Bytes) (offset : Nat) : Prop :=
  ∃ before behind, area.bytes = before ++ entry ++ behind ∧ before.length = offset

/-- Every name has its entry at its offset, and the entries do not overlap. -/
structure Sound (area : SymbolArea) : Prop where
  stands : ∀ {key offset}, area.offset? key = some offset →
    ∃ entry, key.entry = .ok entry ∧ area.StandsAt entry offset
  apart : ∀ {key key' offset offset' entry entry'}, key ≠ key' → area.offset? key = some offset →
    area.offset? key' = some offset' → key.entry = .ok entry → key'.entry = .ok entry' →
    offset + entry.length ≤ offset' ∨ offset' + entry'.length ≤ offset

/-- Everything that was in the table is still there, at the same place. -/
structure Grows (area area' : SymbolArea) : Prop where
  bytes : area.bytes <+: area'.bytes
  offset? : ∀ {key offset}, area.offset? key = some offset → area'.offset? key = some offset

theorem StandsAt.le {area : SymbolArea} {entry : Bytes} {offset : Nat}
    (h : area.StandsAt entry offset) : offset + entry.length ≤ area.bytes.length := by
  obtain ⟨before, behind, hbytes, rfl⟩ := h
  simp only [hbytes, List.length_append]
  omega

theorem StandsAt.mono {area area' : SymbolArea} {entry : Bytes} {offset : Nat}
    (h : area.StandsAt entry offset) (hbytes : area.bytes <+: area'.bytes) :
    area'.StandsAt entry offset := by
  obtain ⟨before, behind, hold, hlength⟩ := h
  obtain ⟨more, hnew⟩ := hbytes
  exact ⟨before, behind ++ more, by rw [← hnew, hold, List.append_assoc], hlength⟩

theorem sound_empty : Sound {} := ⟨nofun, fun _ => nofun⟩

theorem Grows.refl (area : SymbolArea) : area.Grows area := ⟨List.prefix_refl _, id⟩

theorem Grows.trans {area₁ area₂ area₃ : SymbolArea} (h : area₁.Grows area₂) (h' : area₂.Grows area₃) :
    area₁.Grows area₃ :=
  ⟨List.IsPrefix.trans h.bytes h'.bytes, fun hkey => h'.offset? (h.offset? hkey)⟩

/-- A name that is there already keeps its offset, and nothing is written. -/
theorem add_of_offset? {area : SymbolArea} {key : Key} {offset : Nat}
    (h : area.offset? key = some offset) : area.add key = .ok (offset, area) := by
  rw [offset?] at h
  rw [add, h]

/-- The table with a new name behind the others. -/
def append (area : SymbolArea) (key : Key) (entry : Bytes) : SymbolArea where
  bytes := area.bytes ++ entry
  offsets := (key, area.bytes.length) :: area.offsets

theorem add_of_new {area : SymbolArea} {key : Key} {entry : Bytes} (h : area.offset? key = none)
    (hentry : key.entry = .ok entry) :
    area.add key = .ok (area.bytes.length, area.append key entry) := by
  rw [offset?] at h
  rw [add, h, hentry]
  rfl

theorem offset?_append (area : SymbolArea) (key : Key) (entry : Bytes) (key' : Key) :
    (area.append key entry).offset? key' =
      if key' = key then some area.bytes.length else area.offset? key' := by
  rw [offset?, append, List.lookup_cons]
  by_cases h : key' = key
  · simp [h]
  · simp [h, offset?, beq_eq_false_iff_ne.mpr h]

theorem grows_append {area : SymbolArea} {key : Key} (h : area.offset? key = none) (entry : Bytes) :
    area.Grows (area.append key entry) := by
  refine ⟨List.prefix_append _ _, fun {key' offset} hkey' => ?_⟩
  have hne : key' ≠ key := by
    rintro rfl
    rw [h] at hkey'
    cases hkey'
  rw [offset?_append, if_neg hne, hkey']

/-- A new entry lies behind all others. -/
theorem Sound.append {area : SymbolArea} (hsound : area.Sound) {key : Key} {entry : Bytes}
    (h : area.offset? key = none) (hentry : key.entry = .ok entry) :
    (area.append key entry).Sound := by
  have hend : ∀ {key' offset' entry'}, area.offset? key' = some offset' →
      key'.entry = .ok entry' → offset' + entry'.length ≤ area.bytes.length := by
    intro key' offset' entry' hkey' hentry'
    obtain ⟨found, hfound, hstands⟩ := hsound.stands hkey'
    cases hentry'.symm.trans hfound
    exact hstands.le
  constructor
  · intro key' offset' hkey'
    rw [offset?_append] at hkey'
    split at hkey'
    · subst key'
      cases hkey'
      exact ⟨entry, hentry, area.bytes, [], by rw [List.append_nil]; rfl, rfl⟩
    · obtain ⟨entry', hentry', hstands⟩ := hsound.stands hkey'
      exact ⟨entry', hentry', hstands.mono (grows_append h entry).bytes⟩
  · intro key₁ key₂ offset₁ offset₂ entry₁ entry₂ hne h₁ h₂ hentry₁ hentry₂
    rw [offset?_append] at h₁ h₂
    split at h₁
    · cases h₁
      rw [if_neg (by rintro rfl; exact hne ‹_›)] at h₂
      exact .inr (hend h₂ hentry₂)
    · split at h₂
      · cases h₂
        exact .inl (hend h₁ hentry₁)
      · exact hsound.apart hne h₁ h₂ hentry₁ hentry₂

/-- One call: the name is in the table afterwards, at the offset that the call gives, and nothing else
has changed its place. -/
theorem add_spells {area : SymbolArea} (hsound : area.Sound) {key : Key} {name : Name}
    (hkey : key.Spells name) :
    ∃ offset area', area.add key = .ok (offset, area') ∧ area'.offset? key = some offset ∧
      area.Grows area' ∧ area'.Sound := by
  obtain ⟨entry, hentry, -⟩ := hkey.entry
  rcases h : area.offset? key with _ | offset
  · refine ⟨_, _, add_of_new h hentry, ?_, grows_append h entry, hsound.append h hentry⟩
    rw [offset?_append, if_pos rfl]
  · exact ⟨offset, area, add_of_offset? h, h, .refl area, hsound⟩

/-- Finds or adds names one after another. Gives the offset of each. -/
def addAll (area : SymbolArea) : List Key → Except Fault (List Nat × SymbolArea)
  | [] => .ok ([], area)
  | key :: rest =>
    (area.add key).bind fun first => (first.2.addAll rest).map fun more => (first.1 :: more.1, more.2)

/-- Calls one after another: all names are in the table afterwards, each at the offset that its calls
have given. -/
theorem addAll_spells {area : SymbolArea} (hsound : area.Sound) {keys : List Key}
    (hkeys : ∀ key ∈ keys, ∃ name, key.Spells name) :
    ∃ offsets area', area.addAll keys = .ok (offsets, area') ∧
      keys.map area'.offset? = offsets.map some ∧ area.Grows area' ∧ area'.Sound := by
  induction keys generalizing area with
  | nil => exact ⟨[], area, rfl, rfl, .refl area, hsound⟩
  | cons key rest ih =>
    obtain ⟨⟨name, hkey⟩, hrest⟩ := List.forall_mem_cons.mp hkeys
    obtain ⟨offset, area₁, hadd, hoffset, hgrows, hsound₁⟩ := add_spells hsound hkey
    obtain ⟨offsets, area₂, haddAll, hoffsets, hgrows', hsound₂⟩ := ih hsound₁ hrest
    refine ⟨offset :: offsets, area₂, ?_, ?_, hgrows.trans hgrows', hsound₂⟩
    · simp only [addAll, hadd, Except.bind, haddAll, Except.map]
    · rw [List.map_cons, List.map_cons, hgrows'.offset? hoffset, hoffsets]

/-- Offsets that were given stay the offsets of their names. -/
theorem Grows.map_offset? {area area' : SymbolArea} (h : area.Grows area') {keys : List Key}
    {offsets : List Nat} (hoffsets : keys.map area.offset? = offsets.map some) :
    keys.map area'.offset? = offsets.map some := by
  rw [← hoffsets]
  apply List.map_congr_left
  intro key hkey
  have hmem : area.offset? key ∈ offsets.map some := hoffsets ▸ List.mem_map_of_mem hkey
  obtain ⟨offset, -, hoffset⟩ := List.mem_map.mp hmem
  rw [← hoffset, h.offset? hoffset.symm]

theorem eq_map_offsetOf {area : SymbolArea} {keys : List Key} {offsets : List Nat}
    (h : keys.map area.offset? = offsets.map some) :
    offsets = keys.map area.offsetOf ∧ ∀ key ∈ keys, area.offset? key = some (area.offsetOf key) := by
  constructor
  · have hget := congrArg (List.map fun found : Option Nat => found.getD 0) h
    rw [List.map_map, List.map_map] at hget
    exact (hget.trans (List.map_id _)).symm
  · intro key hkey
    have hmem : area.offset? key ∈ offsets.map some := h ▸ List.mem_map_of_mem hkey
    obtain ⟨offset, -, hoffset⟩ := List.mem_map.mp hmem
    rw [offsetOf, ← hoffset, Option.getD_some]

theorem addAll_append (area : SymbolArea) (before behind : List Key) :
    area.addAll (before ++ behind) =
      (area.addAll before).bind fun first =>
        (first.2.addAll behind).map fun more => (first.1 ++ more.1, more.2) := by
  induction before generalizing area with
  | nil =>
    simp only [List.nil_append, addAll, Except.bind]
    cases area.addAll behind <;> rfl
  | cons key before ih =>
    simp only [List.cons_append, addAll]
    rcases area.add key with fault | first
    · rfl
    · simp only [Except.bind, ih]
      rcases first.2.addAll before with fault | second
      · rfl
      · simp only [Except.map]
        cases second.2.addAll behind <;> rfl

end SymbolArea

/-! ## The table in the file -/

namespace Draft

/-- The entries of a draft stand in its file behind the header. -/
theorem holds_entry {d : Draft} {entry : Bytes} {offset : Nat}
    (h : d.symbols.StandsAt entry offset) : d.source.Holds (d.headerSize + offset) entry := by
  obtain ⟨before, behind, hbytes, rfl⟩ := h
  have hsize := d.two_le_headerSize
  have hopening := d.holds_opening
  simp only [opening, counted, hbytes, Source.holds_append, List.length_append, length_header,
    length_u16] at hopening
  obtain ⟨⟨-, -, ⟨-, hentry⟩, -⟩, -⟩ := hopening
  have hpos : 0 + (d.headerSize - 2) + 2 + before.length = d.headerSize + before.length := by omega
  rwa [hpos] at hentry

/-- Reading the header of a file finds out where its names begin and looks none of them up, whether or
not its form can be read. -/
theorem state_header {d : Draft} (hform : d.version = .vbdos → d.form.length < 65536) :
    ((Decode.header d.version).run d.source 0 (.start d.version)).2.2.headerSize = d.headerSize ∧
      ((Decode.header d.version).run d.source 0 (.start d.version)).2.2.symbols.names = [] := by
  -- what comes after the size of the header is known changes neither
  let P : State → Prop := fun s => s.headerSize = d.headerSize ∧ s.symbols.names = []
  have hrest : Passes P d.source (do
      let offset ← given ((← Decode.source).natLE ((← get).headerSize - 2) 2)
      modify fun s => { s with symbols := { s.symbols with codeOffset := offset } }) := by
    refine .bind (fun _ _ hs => hs) fun _ => .bind (fun _ _ hs => hs) fun _ => .bind ?_ fun _ => ?_
    · intro pos s hs
      rw [run_given]
      exact hs
    · exact fun _ _ hs => hs
  unfold Decode.header
  by_cases hv : d.version = .vbdos
  · have hlength : d.source.natLE 0x14 2 = .ok d.form.length :=
      (holds_formLength hv).natLE_u16 (hform hv)
    have hformArea : P (Decode.formArea.run d.source 0 (.start d.version)).2.2 := by
      have hstart : P { State.start d.version with headerSize := d.headerSize } := ⟨rfl, rfl⟩
      have hsize : d.version.headerSize + d.form.length = d.headerSize := by
        rw [headerSize, if_pos hv]
      simp only [Decode.formArea, run_bind, run_source, run_given, hlength, run_modify, State.start, hsize]
      split
      · split <;> split <;> exact hstart
      · exact hstart
    rw [if_pos hv, run_bind]
    rcases hrun : Decode.formArea.run d.source 0 (.start d.version) with ⟨fault | _, pos, s⟩
      <;> rw [hrun] at hformArea
    · exact hformArea
    · exact hrest pos s hformArea
  · rw [if_neg hv]
    exact hrest 0 _ ⟨by rw [headerSize, if_neg hv]; rfl, rfl⟩

/-- All states of the decoding of a file find the entries of the draft at their offsets. -/
theorem nameAt_source {d : Draft} (hform : d.version = .vbdos → d.form.length < 65536) {s : State}
    (hs : Reachable d.version d.source s) {offset : Nat} {entry : Bytes} {name : Name}
    (hstands : d.symbols.StandsAt entry offset) (hentry : name.HasEntry entry) :
    s.nameAt d.source offset = .ok name := by
  obtain ⟨hsize, hnames⟩ := state_header hform
  rw [hs.nameAt, State.nameAt, SymbolTable.name?, hnames, List.lookup_nil, hsize]
  exact SymbolTable.entryAt_of_holds hentry (holds_entry hstands)

end Draft

/-! ## Looking names up -/

namespace Decode

/-- The state after look-ups at some offsets, whatever they have given. -/
def State.lookedUp (src : Source) (pos : Nat) (s : State) (offsets : List Nat) : State :=
  offsets.foldl (fun s offset => ((Decode.identifierAt offset).run src pos s).2.2) s

theorem State.nameAt_lookedUp (src : Source) (pos : Nat) (s : State) (offsets : List Nat) :
    (s.lookedUp src pos offsets).nameAt src = s.nameAt src := by
  induction offsets generalizing s with
  | nil => rfl
  | cons offset offsets ih =>
    rw [lookedUp, List.foldl_cons, ← lookedUp, ih, run_identifierAt, nameAt_noting]

/-- A look-up remembers the name that it has found. -/
theorem State.name?_noting {src : Source} {s : State} {offset : Nat} {name : Name}
    (h : s.nameAt src offset = .ok name) :
    (s.noting src offset).symbols.name? offset = some name := by
  rw [nameAt] at h
  rcases hknown : s.symbols.name? offset with _ | known <;> rw [hknown] at h
  · simp only [noting, hknown, h, name?_record, if_true]
  · cases h
    simp only [noting, hknown]

end Decode

/-- Names that were written are found. Whatever names are written one after another, each has one
offset from its first call to the end: a call for a name that is there already gives this offset and
leaves the table as it is, and entries do not overlap. In every file with this table, of any version, a
look-up at the offset gives the name as it is understood, in every state of decoding and after any
other look-ups, and does not move the position. The name is then known and is given again from
there. -/
theorem written_names_found {keys : List Key} (hkeys : ∀ key ∈ keys, ∃ name, key.Spells name) :
    ∃ (offset : Key → Nat) (area : SymbolArea),
      SymbolArea.addAll {} keys = .ok (keys.map offset, area) ∧
      (∀ before behind, keys = before ++ behind → ∃ area₀,
        SymbolArea.addAll {} before = .ok (before.map offset, area₀) ∧
          area₀.bytes <+: area.bytes ∧ ∀ key ∈ before, area₀.add key = .ok (offset key, area₀)) ∧
      (∀ key ∈ keys, ∀ key' ∈ keys, ∀ entry entry', key ≠ key' → key.entry = .ok entry →
        key'.entry = .ok entry' →
        offset key + entry.length ≤ offset key' ∨ offset key' + entry'.length ≤ offset key) ∧
      ∀ d : Draft, d.symbols = area → (d.version = .vbdos → d.form.length < 65536) →
        ∀ s, Reachable d.version d.source s → ∀ pos lookups, ∀ key ∈ keys, ∀ name, key.Spells name →
          ∃ s', (identifierAt (offset key)).run d.source pos (s.lookedUp d.source pos lookups) =
              (Identifier.ofName name none, pos, s') ∧
            s'.symbols.name? (offset key) = some name := by
  obtain ⟨offsets, area, hadd, hoffsets, -, hsound⟩ :=
    SymbolArea.addAll_spells SymbolArea.sound_empty hkeys
  obtain ⟨rfl, hoffset⟩ := SymbolArea.eq_map_offsetOf hoffsets
  refine ⟨area.offsetOf, area, hadd, ?_, ?_, ?_⟩
  · rintro before behind rfl
    obtain ⟨hbefore, hbehind⟩ := List.forall_mem_append.mp hkeys
    obtain ⟨offsets₀, area₀, hadd₀, hoffsets₀, -, hsound₀⟩ :=
      SymbolArea.addAll_spells SymbolArea.sound_empty hbefore
    obtain ⟨offsets₁, area₁, hadd₁, -, hgrows, -⟩ := SymbolArea.addAll_spells hsound₀ hbehind
    -- the table at the end is the one that the names behind have left
    rw [SymbolArea.addAll_append, hadd₀, Except.bind, hadd₁] at hadd
    obtain rfl : area₁ = area := congrArg Prod.snd (Except.ok.inj hadd)
    obtain ⟨rfl, -⟩ := SymbolArea.eq_map_offsetOf (hgrows.map_offset? hoffsets₀)
    refine ⟨area₀, hadd₀, hgrows.bytes, fun key hkey => SymbolArea.add_of_offset? ?_⟩
    have hkey₀ := (SymbolArea.eq_map_offsetOf hoffsets₀).2 key hkey
    have hsame := hgrows.offset? hkey₀
    rwa [hoffset key (List.mem_append_left _ hkey), ← hkey₀, eq_comm] at hsame
  · intro key hkey key' hkey' entry entry' hne
    exact hsound.apart hne (hoffset key hkey) (hoffset key' hkey')
  · rintro d rfl hform s hs pos lookups key hkey name hspells
    obtain ⟨entry, hentry, hreads⟩ := hspells.entry
    obtain ⟨entry', hentry', hstands⟩ := hsound.stands (hoffset key hkey)
    cases hentry.symm.trans hentry'
    have hname : (s.lookedUp d.source pos lookups).nameAt d.source (d.symbols.offsetOf key) =
        .ok name := by
      rw [State.nameAt_lookedUp, Draft.nameAt_source hform hs hstands hreads]
    refine ⟨_, ?_, State.name?_noting hname⟩
    rw [run_identifierAt, State.identifierAt, hname]
    rfl

/-- A text, two bytes, a number, the text again, and bytes that spell a negative number. -/
def mixedNames : List Key :=
  [.text "A", .bytes [0x41, 0x31], .number 10, .text "A", .bytes [0x2D, 0x35]]

/-- In a file of Visual Basic with these names, the number is found, and the last name is refused at a
later look-up as it was at the first. -/
theorem mixedNames_found :
    (∀ key ∈ mixedNames, ∃ name, key.Spells name) ∧
    ∃ area, SymbolArea.addAll {} mixedNames = .ok ([0, 6, 12, 0, 18], area) ∧
      let src := Draft.source { version := .vbdos, symbols := area }
      let s := ((Decode.header .vbdos).run src 0 (.start .vbdos)).2.2
      (∃ s', (identifierAt 12).run src 7 (s.lookedUp src 7 []) = (.ok ⟨.number 10, true, none⟩, 7, s')) ∧
        ∃ s', (identifierAt 18).run src 7 (s.lookedUp src 7 [18]) = (.error .brokenPromise, 7, s') := by
  have hkeys : ∀ key ∈ mixedNames, ∃ name, key.Spells name := by
    simp only [mixedNames, List.forall_mem_cons]
    refine ⟨⟨_, .text rfl (by decide)⟩, ⟨_, .bytes (by decide)⟩, ⟨_, .number (n := 10) (by decide)⟩,
      ⟨_, .text rfl (by decide)⟩, ⟨_, .bytes (by decide)⟩, nofun⟩
  obtain ⟨offset, area, hadd, -, -, hfound⟩ := written_names_found hkeys
  have hoffsets : mixedNames.map offset = [0, 6, 12, 0, 18] :=
    congrArg Prod.fst (Except.ok.inj (hadd.symm.trans rfl))
  rw [hoffsets] at hadd
  simp only [mixedNames, List.map_cons, List.map_nil, List.cons.injEq] at hoffsets
  obtain ⟨-, -, hnumber, -, hnegative, -⟩ := hoffsets
  have hlook := hfound { version := .vbdos, symbols := area } rfl (fun _ => Nat.zero_lt_succ _) _
    .start 7
  refine ⟨hkeys, area, hadd, ?_, ?_⟩
  · obtain ⟨s', hrun, -⟩ :=
      hlook [] (.number 10) (by decide) _ (.number (n := 10) (by decide))
    rw [hnumber] at hrun
    exact ⟨s', hrun⟩
  · obtain ⟨s', hrun, -⟩ :=
      hlook [18] (.bytes [0x2D, 0x35]) (by decide) _ (.bytes (by decide))
    rw [hnegative] at hrun
    exact ⟨s', hrun⟩

end SavedBasic
