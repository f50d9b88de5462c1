import SavedBasic.Proofs.CanonicalNames
import SavedBasic.Proofs.Running

/-!
# New names in a table

Names are added to a new table one after another, and some requests fail. The table has two sides, the
name at each offset and the last offset of each name, and what it keeps is the name in its kept form.
`Tracks` says what a table has to do with the entries that were made so far. A request that succeeds
makes one entry behind all others, so that no older one is touched; a request that fails leaves the
table as it was. Since a kept name is its own kept form, what is looked up at an offset is the very
identifier that the request for it has given.
-/

namespace SavedBasic

open Decode

namespace SymbolTable

/-! ## Requests -/

/-- The answers to requests one after another, and the table behind them. -/
def attempts (table : SymbolTable) :
    List Name → List (Except Fault (Nat × Identifier)) × SymbolTable
  | [] => ([], table)
  | name :: rest =>
    let first := table.attempt name
    let others := first.2.attempts rest
    (first.1 :: others.1, others.2)

/-- The entries that requests in a new table make, in their order. -/
def newEntries (v : Version) (names : List Name) : List (Nat × Identifier) :=
  ((State.start v).symbols.attempts names).1.filterMap Except.toOption

/-- The table behind requests in a new table. -/
def newTable (v : Version) (names : List Name) : SymbolTable :=
  ((State.start v).symbols.attempts names).2

variable {table : SymbolTable} {name : Name}

theorem attempt_of_error {fault : Fault} (h : Identifier.ofName name none = .error fault) :
    table.attempt name = (.error fault, table) := by
  rw [attempt, add, h]
  rfl

theorem attempt_of_ok {id : Identifier} (h : Identifier.ofName name none = .ok id) :
    table.attempt name = (.ok (table.next, id),
      { table.record table.next id.name with
        next := table.next + entrySize id.name
        codeOffset := table.codeOffset + entrySize id.name }) := by
  rw [attempt, add, h]
  rfl

/-- A request is answered with the next offset if the name is understood. -/
theorem attempt_fst (table : SymbolTable) (name : Name) :
    (table.attempt name).1 = (Identifier.ofName name none).map (table.next, ·) := by
  rcases hname : Identifier.ofName name none with fault | id
  · rw [attempt_of_error hname]
    rfl
  · rw [attempt_of_ok hname]
    rfl

theorem attempt_unchanged {fault : Fault} (h : (table.attempt name).1 = .error fault) :
    (table.attempt name).2 = table := by
  rcases hname : Identifier.ofName name none with fault' | id
  · rw [attempt_of_error hname]
  · rw [attempt_of_ok hname] at h
    cases h

/-! ## Entries one behind the other -/

/-- Entries take up the offsets from the first one up to the last one without a gap. -/
inductive Stacked : (first : Nat) → List (Nat × Identifier) → (last : Nat) → Prop where
  | nil {offset : Nat} : Stacked offset [] offset
  | cons {offset last : Nat} {id : Identifier} {entries : List (Nat × Identifier)}
    (h : Stacked (offset + entrySize id.name) entries last) :
    Stacked offset ((offset, id) :: entries) last

variable {first last : Nat} {entries : List (Nat × Identifier)}

theorem entrySize_pos (name : Name) : 0 < entrySize name := by
  cases name <;> simp [entrySize]

theorem Stacked.concat (h : Stacked first entries last) (id : Identifier) :
    Stacked first (entries ++ [(last, id)]) (last + entrySize id.name) := by
  induction h with
  | nil => exact .cons .nil
  | cons _ ih => exact .cons ih

theorem Stacked.le (h : Stacked first entries last) : first ≤ last := by
  induction h with
  | nil => exact Nat.le_refl _
  | cons _ ih => exact Nat.le_trans (Nat.le_add_right _ _) ih

/-- The next entry lies behind all others. -/
theorem Stacked.lt_of_mem (h : Stacked first entries last) {entry : Nat × Identifier}
    (hentry : entry ∈ entries) : entry.1 < last := by
  induction h with
  | nil => cases hentry
  | @cons offset last id entries h ih =>
    rcases List.mem_cons.mp hentry with rfl | hentry
    · have hle := h.le
      have hpos := entrySize_pos id.name
      dsimp only
      omega
    · exact ih hentry

theorem Stacked.head_eq (h : Stacked first entries last) {entry : Nat × Identifier}
    (hentry : entries[0]? = some entry) : entry.1 = first := by
  cases h with
  | nil => cases hentry
  | cons h =>
    cases hentry
    rfl

/-- Each entry starts where the one before it ends. -/
theorem Stacked.next_eq (h : Stacked first entries last) {i : Nat} {entry entry' : Nat × Identifier}
    (hentry : entries[i]? = some entry) (hentry' : entries[i + 1]? = some entry') :
    entry'.1 = entry.1 + entrySize entry.2.name := by
  induction h generalizing i with
  | nil => cases hentry
  | cons h ih =>
    cases i with
    | zero =>
      cases hentry
      exact h.head_eq hentry'
    | succ i => exact ih hentry hentry'

/-! ## What a table keeps -/

theorem offset?_record (table : SymbolTable) (offset : Nat) (name name' : Name) :
    (table.record offset name).offset? name' =
      if name' = name then some offset else table.offset? name' := by
  by_cases h : name' = name
  · subst h
    simp [record, offset?]
  · have hne : (name' == name) = false := beq_eq_false_iff_ne.mpr h
    rw [if_neg h]
    simp only [record, offset?, List.lookup_cons, hne, lookup_filter_ne h]

/-- A table that was new has the given entries. -/
structure Tracks (v : Version) (table : SymbolTable) (entries : List (Nat × Identifier)) : Prop where
  /-- they fill the table up to the next offset -/
  stacked : Stacked 0x56 entries table.next
  /-- the instructions have moved as far as the next offset -/
  moved : table.codeOffset + 0x56 = v.codeOffset + table.next
  /-- their names are kept names -/
  understood : ∀ entry ∈ entries, Identifier.ofName entry.2.name none = .ok entry.2
  /-- each of them is found at its offset -/
  found : ∀ entry ∈ entries, table.name? entry.1 = some entry.2.name
  /-- a name leads to its last entry, and to none if it has no entry -/
  latest : ∀ name,
    table.offset? name = (entries.reverse.find? fun entry => entry.2.name == name).map Prod.fst

theorem tracks_start (v : Version) : Tracks v (State.start v).symbols [] where
  stacked := .nil
  moved := rfl
  understood := by simp
  found := by simp
  latest := fun _ => rfl

/-- One request: an entry is made behind the others, or nothing changes. -/
theorem Tracks.attempt {v : Version} (h : Tracks v table entries) (name : Name) :
    Tracks v (table.attempt name).2 (entries ++ (table.attempt name).1.toOption.toList) := by
  rcases hname : Identifier.ofName name none with fault | id
  · rw [attempt_of_error hname]
    simpa [Except.toOption] using h
  · rw [attempt_of_ok hname]
    have hmoved := h.moved
    refine ⟨h.stacked.concat id, by dsimp only; omega, ?_, ?_, ?_⟩
    · intro entry hentry
      rcases List.mem_append.mp hentry with hentry | hentry
      · exact h.understood entry hentry
      · cases List.mem_singleton.mp hentry
        exact Identifier.ofName_name hname
    · intro entry hentry
      change (table.record table.next id.name).name? entry.1 = some entry.2.name
      rw [name?_record]
      rcases List.mem_append.mp hentry with hentry | hentry
      · rw [if_neg (Nat.ne_of_lt (h.stacked.lt_of_mem hentry)), h.found entry hentry]
      · cases List.mem_singleton.mp hentry
        exact if_pos rfl
    · intro name'
      change (table.record table.next id.name).offset? name' = _
      rw [offset?_record]
      change _ = ((entries ++ [(table.next, id)]).reverse.find? _).map Prod.fst
      rw [List.reverse_concat]
      by_cases heq : name' = id.name
      · rw [if_pos heq, List.find?_cons_of_pos (by simp [heq])]
        rfl
      · rw [if_neg heq, List.find?_cons_of_neg (by simp [Ne.symm heq]), h.latest]

/-- All requests, one after another. -/
theorem Tracks.attempts {v : Version} (h : Tracks v table entries) (names : List Name) :
    Tracks v (table.attempts names).2
      (entries ++ (table.attempts names).1.filterMap Except.toOption) := by
  induction names generalizing table entries with
  | nil => rwa [SymbolTable.attempts, List.filterMap_nil, List.append_nil]
  | cons name rest ih =>
    have hrest := ih (h.attempt name)
    rw [List.append_assoc] at hrest
    have hcons : ∀ (answer : Except Fault (Nat × Identifier)) answers,
        (answer :: answers).filterMap Except.toOption =
          answer.toOption.toList ++ answers.filterMap Except.toOption := by
      intro answer answers
      rcases answer with fault | entry <;> rfl
    rwa [SymbolTable.attempts, hcons]

theorem tracks_newTable (v : Version) (names : List Name) :
    Tracks v (newTable v names) (newEntries v names) := by
  have h := (tracks_start v).attempts names
  rwa [List.nil_append] at h

/-- What is looked up at the offset of an entry is the identifier of this entry. -/
theorem Tracks.run_identifierAt {v : Version} (h : Tracks v table entries) {entry : Nat × Identifier}
    (hentry : entry ∈ entries) {s : State} (hs : s.symbols = table) (src : Source) (pos : Nat) :
    (identifierAt entry.1).run src pos s = (.ok entry.2, pos, s) := by
  have hname : s.symbols.name? entry.1 = some entry.2.name := by rw [hs, h.found entry hentry]
  rw [Decode.run_identifierAt, State.identifierAt, State.nameAt, State.noting, hname]
  exact congrArg (fun r => (r, pos, s)) (h.understood entry hentry)

/-- **Tables of new names.** Add any names to a new table of any version. A further request succeeds if
the name is understood, and otherwise leaves the table as it is. The first entry lies at 0x56, and each
further one behind the entry before it, which takes six bytes for a number and four more than its
length for bytes. The instructions stay at the same distance from the next offset. What is looked up
at the offset of an entry is the identifier that its request has given, and a name leads to the last
entry that was made under it. -/
theorem newTable_consistent (v : Version) (names : List Name) :
    (∀ name, ((newTable v names).attempt name).1 =
      (Identifier.ofName name none).map ((newTable v names).next, ·)) ∧
    (∀ name fault, ((newTable v names).attempt name).1 = .error fault →
      ((newTable v names).attempt name).2 = newTable v names) ∧
    (∀ entry, (newEntries v names)[0]? = some entry → entry.1 = 0x56) ∧
    (∀ i entry entry', (newEntries v names)[i]? = some entry →
      (newEntries v names)[i + 1]? = some entry' →
      (∀ n, entry.2.name = .number n → entry'.1 = entry.1 + 6) ∧
      ∀ text, entry.2.name = .bytes text → entry'.1 = entry.1 + (4 + text.length)) ∧
    ((newTable v names).codeOffset : Int) - (newTable v names).next = (v.codeOffset : Int) - 0x56 ∧
    (∀ entry ∈ newEntries v names, ∀ (s : State) (src : Source) (pos : Nat),
      s.symbols = newTable v names →
        (identifierAt entry.1).run src pos s = (.ok entry.2, pos, s)) ∧
    ∀ name, (newTable v names).offset? name =
      ((newEntries v names).reverse.find? fun entry => entry.2.name == name).map Prod.fst := by
  have h := tracks_newTable v names
  have hmoved := h.moved
  refine ⟨attempt_fst _, fun name fault hfault => attempt_unchanged hfault,
    fun entry hentry => h.stacked.head_eq hentry, fun i entry entry' hentry hentry' => ?_,
    by omega, fun entry hentry s src pos hs => h.run_identifierAt hentry hs src pos, h.latest⟩
  have hnext := h.stacked.next_eq hentry hentry'
  constructor
  · intro n hn
    rw [hnext, hn]
    rfl
  · intro text htext
    rw [hnext, htext]
    rfl

/-- Bytes that spell a number and the number itself are one name, which leads to its second entry. -/
example : (newTable .qb45 [.bytes [0x41], .bytes [0x20, 0x37], .number (-1), .number 7]).offset?
    (.number 7) = some 0x61 := by
  decide +kernel

end SymbolTable

end SavedBasic
