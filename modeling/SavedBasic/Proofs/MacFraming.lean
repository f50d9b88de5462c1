import SavedBasic.Proofs.MacListing
import SavedBasic.Proofs.Termination

/-!
# Records of the Macintosh format by their lengths

A record has its length in front, and the length is all that leads to the next record. The tokens of a
record end with a zero byte, which may come before its end or behind it; the next record is still looked
for where the length says. So both times that a file is gone through the same records are found, and a
file is listed as the lines of its records, up to the first one that has none.
-/

namespace SavedBasic

namespace Source

variable {src src₁ src₂ : Source} {pos pos₁ pos₂ width : Nat}

/-- A number of fixed width is read from the rest, or the rest is too short for it. -/
theorem natBE_eq (src : Source) (pos : Nat) (hw : 0 < width) :
    src.natBE pos width =
      if width ≤ (src.rest pos).length then .ok (Bytes.toNatBE ((src.rest pos).take width))
      else .error (.endOfData width) := by
  have hsize : pos + width ≤ src.size ↔ width ≤ (src.rest pos).length := by
    rw [length_rest]
    omega
  by_cases h : pos + width ≤ src.size
  · rw [if_pos (hsize.mp h), natBE, exactly, if_pos h, slice_eq]
    rfl
  · rw [if_neg (mt hsize.mpr h), natBE, exactly, if_neg h]
    rfl

/-- Numbers of fixed width are the same where the rest is the same. -/
theorem natBE_congr (hw : 0 < width) (h : src₁.rest pos₁ = src₂.rest pos₂) :
    src₁.natBE pos₁ width = src₂.natBE pos₂ width := by
  rw [natBE_eq _ _ hw, natBE_eq _ _ hw, h]

theorem data_eq_head? (src : Source) (pos : Nat) : src.data[pos]? = (src.rest pos).head? := by
  rw [rest, List.head?_drop, Array.getElem?_toList]

end Source

namespace Mac

variable {src src₁ src₂ : Source} {pos pos₁ pos₂ : Nat}

theorem byteAt_congr (h : src₁.rest pos₁ = src₂.rest pos₂) : byteAt src₁ pos₁ = byteAt src₂ pos₂ := by
  rw [byteAt, byteAt, Source.data_eq_head?, Source.data_eq_head?, h]

/-! ## The tokens of a line -/

namespace Token

/-- The first byte of a token says how the token is read on: a number or a byte follows, or nothing. -/
theorem read_cases (first : Nat) :
    (∃ width make, 0 < width ∧ ∀ src pos, read src pos first = withNumber src pos width make) ∨
    (∃ make, ∀ src pos, read src pos first = withByte src pos make) ∨
    ∃ t, ∀ src pos, read src pos first = .ok (t, pos + 1) := by
  by_cases hchar : 32 ≤ first ∧ first ≤ 126
  · exact .inr (.inr ⟨_, fun _ _ => read_char hchar⟩)
  by_cases hvalue : first ∈ valueCodes
  · simp only [valueCodes, List.mem_cons, List.not_mem_nil, or_false] at hvalue
    rcases hvalue with rfl | rfl | rfl | rfl | rfl | rfl | rfl | rfl | rfl | rfl | rfl | rfl | rfl
    case inr.inr.inr.inr.inr.inr.inr.inl => exact .inr (.inl ⟨_, fun _ _ => rfl⟩)
    all_goals exact .inl ⟨_, _, by decide, fun _ _ => rfl⟩
  · by_cases hpage : (pages.lookup first).isSome
    · refine .inr (.inl ⟨pair first, fun src pos => ?_⟩)
      rw [read_keyword hchar hvalue, if_pos hpage]
    · refine .inr (.inr ⟨byte first, fun src pos => ?_⟩)
      rw [read_keyword hchar hvalue, if_neg hpage]

/-- A token is the same, and as long, where the rest is the same. -/
theorem read_congr (h : src₁.rest pos₁ = src₂.rest pos₂) (first : Nat) :
    read src₂ pos₂ first = (read src₁ pos₁ first).map fun r => (r.1, pos₂ + (r.2 - pos₁)) := by
  have hnext := Source.rest_congr_add 1 h
  rcases read_cases first with ⟨width, make, hw, hread⟩ | ⟨make, hread⟩ | ⟨t, hread⟩
  · rw [hread, hread, withNumber, withNumber, Source.natBE_congr hw hnext]
    cases src₂.natBE (pos₂ + 1) width with
    | error fault => rfl
    | ok n =>
      simp only [Except.map, Except.ok.injEq, Prod.mk.injEq, true_and]
      omega
  · rw [hread, hread, withByte, withByte, byteAt_congr hnext]
    cases byteAt src₂ (pos₂ + 1) with
    | error fault => rfl
    | ok n =>
      simp only [Except.map, Except.ok.injEq, Prod.mk.injEq, true_and]
      omega
  · rw [hread, hread]
    simp only [Except.map, Except.ok.injEq, Prod.mk.injEq, true_and]
    omega

end Token

/-- The token at a position and the position behind it, or nothing where a zero byte ends the line. -/
def nextToken (src : Source) (pos : Nat) : Except Fault (Option (Token × Nat)) :=
  match src.data[pos]? with
  | none => .error .noByte
  | some first => if first = 0 then .ok none else (Token.read src pos first.toNat).map some

theorem lt_of_nextToken {t : Token} {fin : Nat} (h : nextToken src pos = .ok (some (t, fin))) :
    pos < src.size ∧ pos < fin := by
  rw [nextToken] at h
  split at h
  · cases h
  · rename_i first hfirst
    refine ⟨(Array.getElem?_eq_some_iff.mp hfirst).1, ?_⟩
    split at h
    · cases h
    · obtain ⟨r, hread, hr⟩ := map_eq_ok_iff.mp h
      cases hr
      exact Token.lt_of_read hread

theorem renderTokens_eq_next (src : Source) (names : Array String) (pos : Nat) (line : String) :
    renderTokens src names pos line =
      match nextToken src pos with
      | .error fault => .error fault
      | .ok none => .ok line
      | .ok (some (t, fin)) => renderTokens src names fin (t.append names line) := by
  rw [renderTokens, nextToken]
  split
  · rename_i hnone
    rw [hnone]
  · rename_i first hfirst
    rw [hfirst]
    dsimp only
    split
    · rfl
    · split
      · rename_i fault herror
        rw [herror]
        rfl
      · rename_i t fin hread
        rw [hread]
        rfl

/-- The tokens from a position on up to a zero byte, and the position behind it. -/
def tokensAt (src : Source) (pos : Nat) : Except Fault (List Token × Nat) :=
  match h : nextToken src pos with
  | .error fault => .error fault
  | .ok none => .ok ([], pos + 1)
  | .ok (some (t, fin)) =>
    have := lt_of_nextToken h
    (tokensAt src fin).map fun r => (t :: r.1, r.2)
termination_by src.size - pos

theorem tokensAt_eq_next (src : Source) (pos : Nat) :
    tokensAt src pos =
      match nextToken src pos with
      | .error fault => .error fault
      | .ok none => .ok ([], pos + 1)
      | .ok (some (t, fin)) => (tokensAt src fin).map fun r => (t :: r.1, r.2) := by
  rw [tokensAt]
  split <;> simp only [*]

theorem tokensAt_of_zero (h : nextToken src pos = .ok none) : tokensAt src pos = .ok ([], pos + 1) := by
  rw [tokensAt_eq_next, h]

theorem tokensAt_of_next {t : Token} {fin behind : Nat} {tokens : List Token}
    (h : nextToken src pos = .ok (some (t, fin))) (hrest : tokensAt src fin = .ok (tokens, behind)) :
    tokensAt src pos = .ok (t :: tokens, behind) := by
  rw [tokensAt_eq_next, h]
  exact map_eq_ok_iff.mpr ⟨_, hrest, rfl⟩

/-- Which tokens there are does not depend on names: they can be found first and shown then. -/
theorem renderTokens_eq (src : Source) (names : Array String) (pos : Nat) (line : String) :
    renderTokens src names pos line =
      (tokensAt src pos).map fun r => Token.appendAll names line r.1 := by
  fun_induction tokensAt src pos generalizing line with
  | case1 pos fault h =>
    rw [renderTokens_eq_next, h]
    rfl
  | case2 pos h =>
    rw [renderTokens_eq_next, h]
    rfl
  | case3 pos t fin h _ ih =>
    rw [renderTokens_eq_next, h]
    dsimp only
    rw [ih]
    cases tokensAt src fin <;> rfl

theorem nextToken_congr (h : src₁.rest pos₁ = src₂.rest pos₂) :
    nextToken src₂ pos₂ =
      (nextToken src₁ pos₁).map (Option.map fun r => (r.1, pos₂ + (r.2 - pos₁))) := by
  rw [nextToken, nextToken, Source.data_eq_head?, Source.data_eq_head?, h]
  cases (src₂.rest pos₂).head? with
  | none => rfl
  | some first =>
    dsimp only
    split
    · rfl
    · rw [Token.read_congr h]
      cases Token.read src₁ pos₁ first.toNat <;> rfl

/-- What is found, but not the position behind it, stays the same when it becomes a part of more. -/
theorem map_fst_congr {α β : Type} {e₁ e₂ : Except Fault (α × Nat)}
    (h : e₂.map Prod.fst = e₁.map Prod.fst) (f : α → β) :
    (e₂.map fun r => (f r.1, r.2)).map Prod.fst = (e₁.map fun r => (f r.1, r.2)).map Prod.fst := by
  rcases e₁ with fault | r₁ <;> rcases e₂ with fault' | r₂ <;> simp_all [Except.map]

/-- The same tokens are found where the rest is the same. -/
theorem tokensAt_congr (h : src₁.rest pos₁ = src₂.rest pos₂) :
    (tokensAt src₂ pos₂).map Prod.fst = (tokensAt src₁ pos₁).map Prod.fst := by
  fun_induction tokensAt src₁ pos₁ generalizing pos₂ with
  | case1 pos₁ fault hnext =>
    rw [tokensAt_eq_next, nextToken_congr h, hnext]
    rfl
  | case2 pos₁ hnext =>
    rw [tokensAt_eq_next, nextToken_congr h, hnext]
    rfl
  | case3 pos₁ t fin hnext hlt ih =>
    have hfin : src₁.rest fin = src₂.rest (pos₂ + (fin - pos₁)) := by
      rw [← Source.rest_congr_add (fin - pos₁) h, Nat.add_sub_cancel' (Nat.le_of_lt hlt.2)]
    rw [tokensAt_eq_next, nextToken_congr h, hnext]
    exact map_fst_congr (ih hfin) (t :: ·)

/-! ## The records of a file -/

/-- The record at an offset, and the position behind the zero byte that ends its tokens. -/
def recordAt (src : Source) (offset : Nat) : Except Fault (Record × Nat) := do
  let word ← src.natBE offset 2
  let indent ← byteAt src (offset + 2)
  if word.testBit 15 then
    let number ← src.natBE (offset + 3) 2
    (tokensAt src (offset + 5)).map fun r => (⟨some number, indent, r.1⟩, r.2)
  else (tokensAt src (offset + 3)).map fun r => (⟨none, indent, r.1⟩, r.2)

/-- What has to be there for a record to be found. -/
theorem recordAt_eq_ok_iff {offset behind : Nat} {r : Record} :
    recordAt src offset = .ok (r, behind) ↔
      ∃ word, src.natBE offset 2 = .ok word ∧ word.testBit 15 = r.number.isSome ∧
        byteAt src (offset + 2) = .ok r.indent ∧
        (∀ number ∈ r.number, src.natBE (offset + 3) 2 = .ok number) ∧
        tokensAt src (offset + if r.number.isSome then 5 else 3) = .ok (r.tokens, behind) := by
  simp only [recordAt, bind_eq_ok_iff]
  constructor
  · rintro ⟨word, hword, indent, hindent, h⟩
    split at h
    · rename_i hbit
      obtain ⟨number, hnumber, h⟩ := bind_eq_ok_iff.mp h
      obtain ⟨found, htokens, hfound⟩ := map_eq_ok_iff.mp h
      cases hfound
      exact ⟨word, hword, hbit, hindent, by simpa using hnumber, htokens⟩
    · rename_i hbit
      obtain ⟨found, htokens, hfound⟩ := map_eq_ok_iff.mp h
      cases hfound
      exact ⟨word, hword, by simpa using hbit, hindent, by simp, htokens⟩
  · rintro ⟨word, hword, hbit, hindent, hnumber, htokens⟩
    refine ⟨word, hword, r.indent, hindent, ?_⟩
    rcases r with ⟨_ | number, indent, tokens⟩
    · rw [if_neg (by simp [hbit])]
      exact map_eq_ok_iff.mpr ⟨_, htokens, rfl⟩
    · rw [if_pos (by simp [hbit])]
      exact bind_eq_ok_iff.mpr ⟨number, hnumber number rfl, map_eq_ok_iff.mpr ⟨_, htokens, rfl⟩⟩

theorem renderRecord_eq {offset word : Nat} (names : Array String)
    (h : src.natBE offset 2 = .ok word) :
    renderRecord src names offset (word.testBit 15) =
      ((recordAt src offset).map Prod.fst).map (Record.line names) := by
  rw [renderRecord, recordAt, h]
  dsimp only [bind, Except.bind]
  cases byteAt src (offset + 2) with
  | error fault => rfl
  | ok indent =>
    dsimp only
    split
    · cases src.natBE (offset + 3) 2 with
      | error fault => rfl
      | ok number =>
        dsimp only
        rw [renderTokens_eq]
        cases tokensAt src (offset + 5) <;> rfl
    · rw [renderTokens_eq]
      cases tokensAt src (offset + 3) with
      | error fault => rfl
      | ok r => simp [Except.map, Record.line, Record.opening]

/-- The same record is found where the rest is the same. -/
theorem recordAt_congr {offset₁ offset₂ : Nat} (h : src₁.rest offset₁ = src₂.rest offset₂) :
    (recordAt src₂ offset₂).map Prod.fst = (recordAt src₁ offset₁).map Prod.fst := by
  have h₃ := Source.rest_congr_add 3 h
  rw [recordAt, recordAt, Source.natBE_congr (by decide) h,
    byteAt_congr (Source.rest_congr_add 2 h), Source.natBE_congr (by decide) h₃]
  dsimp only [bind, Except.bind]
  cases src₂.natBE offset₂ 2 with
  | error fault => rfl
  | ok word =>
    cases byteAt src₂ (offset₂ + 2) with
    | error fault => rfl
    | ok indent =>
      dsimp only
      split
      · cases src₂.natBE (offset₂ + 3) 2 with
        | error fault => rfl
        | ok number =>
          exact map_fst_congr (tokensAt_congr (Source.rest_congr_add 5 h))
            (Record.mk (some number) indent)
      · exact map_fst_congr (tokensAt_congr h₃) (Record.mk none indent)

/-- Where the record at an offset leads to: whether it has a line number, and the offset of the next
one; nothing at the word that ends the records. -/
def nextRecord (src : Source) (offset : Nat) : Except Fault (Option (Bool × Nat)) :=
  (src.natBE offset 2).map fun word =>
    if word % 0x8000 = 0 then none else some (word.testBit 15, offset + word % 0x8000)

theorem lt_of_nextRecord {offset next : Nat} {numbered : Bool}
    (h : nextRecord src offset = .ok (some (numbered, next))) :
    offset < src.size ∧ offset < next := by
  obtain ⟨word, hword, hnext⟩ := map_eq_ok_iff.mp h
  have hsize := Source.le_size_of_natBE hword
  split at hnext <;> cases hnext
  omega

/-- The offsets of the records from an offset on: as far as a length can be read, and up to a length
of zero. -/
def recordOffsets (src : Source) (offset : Nat) : List Nat :=
  match h : nextRecord src offset with
  | .error _ => []
  | .ok none => []
  | .ok (some (_, next)) =>
    have := lt_of_nextRecord h
    offset :: recordOffsets src next
termination_by src.size - offset

theorem recordsEnd_eq_next (src : Source) (offset : Nat) :
    recordsEnd src offset =
      match nextRecord src offset with
      | .error fault => .error fault
      | .ok none => .ok (offset + 2)
      | .ok (some (_, next)) => recordsEnd src next := by
  rw [recordsEnd, nextRecord]
  split <;> simp only [*, Except.map]
  split <;> rfl

theorem recordsEnd_of_end {offset : Nat} (h : nextRecord src offset = .ok none) :
    recordsEnd src offset = .ok (offset + 2) := by
  rw [recordsEnd_eq_next, h]

theorem recordsEnd_of_next {offset next fin : Nat} {numbered : Bool}
    (h : nextRecord src offset = .ok (some (numbered, next)))
    (hrest : recordsEnd src next = .ok fin) : recordsEnd src offset = .ok fin := by
  rw [recordsEnd_eq_next, h, ← hrest]

theorem recordOffsets_eq_next (src : Source) (offset : Nat) :
    recordOffsets src offset =
      match nextRecord src offset with
      | .error _ => []
      | .ok none => []
      | .ok (some (_, next)) => offset :: recordOffsets src next := by
  rw [recordOffsets]
  split <;> simp only [*]

theorem recordOffsets_of_end {offset : Nat} (h : nextRecord src offset = .ok none) :
    recordOffsets src offset = [] := by
  rw [recordOffsets_eq_next, h]

theorem recordOffsets_of_next {offset next : Nat} {numbered : Bool} {offsets : List Nat}
    (h : nextRecord src offset = .ok (some (numbered, next)))
    (hrest : recordOffsets src next = offsets) : recordOffsets src offset = offset :: offsets := by
  rw [recordOffsets_eq_next, h, ← hrest]

theorem renderRecords_eq_next (src : Source) (names : Array String) (offset : Nat) :
    renderRecords src names offset =
      match nextRecord src offset with
      | .error fault => ⟨[], some fault⟩
      | .ok none => ⟨[], none⟩
      | .ok (some (numbered, next)) =>
        match renderRecord src names offset numbered with
        | .error fault => ⟨[], some fault⟩
        | .ok line =>
          ⟨line :: (renderRecords src names next).lines, (renderRecords src names next).failure⟩ := by
  rw [renderRecords, nextRecord]
  split <;> simp only [*, Except.map]
  split <;> rfl

/-- The line of the record that bytes start with. -/
def lineOf (names : List String) (bytes : Bytes) : Printed :=
  ((recordAt (.ofBytes bytes) 0).map Prod.fst).map (Record.line names.toArray)

/-- The line of a record depends on nothing but the names and the bytes from the record on. -/
theorem lineOf_rest (names : List String) (src : Source) (offset : Nat) :
    lineOf names (src.rest offset) =
      ((recordAt src offset).map Prod.fst).map (Record.line names.toArray) := by
  have hrest : src.rest offset = (Source.ofBytes (src.rest offset)).rest 0 := rfl
  rw [lineOf, recordAt_congr hrest]

theorem renderRecord_eq_lineOf {offset next : Nat} {numbered : Bool} (names : List String)
    (h : nextRecord src offset = .ok (some (numbered, next))) :
    renderRecord src names.toArray offset numbered = lineOf names (src.rest offset) := by
  obtain ⟨word, hword, hnext⟩ := map_eq_ok_iff.mp h
  split at hnext <;> cases hnext
  rw [renderRecord_eq names.toArray hword, lineOf_rest]

/-- Where the records come to an end, their lines are printed, up to the first one that has none. -/
theorem renderRecords_eq {offset fin : Nat} (names : List String)
    (h : recordsEnd src offset = .ok fin) :
    renderRecords src names.toArray offset =
      .ofPrinted ((recordOffsets src offset).map fun offset => lineOf names (src.rest offset)) := by
  fun_induction recordOffsets src offset with
  | case1 offset fault hnext =>
    rw [recordsEnd_eq_next, hnext] at h
    cases h
  | case2 offset hnext =>
    rw [renderRecords_eq_next, hnext]
    rfl
  | case3 offset numbered next hnext hlt ih =>
    rw [recordsEnd_eq_next, hnext] at h
    rw [renderRecords_eq_next, hnext]
    dsimp only
    rw [renderRecord_eq_lineOf names hnext, ih h, List.map_cons]
    cases lineOf names (src.rest offset) <;> rfl

/-- Where the records are does not depend on anything but the words in front of them, and the one
behind the last of them. -/
theorem recordOffsets_congr {src' : Source} {offset fin : Nat} (h : recordsEnd src offset = .ok fin)
    (hwords : ∀ o, o ∈ recordOffsets src offset ∨ o + 2 = fin → src'.natBE o 2 = src.natBE o 2) :
    recordOffsets src' offset = recordOffsets src offset ∧ recordsEnd src' offset = .ok fin := by
  fun_induction recordOffsets src offset with
  | case1 offset fault hnext =>
    rw [recordsEnd_eq_next, hnext] at h
    cases h
  | case2 offset hnext =>
    rw [recordsEnd_eq_next, hnext] at h
    cases h
    have hsame : nextRecord src' offset = .ok none := by
      rw [nextRecord, hwords offset (.inr rfl), ← nextRecord, hnext]
    exact ⟨recordOffsets_of_end hsame, recordsEnd_of_end hsame⟩
  | case3 offset numbered next hnext hlt ih =>
    rw [recordsEnd_eq_next, hnext] at h
    have hsame : nextRecord src' offset = .ok (some (numbered, next)) := by
      rw [nextRecord, hwords offset (.inl List.mem_cons_self), ← nextRecord, hnext]
    obtain ⟨hoffsets, hend⟩ := ih h fun o ho => hwords o (ho.imp_left (List.mem_cons_of_mem offset))
    exact ⟨recordOffsets_of_next hsame hoffsets, recordsEnd_of_next hsame hend⟩

/-! ## The loops -/

/-- The loop that goes through the records by their lengths, with the offsets of those that it has
found. It ends behind the records. -/
def scanLoop (src : Source) : Loop (Nat × List Nat) (Except Fault Nat × List Nat) where
  round c :=
    match nextRecord src c.1 with
    | .error fault => .inr (.error fault, c.2)
    | .ok none => .inr (.ok (c.1 + 2), c.2)
    | .ok (some (_, next)) => .inl (next, c.2 ++ [c.1])
  position := Prod.fst

/-- The loop over the names, with those that have been read. -/
def nameLoop (src : Source) : Loop (Nat × List String) (Except Fault (List String)) where
  round c :=
    if c.1 < src.size then
      match shortText src c.1 with
      | .error fault => .inr (.error fault)
      | .ok (name, next) => .inl (next, c.2 ++ [name])
    else .inr (.ok c.2)
  position := Prod.fst

/-- The loop over the tokens of a line, with the text of the line so far. -/
def tokenLoop (src : Source) (names : Array String) : Loop (Nat × String) Printed where
  round c :=
    match nextToken src c.1 with
    | .error fault => .inr (.error fault)
    | .ok none => .inr (.ok c.2)
    | .ok (some (t, fin)) => .inl (fin, t.append names c.2)
  position := Prod.fst

/-- The loop that prints the records, with the offsets of those that it has come to and their
lines. -/
def printLoop (src : Source) (names : Array String) :
    Loop (Nat × List Nat × List String) (List Nat × Printout) where
  round c :=
    match nextRecord src c.1 with
    | .error fault => .inr (c.2.1, ⟨c.2.2, some fault⟩)
    | .ok none => .inr (c.2.1, ⟨c.2.2, none⟩)
    | .ok (some (numbered, next)) =>
      match renderRecord src names c.1 numbered with
      | .error fault => .inr (c.2.1 ++ [c.1], ⟨c.2.2, some fault⟩)
      | .ok line => .inl (next, c.2.1 ++ [c.1], c.2.2 ++ [line])
  position := Prod.fst

theorem scanLoop_advances (src : Source) : (scanLoop src).Advances src.size := by
  intro c c' h
  dsimp only [scanLoop] at h ⊢
  split at h <;> cases h
  rename_i hnext
  exact lt_of_nextRecord hnext

theorem scanLoop_unrolls (src : Source) :
    (scanLoop src).Unrolls fun c => (recordsEnd src c.1, c.2 ++ recordOffsets src c.1) := by
  intro c
  dsimp only [scanLoop]
  rw [recordsEnd_eq_next, recordOffsets_eq_next]
  rcases nextRecord src c.1 with fault | _ | ⟨numbered, next⟩ <;> simp

theorem lt_of_shortText {name : String} {next : Nat} (h : shortText src pos = .ok (name, next)) :
    pos < next := by
  rw [shortText] at h
  obtain ⟨length, -, h⟩ := bind_eq_ok_iff.mp h
  obtain ⟨text, -, h⟩ := bind_eq_ok_iff.mp h
  cases h
  omega

theorem nameLoop_advances (src : Source) : (nameLoop src).Advances src.size := by
  intro c c' h
  dsimp only [nameLoop] at h ⊢
  split at h
  · rename_i hlt
    split at h <;> cases h
    rename_i htext
    exact ⟨hlt, lt_of_shortText htext⟩
  · cases h

theorem nameLoop_unrolls (src : Source) :
    (nameLoop src).Unrolls fun c => (readNames src c.1).map (c.2 ++ ·) := by
  intro c
  dsimp only [nameLoop]
  rw [readNames]
  split
  · rw [shortText]
    dsimp only [bind, Except.bind]
    rcases byteAt src c.1 with fault | length
    · rfl
    · dsimp only
      rcases textOf (src.slice (c.1 + 1) length) with fault | name
      · rfl
      · dsimp only [pure, Except.pure]
        rcases readNames src (c.1 + 1 + (src.slice (c.1 + 1) length).length) with fault | names
        · rfl
        · simp [Except.map]
  · simp [Except.map]

theorem tokenLoop_advances (src : Source) (names : Array String) :
    (tokenLoop src names).Advances src.size := by
  intro c c' h
  dsimp only [tokenLoop] at h ⊢
  split at h <;> cases h
  rename_i hnext
  exact lt_of_nextToken hnext

theorem tokenLoop_unrolls (src : Source) (names : Array String) :
    (tokenLoop src names).Unrolls fun c => renderTokens src names c.1 c.2 := by
  intro c
  dsimp only [tokenLoop]
  rw [renderTokens_eq_next]
  rcases nextToken src c.1 with fault | _ | ⟨t, fin⟩ <;> rfl

theorem printLoop_advances (src : Source) (names : Array String) :
    (printLoop src names).Advances src.size := by
  intro c c' h
  dsimp only [printLoop] at h ⊢
  split at h
  · cases h
  · cases h
  · rename_i hnext
    split at h <;> cases h
    exact lt_of_nextRecord hnext

/-- The offsets that the printing of records comes to are those of the records with lines, and of the
one that has none, if there is one. -/
theorem printLoop_unrolls (src : Source) (names : Array String) :
    (printLoop src names).Unrolls fun c =>
      (c.2.1 ++ (recordOffsets src c.1).take ((renderRecords src names c.1).lines.length + 1),
        ⟨c.2.2 ++ (renderRecords src names c.1).lines, (renderRecords src names c.1).failure⟩) := by
  intro c
  dsimp only [printLoop]
  rw [recordOffsets_eq_next, renderRecords_eq_next]
  rcases nextRecord src c.1 with fault | _ | ⟨numbered, next⟩
  · simp
  · simp
  · dsimp only
    rcases renderRecord src names c.1 numbered with fault | line <;> simp

/-! ## The listing -/

/-- What is printed are the first lines, and all of them exactly if nothing fails. -/
theorem lines_ofPrinted (printed : List Printed) :
    (Printout.ofPrinted printed).lines.map .ok <+: printed ∧
      ((Printout.ofPrinted printed).failure = none ↔
        (Printout.ofPrinted printed).lines.length = printed.length) := by
  induction printed with
  | nil => exact ⟨List.prefix_refl _, by simp [Printout.ofPrinted]⟩
  | cons first rest ih =>
    obtain ⟨hlines, hfailure⟩ := ih
    cases first with
    | error fault => exact ⟨List.nil_prefix, by simp [Printout.ofPrinted]⟩
    | ok line =>
      refine ⟨(List.prefix_cons_inj _).mpr hlines, ?_⟩
      simpa [Printout.ofPrinted] using hfailure

/-- **Records are found by their lengths.** For every file with the right mark all loops end, after no
more rounds than bytes are left. Unless the records or the names cannot be read, in which case nothing
is printed, the records are printed one after another: the printing comes to the offsets that going
through the lengths has found, one after another and as far as it gets. There is a line for each record
exactly if nothing fails, and otherwise for the records in front of the one that fails; each line is
given by the names and the bytes from its record on. The words in front of the records and behind the
last of them alone say where records are. -/
theorem records_found_by_lengths {src : Source} (hmark : byteAt src 0 = .ok mark) :
    ∃ p, Command.listMac src = .printed none p ∧
      (∃ n, n ≤ src.size ∧
        (scanLoop src).Ends n (1, []) (recordsEnd src 1, recordOffsets src 1)) ∧
      (∀ pos, ∃ n, n ≤ src.size - pos ∧ (nameLoop src).Ends n (pos, []) (readNames src pos)) ∧
      (∀ names pos line, ∃ n, n ≤ src.size - pos ∧
        (tokenLoop src names).Ends n (pos, line) (renderTokens src names pos line)) ∧
      (∀ fault, ((recordsEnd src 1).bind fun fin => readNames src (namesStart fin)) = .error fault →
        p = ⟨[], some fault⟩) ∧
      ∀ fin names, recordsEnd src 1 = .ok fin → readNames src (namesStart fin) = .ok names →
        (∃ n, n ≤ src.size ∧ (printLoop src names.toArray).Ends n (1, [], [])
          ((recordOffsets src 1).take (p.lines.length + 1), p)) ∧
        p = .ofPrinted ((recordOffsets src 1).map fun offset => lineOf names (src.rest offset)) ∧
        p.lines.map .ok <+: ((recordOffsets src 1).map fun offset => lineOf names (src.rest offset)) ∧
        (p.failure = none ↔ p.lines.length = (recordOffsets src 1).length) ∧
        ∀ src' : Source,
          (∀ o, o ∈ recordOffsets src 1 ∨ o + 2 = fin → src'.natBE o 2 = src.natBE o 2) →
          recordOffsets src' 1 = recordOffsets src 1 := by
  refine ⟨print src, ?_, ?_, fun pos => ?_, fun names pos line => ?_, fun fault hfault => ?_,
    fun fin names hend hnames => ?_⟩
  · rw [Command.listMac, hmark]
    rfl
  · obtain ⟨n, hn, hends⟩ := Loop.exists_ends (scanLoop_advances src) (scanLoop_unrolls src) (1, [])
    exact ⟨n, Nat.le_trans hn (Nat.sub_le _ _), hends⟩
  · obtain ⟨n, hn, hends⟩ := Loop.exists_ends (nameLoop_advances src) (nameLoop_unrolls src) (pos, [])
    have hstart : (readNames src pos).map ([] ++ ·) = readNames src pos := by
      cases readNames src pos <;> rfl
    dsimp only at hends
    rw [hstart] at hends
    exact ⟨n, hn, hends⟩
  · exact Loop.exists_ends (tokenLoop_advances src names) (tokenLoop_unrolls src names) (pos, line)
  · rw [print, hfault]
  · have hprint : print src = renderRecords src names.toArray 1 := by
      rw [print, hend]
      simp only [Except.bind, hnames]
    obtain ⟨hlines, hfailure⟩ := lines_ofPrinted
      ((recordOffsets src 1).map fun offset => lineOf names (src.rest offset))
    rw [← renderRecords_eq names hend, List.length_map] at hfailure
    rw [← renderRecords_eq names hend] at hlines
    rw [hprint]
    refine ⟨?_, renderRecords_eq names hend, hlines, hfailure,
      fun src' hwords => (recordOffsets_congr hend hwords).1⟩
    obtain ⟨n, hn, hends⟩ := Loop.exists_ends (printLoop_advances src names.toArray)
      (printLoop_unrolls src names.toArray) (1, [], [])
    exact ⟨n, Nat.le_trans hn (Nat.sub_le _ _), hends⟩

/-- A file whose first record has no byte that ends its tokens, so that they run into the second one. -/
def overrun : Source :=
  .ofBytes [0xF1, 0x00, 0x06, 0x00, 0x01, 0x00, 0x00, 0x80, 0x07, 0x00, 0x00, 0x0A, 0x42, 0x00,
    0x00, 0x00, 0x00, 0x01, 0x58]

/-- The first line of this file has tokens of the second record behind its own. The second line is
printed all the same, from the offset that the length of the first record leads to. -/
theorem overrun_listed :
    byteAt overrun 0 = .ok mark ∧ recordOffsets overrun 1 = [1, 7] ∧
      Command.listMac overrun = .printed none (.ofLines ["XABS[unknown symbol 07]", "10 B"]) := by
  have hmark : byteAt overrun 0 = .ok mark := rfl
  obtain ⟨p, hlist, -, -, -, -, hrecords⟩ := records_found_by_lengths hmark
  have hend : recordsEnd overrun 1 = .ok 16 :=
    recordsEnd_of_next rfl (recordsEnd_of_next rfl (recordsEnd_of_end rfl))
  have hnames : readNames overrun (namesStart 16) = .ok ["X"] := readNames_of_rest (by decide) rfl
  have hoffsets : recordOffsets overrun 1 = [1, 7] :=
    recordOffsets_of_next rfl (recordOffsets_of_next rfl (recordOffsets_of_end rfl))
  have hrecord : recordAt (.ofBytes (overrun.rest 1)) 0 =
      .ok (⟨none, 0, [.name .variable 0, .byte 0x80, .byte 0x07]⟩, 9) :=
    recordAt_eq_ok_iff.mpr ⟨6, rfl, rfl, rfl, by simp, tokensAt_of_next rfl
      (tokensAt_of_next rfl (tokensAt_of_next rfl (tokensAt_of_zero rfl)))⟩
  have hrecord' : recordAt (.ofBytes (overrun.rest 7)) 0 = .ok (⟨some 10, 0, [.char 'B']⟩, 7) :=
    recordAt_eq_ok_iff.mpr ⟨0x8007, rfl, rfl, rfl, by simp; rfl, tokensAt_of_next rfl
      (tokensAt_of_zero rfl)⟩
  have hfirst : lineOf ["X"] (overrun.rest 1) = .ok "XABS[unknown symbol 07]" := by
    rw [lineOf, hrecord]
    rfl
  have hsecond : lineOf ["X"] (overrun.rest 7) = .ok "10 B" := by
    rw [lineOf, hrecord']
    rfl
  obtain ⟨-, hp, -⟩ := hrecords 16 ["X"] hend hnames
  refine ⟨hmark, hoffsets, ?_⟩
  rw [hlist, hp, hoffsets]
  simp only [List.map_cons, hfirst, hsecond]
  rfl

end Mac

end SavedBasic
