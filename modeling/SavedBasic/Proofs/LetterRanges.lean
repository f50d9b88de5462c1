import SavedBasic.Proofs.Workspace

/-!
# Letters that have a type

A definition such as `DEFINT A-C, X` gives a type to the variables that start with certain letters. In
a file it is one instruction with a double word: the type in the six lowest bits, and above them a bit
for each letter, from `Z` up to `A` in the highest. In the text neighbouring letters are joined to
ranges. The ranges are as long as they can be, and whoever writes them out again gets the letters back
in their order, so different letters never have the same text.
-/

namespace SavedBasic

open Decode Instruction

/-! ## Ranges of letters -/

/-- The letters from one to another. -/
def lettersBetween (first last : Char) : List Char :=
  (List.range (last.toNat + 1 - first.toNat)).map fun i => Char.ofNat (first.toNat + i)

/-- The letters of ranges. -/
def lettersIn (ranges : List (Char × Char)) : List Char :=
  ranges.flatMap fun range => lettersBetween range.1 range.2

/-- Ranges that cannot be longer: each has a letter, they ascend, and between two of them at least one
letter is missing. -/
structure MaximalRanges (ranges : List (Char × Char)) : Prop where
  inhabited : ∀ range ∈ ranges, range.1.toNat ≤ range.2.toNat
  apart : ranges.Pairwise fun range range' => range.2.toNat + 1 < range'.1.toNat

theorem lettersBetween_self (c : Char) : lettersBetween c c = [c] := by
  rw [lettersBetween, Nat.add_sub_cancel_left]
  exact congrArg (fun c => [c]) (Char.ofNat_toNat c)

theorem lettersBetween_concat {first last c : Char} (hle : first.toNat ≤ last.toNat)
    (hnext : last.toNat + 1 = c.toNat) :
    lettersBetween first c = lettersBetween first last ++ [c] := by
  have hlength : c.toNat + 1 - first.toNat = (last.toNat + 1 - first.toNat) + 1 := by omega
  have hlast : first.toNat + (last.toNat + 1 - first.toNat) = c.toNat := by omega
  rw [lettersBetween, hlength, List.range_succ, List.map_append, List.map_singleton, hlast,
    Char.ofNat_toNat, lettersBetween]

theorem lettersIn_cons (range : Char × Char) (ranges : List (Char × Char)) :
    lettersIn (range :: ranges) = lettersBetween range.1 range.2 ++ lettersIn ranges :=
  List.flatMap_cons

theorem lettersIn_reverse_cons (range : Char × Char) (ranges : List (Char × Char)) :
    lettersIn (range :: ranges).reverse =
      lettersIn ranges.reverse ++ lettersBetween range.1 range.2 := by
  rw [List.reverse_cons, lettersIn, List.flatMap_append, List.flatMap_singleton]
  rfl

/-! ## Neighbouring letters -/

/-- Runs, the most recent one first, have been made of letters: they have the letters in their order,
each run starts and ends with one of them, and if the letters ascend there is a gap between two runs. -/
structure MadeOf (runs : List (Char × Char)) (letters : List Char) : Prop where
  order : lettersIn runs.reverse = letters
  ends : ∀ run ∈ runs, run.1 ∈ letters ∧ run.2 ∈ letters ∧ run.1.toNat ≤ run.2.toNat
  apart : letters.Pairwise (·.toNat < ·.toNat) →
    runs.Pairwise fun run' run => run.2.toNat + 1 < run'.1.toNat

/-- One more letter. -/
theorem MadeOf.addLetter {runs : List (Char × Char)} {letters : List Char} (h : MadeOf runs letters)
    (c : Char) : MadeOf (addLetter runs c) (letters ++ [c]) := by
  have hends : ∀ run ∈ runs, run.1 ∈ letters ++ [c] ∧ run.2 ∈ letters ++ [c] ∧
      run.1.toNat ≤ run.2.toNat := fun run hrun =>
    ⟨List.mem_append_left _ (h.ends run hrun).1, List.mem_append_left _ (h.ends run hrun).2.1,
      (h.ends run hrun).2.2⟩
  have hc : c ∈ letters ++ [c] := List.mem_append_right _ (List.mem_singleton_self c)
  unfold SavedBasic.addLetter
  split
  · -- the first letter of all
    obtain rfl : letters = [] := h.order.symm
    refine ⟨?_, List.forall_mem_singleton.mpr ⟨hc, hc, Nat.le_refl _⟩,
      fun _ => List.pairwise_singleton _ _⟩
    rw [lettersIn_reverse_cons, lettersBetween_self]
    rfl
  · rename_i first last before
    obtain ⟨hfirst, hbefore⟩ := List.forall_mem_cons.mp hends
    have hletters := h.order
    split
    · -- the run gets longer
      rename_i hnext
      have hle : first.toNat ≤ last.toNat := hfirst.2.2
      refine ⟨?_, List.forall_mem_cons.mpr ⟨⟨hfirst.1, hc, ?_⟩, hbefore⟩, fun hpairwise => ?_⟩
      · rw [lettersIn_reverse_cons] at hletters ⊢
        rw [lettersBetween_concat hle hnext, ← List.append_assoc, hletters]
      · dsimp only
        omega
      · have hapart := h.apart (List.pairwise_append.mp hpairwise).1
        rw [List.pairwise_cons] at hapart ⊢
        exact hapart
    · -- a new run, behind a gap if the letters ascend
      rename_i hnext
      refine ⟨?_, List.forall_mem_cons.mpr ⟨⟨hc, hc, Nat.le_refl _⟩, hends⟩, fun hpairwise => ?_⟩
      · rw [lettersIn_reverse_cons, hletters, lettersBetween_self]
      · obtain ⟨hold, -, hlt⟩ := List.pairwise_append.mp hpairwise
        have hapart := h.apart hold
        refine List.pairwise_cons.mpr ⟨List.forall_mem_cons.mpr ⟨?_, fun run hrun => ?_⟩, hapart⟩
        · have hlast := hlt last (h.ends _ List.mem_cons_self).2.1 c (List.mem_singleton_self c)
          dsimp only
          omega
        · have hgap := (List.pairwise_cons.mp hapart).1 run hrun
          have hfirst' := hlt first (h.ends _ List.mem_cons_self).1 c (List.mem_singleton_self c)
          dsimp only at hgap ⊢
          omega

/-- All letters, one after another. -/
theorem madeOf_foldl (letters : List Char) : MadeOf (letters.foldl addLetter []) letters := by
  suffices hall : ∀ {runs : List (Char × Char)} {done : List Char}, MadeOf runs done →
      MadeOf (letters.foldl addLetter runs) (done ++ letters) from
    hall ⟨rfl, fun run h => absurd h List.not_mem_nil, fun _ => .nil⟩
  induction letters with
  | nil =>
    intro runs done h
    rwa [List.append_nil]
  | cons c rest ih =>
    intro runs done h
    rw [List.foldl_cons, ← List.singleton_append, ← List.append_assoc]
    exact ih (h.addLetter c)

/-- A range of neighbouring letters starts with one of them and does not end before it. -/
theorem mem_of_mem_letterRuns {letters : List Char} :
    ∀ range ∈ letterRuns letters, range.1 ∈ letters ∧ range.1.toNat ≤ range.2.toNat := by
  intro range h
  have hends := (madeOf_foldl letters).ends range (List.mem_reverse.mp h)
  exact ⟨hends.1, hends.2.2⟩

/-- Ranges of neighbouring letters have the letters in their order. -/
theorem lettersIn_letterRuns (letters : List Char) : lettersIn (letterRuns letters) = letters :=
  (madeOf_foldl letters).order

/-- Letters in their order have ranges that cannot be longer. -/
theorem maximalRanges_letterRuns {letters : List Char} (h : letters.Pairwise (·.toNat < ·.toNat)) :
    MaximalRanges (letterRuns letters) where
  inhabited range hrange := (mem_of_mem_letterRuns range hrange).2
  apart := List.pairwise_reverse.mpr ((madeOf_foldl letters).apart h)

/-! ## Letters and bits -/

/-- A double word selects a letter: its highest bit belongs to `A`, and bit 6 to `Z`. -/
def Selects (data : Nat) (c : Char) : Prop :=
  'A'.toNat ≤ c.toNat ∧ c.toNat ≤ 'Z'.toNat ∧ data.testBit (31 - (c.toNat - 'A'.toNat)) = true

theorem selects_iff {data : Nat} {c : Char} :
    Selects data c ↔ 65 ≤ c.toNat ∧ c.toNat ≤ 90 ∧ data.testBit (31 - (c.toNat - 65)) = true := Iff.rfl

theorem toNat_letter {i : Nat} (h : i < 26) : (Char.ofNat (65 + i)).toNat = 65 + i := by
  rw [Char.ofNat, dif_pos (Or.inl (by omega))]
  rfl

theorem selects_letter {data i : Nat} (h : i < 26) :
    Selects data (Char.ofNat (65 + i)) ↔ data.testBit (31 - i) = true := by
  rw [selects_iff, toNat_letter h, Nat.add_sub_cancel_left]
  exact ⟨fun hc => hc.2.2, fun hbit => ⟨by omega, by omega, hbit⟩⟩

theorem mem_lettersOf_iff {data : Nat} {c : Char} : c ∈ lettersOf data ↔ Selects data c := by
  rw [lettersOf, List.mem_filterMap]
  constructor
  · rintro ⟨i, hi, h⟩
    obtain ⟨hbit, hc⟩ := Option.ite_none_right_eq_some.mp h
    cases hc
    exact (selects_letter (List.mem_range.mp hi)).mpr hbit
  · intro h
    obtain ⟨hle, hge, hbit⟩ := selects_iff.mp h
    refine ⟨c.toNat - 65, List.mem_range.mpr (by omega), ?_⟩
    rw [if_pos hbit, Nat.add_sub_cancel' hle, Char.ofNat_toNat]

theorem pairwise_lettersOf (data : Nat) : (lettersOf data).Pairwise (·.toNat < ·.toNat) := by
  rw [lettersOf, List.pairwise_filterMap]
  refine List.pairwise_lt_range.imp_of_mem fun {i j} hi hj hlt c hc c' hc' => ?_
  obtain ⟨-, hc⟩ := Option.ite_none_right_eq_some.mp hc
  obtain ⟨-, hc'⟩ := Option.ite_none_right_eq_some.mp hc'
  cases hc
  cases hc'
  rw [toNat_letter (List.mem_range.mp hi), toNat_letter (List.mem_range.mp hj)]
  omega

/-- Double words have the same letters just if all bits of letters are the same. -/
theorem lettersOf_eq_iff {data data' : Nat} :
    lettersOf data = lettersOf data' ↔
      ∀ bit, 6 ≤ bit → bit ≤ 31 → data.testBit bit = data'.testBit bit := by
  constructor
  · intro h bit hle hge
    have hletter : 31 - bit < 26 := by omega
    have hbit : 31 - (31 - bit) = bit := by omega
    have hsame : Selects data (Char.ofNat (65 + (31 - bit))) ↔
        Selects data' (Char.ofNat (65 + (31 - bit))) := by
      rw [← mem_lettersOf_iff, h, mem_lettersOf_iff]
    rw [selects_letter hletter, selects_letter hletter, hbit] at hsame
    exact Bool.eq_iff_iff.mpr hsame
  · intro h
    refine List.filterMap_congr fun i hi => ?_
    have hi := List.mem_range.mp hi
    rw [h (31 - i) (by omega) (by omega)]

/-! ## Ranges in a text -/

/-- A range as it is written. -/
def rangeText (range : Char × Char) : String :=
  if range.1 = range.2 then String.singleton range.1 else String.ofList [range.1, '-', range.2]

/-- Ranges as they are written. -/
def rangesText (ranges : List (Char × Char)) : String :=
  Text.join ", " (ranges.map rangeText)

/-- The letters of a text in which ranges stand. -/
def writtenOut : List Char → List Char
  | [] => []
  | ',' :: ' ' :: rest => writtenOut rest
  | first :: '-' :: last :: rest => lettersBetween first last ++ writtenOut rest
  | c :: rest => c :: writtenOut rest

/-- The letters that are listed behind the first blank of a text. -/
def lettersListed (text : String) : List Char :=
  writtenOut (text.toList.dropWhile (· != ' ')).tail

theorem writtenOut_rangeText {range : Char × Char} {rest : List Char} (hrange : range.1 ≠ ',')
    (hrest : rest.head? ≠ some '-') :
    writtenOut ((rangeText range).toList ++ rest) =
      lettersBetween range.1 range.2 ++ writtenOut rest := by
  obtain ⟨first, last⟩ := range
  rw [rangeText]
  by_cases hsame : first = last
  · subst hsame
    rw [if_pos rfl, String.toList_singleton, List.singleton_append, lettersBetween_self, writtenOut,
      List.singleton_append]
    · exact fun _ hcomma _ => hrange hcomma
    · rintro last rest' rfl
      exact hrest rfl
  · rw [if_neg hsame, String.toList_ofList]
    change writtenOut (first :: '-' :: last :: rest) = _
    rw [writtenOut]

/-- A text with ranges has the letters of the ranges. -/
theorem writtenOut_rangesText {ranges : List (Char × Char)} (h : ∀ range ∈ ranges, range.1 ≠ ',') :
    writtenOut (rangesText ranges).toList = lettersIn ranges := by
  induction ranges with
  | nil => rfl
  | cons range rest ih =>
    obtain ⟨hrange, hrest⟩ := List.forall_mem_cons.mp h
    cases rest with
    | nil =>
      have hone : writtenOut ((rangeText range).toList ++ []) =
          lettersBetween range.1 range.2 ++ [] := writtenOut_rangeText hrange (by decide)
      rw [List.append_nil] at hone
      exact hone
    | cons range' rest =>
      have htext : (rangesText (range :: range' :: rest)).toList =
          (rangeText range).toList ++ ',' :: ' ' :: (rangesText (range' :: rest)).toList := by
        rw [rangesText, List.map_cons, List.map_cons, Text.join_cons_cons, String.toList_append,
          String.toList_append, List.append_assoc]
        rfl
      rw [htext, writtenOut_rangeText hrange (by simp), writtenOut, ih hrest, ← lettersIn_cons]

theorem Scalar.length_shortName (type : Scalar) : type.shortName.length = 3 := by
  cases type <;> rfl

theorem Scalar.shortName_inj {type type' : Scalar} (h : type.shortName = type'.shortName) :
    type = type' := by
  revert h
  cases type <;> cases type' <;> decide

/-- The text that gives a type to the letters of ranges. -/
def letterTypesText (type : Scalar) (ranges : List (Char × Char)) : String :=
  "DEF" ++ type.shortName ++ " " ++ rangesText ranges

theorem lettersListed_letterTypesText {ranges : List (Char × Char)} (type : Scalar)
    (h : ∀ range ∈ ranges, range.1 ≠ ',') :
    lettersListed (letterTypesText type ranges) = lettersIn ranges := by
  rw [lettersListed, letterTypesText, String.toList_append, ← writtenOut_rangesText h]
  cases type <;> rfl

theorem type_eq_of_letterTypesText {type type' : Scalar} {ranges ranges' : List (Char × Char)}
    (h : letterTypesText type ranges = letterTypesText type' ranges') : type = type' := by
  have hlist := congrArg String.toList h
  simp only [letterTypesText, String.toList_append, List.append_assoc] at hlist
  have hrest := List.append_cancel_left hlist
  refine Scalar.shortName_inj (String.toList_injective (List.append_inj_left hrest ?_))
  rw [String.length_toList, String.length_toList, Scalar.length_shortName, Scalar.length_shortName]

/-! ## The instruction -/

/-- The statement of a type and a double word. -/
def letterTypes (type : Scalar) (data : Nat) : Statement :=
  .defType type (lettersOf data)

/-- At `p` a file has the instruction that gives a type to letters, with its double word. The type is
one of the version. -/
inductive LetterTypesAt (v : Version) (src : Source) (p data : Nat) (type : Scalar) : Prop where
  | mk {parameter ignored : Nat} (h : InstructionAt v src p 0x001B parameter)
    (hword : src.natLE (p + 2) 2 = .ok ignored) (hdata : src.natLE (p + 4) 4 = .ok data)
    (hpos : 1 ≤ data % 64) (htype : v.scalars[data % 64 - 1]? = some type)

variable {v : Version} {src : Source} {names : Nat → Except Fault Identifier} {p data : Nat}
  {type : Scalar}

theorem scalar_eq_ok {n : Nat} (hpos : 1 ≤ n) (h : v.scalars[n - 1]? = some type) :
    v.scalar n = .ok type := by
  have hindex : ((n : Int) - 1).toNat = n - 1 := by omega
  have hle : (1 : Int) ≤ n := by omega
  rw [Version.scalar, hindex, h]
  exact if_pos hle

/-- The instruction puts the statement, whatever was there before. -/
theorem LetterTypesAt.run_step (h : LetterTypesAt v src p data type) (s : State) :
    (step v).run src p s = (put (letterTypes type data)).run src (p + 8) s := by
  obtain ⟨hcode, hword, hdata, hpos, htype⟩ := h
  have hgiven : (given (v.scalar (data % 64 : Nat))).run src (p + 8) s = (.ok type, p + 8, s) := by
    rw [scalar_eq_ok hpos htype]
    exact run_given _ src _ s
  have hdword : dword.run src (p + 4) s = (.ok data, p + 8, s) := run_number_ok hdata s
  rw [hcode.run_step rfl, run_bind_ok (run_skipWord hword s), run_bind_ok hdword, run_bind_ok hgiven]
  rfl

theorem LetterTypesAt.carries (h : LetterTypesAt v src p data type) :
    Carries v src names p (p + 8) .fresh ⟨letterTypes type data, [], .none⟩ := by
  intro s hnames hfresh
  have hput : Turns src names (put (letterTypes type data)) (p + 8) (p + 8) (.ok ()) .fresh
      ⟨letterTypes type data, [], .none⟩ := turns_put rfl
  obtain ⟨symbols, hrun, -⟩ := hput s hnames hfresh
  exact ⟨symbols, .step .refl ((h.run_step s).trans hrun)⟩

theorem render_letterTypes (type : Scalar) (data column : Nat) :
    (letterTypes type data).render column =
      .ok (letterTypesText type (letterRuns (lettersOf data))) := rfl

/-- Ranges of letters have no commas. -/
theorem ne_comma_of_mem_letterRuns {range : Char × Char} (h : range ∈ letterRuns (lettersOf data)) :
    range.1 ≠ ',' := by
  intro hcomma
  obtain ⟨hle, -⟩ := mem_lettersOf_iff.mp (mem_of_mem_letterRuns range h).1
  rw [hcomma] at hle
  exact absurd hle (by decide)

theorem lettersListed_letterTypes (type : Scalar) (data : Nat) :
    lettersListed (letterTypesText type (letterRuns (lettersOf data))) = lettersOf data := by
  rw [lettersListed_letterTypesText type fun _ => ne_comma_of_mem_letterRuns, lettersIn_letterRuns]

/-- Two statements have the same text just if they have the same type and the same letters. -/
theorem letterTypesText_eq_iff {type' : Scalar} {data' : Nat} :
    letterTypesText type' (letterRuns (lettersOf data')) =
        letterTypesText type (letterRuns (lettersOf data)) ↔
      type' = type ∧ ∀ bit, 6 ≤ bit → bit ≤ 31 → data'.testBit bit = data.testBit bit := by
  rw [← lettersOf_eq_iff]
  constructor
  · intro h
    have hlisted := congrArg lettersListed h
    rw [lettersListed_letterTypes, lettersListed_letterTypes] at hlisted
    exact ⟨type_eq_of_letterTypesText h, hlisted⟩
  · rintro ⟨rfl, hletters⟩
    rw [hletters]

/-- **Types of letters.** Let a file have the instruction that gives a type of its version to letters.
It puts a statement, and as the only one of a line this is written behind the label and the
indentation. The text is `DEF`, the short name of the type and ranges that cannot be longer. Written
out, they are the letters whose bits are set, each once and in their order. The text of another type or
of a double word with another bit of a letter is a different one. -/
theorem letterTypes_written (h : LetterTypesAt v src p data type) :
    ∃ ranges,
      (∀ s : State, (step v).run src p s = (put (letterTypes type data)).run src (p + 8) s) ∧
      (∀ (s : State) (pos indent : Nat) (label : Option Identifier),
        LineAt v src (s.identifierAt src) pos p label indent →
        ∃ t l, (instructions v (p + 8)).run src pos s = (.ok (), p + 8, t) ∧
          t.program.current.lines = l :: s.program.current.lines ∧
          l.statements = [letterTypes type data] ∧
          l.render = .ok (Line.margin label indent ++ letterTypesText type ranges)) ∧
      (∀ column, (letterTypes type data).render column = .ok (letterTypesText type ranges)) ∧
      lettersListed (letterTypesText type ranges) = lettersIn ranges ∧
      (∀ c, c ∈ lettersIn ranges ↔ Selects data c) ∧
      (lettersIn ranges).Pairwise (·.toNat < ·.toNat) ∧ MaximalRanges ranges ∧
      ∀ (type' : Scalar) (data' column : Nat),
        (letterTypes type' data').render column = .ok (letterTypesText type ranges) ↔
          type' = type ∧ ∀ bit, 6 ≤ bit → bit ≤ 31 → data'.testBit bit = data.testBit bit := by
  refine ⟨letterRuns (lettersOf data), h.run_step, fun s pos indent label hline => ?_,
    render_letterTypes type data, ?_, fun c => ?_, ?_,
    maximalRanges_letterRuns (pairwise_lettersOf data), fun type' data' column => ?_⟩
  · obtain ⟨t, hrun, -, hlines⟩ := h.carries.adds_line hline
    refine ⟨t, _, hrun, hlines, rfl, ?_⟩
    rw [Line.render_setLast_start, render_letterTypes]
    rfl
  · rw [lettersListed_letterTypes, lettersIn_letterRuns]
  · rw [lettersIn_letterRuns, mem_lettersOf_iff]
  · rw [lettersIn_letterRuns]
    exact pairwise_lettersOf data
  · rw [render_letterTypes, Except.ok.injEq, letterTypesText_eq_iff]

/-- A line that gives the type `INTEGER` to the first letters, the last ones and one between them. -/
def letterTypesFile : Source :=
  lineFile [0x1B, 0x00, 0x00, 0x00, 0xC1, 0x00, 0x08, 0xE0]

theorem letterTypesFile_written :
    LetterTypesAt .qb45 letterTypesFile 0x24 0xE00800C1 .integer ∧
    (∃ t l, (instructions .qb45 0x2C).run letterTypesFile 0x22 (.start .qb45) = (.ok (), 0x2C, t) ∧
      t.program.current.lines = [l] ∧ l.render = .ok "DEFINT A-C, M, Y-Z") ∧
    (letterTypes .integer 0xE00000C1).render 0 ≠ .ok "DEFINT A-C, M, Y-Z" := by
  have h : LetterTypesAt .qb45 letterTypesFile 0x24 0xE00800C1 .integer :=
    ⟨⟨_, rfl, rfl⟩, rfl, rfl, by decide, rfl⟩
  obtain ⟨ranges, -, hline, htext, -, -, -, -, hother⟩ := letterTypes_written h
  have hranges : letterTypesText .integer ranges = "DEFINT A-C, M, Y-Z" :=
    Except.ok.inj ((htext 0).symm.trans rfl)
  rw [hranges] at hline hother
  obtain ⟨t, l, hrun, hlines, -, hrender⟩ := hline (.start .qb45) 0x22 0 none (.plain ⟨_, rfl, rfl⟩)
  refine ⟨h, ⟨t, l, hrun, hlines, hrender⟩, fun hsame => ?_⟩
  exact absurd (((hother _ _ _).mp hsame).2 19 (by decide) (by decide)) (by decide)

end SavedBasic
