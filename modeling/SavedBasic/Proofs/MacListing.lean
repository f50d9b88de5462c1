import Mathlib.Data.List.Forall2
import SavedBasic.Command
import SavedBasic.Proofs.MacTokens

/-!
# Files of the Macintosh format that are written and listed

The identifier table stands behind the records, at a place that depends on their lengths, and is needed
to print the first of them. So a file is gone through by the lengths of its records first, and then a
second time with their tokens. For a file that was written from records and names both times lead to the
same records, and the names that are found are the ones that were written.

The listing has one line for each record, in their order: the line number and a space if there is one,
the spaces, and what the tokens are read to.
-/

namespace SavedBasic.Mac

open Text

/-! ## Going through records -/

section

variable {src : Source} {offset word : Nat}

theorem recordsEnd_of_word (h : src.natBE offset 2 = .ok word) :
    recordsEnd src offset =
      if word % 0x8000 = 0 then .ok (offset + 2) else recordsEnd src (offset + word % 0x8000) := by
  rw [recordsEnd]
  split
  · rename_i fault herror
    rw [h] at herror
    cases herror
  · rename_i word' hword
    rw [h] at hword
    cases hword
    rfl

theorem renderRecords_of_word (names : Array String) (h : src.natBE offset 2 = .ok word) :
    renderRecords src names offset =
      if word % 0x8000 = 0 then ⟨[], none⟩
      else
        match renderRecord src names offset (word.testBit 15) with
        | .error fault => ⟨[], some fault⟩
        | .ok line =>
          ⟨line :: (renderRecords src names (offset + word % 0x8000)).lines,
            (renderRecords src names (offset + word % 0x8000)).failure⟩ := by
  rw [renderRecords]
  split
  · rename_i fault herror
    rw [h] at herror
    cases herror
  · rename_i word' hword
    rw [h] at hword
    cases hword
    rfl

end

/-! ## Records that can be written -/

namespace Record

/-- The parts of a record fit into their bytes, and the record is not too long. -/
structure Fits (r : Record) : Prop where
  indent : r.indent ≤ 0xFF
  number : ∀ n ∈ r.number, n ≤ 0xFFFF
  tokens : ∀ t ∈ r.tokens, t.Fits
  length : r.encode.length ≤ 0x7FFF

/-- What a line starts with: its number and a space, if it has one, and its spaces. -/
def opening (r : Record) : String :=
  (r.number.map fun n => Numeral.decimal n ++ " ").getD "" ++ spaces r.indent

/-- The line of a record. -/
def line (names : Array String) (r : Record) : String :=
  Token.appendAll names r.opening r.tokens

theorem length_encode (r : Record) : r.encode.length = r.body.length + 2 := by
  rw [encode, List.length_append, Bytes.length_ofNatBE, Nat.add_comm]

theorem length_encode_ne_zero (r : Record) : r.encode.length ≠ 0 := by
  rw [length_encode]
  exact Nat.succ_ne_zero _

variable {src : Source} {offset : Nat} {r : Record}

/-- The word at the beginning of a record gives its length, and whether it has a line number. -/
theorem exists_word (hfits : r.Fits) (h : src.Holds offset r.encode) :
    ∃ word, src.natBE offset 2 = .ok word ∧ word % 0x8000 = r.encode.length ∧
      word.testBit 15 = r.number.isSome := by
  have hlength := hfits.length
  rw [length_encode] at hlength ⊢
  refine ⟨_, (Source.holds_append.mp h).1.natBE_ofNatBE (by decide) ?_, ?_, ?_⟩
  · change _ < 65536
    split <;> omega
  · split <;> omega
  · rw [Nat.testBit_eq_decide_div_mod_eq]
    cases r.number <;> simp <;> omega

/-- The line of a record is printed. -/
theorem renderRecord_of_holds (names : Array String) (hfits : r.Fits) (h : src.Holds offset r.encode) :
    renderRecord src names offset r.number.isSome = .ok (r.line names) := by
  rw [encode, body, List.append_assoc, List.append_assoc, Source.holds_append, Source.holds_append,
    Bytes.length_ofNatBE, Bytes.length_ofNatBE] at h
  obtain ⟨-, hindent, hrest⟩ := h
  have hindent' : byteAt src (offset + 2) = .ok r.indent :=
    byteAt_of_holds_ofNat hindent (Nat.lt_succ_of_le hfits.indent)
  rw [renderRecord, hindent', line, opening]
  cases hnumber : r.number with
  | none =>
    rw [hnumber] at hrest
    rw [Option.map_none, Option.getD_none, String.empty_append]
    exact renderTokens_of_holds names hfits.tokens hrest (spaces r.indent)
  | some number =>
    rw [hnumber, Option.map_some, Option.getD_some, Source.holds_append, Bytes.length_ofNatBE] at hrest
    obtain ⟨hnumber', hrest⟩ := hrest
    have hword : src.natBE (offset + 3) 2 = .ok number :=
      hnumber'.natBE_ofNatBE (by decide) (Nat.lt_succ_of_le (hfits.number number hnumber))
    simp only [bind, Except.bind, Option.isSome_some, if_true, hword]
    exact renderTokens_of_holds names hfits.tokens hrest _

end Record

/-! ## A whole file -/

section

variable {src : Source} {offset : Nat} {records : List Record}

theorem encodeRecords_cons (r : Record) (rest : List Record) :
    encodeRecords (r :: rest) = r.encode ++ encodeRecords rest := by
  rw [encodeRecords, encodeRecords, List.map_cons, List.flatten_cons, List.append_assoc]

theorem natBE_of_end (h : src.Holds offset (encodeRecords [])) : src.natBE offset 2 = .ok 0 :=
  Source.Holds.natBE_ofNatBE (n := 0) (by decide) (by decide) h

/-- By their lengths alone, going through records leads behind the word that ends them. -/
theorem recordsEnd_of_holds (hfits : ∀ r ∈ records, r.Fits)
    (h : src.Holds offset (encodeRecords records)) :
    recordsEnd src offset = .ok (offset + (encodeRecords records).length) := by
  induction records generalizing offset with
  | nil =>
    rw [recordsEnd_of_word (natBE_of_end h)]
    rfl
  | cons r rest ih =>
    rw [List.forall_mem_cons] at hfits
    rw [encodeRecords_cons, Source.holds_append] at h
    obtain ⟨word, hword, hlength, -⟩ := r.exists_word hfits.1 h.1
    rw [recordsEnd_of_word hword, hlength, if_neg r.length_encode_ne_zero, ih hfits.2 h.2,
      encodeRecords_cons, List.length_append, Nat.add_assoc]

/-- With their tokens, going through records gives a line for each of them. -/
theorem renderRecords_of_holds (names : Array String) (hfits : ∀ r ∈ records, r.Fits)
    (h : src.Holds offset (encodeRecords records)) :
    renderRecords src names offset = .ofLines (records.map (Record.line names)) := by
  induction records generalizing offset with
  | nil =>
    rw [renderRecords_of_word _ (natBE_of_end h)]
    rfl
  | cons r rest ih =>
    rw [List.forall_mem_cons] at hfits
    rw [encodeRecords_cons, Source.holds_append] at h
    obtain ⟨word, hword, hlength, hbit⟩ := r.exists_word hfits.1 h.1
    rw [renderRecords_of_word _ hword, hlength, if_neg r.length_encode_ne_zero, hbit,
      r.renderRecord_of_holds names hfits.1 h.1, ih hfits.2 h.2]
    rfl

end

/-! ## Names -/

/-- The bytes of a text. -/
def utf8 (name : String) : Bytes :=
  name.toUTF8.data.toList

theorem length_utf8 (name : String) : (utf8 name).length = name.utf8ByteSize :=
  Array.length_toList

theorem textOf_utf8 (name : String) : textOf (utf8 name) = .ok name := by
  have hbytes : ByteArray.mk (utf8 name).toArray = name.toByteArray := by
    rw [utf8, Array.toArray_toList]
    rfl
  rw [textOf, hbytes, String.fromUTF8?, dif_pos name.isValidUTF8]
  rfl

/-- Names that stand up to the end of a file are read. -/
theorem readNames_of_rest {src : Source} {pos : Nat} {names : List String}
    (hfits : ∀ name ∈ names, name.utf8ByteSize ≤ 0xFF)
    (h : src.rest pos = ((names.map utf8).map encodeName).flatten) : readNames src pos = .ok names := by
  induction names generalizing pos with
  | nil =>
    have hsize := src.length_rest pos
    rw [h] at hsize
    change 0 = _ at hsize
    rw [readNames, dif_neg (by omega)]
  | cons name rest ih =>
    rw [List.forall_mem_cons] at hfits
    rw [List.map_cons, List.map_cons, List.flatten_cons] at h
    have hholds : src.Holds pos (encodeName (utf8 name)) := ⟨_, h.symm⟩
    obtain ⟨hlength, hname⟩ := Source.holds_append.mp hholds
    have hlt : (utf8 name).length < 0x100 := by
      rw [length_utf8]
      exact Nat.lt_succ_of_le hfits.1
    have hbyte : byteAt src pos = .ok (utf8 name).length := byteAt_of_holds_ofNat hlength hlt
    have hslice : src.slice (pos + 1) (utf8 name).length = utf8 name := hname.slice_eq
    have hsize : pos < src.size := by
      have hle := hholds.length_le
      rw [src.length_rest, encodeName, List.length_append, Bytes.length_ofNatBE] at hle
      omega
    have hrest : src.rest (pos + 1 + (utf8 name).length) =
        ((rest.map utf8).map encodeName).flatten := by
      rw [Nat.add_assoc, Source.rest_add, h]
      refine List.drop_left' ?_
      rw [encodeName, List.length_append, Bytes.length_ofNatBE]
    rw [readNames, dif_pos hsize, hbyte]
    simp only [bind, Except.bind, hslice, textOf_utf8, ih hfits.2 hrest]
    rfl

/-! ## The listing of a file -/

/-- A file has its mark first, then the records, and the names from a place behind them up to its end. -/
theorem exists_encode_eq (records : List Record) (names : List Bytes) :
    ∃ front, encode records names = front ++ (names.map encodeName).flatten ∧
      front.length = namesStart (1 + (encodeRecords records).length) ∧
      UInt8.ofNat mark :: encodeRecords records <+: front := by
  refine ⟨_, rfl, ?_, List.prefix_append _ _⟩
  rw [List.length_append, List.length_replicate, List.length_cons, Nat.add_comm _ 1]
  simp only [namesStart]
  split <;> omega

/-- The lines of records are determined by the rules for their tokens. -/
theorem forall₂_reads_iff {records : List Record} {names lines : List String} :
    List.Forall₂ (fun r line => Token.Reads names r.opening r.tokens line) records lines ↔
      lines = records.map (Record.line names.toArray) := by
  simp only [Token.reads_iff]
  rw [eq_comm, ← List.forall₂_eq_eq_eq, List.forall₂_map_left_iff]
  simp only [Record.line, eq_comm]

/-- **Files that are written and listed.** The file of records and names is listed without a fault, with
exactly one line for each record, in their order: the line number and a space if there is one, the
spaces, and the texts of the tokens, with no other changes than those of the three keywords that take
note of how a text ends. No other lines keep to these rules. -/
theorem listMac_encode {records : List Record} {names : List String}
    (hrecords : ∀ r ∈ records, r.Fits) (hnames : ∀ name ∈ names, name.utf8ByteSize ≤ 0xFF) :
    ∃ lines, Command.listMac (.ofBytes (encode records (names.map utf8))) =
        .printed none (.ofLines lines) ∧
      ∀ lines', List.Forall₂ (fun r line => Token.Reads names r.opening r.tokens line) records lines' ↔
        lines' = lines := by
  refine ⟨records.map (Record.line names.toArray), ?_, fun _ => forall₂_reads_iff⟩
  obtain ⟨front, hencode, hlength, hprefix⟩ := exists_encode_eq records (names.map utf8)
  rw [hencode]
  generalize hsrc : Source.ofBytes (front ++ ((names.map utf8).map encodeName).flatten) = src
  have hfile : src.Holds 0 (UInt8.ofNat mark :: encodeRecords records) := by
    rw [← hsrc]
    exact List.IsPrefix.trans hprefix (List.prefix_append ..)
  have hend : recordsEnd src 1 = .ok (1 + (encodeRecords records).length) :=
    recordsEnd_of_holds hrecords hfile.tail
  have htable : readNames src (namesStart (1 + (encodeRecords records).length)) = .ok names := by
    refine readNames_of_rest hnames ?_
    rw [← hlength, ← hsrc, Source.rest_ofBytes, List.drop_left]
  have hprint : print src = .ofLines (records.map (Record.line names.toArray)) := by
    rw [print, hend]
    simp only [Except.bind, htable]
    exact renderRecords_of_holds names.toArray hrecords hfile.tail
  rw [Command.listMac, byteAt_of_holds hfile, hprint]
  rfl

/-! A program in which keywords find the ends that they look for: a colon, a remark behind a colon, and
the end of a name that is spelled like a keyword. -/

/-- The records of the sample. -/
def meetingRecords : List Record :=
  [⟨none, 2, [.byte 0x98, .char ' ', .name .variable 0, .byte 0xE6, .silent 0, .char ' ',
      .decimal .byte 0, .char ':', .byte 0x8E, .longHexadecimal 0xFF00, .char ':', .byte 0xAF,
      .byte 0xE8, .char 'x']⟩,
    ⟨some 10, 0, [.name .wide 1, .byte 0xEC, .pair 0xF8 0x83, .name .label 2, .octal 8]⟩]

/-- The names of the sample. -/
def meetingNames : List String :=
  ["Straße", "DOWHILE"]

theorem fits_meetingRecords : ∀ r ∈ meetingRecords, r.Fits := by
  have hall : ∀ r ∈ meetingRecords, r.indent ≤ 0xFF ∧ (∀ n ∈ r.number, n ≤ 0xFFFF) ∧
      (∀ t ∈ r.tokens, t.Fits) ∧ r.encode.length ≤ 0x7FFF := by
    decide
  exact fun r hr => ⟨(hall r hr).1, (hall r hr).2.1, (hall r hr).2.2.1, (hall r hr).2.2.2⟩

/-- The sample is listed: the colons in front of `ELSE` and of the remark are gone, and so is the sign
behind the name. -/
theorem meeting_listed :
    (∀ r ∈ meetingRecords, r.Fits) ∧ (∀ name ∈ meetingNames, name.utf8ByteSize ≤ 0xFF) ∧
      Command.listMac (.ofBytes (encode meetingRecords (meetingNames.map utf8))) =
        .printed none (.ofLines
          ["  IF StraßeTHEN 0ELSE&HFF00&'x", "10 DOWHILECLS[unknown variable 2]&O10"]) := by
  have hnames : ∀ name ∈ meetingNames, name.utf8ByteSize ≤ 0xFF := by decide
  obtain ⟨lines, hlist, hlines⟩ := listMac_encode fits_meetingRecords hnames
  have hmap : lines = meetingRecords.map (Record.line meetingNames.toArray) :=
    forall₂_reads_iff.mp ((hlines lines).mpr rfl)
  refine ⟨fits_meetingRecords, hnames, ?_⟩
  rw [hlist, hmap]
  rfl

end SavedBasic.Mac
