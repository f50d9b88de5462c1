import SavedBasic.Mac.Record
import SavedBasic.Proofs.Reading

/-!
# Tokens that are written and read back

In the Macintosh format a token has no mark of its end: its first byte says how many bytes follow. The
zero byte that ends a line may also occur inside a token, and only the first bytes tell the two apart.
Where the bytes of a token stand, the same token is read, and reading ends behind it
(`Token.read_of_holds`).

The text of a line is not put together from the texts of its tokens alone. `Token.Reads` says how: a
token adds its text, but for three keywords, which look at what the text ends with. These rules lead to
one text, which is the one that appending the tokens gives (`Token.reads_iff`), and where the tokens stand
with a zero byte behind them, it is printed (`renderTokens_of_holds`).
-/

namespace SavedBasic

/-! ## Numbers with the most significant byte first -/

@[simp] theorem Bytes.length_ofNatBE (width n : Nat) : (ofNatBE width n).length = width := by
  rw [ofNatBE, List.length_reverse, length_ofNatLE]

namespace Source

variable {src : Source} {pos : Nat}

theorem Holds.natBE_ofNatBE {width n : Nat} (hw : 0 < width) (hn : n < Nat.pow 256 width)
    (h : src.Holds pos (Bytes.ofNatBE width n)) : src.natBE pos width = .ok n := by
  have hsize := h.length_le
  rw [Bytes.length_ofNatBE, length_rest] at hsize
  have hslice := h.slice_eq
  rw [Bytes.length_ofNatBE] at hslice
  rw [natBE, exactly, if_pos (by omega), hslice]
  change Except.ok (Bytes.toNatLE (Bytes.ofNatLE width n).reverse.reverse) = _
  rw [List.reverse_reverse, Bytes.toNatLE_ofNatLE, Nat.mod_eq_of_lt hn]

/-- The first of some bytes is found at their position. -/
theorem Holds.data_eq {b : UInt8} {rest : Bytes} (h : src.Holds pos (b :: rest)) :
    src.data[pos]? = some b := by
  obtain ⟨behind, hrest⟩ := h
  rw [← Array.getElem?_toList, ← List.head?_drop, ← Source.rest, ← hrest]
  rfl

theorem Holds.tail {b : UInt8} {rest : Bytes} (h : src.Holds pos (b :: rest)) :
    src.Holds (pos + 1) rest :=
  (holds_append (a := [b])).mp h |>.2

end Source

namespace Mac

open Text

theorem byteAt_of_holds {src : Source} {pos : Nat} {b : UInt8} {rest : Bytes}
    (h : src.Holds pos (b :: rest)) : byteAt src pos = .ok b.toNat := by
  rw [byteAt, h.data_eq]

/-- A number that was written as a byte is read back. -/
theorem byteAt_of_holds_ofNat {src : Source} {pos n : Nat} {rest : Bytes}
    (h : src.Holds pos (UInt8.ofNat n :: rest)) (hn : n < 0x100) : byteAt src pos = .ok n := by
  rw [byteAt_of_holds h, UInt8.toNat_ofNat_of_lt' hn]

namespace Token

/-! ## Reading a token -/

/-- The bytes that start a token with a number behind it. -/
def valueCodes : List Nat :=
  [0x01, 0x02, 0x03, 0x08, 0x0B, 0x0C, 0x0E, 0x0F, 0x1B, 0x1C, 0x1D, 0x1E, 0x1F]

/-- The token can be written: its character is printable, its number fits into its width, and its first
byte is not one that starts a token of another kind, or ends the line. -/
def Fits : Token → Prop
  | char c => 32 ≤ c.toNat ∧ c.toNat ≤ 126
  | name .wide n | silent n | longHexadecimal n | decimal .dword n | decimal .long n | single n =>
    n < 0x100000000
  | name _ n | octal n | hexadecimal n | decimal .word n => n < 0x10000
  | decimal .byte n => n < 0x100
  | double bits => bits < 0x10000000000000000
  | byte code => 0 < code ∧ code < 0x100 ∧ ¬ (32 ≤ code ∧ code ≤ 126) ∧ code ∉ valueCodes ∧
      pages.lookup code = none
  | pair lead code => (pages.lookup lead).isSome ∧ code < 0x100

instance : DecidablePred Fits
  | char _ | byte _ | pair _ _ => inferInstanceAs (Decidable (_ ∧ _))
  | name .variable _ | name .label _ | name .wide _ | silent _ | octal _ | hexadecimal _
  | longHexadecimal _ | decimal .byte _ | decimal .word _ | decimal .dword _ | decimal .long _
  | single _ | double _ => Nat.decLt _ _

/-! All keywords can be written. -/

example : ∀ entry ∈ keywords, (byte entry.1).Fits := by decide

example : ∀ page ∈ pages, ∀ entry ∈ page.2, (pair page.1 entry.1).Fits := by decide

section

variable {src : Source} {pos : Nat} {first : UInt8} {make : Nat → Token}

theorem withNumber_of_holds {width n : Nat} (h : src.Holds pos (first :: Bytes.ofNatBE width n))
    (hw : 0 < width) (hn : n < Nat.pow 256 width) :
    withNumber src pos width make = .ok (make n, pos + (first :: Bytes.ofNatBE width n).length) := by
  rw [withNumber, h.tail.natBE_ofNatBE hw hn, List.length_cons, Bytes.length_ofNatBE, Nat.add_comm width,
    ← Nat.add_assoc]
  rfl

theorem withByte_of_holds {n : Nat} (h : src.Holds pos [first, UInt8.ofNat n]) (hn : n < 0x100) :
    withByte src pos make = .ok (make n, pos + 2) := by
  rw [withByte, byteAt_of_holds_ofNat h.tail hn]
  rfl

theorem read_char {code : Nat} (h : 32 ≤ code ∧ code ≤ 126) :
    read src pos code = .ok (char (Char.ofNat code), pos + 1) := by
  unfold read
  exact if_pos h

/-- A byte that no other kind of token starts with is a token by itself, or the first of two bytes. -/
theorem read_keyword {code : Nat} (hchar : ¬ (32 ≤ code ∧ code ≤ 126)) (hvalue : code ∉ valueCodes) :
    read src pos code = if (pages.lookup code).isSome then withByte src pos (pair code)
      else .ok (byte code, pos + 1) := by
  unfold read
  rw [if_neg hchar]
  split
  all_goals first | rfl | exact absurd (by decide) hvalue

/-- The lead bytes of keywords start no token of another kind. -/
theorem lead_of_isSome_lookup {lead : Nat} (h : (pages.lookup lead).isSome) :
    0 < lead ∧ lead < 0x100 ∧ ¬ (32 ≤ lead ∧ lead ≤ 126) ∧ lead ∉ valueCodes := by
  obtain ⟨page, hpage⟩ := Option.isSome_iff_exists.mp h
  obtain ⟨before, behind, hpages, -⟩ := List.lookup_eq_some_iff.mp hpage
  have hmem : (lead, page) ∈ pages := by
    rw [hpages]
    exact List.mem_append_right before List.mem_cons_self
  have hleads : ∀ entry ∈ pages,
      0 < entry.1 ∧ entry.1 < 0x100 ∧ ¬ (32 ≤ entry.1 ∧ entry.1 ≤ 126) ∧ entry.1 ∉ valueCodes := by
    decide
  exact hleads _ hmem

/-- A number of one byte that is not zero is not written as zero. -/
theorem ofNat_ne_zero {code : Nat} (hpos : 0 < code) (hlt : code < 0x100) :
    (UInt8.ofNat code).toNat = code ∧ UInt8.ofNat code ≠ 0 := by
  have hcode : (UInt8.ofNat code).toNat = code := UInt8.toNat_ofNat_of_lt' hlt
  refine ⟨hcode, fun hzero => ?_⟩
  rw [hzero] at hcode
  exact Nat.ne_of_lt hpos hcode

/-- Where the bytes of a token stand, this token is read, and no more than its bytes. Its first byte does
not end the line. -/
theorem read_of_holds {t : Token} (hfits : t.Fits) (h : src.Holds pos t.encode) :
    ∃ first, src.data[pos]? = some first ∧ first ≠ 0 ∧
      read src pos first.toNat = .ok (t, pos + t.encode.length) := by
  cases t with
  | char c =>
    obtain ⟨hlow, hhigh⟩ : 32 ≤ c.toNat ∧ c.toNat ≤ 126 := hfits
    obtain ⟨hcode, hne⟩ := ofNat_ne_zero (Nat.lt_of_lt_of_le (by decide) hlow)
      (Nat.lt_of_le_of_lt hhigh (by decide))
    refine ⟨_, h.data_eq, hne, ?_⟩
    rw [hcode, read_char ⟨hlow, hhigh⟩, Char.ofNat_toNat]
    rfl
  | name form n =>
    cases form <;> exact ⟨_, h.data_eq, by decide, withNumber_of_holds h (by decide) hfits⟩
  | silent n | octal n | hexadecimal n | longHexadecimal n | single n | double n =>
    exact ⟨_, h.data_eq, by decide, withNumber_of_holds h (by decide) hfits⟩
  | decimal form n =>
    cases form with
    | byte => exact ⟨_, h.data_eq, by decide, withByte_of_holds h hfits⟩
    | word | dword | long =>
      exact ⟨_, h.data_eq, by decide, withNumber_of_holds h (by decide) hfits⟩
  | byte code =>
    obtain ⟨hpos, hlt, hchar, hvalue, hpage⟩ := hfits
    obtain ⟨hcode, hne⟩ := ofNat_ne_zero hpos hlt
    refine ⟨_, h.data_eq, hne, ?_⟩
    rw [hcode, read_keyword hchar hvalue, hpage]
    rfl
  | pair lead code =>
    obtain ⟨hpage, hlt'⟩ := hfits
    obtain ⟨hpos, hlt, hchar, hvalue⟩ := lead_of_isSome_lookup hpage
    obtain ⟨hcode, hne⟩ := ofNat_ne_zero hpos hlt
    refine ⟨_, h.data_eq, hne, ?_⟩
    rw [hcode, read_keyword hchar hvalue, if_pos hpage]
    exact withByte_of_holds h hlt'

end

/-! ## The text of a line -/

/-- The text of a token by itself. A reference to a name that the table does not have, and bytes without a
meaning, have texts, too. -/
def text (names : List String) : Token → String
  | char c => String.singleton c
  | name _ index => names[index]?.getD ("[unknown variable " ++ Numeral.decimal index ++ "]")
  | silent _ => ""
  | octal n => "&O" ++ Numeral.octal n
  | hexadecimal n => "&H" ++ Numeral.hexadecimal n
  | longHexadecimal n => "&H" ++ Numeral.hexadecimal n ++ "&"
  | decimal .long n => Numeral.decimal n ++ "&"
  | decimal _ n => Numeral.decimal n
  | single bits => (Binary64.ofBits32 bits).text
  | double bits => Binary64.text ⟨bits⟩ ++ "#"
  | byte code => (keywords.lookup code).getD (unknown [code])
  | pair lead code => ((pages.lookup lead).bind (·.lookup code)).getD (unknown [lead, code])

/-- The keywords that take note of how a text ends, with the end that each of them looks for and what
stands in its place when it is found. -/
def fixups : List (Token × String × String) :=
  [(byte 0x8E, ":", "ELSE"), (byte 0xE8, ":REM", "'"), (byte 0xEC, "WHILE", "WHILE")]

/-- A text becomes another one by the texts of tokens: each of them is added, unless a keyword finds the
end that it looks for. -/
inductive Reads (names : List String) : String → List Token → String → Prop where
  /-- no more tokens -/
  | nil {line : String} : Reads names line [] line
  /-- a text that is added -/
  | added {line result : String} {t : Token} {rest : List Token}
    (h : ∀ fixup ∈ fixups, t = fixup.1 → ∀ front, line ≠ front ++ fixup.2.1)
    (behind : Reads names (line ++ t.text names) rest result) : Reads names line (t :: rest) result
  /-- an end that is found -/
  | replaced {front result : String} {fixup : Token × String × String} {rest : List Token}
    (h : fixup ∈ fixups) (behind : Reads names (front ++ fixup.2.2) rest result) :
    Reads names (front ++ fixup.2.1) (fixup.1 :: rest) result

theorem endsWith_iff {line tail : String} :
    endsWith line tail = true ↔ ∃ front, line = front ++ tail := by
  rw [endsWith, List.isSuffixOf_iff_suffix]
  constructor
  · rintro ⟨front, hfront⟩
    refine ⟨String.ofList front, String.toList_injective ?_⟩
    rw [String.toList_append, String.toList_ofList, hfront]
  · rintro ⟨front, rfl⟩
    rw [String.toList_append]
    exact List.suffix_append ..

theorem dropEnd_append (front tail : String) : dropEnd (front ++ tail) tail.length = front := by
  apply String.toList_injective
  rw [dropEnd, String.toList_ofList, String.length_append, Nat.add_sub_cancel, String.toList_append,
    ← String.length_toList, List.take_left]

/-- A keyword that finds the end it looks for replaces it. -/
theorem append_fixup (names : Array String) {fixup : Token × String × String} (h : fixup ∈ fixups)
    (front : String) : fixup.1.append names (front ++ fixup.2.1) = front ++ fixup.2.2 := by
  have hends : endsWith (front ++ fixup.2.1) fixup.2.1 = true := endsWith_iff.mpr ⟨front, rfl⟩
  simp only [fixups, List.mem_cons, List.not_mem_nil, or_false] at h
  rcases h with rfl | rfl | rfl
  · rw [append, appendByte, if_pos ⟨rfl, hends⟩]
    exact congrArg (· ++ "ELSE") (dropEnd_append front ":")
  · rw [append, appendByte, if_neg (by simp), if_pos ⟨rfl, hends⟩]
    exact congrArg (· ++ "'") (dropEnd_append front ":REM")
  · rw [append, appendByte, if_neg (by simp), if_neg (by simp), if_pos ⟨rfl, hends⟩]

/-- A keyword that does not find such an end adds its text. -/
theorem appendByte_of_not {code : Nat} {line : String}
    (h : ∀ fixup ∈ fixups, byte code = fixup.1 → ∀ front, line ≠ front ++ fixup.2.1) :
    appendByte line code = line ++ (keywords.lookup code).getD (unknown [code]) := by
  have hnot : ∀ (code' : Nat) (tail shown : String), (byte code', tail, shown) ∈ fixups →
      ¬ (code = code' ∧ endsWith line tail = true) := by
    rintro code' tail shown hmem ⟨rfl, hends⟩
    obtain ⟨front, hfront⟩ := endsWith_iff.mp hends
    exact h _ hmem rfl front hfront
  rw [appendByte, if_neg (hnot 0x8E ":" "ELSE" (by simp [fixups])),
    if_neg (hnot 0xE8 ":REM" "'" (by simp [fixups])),
    if_neg (hnot 0xEC "WHILE" "WHILE" (by simp [fixups]))]

/-- Every other token adds its text. -/
theorem append_eq {names : List String} {t : Token} (h : ∀ code, t ≠ byte code) (line : String) :
    t.append names.toArray line = line ++ t.text names := by
  cases t with
  | char c => rfl
  | byte code => exact absurd rfl (h code)
  | decimal form n => cases form <;> simp [append, text, String.append_assoc]
  | name form index => simp [append, text]
  | silent n | octal n | hexadecimal n | longHexadecimal n | single n | double n | pair lead code =>
    simp [append, text, String.append_assoc]

/-- A token that finds no end that it looks for adds its text. -/
theorem append_of_not {names : List String} {line : String} {t : Token}
    (h : ∀ fixup ∈ fixups, t = fixup.1 → ∀ front, line ≠ front ++ fixup.2.1) :
    t.append names.toArray line = line ++ t.text names := by
  cases t with
  | byte code => exact appendByte_of_not h
  | _ => exact append_eq (by simp) line

/-- One token: the rules go on from the text that the line becomes by it. -/
theorem reads_cons_iff {names : List String} {line result : String} {t : Token} {rest : List Token} :
    Reads names line (t :: rest) result ↔ Reads names (t.append names.toArray line) rest result := by
  constructor
  · rintro (_ | ⟨hnone, hbehind⟩ | ⟨hmem, hbehind⟩)
    · rwa [append_of_not hnone]
    · rwa [append_fixup names.toArray hmem]
  · intro h
    by_cases hfound : ∃ fixup ∈ fixups, t = fixup.1 ∧ ∃ front, line = front ++ fixup.2.1
    · obtain ⟨fixup, hmem, rfl, front, rfl⟩ := hfound
      rw [append_fixup names.toArray hmem] at h
      exact .replaced hmem h
    · have hnone : ∀ fixup ∈ fixups, t = fixup.1 → ∀ front, line ≠ front ++ fixup.2.1 :=
        fun fixup hmem ht front hfront => hfound ⟨fixup, hmem, ht, front, hfront⟩
      rw [append_of_not hnone] at h
      exact .added hnone h

/-- The line with the texts of tokens. -/
def appendAll (names : Array String) (line : String) (tokens : List Token) : String :=
  tokens.foldl (fun line t => t.append names line) line

/-- The rules lead to one text only, which is the one that appending the tokens gives. -/
theorem reads_iff {names : List String} {line result : String} {tokens : List Token} :
    Reads names line tokens result ↔ result = appendAll names.toArray line tokens := by
  induction tokens generalizing line with
  | nil =>
    constructor
    · rintro ⟨⟩
      rfl
    · rintro rfl
      exact .nil
  | cons t rest ih => rw [reads_cons_iff, ih, appendAll, appendAll, List.foldl_cons]

end Token

section

variable {src : Source} {names : Array String} {pos : Nat} {line : String}

theorem renderTokens_of_zero (h : src.data[pos]? = some 0) :
    renderTokens src names pos line = .ok line := by
  rw [renderTokens]
  split
  · rename_i hnone
    rw [h] at hnone
    cases hnone
  · rename_i first hfirst
    rw [h] at hfirst
    cases hfirst
    rfl

theorem renderTokens_of_read {first : UInt8} {t : Token} {fin : Nat} (h : src.data[pos]? = some first)
    (hne : first ≠ 0) (hread : Token.read src pos first.toNat = .ok (t, fin)) :
    renderTokens src names pos line = renderTokens src names fin (t.append names line) := by
  rw [renderTokens]
  split
  · rename_i hnone
    rw [h] at hnone
    cases hnone
  · rename_i first' hfirst
    rw [h] at hfirst
    cases hfirst
    rw [if_neg hne]
    split
    · rename_i fault herror
      rw [hread] at herror
      cases herror
    · rename_i t' fin' hread'
      rw [hread] at hread'
      cases hread'
      rfl

end

/-- Where tokens and the byte that ends a line stand, the line is printed that the tokens give. -/
theorem renderTokens_of_holds {src : Source} (names : Array String) {pos : Nat} {tokens : List Token}
    (hfits : ∀ t ∈ tokens, t.Fits) (h : src.Holds pos ((tokens.map Token.encode).flatten ++ [0]))
    (line : String) : renderTokens src names pos line = .ok (Token.appendAll names line tokens) := by
  induction tokens generalizing pos line with
  | nil => exact renderTokens_of_zero h.data_eq
  | cons t rest ih =>
    rw [List.forall_mem_cons] at hfits
    rw [List.map_cons, List.flatten_cons, List.append_assoc, Source.holds_append] at h
    obtain ⟨first, hfirst, hne, hread⟩ := Token.read_of_holds hfits.1 h.1
    rw [renderTokens_of_read hfirst hne hread, ih hfits.2 h.2]
    rfl

end Mac

end SavedBasic
