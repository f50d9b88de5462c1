import Mathlib.Data.List.DropRight
import Mathlib.Data.Nat.Digits.Defs
import SavedBasic.Text.CodePage
import SavedBasic.Text.Numeral

/-!
# Which byte strings spell an integer

An integer is spelled by digits between which single underscores may stand, with or without a sign in
front and with blanks around it. `Spells` says so without an order of reading; the reader finds the
same integers, as long as there are not more digits than it takes.

The decimal numeral of a number is one of its spellings and the only plain one: digits alone, without
zeros in front. It is read back, and it is the same text in bytes and in characters.
-/

namespace SavedBasic.Text.Numeral

/-! ## Digits -/

/-- The byte of a decimal digit. -/
def digitByte (d : Nat) : UInt8 :=
  UInt8.ofNat (0x30 + d)

/-- Digits, between which single underscores may stand. -/
inductive Digits : Bytes → List Nat → Prop where
  | last {d : Nat} (h : d < 10) : Digits [digitByte d] [d]
  | digit {d : Nat} {text : Bytes} {ds : List Nat} (h : d < 10) (more : Digits text ds) :
    Digits (digitByte d :: text) (d :: ds)
  | underscore {d : Nat} {text : Bytes} {ds : List Nat} (h : d < 10) (more : Digits text ds) :
    Digits (digitByte d :: 0x5F :: text) (d :: ds)

/-- The number that digits stand for, the most significant digit first. -/
def valueOf (digits : List Nat) : Nat :=
  Nat.ofDigits 10 digits.reverse

/-- The number of digits in a byte string. -/
def digitCount (text : Bytes) : Nat :=
  text.countP fun b => (digit? b).isSome

theorem toNat_digitByte {d : Nat} (h : d < 10) : (digitByte d).toNat = 0x30 + d := by
  rw [digitByte, UInt8.toNat_ofNat', Nat.mod_eq_of_lt (by omega)]

/-- A digit is neither a sign nor an underscore nor a blank. -/
theorem digitByte_ne {d : Nat} (h : d < 10) : digitByte d ≠ 0x2D ∧ digitByte d ≠ 0x2B ∧
    digitByte d ≠ 0x5F ∧ isSpace (digitByte d) = false := by
  revert d
  decide

theorem digit?_eq_some_iff {b : UInt8} {d : Nat} : digit? b = some d ↔ d < 10 ∧ b = digitByte d := by
  have hrange : (0x30 ≤ b && b ≤ 0x39) = true ↔ 0x30 ≤ b.toNat ∧ b.toNat ≤ 0x39 := by
    rw [Bool.and_eq_true, decide_eq_true_iff, decide_eq_true_iff, UInt8.le_iff_toNat_le,
      UInt8.le_iff_toNat_le]
    rfl
  constructor
  · intro h
    rw [digit?] at h
    split at h
    next hb =>
      have := hrange.mp hb
      cases h
      refine ⟨by omega, UInt8.toNat_inj.mp ?_⟩
      rw [toNat_digitByte (by omega)]
      omega
    next => cases h
  · rintro ⟨hd, rfl⟩
    have hb := toNat_digitByte hd
    rw [digit?, if_pos (hrange.mpr (by omega)), hb, Nat.add_sub_cancel_left]

theorem digit?_digitByte {d : Nat} (h : d < 10) : digit? (digitByte d) = some d :=
  digit?_eq_some_iff.mpr ⟨h, rfl⟩

theorem digitCount_digitByte_cons {d : Nat} (h : d < 10) (text : Bytes) :
    digitCount (digitByte d :: text) = digitCount text + 1 := by
  rw [digitCount, List.countP_cons_of_pos (by rw [digit?_digitByte h]; rfl), digitCount]

theorem digitCount_le_append (before core after : Bytes) :
    digitCount core ≤ digitCount (before ++ core ++ after) := by
  rw [digitCount, digitCount, List.countP_append, List.countP_append]
  omega

theorem digitCount_cons_of_none {b : UInt8} (h : digit? b = none) (text : Bytes) :
    digitCount (b :: text) = digitCount text := by
  rw [digitCount, List.countP_cons_of_neg (by rw [h]; decide), digitCount]

theorem Digits.length_eq {text : Bytes} {ds : List Nat} (h : Digits text ds) :
    ds.length = digitCount text := by
  induction h with
  | last h => rw [digitCount_digitByte_cons h]; rfl
  | digit h _ ih => rw [digitCount_digitByte_cons h, List.length_cons, ih]
  | underscore h _ ih =>
    rw [digitCount_digitByte_cons h, digitCount_cons_of_none rfl, List.length_cons, ih]

theorem Digits.exists_cons {text : Bytes} {ds : List Nat} (h : Digits text ds) :
    ∃ d rest, d < 10 ∧ text = digitByte d :: rest := by
  cases h with
  | last h | digit h _ | underscore h _ => exact ⟨_, _, h, rfl⟩

theorem Digits.exists_concat {text : Bytes} {ds : List Nat} (h : Digits text ds) :
    ∃ front d, d < 10 ∧ text = front ++ [digitByte d] := by
  induction h with
  | last h => exact ⟨[], _, h, rfl⟩
  | digit _ _ ih =>
    obtain ⟨front, d, hd, rfl⟩ := ih
    exact ⟨_ :: front, d, hd, rfl⟩
  | underscore _ _ ih =>
    obtain ⟨front, d, hd, rfl⟩ := ih
    exact ⟨_ :: _ :: front, d, hd, rfl⟩

/-! ## Reading digits -/

/-- Behind a digit, digits go on as they begin, or do so behind an underscore. -/
theorem moreDigits?_cons (b : UInt8) (rest : Bytes) :
    moreDigits? (b :: rest) = if b = 0x5F then digits? rest else digits? (b :: rest) := by
  by_cases hb : b = 0x5F
  · subst hb
    cases rest <;> rfl
  · rw [if_neg hb, moreDigits?.eq_def, digits?]
    dsimp only
    cases digit? b with
    | none => exact if_neg (by simpa using hb)
    | some d => rfl

theorem digits?_digitByte_cons {d : Nat} (h : d < 10) (rest : Bytes) :
    digits? (digitByte d :: rest) = (moreDigits? rest).map (d :: ·) := by
  rw [digits?, digit?_digitByte h]
  rfl

theorem Digits.moreDigits?_eq {text : Bytes} {ds : List Nat} (h : Digits text ds) :
    moreDigits? text = digits? text := by
  obtain ⟨d, rest, hd, rfl⟩ := h.exists_cons
  rw [moreDigits?_cons, if_neg (digitByte_ne hd).2.2.1]

theorem digits?_eq_some_iff {text : Bytes} {ds : List Nat} :
    digits? text = some ds ↔ Digits text ds := by
  constructor
  · intro h
    -- two bytes may be taken at a time, so the induction is on the length
    induction hn : text.length using Nat.strongRecOn generalizing text ds with
    | _ n ih =>
      cases text with
      | nil => cases h
      | cons b rest =>
        obtain ⟨d, hd, h⟩ := Option.bind_eq_some_iff.mp h
        obtain ⟨ds', hrest, rfl⟩ := Option.map_eq_some_iff.mp h
        obtain ⟨hlt, rfl⟩ := digit?_eq_some_iff.mp hd
        rcases rest with _ | ⟨c, rest⟩
        · cases hrest
          exact .last hlt
        · simp only [List.length_cons] at hn
          rw [moreDigits?_cons] at hrest
          split at hrest
          next hc =>
            subst hc
            exact .underscore hlt (ih _ (by omega) hrest rfl)
          next => exact .digit hlt (ih _ (by rw [List.length_cons]; omega) hrest rfl)
  · intro h
    induction h with
    | last h => rw [digits?_digitByte_cons h]; rfl
    | digit h more ih => rw [digits?_digitByte_cons h, more.moreDigits?_eq, ih]; rfl
    | underscore h more ih =>
      rw [digits?_digitByte_cons h, moreDigits?_cons, if_pos rfl, ih]
      rfl

theorem foldl_digits (digits : List Nat) :
    digits.foldl (fun n d => 10 * n + d) 0 = valueOf digits := by
  rw [valueOf, Nat.ofDigits_eq_foldr, List.foldr_reverse]
  exact congrArg (fun f => List.foldl f 0 digits) (funext fun n => funext fun d => Nat.add_comm _ _)

theorem natural?_eq_some_iff {text : Bytes} (hcount : digitCount text ≤ maxDigits) {n : Nat} :
    natural? text = some n ↔ ∃ ds, Digits text ds ∧ n = valueOf ds := by
  rw [natural?, Option.bind_eq_some_iff]
  refine exists_congr fun ds => ?_
  rw [digits?_eq_some_iff, foldl_digits]
  refine and_congr_right fun h => ?_
  rw [h.length_eq, if_pos hcount, Option.some.injEq, eq_comm]

/-! ## Signs and blanks -/

/-- Digits with a sign in front of them, or without one. -/
inductive SpellsBare : Bytes → Int → Prop where
  | unsigned {text : Bytes} {ds : List Nat} (h : Digits text ds) : SpellsBare text (valueOf ds)
  | plus {text : Bytes} {ds : List Nat} (h : Digits text ds) : SpellsBare (0x2B :: text) (valueOf ds)
  | minus {text : Bytes} {ds : List Nat} (h : Digits text ds) :
    SpellsBare (0x2D :: text) (-(valueOf ds : Int))

/-- A byte string spells an integer; blanks may stand around it. -/
def Spells (text : Bytes) (n : Int) : Prop :=
  ∃ before core after, text = before ++ core ++ after ∧ (∀ b ∈ before, isSpace b = true) ∧
    (∀ b ∈ after, isSpace b = true) ∧ SpellsBare core n

theorem withSign?_eq_some_iff {text : Bytes} (hcount : digitCount text ≤ maxDigits) {n : Int} :
    withSign? text = some n ↔ SpellsBare text n := by
  have hminus (rest : Bytes) : digitCount (0x2D :: rest) = digitCount rest :=
    digitCount_cons_of_none rfl rest
  have hplus (rest : Bytes) : digitCount (0x2B :: rest) = digitCount rest :=
    digitCount_cons_of_none rfl rest
  constructor
  · intro h
    rw [withSign?.eq_def] at h
    split at h
    all_goals
      obtain ⟨k, hk, rfl⟩ := Option.map_eq_some_iff.mp h
    · rw [hminus] at hcount
      obtain ⟨ds, hds, rfl⟩ := (natural?_eq_some_iff hcount).mp hk
      exact .minus hds
    · rw [hplus] at hcount
      obtain ⟨ds, hds, rfl⟩ := (natural?_eq_some_iff hcount).mp hk
      exact .plus hds
    · obtain ⟨ds, hds, rfl⟩ := (natural?_eq_some_iff hcount).mp hk
      exact .unsigned hds
  · intro h
    cases h with
    | minus h =>
      rw [hminus] at hcount
      rw [withSign?, (natural?_eq_some_iff hcount).mpr ⟨_, h, rfl⟩]
      rfl
    | plus h =>
      rw [hplus] at hcount
      rw [withSign?, (natural?_eq_some_iff hcount).mpr ⟨_, h, rfl⟩]
      rfl
    | unsigned h =>
      have hvalue := (natural?_eq_some_iff hcount).mpr ⟨_, h, rfl⟩
      obtain ⟨d, rest, hd, rfl⟩ := h.exists_cons
      obtain ⟨hd₁, hd₂, -, -⟩ := digitByte_ne hd
      rw [withSign?, hvalue]
      · rfl
      · exact fun rest heq => hd₁ (List.cons.inj heq).1
      · exact fun rest heq => hd₂ (List.cons.inj heq).1

theorem SpellsBare.exists_cons {core : Bytes} {n : Int} (h : SpellsBare core n) :
    ∃ b rest, isSpace b = false ∧ core = b :: rest := by
  cases h with
  | unsigned h =>
    obtain ⟨d, rest, hd, rfl⟩ := h.exists_cons
    exact ⟨_, rest, (digitByte_ne hd).2.2.2, rfl⟩
  | plus h | minus h => exact ⟨_, _, rfl, rfl⟩

theorem SpellsBare.exists_concat {core : Bytes} {n : Int} (h : SpellsBare core n) :
    ∃ front b, isSpace b = false ∧ core = front ++ [b] := by
  cases h with
  | unsigned h =>
    obtain ⟨front, d, hd, rfl⟩ := h.exists_concat
    exact ⟨front, _, (digitByte_ne hd).2.2.2, rfl⟩
  | plus h | minus h =>
    obtain ⟨front, d, hd, rfl⟩ := h.exists_concat
    exact ⟨_ :: front, _, (digitByte_ne hd).2.2.2, rfl⟩

/-- Nothing but the blanks around it is taken from an integer. -/
theorem SpellsBare.trimmed {core before after : Bytes} {n : Int} (h : SpellsBare core n)
    (hbefore : ∀ b ∈ before, isSpace b = true) (hafter : ∀ b ∈ after, isSpace b = true) :
    ((before ++ core ++ after).dropWhile isSpace).rdropWhile isSpace = core := by
  have hdrop : (before ++ core ++ after).dropWhile isSpace = core ++ after := by
    obtain ⟨b, rest, hb, rfl⟩ := h.exists_cons
    rw [List.append_assoc, List.dropWhile_append_of_pos hbefore, List.cons_append,
      List.dropWhile_cons_of_neg (by simp [hb])]
  have hrdrop : (core ++ after).rdropWhile isSpace = core := by
    obtain ⟨front, b, hb, rfl⟩ := h.exists_concat
    rw [List.rdropWhile, List.reverse_append, List.dropWhile_append_of_pos (by simpa using hafter),
      ← List.rdropWhile, List.rdropWhile_concat_neg _ _ _ (by simp [hb])]
  rw [hdrop, hrdrop]

/-- A byte string is read as an integer exactly if it spells that integer. -/
theorem integer?_eq_some_iff {text : Bytes} (hcount : digitCount text ≤ maxDigits) {n : Int} :
    integer? text = some n ↔ Spells text n := by
  change withSign? ((text.dropWhile isSpace).rdropWhile isSpace) = some n ↔ _
  constructor
  · intro h
    let before := text.takeWhile isSpace
    let core := (text.dropWhile isSpace).rdropWhile isSpace
    let after := (text.dropWhile isSpace).rtakeWhile isSpace
    have htext : text = before ++ core ++ after := by
      rw [List.append_assoc, List.rdropWhile_append_rtakeWhile, List.takeWhile_append_dropWhile]
    have hcore : digitCount core ≤ maxDigits := by
      rw [htext] at hcount
      exact Nat.le_trans (digitCount_le_append before core after) hcount
    exact ⟨before, core, after, htext, fun b hb => List.mem_takeWhile_imp hb,
      fun b hb => List.mem_rtakeWhile_imp hb, (withSign?_eq_some_iff hcore).mp h⟩
  · rintro ⟨before, core, after, rfl, hbefore, hafter, h⟩
    rw [h.trimmed hbefore hafter]
    exact (withSign?_eq_some_iff (Nat.le_trans (digitCount_le_append before core after) hcount)).mpr h

/-! ## Decimal numerals -/

/-- A text is the plain decimal numeral of a number: digits alone, without zeros in front. -/
structure IsDecimal (n : Nat) (text : String) : Prop where
  /-- there is at least one digit -/
  nonempty : text ≠ ""
  /-- there are only digits -/
  digits : ∀ c ∈ text.toList, c.isDigit = true
  /-- they stand for the number -/
  value : valueOf (text.toList.map fun c => c.toNat - 0x30) = n
  /-- a zero stands in front only if it is all there is -/
  leading : text.toList.head? = some '0' → text = "0"

theorem toList_decimal (n : Nat) : (decimal n).toList = Nat.toDigits 10 n :=
  String.toList_ofList

theorem toList_decimal_ne_nil (n : Nat) : (decimal n).toList ≠ [] := by
  rw [toList_decimal]
  exact Nat.toDigits_ne_nil

theorem isDigit_of_mem_decimal {n : Nat} {c : Char} (h : c ∈ (decimal n).toList) :
    c.isDigit = true := by
  rw [toList_decimal] at h
  exact Nat.isDigit_of_mem_toDigits (by decide) (by decide) h

theorem eq_zero_of_head?_toDigits {n : Nat} (h : (Nat.toDigits 10 n).head? = some '0') : n = 0 := by
  induction n using Nat.strongRecOn with
  | _ n ih =>
    rcases Nat.lt_or_ge n 10 with hlt | hge
    · rw [Nat.toDigits_of_lt_base hlt] at h
      exact Nat.digitChar_eq_zero.mp (Option.some.inj h)
    · rw [Nat.toDigits_of_base_le (by decide) hge,
        List.head?_append_of_ne_nil _ Nat.toDigits_ne_nil] at h
      have := ih (n / 10) (by omega) h
      omega

theorem valueOf_decimal (n : Nat) :
    valueOf ((decimal n).toList.map fun c => c.toNat - 0x30) = n := by
  rw [← foldl_digits, List.foldl_map, toList_decimal]
  exact Nat.ofDigitChars_ten_toDigits

theorem isDecimal_decimal (n : Nat) : IsDecimal n (decimal n) where
  nonempty := by
    intro h
    exact toList_decimal_ne_nil n (by rw [h]; rfl)
  digits := fun _ => isDigit_of_mem_decimal
  value := valueOf_decimal n
  leading := by
    intro h
    rw [toList_decimal] at h
    rw [eq_zero_of_head?_toDigits h]
    rfl

/-- Characters that are digits are written as digits. -/
theorem digits_of_isDigit {cs : List Char} (hne : cs ≠ []) (h : ∀ c ∈ cs, c.isDigit = true) :
    Digits (cs.map fun c => UInt8.ofNat c.toNat) (cs.map fun c => c.toNat - 0x30) := by
  have hone : ∀ c : Char, c.isDigit = true →
      c.toNat - 0x30 < 10 ∧ UInt8.ofNat c.toNat = digitByte (c.toNat - 0x30) := by
    intro c hc
    have hrange : 0x30 ≤ c.toNat ∧ c.toNat ≤ 0x39 := Char.isDigit_iff_toNat.mp hc
    exact ⟨by omega, by rw [digitByte, Nat.add_sub_cancel' hrange.1]⟩
  induction cs with
  | nil => exact absurd rfl hne
  | cons c cs ih =>
    obtain ⟨hlt, hbyte⟩ := hone c (h c List.mem_cons_self)
    rw [List.map_cons, List.map_cons, hbyte]
    cases cs with
    | nil => exact .last hlt
    | cons c' cs =>
      exact .digit hlt (ih (List.cons_ne_nil _ _) fun c hc => h c (List.mem_cons_of_mem _ hc))

/-- The decimal numeral of a number is read back. -/
theorem integer?_decimal {n : Nat} (h : (decimal n).length ≤ maxDigits) :
    integer? ((decimal n).toList.map fun c => UInt8.ofNat c.toNat) = some n := by
  have hdigits := digits_of_isDigit (toList_decimal_ne_nil n) fun c => isDigit_of_mem_decimal
  have hcount := hdigits.length_eq
  rw [List.length_map, String.length_toList] at hcount
  have hspells := SpellsBare.unsigned hdigits
  rw [valueOf_decimal] at hspells
  exact (integer?_eq_some_iff (hcount ▸ h)).mpr
    ⟨[], _, [], by rw [List.nil_append, List.append_nil], by simp, by simp, hspells⟩

/-- A decimal numeral is the same text in bytes. -/
theorem decode_decimal (n : Nat) :
    CodePage.decode ((decimal n).toList.map fun c => UInt8.ofNat c.toNat) = decimal n := by
  have hchar : ∀ c ∈ (decimal n).toList, CodePage.toChar (UInt8.ofNat c.toNat) = c := by
    intro c hc
    have hrange : 0x30 ≤ c.toNat ∧ c.toNat ≤ 0x39 :=
      Char.isDigit_iff_toNat.mp (isDigit_of_mem_decimal hc)
    have hbyte : (UInt8.ofNat c.toNat).toNat = c.toNat := by
      rw [UInt8.toNat_ofNat', Nat.mod_eq_of_lt (by omega)]
    rw [CodePage.toChar, hbyte, if_pos (by omega), Char.ofNat_toNat]
  have hmap : ((decimal n).toList.map fun c => UInt8.ofNat c.toNat).map CodePage.toChar =
      (decimal n).toList := by
    rw [List.map_map]
    exact (List.map_congr_left hchar).trans (List.map_id' _)
  rw [CodePage.decode, hmap, String.ofList_toList]

end SavedBasic.Text.Numeral
