import Mathlib.Data.Rat.Defs
import Mathlib.Tactic.FieldSimp
import Mathlib.Tactic.Ring
import SavedBasic.Proofs.Numerals
import SavedBasic.Proofs.Workspace

/-!
# Amounts of money

An amount is stored as a number of ten-thousandths and written as a decimal numeral with up to four
decimals. `IsAmount` says what such a numeral looks like and which number it stands for. The zeros at
the end of the decimals are left out, and the point with them if nothing else is behind it; the zeros
of a whole number stand in front of the point and are safe.
-/

namespace SavedBasic

open Decode Instruction Text Text.Numeral

/-! ## Numerals with decimals -/

/-- The number that digits stand for. -/
def digitsValue (digits : List Char) : Nat :=
  valueOf (digits.map fun c => c.toNat - 0x30)

/-- A text is the numeral of an amount, with at most four decimals, none of them superfluous. -/
inductive IsAmount (x : ℚ) : String → Prop where
  /-- a whole number -/
  | whole {n : Nat} {digits : String} (h : IsDecimal n digits) (hx : x = n) :
    IsAmount x (digits ++ "@")
  /-- a whole number, a point and decimals, of which the last is not zero -/
  | decimals {n : Nat} {digits : String} {decimals : List Char} (h : IsDecimal n digits)
    (hne : decimals ≠ []) (hdigits : ∀ c ∈ decimals, c.isDigit = true) (hlength : decimals.length ≤ 4)
    (hlast : decimals.getLast? ≠ some '0')
    (hx : x = n + digitsValue decimals / 10 ^ decimals.length) :
    IsAmount x (digits ++ "." ++ String.ofList decimals ++ "@")

/-- The number that a text begins with: digits, and decimals behind a point. -/
def amountIn (text : String) : ℚ :=
  let digits := text.toList.takeWhile Char.isDigit
  let decimals := ((text.toList.dropWhile Char.isDigit).drop 1).takeWhile Char.isDigit
  digitsValue digits + digitsValue decimals / 10 ^ decimals.length

/-- A text stands for one number only. -/
theorem IsAmount.amountIn_eq {x : ℚ} {text : String} (h : IsAmount x text) : amountIn text = x := by
  have hat : ('@' : Char).isDigit = false := rfl
  have hpoint : ('.' : Char).isDigit = false := rfl
  cases h with
  | @whole n digits h hx =>
    have htext : (digits ++ "@").toList = digits.toList ++ ['@'] := String.toList_append
    rw [amountIn, htext, List.takeWhile_append_of_pos h.digits, List.dropWhile_append_of_pos h.digits,
      List.takeWhile_cons_of_neg (by rw [hat]; decide), List.dropWhile_cons_of_neg (by rw [hat]; decide),
      List.append_nil, hx, ← h.value]
    simp [digitsValue, valueOf]
  | @decimals n digits decimals h hne hdigits hlength hlast hx =>
    have htext : (digits ++ "." ++ String.ofList decimals ++ "@").toList =
        digits.toList ++ '.' :: (decimals ++ ['@']) := by
      simp only [String.toList_append, String.toList_ofList, List.append_assoc]
      rfl
    rw [amountIn, htext, List.takeWhile_append_of_pos h.digits, List.dropWhile_append_of_pos h.digits,
      List.takeWhile_cons_of_neg (by rw [hpoint]; decide),
      List.dropWhile_cons_of_neg (by rw [hpoint]; decide), List.append_nil, List.drop_one,
      List.tail_cons, List.takeWhile_append_of_pos hdigits,
      List.takeWhile_cons_of_neg (by rw [hat]; decide), List.append_nil, hx, ← h.value]
    rfl

/-! ## Digits in front and behind -/

theorem digitsValue_append (front back : List Char) :
    digitsValue (front ++ back) = digitsValue front * 10 ^ back.length + digitsValue back := by
  simp only [digitsValue, valueOf, List.map_append, List.reverse_append, Nat.ofDigits_append,
    List.length_reverse, List.length_map]
  ring

theorem digitsValue_replicate_zero (k : Nat) : digitsValue (List.replicate k '0') = 0 := by
  induction k with
  | zero => rfl
  | succ k ih =>
    have hzero : digitsValue ['0'] = 0 := rfl
    rw [List.replicate_succ, ← List.singleton_append, digitsValue_append, hzero, ih, Nat.zero_mul]

/-- Zeros in front do not count. -/
theorem digitsValue_zeroPadded (width value : Nat) :
    digitsValue (zeroPadded width (decimal value)).toList = value := by
  rw [zeroPadded, String.toList_append, String.toList_ofList, digitsValue_append,
    digitsValue_replicate_zero, Nat.zero_mul, Nat.zero_add]
  exact valueOf_decimal value

theorem isDigit_of_mem_zeroPadded {width value : Nat} {c : Char}
    (h : c ∈ (zeroPadded width (decimal value)).toList) : c.isDigit = true := by
  rw [zeroPadded, String.toList_append, String.toList_ofList, List.mem_append] at h
  rcases h with h | h
  · rw [List.eq_of_mem_replicate h]
    rfl
  · exact isDigit_of_mem_decimal h

theorem le_length_zeroPadded (width value : Nat) :
    width ≤ (zeroPadded width (decimal value)).toList.length := by
  rw [zeroPadded, String.toList_append, String.toList_ofList, List.length_append,
    List.length_replicate, String.length_toList]
  omega

/-- Zeros behind the point do not count at the end. -/
theorem digitsValue_div_of_zeros (digits : List Char) (k : Nat) :
    (digitsValue (digits ++ List.replicate k '0') : ℚ) / 10 ^ (digits.length + k) =
      digitsValue digits / 10 ^ digits.length := by
  rw [digitsValue_append, digitsValue_replicate_zero, List.length_replicate, Nat.add_zero, pow_add,
    Nat.cast_mul, Nat.cast_pow, Nat.cast_ofNat]
  field_simp

/-! ## The text of an amount -/

/-- The digits of an amount in front of the point. -/
def wholeDigits (value : Nat) : List Char :=
  let digits := (zeroPadded 5 (decimal value)).toList
  digits.take (digits.length - 4)

/-- The four digits of an amount behind the point. -/
def fractionDigits (value : Nat) : List Char :=
  let digits := (zeroPadded 5 (decimal value)).toList
  digits.drop (digits.length - 4)

/-- The decimals that are written. -/
def decimalDigits (value : Nat) : List Char :=
  (fractionDigits value).rdropWhile (· == '0')

theorem wholeDigits_append_fractionDigits (value : Nat) :
    wholeDigits value ++ fractionDigits value = (zeroPadded 5 (decimal value)).toList :=
  List.take_append_drop _ _

theorem length_fractionDigits (value : Nat) : (fractionDigits value).length = 4 := by
  have hlength := le_length_zeroPadded 5 value
  rw [fractionDigits, List.length_drop]
  omega

/-- The two parts make up the value. -/
theorem value_eq (value : Nat) :
    value = digitsValue (wholeDigits value) * 10 ^ 4 + digitsValue (fractionDigits value) := by
  have hvalue := digitsValue_zeroPadded 5 value
  rw [← wholeDigits_append_fractionDigits, digitsValue_append, length_fractionDigits] at hvalue
  exact hvalue.symm

theorem length_wholeDigits (value : Nat) :
    (wholeDigits value).length = (zeroPadded 5 (decimal value)).toList.length - 4 := by
  rw [wholeDigits, List.length_take]
  omega

theorem wholeDigits_ne_nil (value : Nat) : wholeDigits value ≠ [] := by
  intro hnil
  have hlength := length_wholeDigits value
  have hfive := le_length_zeroPadded 5 value
  rw [hnil, List.length_nil] at hlength
  omega

/-- A zero in front of the point stands alone. -/
theorem wholeDigits_of_head? {value : Nat} (h : (wholeDigits value).head? = some '0') :
    wholeDigits value = ['0'] := by
  have hlength := length_wholeDigits value
  have hfive := le_length_zeroPadded 5 value
  by_cases hlong : (decimal value).toList.length ≤ 5
  · -- five digits, so there is one in front of the point
    have hone : (wholeDigits value).length = 1 := by
      rw [hlength, zeroPadded, String.toList_append, String.toList_ofList, List.length_append,
        List.length_replicate]
      rw [String.length_toList] at hlong ⊢
      omega
    obtain ⟨c, hc⟩ := List.length_eq_one_iff.mp hone
    rw [hc] at h ⊢
    cases h
    rfl
  · -- nothing has been put in front, and the numeral of a number does not begin with zero
    have hpadded : (zeroPadded 5 (decimal value)).toList = (decimal value).toList := by
      rw [String.length_toList] at hlong
      rw [zeroPadded, Nat.sub_eq_zero_of_le (by omega), String.toList_append]
      rfl
    rw [wholeDigits, hpadded, List.head?_take, if_neg (by rw [← hpadded]; omega), toList_decimal] at h
    rw [eq_zero_of_head?_toDigits h] at hlong
    exact absurd (by decide) hlong

/-- There is a digit in front of the point, and no zero too many. -/
theorem isDecimal_wholeDigits (value : Nat) :
    IsDecimal (digitsValue (wholeDigits value)) (String.ofList (wholeDigits value)) := by
  refine ⟨?_, ?_, ?_, ?_⟩
  · intro hnil
    rw [← String.toList_inj, String.toList_ofList] at hnil
    exact wholeDigits_ne_nil value hnil
  · intro c hc
    rw [String.toList_ofList] at hc
    exact isDigit_of_mem_zeroPadded (List.mem_of_mem_take hc)
  · rw [String.toList_ofList]
    rfl
  · intro hzero
    rw [String.toList_ofList] at hzero
    rw [wholeDigits_of_head? hzero]

/-- The decimals that are written and the zeros that are left out. -/
theorem fractionDigits_eq (value : Nat) : ∃ k,
    fractionDigits value = decimalDigits value ++ List.replicate k '0' := by
  refine ⟨((fractionDigits value).rtakeWhile (· == '0')).length, ?_⟩
  have hzeros : (fractionDigits value).rtakeWhile (· == '0') =
      List.replicate ((fractionDigits value).rtakeWhile (· == '0')).length '0' :=
    List.eq_replicate_of_mem fun c hc => by simpa using List.mem_rtakeWhile_imp hc
  rw [← hzeros, decimalDigits, List.rdropWhile_append_rtakeWhile]

theorem isDigit_of_mem_decimalDigits {value : Nat} {c : Char} (h : c ∈ decimalDigits value) :
    c.isDigit = true := by
  obtain ⟨k, hk⟩ := fractionDigits_eq value
  have hmem : c ∈ fractionDigits value := by
    rw [hk]
    exact List.mem_append_left _ h
  exact isDigit_of_mem_zeroPadded (List.mem_of_mem_drop hmem)

/-- The point stops the zeros from being dropped. -/
theorem dropAtEnd_zero (front back : List Char) :
    dropAtEnd '0' (front ++ '.' :: back) = front ++ '.' :: back.rdropWhile (· == '0') := by
  have hpoint : ('.' :: front.reverse).dropWhile (· == '0') = '.' :: front.reverse :=
    List.dropWhile_cons_of_neg (by decide)
  rw [dropAtEnd, List.reverse_append, List.reverse_cons, List.append_assoc, List.singleton_append,
    List.dropWhile_append, List.rdropWhile]
  split
  · rename_i hempty
    rw [List.isEmpty_iff.mp hempty, hpoint, List.reverse_cons, List.reverse_reverse]
    rfl
  · rw [List.reverse_append, List.reverse_cons, List.reverse_reverse, List.append_assoc,
      List.singleton_append]

/-- Nothing is dropped behind a digit. -/
theorem dropAtEnd_point_of_isDigit {digits : List Char} (h : ∀ c ∈ digits, c.isDigit = true)
    (front : List Char) (hne : digits ≠ []) : dropAtEnd '.' (front ++ digits) = front ++ digits := by
  have hlast := h _ (List.getLast_mem hne)
  rw [← List.dropLast_append_getLast hne, ← List.append_assoc, dropAtEnd, List.reverse_concat,
    List.dropWhile_cons_of_neg, ← List.reverse_concat, List.reverse_reverse]
  intro hpoint
  rw [beq_iff_eq.mp hpoint] at hlast
  exact absurd hlast (by decide)

/-- The decimals that are written stand behind a point. If there are none, the point goes with them. -/
theorem currencyText_eq (value : Nat) :
    currencyText value = String.ofList (wholeDigits value) ++
      (if (decimalDigits value).isEmpty then "" else "." ++ String.ofList (decimalDigits value)) ++
        "@" := by
  have hwhole : ∀ c ∈ wholeDigits value, c.isDigit = true := fun c hc =>
    isDigit_of_mem_zeroPadded (List.mem_of_mem_take hc)
  change String.ofList (dropAtEnd '.' (dropAtEnd '0'
    (wholeDigits value ++ '.' :: fractionDigits value))) ++ "@" = _
  rw [dropAtEnd_zero, ← decimalDigits]
  by_cases hnil : decimalDigits value = []
  · have hpoint : dropAtEnd '.' (wholeDigits value ++ ['.']) = dropAtEnd '.' (wholeDigits value) := by
      rw [dropAtEnd, List.reverse_concat, List.dropWhile_cons_of_pos (by decide), dropAtEnd]
    have hdigits := dropAtEnd_point_of_isDigit hwhole [] (wholeDigits_ne_nil value)
    rw [List.nil_append] at hdigits
    rw [hnil, hpoint, hdigits, List.isEmpty_nil, if_pos rfl, String.append_empty]
  · have hpoint : String.ofList ['.'] = "." := rfl
    rw [List.append_cons, dropAtEnd_point_of_isDigit (fun c => isDigit_of_mem_decimalDigits) _ hnil,
      if_neg (by simpa using hnil), String.ofList_append, String.ofList_append, hpoint]
    simp only [String.append_assoc]

/-- The text of an amount is its numeral. -/
theorem isAmount_currencyText (value : Nat) : IsAmount ((value : ℚ) / 10000) (currencyText value) := by
  obtain ⟨k, hk⟩ := fractionDigits_eq value
  have hwhole := isDecimal_wholeDigits value
  have hfour : (decimalDigits value).length + k = 4 := by
    have hlength := length_fractionDigits value
    rwa [hk, List.length_append, List.length_replicate] at hlength
  have hx : (value : ℚ) / 10000 = (digitsValue (wholeDigits value) : ℚ) +
      digitsValue (decimalDigits value) / 10 ^ (decimalDigits value).length := by
    rw [← digitsValue_div_of_zeros (decimalDigits value) k, ← hk, hfour]
    nth_rewrite 1 [value_eq value]
    rw [Nat.cast_add, Nat.cast_mul, Nat.cast_pow, Nat.cast_ofNat]
    ring
  rw [currencyText_eq]
  by_cases hnil : decimalDigits value = []
  · rw [hnil, List.isEmpty_nil, if_pos rfl, String.append_empty]
    refine .whole hwhole ?_
    have hzero : digitsValue [] = 0 := rfl
    rw [hx, hnil, hzero, Nat.cast_zero, zero_div, add_zero]
  · rw [if_neg (by simpa using hnil), ← String.append_assoc]
    refine .decimals hwhole hnil (fun c => isDigit_of_mem_decimalDigits) (by omega) ?_ hx
    have hlast : ¬ ((decimalDigits value).getLast hnil == '0') = true :=
      List.rdropWhile_last_not _ _ hnil
    rw [List.getLast?_eq_some_getLast hnil]
    simpa using hlast

theorem currencyText_injective : Function.Injective currencyText := by
  intro a b h
  have ha := (isAmount_currencyText a).amountIn_eq
  rw [h, (isAmount_currencyText b).amountIn_eq] at ha
  field_simp at ha
  exact_mod_cast ha.symm

/-! ## Amounts among instructions -/

/-- **An amount of money is written exactly.** The instruction of an amount pushes the number of
ten-thousandths behind it, and takes nothing else. The text of this operand is the decimal numeral of
the number divided by ten thousand, and no other amount has the same text. -/
theorem currency_written {v : Version} {src : Source} {p parameter value : Nat}
    (h : InstructionAt v src p 0x0185 parameter) (hvalue : src.natLE (p + 2) 8 = .ok value)
    (s : State) :
    (step v).run src p s = (.ok (), p + 10, { s with stack := .currency value :: s.stack }) ∧
      ∃ text, (Expr.currency value).render = .ok text ∧ IsAmount ((value : ℚ) / 10000) text ∧
        ∀ other, (Expr.currency other).render = .ok text → other = value := by
  refine ⟨?_, currencyText value, by rw [Expr.render], isAmount_currencyText value, ?_⟩
  · rw [h.run_step rfl s]
    exact run_bind_ok (run_number_ok hvalue s)
  · intro other hother
    rw [Expr.render] at hother
    exact currencyText_injective (Except.ok.inj hother)

/-- A file with the amount of a hundred, in which all but one of the digits are zeros. -/
def hundredFile : Source :=
  laterFile [0x85, 0x01, 0x40, 0x42, 0x0F, 0x00, 0x00, 0x00, 0x00, 0x00]

/-- The zeros of a hundred are written. -/
theorem hundred_written : InstructionAt .qb71 hundredFile 0x23 0x0185 0 ∧
    hundredFile.natLE 0x25 8 = .ok 1000000 ∧ currencyText 1000000 = "100@" ∧
    ((step .qb71).run hundredFile 0x23 (.start .qb71) =
        (.ok (), 0x2D, { State.start .qb71 with stack := [.currency 1000000] }) ∧
      ∃ text, (Expr.currency 1000000).render = .ok text ∧
        IsAmount (((1000000 : Nat) : ℚ) / 10000) text ∧
        ∀ other, (Expr.currency other).render = .ok text → other = 1000000) :=
  have h : InstructionAt .qb71 hundredFile 0x23 0x0185 0 := ⟨0x0185, rfl, rfl⟩
  have hvalue : hundredFile.natLE 0x25 8 = .ok 1000000 := rfl
  ⟨h, hvalue, by decide, currency_written h hvalue _⟩

end SavedBasic
