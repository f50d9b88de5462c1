import SavedBasic.Line
import SavedBasic.Proofs.Numerals

/-!
# Names in their kept form

A name that stands for a number is kept in one form only, whichever way it was stored: as a number
below 65530, and as the bytes of its decimal numeral from there on. The bytes of that numeral are read
as the same number again, so a kept name is its own kept form; names are understood a second time
when they are looked up in a table. What is printed is the decimal numeral in both cases.
-/

namespace SavedBasic

open Text

/-! ## What a name stands for -/

/-- A name stands for an integer: it is that integer, or its bytes spell it. -/
inductive Name.Denotes : Name → Int → Prop where
  | number (n : Int) : Denotes (.number n) n
  | bytes {text : Bytes} {n : Int} (h : Numeral.Spells text n) : Denotes (.bytes text) n

/-- A name has no more digits than are read as a number. -/
def Name.Readable : Name → Prop
  | .number _ => True
  | .bytes text => Numeral.digitCount text ≤ Numeral.maxDigits

instance (x : Name) : Decidable x.Readable :=
  match x with
  | .number _ => inferInstanceAs (Decidable True)
  | .bytes text => inferInstanceAs (Decidable (Numeral.digitCount text ≤ Numeral.maxDigits))

namespace Identifier

theorem number?_eq_some_iff {x : Name} (hx : x.Readable) {n : Int} :
    number? x = some n ↔ x.Denotes n := by
  cases x with
  | number m =>
    constructor
    · intro h
      cases h
      exact .number n
    · rintro ⟨⟩
      rfl
  | bytes text =>
    constructor
    · intro h
      exact .bytes ((Numeral.integer?_eq_some_iff hx).mp h)
    · rintro (_ | h)
      exact (Numeral.integer?_eq_some_iff hx).mpr h

/-! ## Numbers that are kept -/

/-- The kept forms of a number. -/
inductive Kept (n : Nat) : Name → Prop where
  | number (h : n < 65530) : Kept n (.number n)
  | spelled (h : 65530 ≤ n) (hlength : (Numeral.decimal n).length ≤ Numeral.maxDigits) :
    Kept n (.bytes ((Numeral.decimal n).toList.map fun c => UInt8.ofNat c.toNat))

theorem keep_eq_ok_iff {n : Nat} {name : Name} : keep n = .ok name ↔ Kept n name := by
  rw [keep, firstSpelled]
  constructor
  · intro h
    split at h
    next hlt =>
      cases h
      exact .number hlt
    next hge =>
      split at h
      next hlength =>
        cases h
        exact .spelled (Nat.not_lt.mp hge) hlength
      next => cases h
  · intro h
    cases h with
    | number h => rw [if_pos h]
    | spelled h hlength => rw [if_neg (Nat.not_lt.mpr h), if_pos hlength]

/-- The kept form of a number stands for this number again. -/
theorem Kept.number?_eq {n : Nat} {name : Name} (h : Kept n name) : number? name = some (n : Int) := by
  cases h with
  | number h => rfl
  | spelled h hlength => exact Numeral.integer?_decimal hlength

/-- A number is printed as its decimal numeral. -/
theorem Kept.stem_eq {n : Nat} {name : Name} (h : Kept n name) (isNumber : Bool) :
    (⟨name, isNumber, none⟩ : Identifier).stem = Numeral.decimal n := by
  cases h with
  | number h => rfl
  | spelled h hlength => exact Numeral.decode_decimal n

theorem Kept.render_eq {n : Nat} {name : Name} (h : Kept n name) (isNumber : Bool) :
    (⟨name, isNumber, none⟩ : Identifier).render = Numeral.decimal n := by
  cases h with
  | number h => rfl
  | spelled h hlength => exact String.append_empty.trans (Numeral.decode_decimal n)

/-! ## Names that are understood -/

/-- What comes of a name: it stays as it is if it stands for no number, and otherwise is kept. -/
inductive Understood (x : Name) : Identifier → Prop where
  | plain (h : number? x = none) : Understood x ⟨x, false, none⟩
  | number {n : Nat} {name : Name} (h : number? x = some (n : Int)) (hkept : Kept n name) :
    Understood x ⟨name, true, none⟩

theorem ofName_eq_ok_iff {x : Name} {id : Identifier} : ofName x none = .ok id ↔ Understood x id := by
  rw [ofName]
  constructor
  · intro h
    split at h
    next hnone =>
      cases h
      exact .plain hnone
    next n hsome =>
      split at h
      next => cases h
      next hnonneg =>
        have hn : 0 ≤ n := by
          by_contra hneg
          exact hnonneg (.inl (by omega))
        rcases hkeep : keep n.toNat with fault | name
        · rw [hkeep] at h
          cases h
        · rw [hkeep] at h
          cases h
          exact .number (by rw [hsome, Int.toNat_of_nonneg hn]) (keep_eq_ok_iff.mp hkeep)
  · intro h
    cases h with
    | plain h => rw [h]
    | number h hkept =>
      rw [h]
      dsimp only
      rw [if_neg (by simp), Int.toNat_natCast, keep_eq_ok_iff.mpr hkept]
      rfl

/-- A kept name is understood as what it was kept for. -/
theorem ofName_name {x : Name} {id : Identifier} (h : ofName x none = .ok id) :
    ofName id.name none = .ok id := by
  rw [ofName_eq_ok_iff] at h ⊢
  cases h with
  | plain h => exact .plain h
  | number _ hkept => exact .number hkept.number?_eq hkept

/-- **Names have one form.** Take any name that is understood. It is kept as a number below 65530 or as
bytes, and what it is kept as is understood in the same way again. It counts as a number exactly if it
is one or spells one. Then it is printed, also as the label of a line, as the decimal numeral of that
number, without sign, zeros in front, underscores or blanks; and any other name that stands for the
same number is the same identifier. -/
theorem ofName_canonical {x : Name} {id : Identifier} (hx : x.Readable)
    (h : ofName x none = .ok id) :
    ((∃ k : Nat, k < 65530 ∧ id.name = .number k) ∨ ∃ text, id.name = .bytes text) ∧
    ofName id.name none = .ok id ∧
    (id.isNumber = true ↔ ∃ n, x.Denotes n) ∧
    ∀ n, x.Denotes n → ∃ k : Nat, n = k ∧ Numeral.IsDecimal k id.render ∧
      (∀ l : Line, l.label = some id → l.labelText = id.render ++ " ") ∧
      ∀ y : Name, y.Readable → y.Denotes n → ofName y none = .ok id := by
  have hname := ofName_name h
  rw [ofName_eq_ok_iff] at h
  cases h with
  | plain hnone =>
    have hdenotes : ∀ n, ¬ x.Denotes n := by
      intro n hn
      rw [(number?_eq_some_iff hx).mpr hn] at hnone
      cases hnone
    refine ⟨?_, hname, ⟨by simp, ?_⟩, fun n hn => absurd hn (hdenotes n)⟩
    · -- a number is never left without its meaning
      cases x with
      | number m => cases hnone
      | bytes text => exact .inr ⟨text, rfl⟩
    · rintro ⟨n, hn⟩
      exact absurd hn (hdenotes n)
  | @number k name hsome hkept =>
    have hdenotes : x.Denotes k := (number?_eq_some_iff hx).mp hsome
    refine ⟨?_, hname, ⟨fun _ => ⟨k, hdenotes⟩, fun _ => rfl⟩, fun n hn => ?_⟩
    · cases hkept with
      | number h => exact .inl ⟨k, h, rfl⟩
      | spelled h hlength => exact .inr ⟨_, rfl⟩
    · have hnk : n = k := by
        have hn' := (number?_eq_some_iff hx).mpr hn
        rw [hsome] at hn'
        exact (Option.some.inj hn').symm
      refine ⟨k, hnk, ?_, ?_, ?_⟩
      · rw [hkept.render_eq]
        exact Numeral.isDecimal_decimal k
      · intro l hl
        rw [Line.labelText, hl, hkept.render_eq]
        exact congrArg (· ++ " ") (hkept.stem_eq true)
      · intro y hy hyn
        rw [ofName_eq_ok_iff]
        exact .number ((number?_eq_some_iff hy).mpr (hnk ▸ hyn)) hkept

/-- The number 65530 with a sign, zeros, an underscore and blanks. -/
def ornateName : Name :=
  .bytes [0x20, 0x2B, 0x30, 0x30, 0x36, 0x35, 0x5F, 0x35, 0x33, 0x30, 0x0A]

/-- This number as an identifier. -/
def plainIdentifier : Identifier :=
  ⟨.bytes [0x36, 0x35, 0x35, 0x33, 0x30], true, none⟩

theorem ornateName_canonical :
    ornateName.Readable ∧ ofName ornateName none = .ok plainIdentifier ∧
      ornateName.Denotes 65530 ∧ Numeral.IsDecimal 65530 plainIdentifier.render ∧
      ofName (.number 65530) none = .ok plainIdentifier := by
  have hreadable : ornateName.Readable := by decide
  have hname : ofName ornateName none = .ok plainIdentifier := by decide +kernel
  have hdenotes : ornateName.Denotes 65530 := (number?_eq_some_iff hreadable).mp rfl
  obtain ⟨-, -, -, hnumber⟩ := ofName_canonical hreadable hname
  obtain ⟨k, hk, hdecimal, -, hsame⟩ := hnumber 65530 hdenotes
  obtain rfl : k = 65530 := by omega
  exact ⟨hreadable, hname, hdenotes, hdecimal, hsame (.number 65530) trivial (.number 65530)⟩

end Identifier

end SavedBasic
