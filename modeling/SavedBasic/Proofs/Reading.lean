import SavedBasic.Source

/-!
# Reading what was written

All reading is by position, but what a read gives depends only on the bytes from that position on.
This module puts the reads in terms of `Source.rest`, the bytes that are still to come, and says
what is read where given bytes stand: a number of fixed width is read back as it was written, up to
its width, and a run of bytes is read back whole.

Two sources with the same rest at two positions cannot be told apart by reading on from there. That
is the form in which comparisons of two decodings use this module.
-/

namespace SavedBasic

namespace Source

/-- The bytes from a position on. -/
def rest (src : Source) (pos : Nat) : Bytes :=
  src.data.toList.drop pos

/-- The bytes stand in the source at a position. -/
def Holds (src : Source) (pos : Nat) (bytes : Bytes) : Prop :=
  bytes <+: src.rest pos

theorem rest_add (src : Source) (pos n : Nat) : src.rest (pos + n) = (src.rest pos).drop n := by
  rw [rest, rest, List.drop_drop]

theorem length_rest (src : Source) (pos : Nat) : (src.rest pos).length = src.size - pos := by
  rw [rest, List.length_drop, Array.length_toList]
  rfl

@[simp] theorem rest_ofBytes (bytes : Bytes) (pos : Nat) :
    (ofBytes bytes).rest pos = bytes.drop pos := rfl

@[simp] theorem size_ofBytes (bytes : Bytes) : (ofBytes bytes).size = bytes.length := rfl

/-! ## Reads in terms of the rest -/

theorem slice_eq (src : Source) (pos n : Nat) : src.slice pos n = (src.rest pos).take n := by
  rw [slice, rest, Array.toList_extract, List.extract_eq_take_drop, Nat.add_sub_cancel_left]

/-- A run of bytes and the run behind it are as long as both read at once. -/
theorem length_slice_add (src : Source) (pos n k : Nat) :
    (src.slice pos n).length + (src.slice (pos + (src.slice pos n).length) k).length =
      (src.slice pos (n + k)).length := by
  simp only [length_slice]
  omega

/-- A number of fixed width is read from the rest, or the rest is too short for it. -/
theorem natLE_eq (src : Source) (pos : Nat) {width : Nat} (hw : 0 < width) :
    src.natLE pos width =
      if width ≤ (src.rest pos).length then .ok (Bytes.toNatLE ((src.rest pos).take width))
      else .error (.endOfData width) := by
  have hsize : pos + width ≤ src.size ↔ width ≤ (src.rest pos).length := by
    rw [length_rest]
    omega
  by_cases h : pos + width ≤ src.size
  · rw [if_pos (hsize.mp h), natLE, exactly, if_pos h, slice_eq]
    rfl
  · rw [if_neg (mt hsize.mpr h), natLE, exactly, if_neg h]
    rfl

/-- Numbers of fixed width are the same where the rest is the same. -/
theorem natLE_congr {src₁ src₂ : Source} {pos₁ pos₂ width : Nat} (hw : 0 < width)
    (h : src₁.rest pos₁ = src₂.rest pos₂) : src₁.natLE pos₁ width = src₂.natLE pos₂ width := by
  rw [natLE_eq _ _ hw, natLE_eq _ _ hw, h]

/-- Runs of bytes are the same where the rest is the same. -/
theorem slice_congr {src₁ src₂ : Source} {pos₁ pos₂ : Nat} (n : Nat)
    (h : src₁.rest pos₁ = src₂.rest pos₂) : src₁.slice pos₁ n = src₂.slice pos₂ n := by
  rw [slice_eq, slice_eq, h]

/-- The same rest stays the same after reading on by the same number of bytes. -/
theorem rest_congr_add {src₁ src₂ : Source} {pos₁ pos₂ : Nat} (n : Nat)
    (h : src₁.rest pos₁ = src₂.rest pos₂) : src₁.rest (pos₁ + n) = src₂.rest (pos₂ + n) := by
  rw [rest_add, rest_add, h]

/-! ## Reading where bytes stand -/

theorem holds_nil (src : Source) (pos : Nat) : src.Holds pos [] := List.nil_prefix

/-- Bytes stand one after another exactly if each of them stands behind the ones before. -/
theorem holds_append {src : Source} {pos : Nat} {a b : Bytes} :
    src.Holds pos (a ++ b) ↔ src.Holds pos a ∧ src.Holds (pos + a.length) b := by
  constructor
  · rintro ⟨tail, h⟩
    refine ⟨⟨b ++ tail, ?_⟩, ⟨tail, ?_⟩⟩
    · rw [← List.append_assoc, h]
    · rw [rest_add, ← h, List.append_assoc, List.drop_left]
  · rintro ⟨⟨tail, h⟩, ⟨tail', h'⟩⟩
    refine ⟨tail', ?_⟩
    rw [rest_add, ← h, List.drop_left] at h'
    rw [List.append_assoc, h', h]

/-- The bytes of a source stand where they were put. -/
theorem holds_ofBytes (before bytes behind : Bytes) :
    (ofBytes (before ++ bytes ++ behind)).Holds before.length bytes := by
  refine ⟨behind, ?_⟩
  rw [rest_ofBytes, List.append_assoc, List.drop_left]

theorem Holds.length_le {src : Source} {pos : Nat} {bytes : Bytes} (h : src.Holds pos bytes) :
    bytes.length ≤ (src.rest pos).length :=
  List.IsPrefix.length_le h

/-- A run of bytes is read back whole. -/
theorem Holds.slice_eq {src : Source} {pos : Nat} {bytes : Bytes} (h : src.Holds pos bytes) :
    src.slice pos bytes.length = bytes := by
  rw [Source.slice_eq]
  exact (List.prefix_iff_eq_take.mp h).symm

/-- A number is read back as it was written, up to its width. -/
theorem Holds.natLE_ofNatLE {src : Source} {pos width n : Nat} (hw : 0 < width)
    (h : src.Holds pos (Bytes.ofNatLE width n)) :
    src.natLE pos width = .ok (n % Nat.pow 256 width) := by
  have hlen := h.length_le
  rw [Bytes.length_ofNatLE] at hlen
  have htake : (src.rest pos).take width = Bytes.ofNatLE width n := by
    have := List.prefix_iff_eq_take.mp h
    rw [Bytes.length_ofNatLE] at this
    exact this.symm
  rw [natLE_eq _ _ hw, if_pos hlen, htake, Bytes.toNatLE_ofNatLE]

/-- An integer is read back as it was written, up to its width. -/
theorem Holds.natLE_ofInt {src : Source} {pos width : Nat} {n : Int} (hw : 0 < width)
    (h : src.Holds pos (Bytes.ofIntLE width n)) :
    src.natLE pos width = .ok (n % Nat.pow 256 width).toNat := by
  have hpow : 0 < Nat.pow 256 width := Nat.pow_pos (by decide)
  have hlt : (n % Nat.pow 256 width).toNat < Nat.pow 256 width := by
    have := Int.emod_lt_of_pos n (Int.natCast_pos.mpr hpow)
    omega
  rw [Bytes.ofIntLE] at h
  rw [h.natLE_ofNatLE hw, Nat.mod_eq_of_lt hlt]

/-- A number that fits is read back as it was written. -/
theorem Holds.natLE_ofIntLE {src : Source} {pos width n : Nat} (hw : 0 < width)
    (hn : n < Nat.pow 256 width) (h : src.Holds pos (Bytes.ofIntLE width n)) :
    src.natLE pos width = .ok n := by
  rw [h.natLE_ofInt hw, ← Int.natCast_emod, Int.toNat_natCast, Nat.mod_eq_of_lt hn]

theorem Holds.natLE_u16 {src : Source} {pos n : Nat} (hn : n < 65536)
    (h : src.Holds pos (Bytes.u16 n)) : src.natLE pos 2 = .ok n :=
  h.natLE_ofIntLE (by decide) hn

theorem Holds.natLE_u32 {src : Source} {pos n : Nat} (hn : n < 0x100000000)
    (h : src.Holds pos (Bytes.u32 n)) : src.natLE pos 4 = .ok n :=
  h.natLE_ofIntLE (by decide) hn

end Source

end SavedBasic
