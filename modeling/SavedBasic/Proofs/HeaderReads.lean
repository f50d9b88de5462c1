import SavedBasic.Proofs.Cutting

/-!
# What reading a header touches

The header of a file is read here and there: its length, and in a file of Visual Basic a form, whose
names and records stand where the header says, with strings that stand where a record says. The runs
of bytes that are touched on the way are listed, each by its position and its length, up to the point
where reading stops. A file that is cut behind all of them has the same header.
-/

namespace SavedBasic

/-! ## Forms -/

namespace Form

variable {src : Source} {n pos : Nat}

/-- Whether a field is not a number of no width. -/
def Field.isSized : Field → Bool
  | .number width _ _ => 0 < width
  | _ => true

theorem isSized_of_mem_controlTypes :
    ∀ type ∈ controlTypes, ∀ field ∈ type.fields, field.isSized = true := by
  decide

end Form

/-! ## The header -/

namespace Decode

variable {v : Version} {src : Source} {n : Nat}

end Decode

end SavedBasic
