import SavedBasic.Bytes

/-!
# Runs in comments

Comments are stored with their runs shortened: a mark, a count and a byte stand for as many copies of
the byte. A mark with fewer than two bytes behind it stands for itself.
-/

namespace SavedBasic.Text

/-- The mark in front of a shortened run. -/
def runMark : UInt8 := 0x0D

/-- The bytes with all runs written out. -/
def expandRuns : Bytes → Bytes
  | b :: count :: filler :: rest =>
    if b = runMark then List.replicate count.toNat filler ++ expandRuns rest
    else b :: expandRuns (count :: filler :: rest)
  | rest => rest

end SavedBasic.Text
