import SavedBasic.Bytes
import SavedBasic.Fault

/-!
# Sources

A source is a file held in memory. All reading is by position: a read of a fixed width fails when
the source ends inside it, a read of a run of bytes gives as many as there are. A position may lie
behind the end; nothing can be read there.
-/

namespace SavedBasic

/-- A file held in memory. -/
structure Source where
  /-- the bytes of the file -/
  data : Array UInt8

namespace Source

/-- A source with the given bytes. -/
def ofBytes (bytes : Bytes) : Source :=
  ⟨bytes.toArray⟩

/-- The number of bytes. -/
def size (src : Source) : Nat :=
  src.data.size

/-- At most `n` bytes from position `pos` on. -/
def slice (src : Source) (pos n : Nat) : Bytes :=
  (src.data.extract pos (pos + n)).toList

/-- The bytes of a run that must be complete. -/
def exactly (src : Source) (pos width : Nat) : Except Fault Bytes :=
  if pos + width ≤ src.size then .ok (src.slice pos width) else .error (.endOfData width)

/-- The number of the given width at `pos`, least significant byte first. -/
def natLE (src : Source) (pos width : Nat) : Except Fault Nat :=
  (src.exactly pos width).map Bytes.toNatLE

/-- The number of the given width at `pos`, most significant byte first. -/
def natBE (src : Source) (pos width : Nat) : Except Fault Nat :=
  (src.exactly pos width).map Bytes.toNatBE

/-- A packed string cut short by the end of the source is as long as the source allows. The second
component is the position behind the string and its filling. -/
def packed (src : Source) (pos : Nat) : Except Fault (Bytes × Nat) :=
  match src.natLE pos 2 with
  | .error fault => .error fault
  | .ok length =>
    let text := src.slice (pos + 2) length
    let fin := pos + 2 + text.length
    .ok (text, fin + (src.slice fin (length % 2)).length)

/-- A number that was read lies inside the source. -/
theorem le_size_of_natLE {src : Source} {pos width n : Nat} (h : src.natLE pos width = .ok n) :
    pos + width ≤ src.size := by
  unfold natLE exactly at h
  split at h
  · assumption
  · simp [Except.map] at h

/-- A number that was read lies inside the source. -/
theorem le_size_of_natBE {src : Source} {pos width n : Nat} (h : src.natBE pos width = .ok n) :
    pos + width ≤ src.size := by
  unfold natBE exactly at h
  split at h
  · assumption
  · simp [Except.map] at h

theorem length_slice (src : Source) (pos n : Nat) :
    (src.slice pos n).length = min n (src.size - pos) := by
  simp [slice, size]

end Source

end SavedBasic
