import Mathlib.Logic.ExistsUnique
import SavedBasic.Text.Runs

/-!
# How comments are stored

The stored text of a comment is read as pieces from the front: a byte that stands for itself, or a run
of three bytes. A mark near the end that has no run behind it makes up the rest, together with the byte
behind it if there is one. There is one way only to read a byte string like this, and writing out the
runs is writing out the pieces.
-/

namespace SavedBasic.Text

/-- A piece of the stored text of a comment. -/
inductive Piece where
  /-- a byte that stands for itself -/
  | literal (b : UInt8) (h : b ≠ runMark)
  /-- a run: the mark, how many copies there are, and of which byte -/
  | run (count filler : UInt8)

namespace Piece

/-- The bytes of a piece. -/
def stored : Piece → Bytes
  | literal b _ => [b]
  | run count filler => [runMark, count, filler]

/-- What a piece stands for. -/
def expanded : Piece → Bytes
  | literal b _ => [b]
  | run count filler => List.replicate count.toNat filler

end Piece

/-- What is left behind the last piece: a mark has fewer than two bytes behind it. -/
inductive Rest where
  /-- nothing -/
  | none
  /-- a mark -/
  | mark
  /-- a mark and a byte -/
  | markAnd (b : UInt8)

/-- The bytes behind the last piece, which stand for themselves. -/
def Rest.bytes : Rest → Bytes
  | none => []
  | mark => [runMark]
  | markAnd b => [runMark, b]

/-- The stored text of a comment, read as pieces and a rest. -/
structure Shortened where
  /-- the pieces -/
  pieces : List Piece
  /-- what is left behind them -/
  rest : Rest

namespace Shortened

/-- The bytes of a stored text. -/
def stored (s : Shortened) : Bytes :=
  s.pieces.flatMap Piece.stored ++ s.rest.bytes

/-- What a stored text stands for. -/
def expanded (s : Shortened) : Bytes :=
  s.pieces.flatMap Piece.expanded ++ s.rest.bytes

/-- A stored text with one more piece in front. -/
def cons (p : Piece) (s : Shortened) : Shortened :=
  ⟨p :: s.pieces, s.rest⟩

/-- Reads bytes as a stored text. -/
def read : Bytes → Shortened
  | [] => ⟨[], .none⟩
  | b :: more =>
    if h : b = runMark then
      match more with
      | [] => ⟨[], .mark⟩
      | [c] => ⟨[], .markAnd c⟩
      | count :: filler :: more => cons (.run count filler) (read more)
    else cons (.literal b h) (read more)

@[simp] theorem stored_cons (p : Piece) (s : Shortened) : (cons p s).stored = p.stored ++ s.stored := by
  rw [stored, cons, List.flatMap_cons, List.append_assoc, ← stored]

@[simp] theorem expanded_cons (p : Piece) (s : Shortened) :
    (cons p s).expanded = p.expanded ++ s.expanded := by
  rw [expanded, cons, List.flatMap_cons, List.append_assoc, ← expanded]

/-- A stored text is its rest, or has a piece in front. -/
theorem induction {P : Shortened → Prop} (rest : ∀ r, P ⟨[], r⟩)
    (cons : ∀ p s, P s → P (Shortened.cons p s)) (s : Shortened) : P s := by
  obtain ⟨pieces, r⟩ := s
  induction pieces with
  | nil => exact rest r
  | cons p pieces ih => exact cons p ⟨pieces, r⟩ ih

/-! ## Reading and writing are inverse -/

theorem read_literal {b : UInt8} (h : b ≠ runMark) (more : Bytes) :
    read (b :: more) = cons (.literal b h) (read more) := by
  rw [read.eq_def]
  exact dif_neg h

theorem read_run (count filler : UInt8) (more : Bytes) :
    read (runMark :: count :: filler :: more) = cons (.run count filler) (read more) := by
  rw [read, dif_pos rfl]

/-- What is read is what was there. -/
theorem stored_read (text : Bytes) : (read text).stored = text := by
  fun_induction read text with
  | case1 => rfl
  | case2 => rfl
  | case3 => rfl
  | case4 count filler more ih => rw [stored_cons, ih]; rfl
  | case5 b more h ih => rw [stored_cons, ih]; rfl

/-- A stored text is read as the pieces it was put together from. -/
theorem read_stored (s : Shortened) : read s.stored = s := by
  induction s using Shortened.induction with
  | rest r => cases r <;> rfl
  | cons p s ih =>
    rw [stored_cons]
    cases p with
    | literal b h => rw [Piece.stored, List.singleton_append, read_literal h, ih]
    | run count filler => exact (read_run count filler s.stored).trans (by rw [ih])

/-! ## Writing out the runs -/

theorem expandRuns_literal {b : UInt8} (h : b ≠ runMark) (more : Bytes) :
    expandRuns (b :: more) = b :: expandRuns more := by
  -- a byte in front of fewer than two others is left alone whatever it is
  rcases more with _ | ⟨count, _ | ⟨filler, more⟩⟩
  · rfl
  · rfl
  · rw [expandRuns, if_neg h]

theorem expandRuns_run (count filler : UInt8) (more : Bytes) :
    expandRuns (runMark :: count :: filler :: more) =
      List.replicate count.toNat filler ++ expandRuns more := by
  rw [expandRuns, if_pos rfl]

/-- Writing out the runs of a stored text writes out its pieces one after another. -/
theorem expandRuns_eq (s : Shortened) : expandRuns s.stored = s.expanded := by
  induction s using Shortened.induction with
  | rest r => cases r <;> rfl
  | cons p s ih =>
    rw [stored_cons, expanded_cons, ← ih]
    cases p with
    | literal b h => exact expandRuns_literal h s.stored
    | run count filler => exact expandRuns_run count filler s.stored

/-- **Comments are written out piece by piece.** The bytes of pieces and a rest are written out as the
bytes that stand for themselves, as many copies as each run says, and the rest as it is; and every byte
string consists of pieces and a rest in exactly one way. -/
theorem expandRuns_stored :
    (∀ s : Shortened, expandRuns s.stored = s.expanded) ∧
      ∀ text : Bytes, ∃! s : Shortened, s.stored = text := by
  refine ⟨expandRuns_eq, fun text => ⟨read text, stored_read text, ?_⟩⟩
  intro s hs
  rw [← read_stored s, hs]

/-- A run of marks is a run like any other, a run may be of no byte at all, and a mark in front of the
last byte stands for itself. -/
example : expandRuns [0x41, 0x0D, 2, 0x0D, 0x0D, 0, 0x42, 0x0D, 3] = [0x41, 0x0D, 0x0D, 0x0D, 3] := by
  decide

end Shortened

end SavedBasic.Text
