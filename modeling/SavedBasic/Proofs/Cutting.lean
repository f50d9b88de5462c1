import SavedBasic.Proofs.Changes

/-!
# Reading a file that was cut

A file loses its tail. A number that lies below the cut is read as before, and one that reaches beyond
it cannot be read; a run of bytes ends at the cut at the latest. So as long as the names that are
looked up lie below the cut, an action on the rest of the file does what it does on the whole file,
or it fails, or it has come to the end.
-/

namespace SavedBasic

namespace Source

/-- The first `n` bytes of a file. -/
def cut (src : Source) (n : Nat) : Source :=
  ofBytes (src.data.toList.take n)

variable (src : Source) (n pos : Nat)

theorem size_cut : (src.cut n).size = min n src.size := by
  rw [cut, size_ofBytes, List.length_take, Array.length_toList]
  rfl

theorem rest_cut : (src.cut n).rest pos = (src.rest pos).take (n - pos) := by
  rw [cut, rest_ofBytes, List.drop_take]
  rfl

variable {src n pos} {width : Nat}

/-- A number below the cut is still there. -/
theorem natLE_cut_of_le (hw : 0 < width) (h : pos + width ≤ n) :
    (src.cut n).natLE pos width = src.natLE pos width := by
  have hlength : ((src.rest pos).take (n - pos)).length = min (n - pos) (src.rest pos).length :=
    List.length_take
  rw [natLE_eq _ _ hw, natLE_eq _ _ hw, rest_cut, hlength, List.take_take,
    Nat.min_eq_left (by omega : width ≤ n - pos)]
  by_cases hrest : width ≤ (src.rest pos).length
  · rw [if_pos hrest, if_pos (by omega)]
  · rw [if_neg hrest, if_neg (by omega)]

/-- A number that reaches beyond the cut is not. -/
theorem natLE_cut_of_lt (hw : 0 < width) (h : n < pos + width) :
    (src.cut n).natLE pos width = .error (.endOfData width) := by
  rw [natLE_eq _ _ hw, rest_cut, List.length_take, if_neg (by omega)]

/-- What a file has of a run of bytes, given by its position and its length, lies below a position. -/
def Below (src : Source) (n : Nat) (run : Nat × Nat) : Prop :=
  ∀ i, run.1 ≤ i → i < run.1 + run.2 → i < src.size → i < n

namespace Below

theorem part {run : Nat × Nat} (h : src.Below n run) (hpos : run.1 ≤ pos)
    (hwidth : pos + width ≤ run.1 + run.2) : src.Below n (pos, width) :=
  fun i hi hlt => h i (Nat.le_trans hpos hi) (Nat.lt_of_lt_of_le hlt hwidth)

end Below

end Source

namespace SymbolTable

variable {src : Source} {n pos : Nat}

/-- An entry is read in three steps: two bytes, and the name behind them. -/
theorem entryAt_eq (src : Source) (pos : Nat) :
    entryAt src pos =
      match src.natLE (pos + 2) 1 with
      | .error fault => .error fault
      | .ok flags =>
        match src.natLE (pos + 3) 1 with
        | .error fault => .error fault
        | .ok length =>
          if flags / numberFlag % 2 = 1 ∧ length = 2 then
            (src.natLE (pos + 4) 2).map fun (number : Nat) => .number number
          else .ok (.bytes (src.slice (pos + 4) length)) := by
  unfold entryAt
  rcases src.natLE (pos + 2) 1 with fault | flags
  · rfl
  · rcases src.natLE (pos + 3) 1 with fault | length
    · rfl
    · dsimp only [bind, Except.bind]
      split
      · rcases src.natLE (pos + 4) 2 with fault | number <;> rfl
      · rfl

end SymbolTable

namespace Decode

variable {α β : Type} {e : Option Power} {src : Source} {n : Nat}

/-! ## Names below the cut -/

/-- All names that have been looked up lie below a position of the file. -/
def State.NamesBelow (n : Nat) (s : State) : Prop :=
  ∀ offset name, s.symbols.name? offset = some name →
    s.headerSize + offset + SymbolTable.entrySize name ≤ n

/-- If the names lie below a position after an action, they did so before. -/
def NamesKept (src : Source) (n : Nat) (m : Decode α) : Prop :=
  ∀ pos s, (m.run src pos s).2.2.NamesBelow n → s.NamesBelow n

/-- An action does the same on all files. -/
def Still (m : Decode α) : Prop :=
  ∀ src src' pos s, m.run src pos s = m.run src' pos s

theorem Still.bind {m : Decode α} {f : α → Decode β} (hm : Still m) (hf : ∀ a, Still (f a)) :
    Still (m >>= f) := by
  intro src src' pos s
  rw [run_bind, run_bind, hm src src']
  rcases m.run src' pos s with ⟨fault | a, pos', s'⟩
  · rfl
  · exact hf a src src' pos' s'

/-- A run has failed, or has come to a position that counts as an end. -/
def Ended (ended : Nat → Prop) (outcome : Except Fault α × Nat × State) : Prop :=
  (∃ fault, outcome.1 = .error fault) ∨ ended outcome.2.1

/-- On the rest of a file, an action does what it does on the whole file, or it ends early. -/
def Agrees (src : Source) (n : Nat) (ended : Nat → Prop) (m : Decode α) : Prop :=
  ∀ pos s, (m.run src pos s).2.2.NamesBelow n →
    m.run (src.cut n) pos s = m.run src pos s ∨ Ended ended (m.run (src.cut n) pos s)

variable {ended : Nat → Prop}

theorem Agrees.bind {m : Decode α} {f : α → Decode β} (hm : Agrees src n ended m)
    (hf : ∀ a, Agrees src n ended (f a)) (hkept : ∀ a, NamesKept src n (f a))
    (hup : ∀ p q, p ≤ q → ended p → ended q) : Agrees src n ended (m >>= f) := by
  intro pos s hbelow
  rw [run_bind] at hbelow
  rw [run_bind, run_bind]
  have hfirst : (m.run src pos s).2.2.NamesBelow n := by
    rcases hrun : m.run src pos s with ⟨fault | a, pos', s'⟩ <;> rw [hrun] at hbelow
    · exact hbelow
    · exact hkept a pos' s' hbelow
  rcases hm pos s hfirst with hsame | hended
  · rw [hsame]
    rcases hrun : m.run src pos s with ⟨fault | a, pos', s'⟩ <;> rw [hrun] at hbelow
    · exact .inl rfl
    · exact hf a pos' s' hbelow
  · refine .inr ?_
    rcases hrun : m.run (src.cut n) pos s with ⟨fault | a, pos', s'⟩ <;> rw [hrun] at hended
    · exact .inl ⟨fault, rfl⟩
    · -- the position only moves on
      rcases hended with ⟨fault, hfault⟩ | hended
      · cases hfault
      · exact .inr (hup pos' _ (le_pos_run (f a) (src.cut n) pos' s') hended)

end Decode

end SavedBasic
