import SavedBasic.Proofs.Emission
import SavedBasic.Proofs.Layouts

/-!
# Where instructions end

An instruction takes the same number of bytes in every state of the decoder. It takes whole words,
unless the source ends inside a run of bytes; so the instructions of a source can be told apart without
performing them.
-/

namespace SavedBasic

namespace Source

/-- The source with more bytes behind its end. -/
def append (src : Source) (tail : Bytes) : Source :=
  ofBytes (src.data.toList ++ tail)

theorem size_append (src : Source) (tail : Bytes) :
    (src.append tail).size = src.size + tail.length := by
  rw [append, size_ofBytes, List.length_append, Array.length_toList]
  rfl

end Source

namespace Decode

namespace Layout

theorem le_of_fin? {src : Source} {l : Layout} {pos pos' : Nat} (h : l.fin? src pos = some pos') :
    pos ≤ pos' := by
  induction l generalizing pos with
  | done =>
    cases h
    exact Nat.le_refl _
  | words n next ih =>
    rw [fin?] at h
    split at h
    · exact Nat.le_trans (Nat.le_add_right _ _) (ih _ h)
    · cases h
  | text length next ih => exact Nat.le_trans (Nat.le_add_right _ _) (ih h)

/-- Where the source has ended there is nothing to move on for. -/
theorem eq_of_fin?_of_size_le {src : Source} {l : Layout} {pos pos' : Nat} (hsize : src.size ≤ pos)
    (h : l.fin? src pos = some pos') : pos' = pos := by
  induction l generalizing pos with
  | done =>
    cases h
    rfl
  | words n next ih =>
    rw [fin?] at h
    split at h
    · rename_i k hk
      have hle := Source.le_size_of_natLE hk
      have hpos := ih k (by omega) h
      omega
    · cases h
  | text length next ih =>
    have hnone : (src.slice pos (length + length % 2)).length = 0 := by
      rw [Source.length_slice]
      omega
    rw [fin?, hnone] at h
    exact ih hsize h

/-- A layout takes whole words, or ends where the source ends. -/
theorem two_dvd_or_eq_size {src : Source} {l : Layout} {pos pos' : Nat}
    (h : l.fin? src pos = some pos') : 2 ∣ pos' - pos ∨ pos' = src.size := by
  induction l generalizing pos with
  | done =>
    cases h
    simp
  | words n next ih =>
    rw [fin?] at h
    split at h
    · refine (ih _ h).imp_left fun hdvd => ?_
      have hle := le_of_fin? h
      omega
    · cases h
  | text length next ih =>
    rw [fin?, Source.length_slice] at h
    by_cases hwhole : length + length % 2 ≤ src.size - pos
    · rw [Nat.min_eq_left hwhole] at h
      refine (ih h).imp_left fun hdvd => ?_
      have hle := le_of_fin? h
      omega
    · -- nothing is left behind a run that is cut short
      by_cases hpos : pos ≤ src.size
      · have hend := eq_of_fin?_of_size_le (by omega) h
        omega
      · rw [Nat.min_eq_right (by omega), Nat.sub_eq_zero_of_le (by omega)] at h
        exact ih h

end Layout

/-! ## Reading to the end -/

/-- The end of the source cuts nothing short that the action reads: however the source goes on, the
action does the same. -/
def Whole {α : Type} (m : Decode α) (src : Source) (pos : Nat) (s : State) : Prop :=
  ∀ tail, m.run (src.append tail) pos s = m.run src pos s

end Decode

namespace Instruction

open Decode

/-- An instruction takes the same number of bytes in every state in which it succeeds. This number is
at least that of its own word. It is even, unless the source ends right behind the instruction and has
cut something short. -/
theorem step_takes_whole_words {v : Version} {src : Source} {pos p p' : Nat} {s s' t t' : State}
    (h : (step v).run src pos s = (.ok (), p, t))
    (h' : (step v).run src pos s' = (.ok (), p', t')) :
    p - pos = p' - pos ∧ 2 ≤ p - pos ∧
      (p ≠ src.size ∨ Whole (step v) src pos s → 2 ∣ p - pos) := by
  obtain ⟨l, hl⟩ := exists_layout_step v
  have hfin := hl.fin?_eq h
  have hfin' := hl.fin?_eq h'
  obtain rfl : p = p' := Option.some.inj (hfin.symm.trans hfin')
  refine ⟨rfl, ?_, ?_⟩
  · obtain ⟨w, -, hperform⟩ := run_step_eq_ok.mp h
    have hle := le_of_run hperform
    omega
  · rintro (hsize | hwhole)
    · exact (Layout.two_dvd_or_eq_size hfin).resolve_right hsize
    · -- the same instruction cannot end where either of two sources of different sizes ends
      have hrun := hwhole [0]
      rw [h] at hrun
      have hlonger := Layout.two_dvd_or_eq_size (hl.fin?_eq hrun)
      rw [Source.size_append, List.length_singleton] at hlonger
      have hshorter := Layout.two_dvd_or_eq_size hfin
      omega

/-- A string of one byte, which is filled up by another one. -/
def shortString : Bytes :=
  Bytes.u16 0x016D ++ Bytes.packed [0x41]

/-- Whatever is on the stack, the string takes six bytes. -/
theorem shortString_takes_whole_words :
    ∃ t t', (step .qb45).run (.ofBytes shortString) 0 (.start .qb45) = (.ok (), 6, t) ∧
      (step .qb45).run (.ofBytes shortString) 0 { State.start .qb45 with stack := [.omitted] } =
        (.ok (), 6, t') ∧
      Whole (step .qb45) (.ofBytes shortString) 0 (.start .qb45) ∧ 2 ∣ 6 - 0 := by
  have hlookup : table.lookup 0x016D = some (always do push (.string (← packed))) := rfl
  have hperform : perform .qb45 (0x016D + 0 * 1024) =
      (packed >>= fun text => push (.string text)) :=
    perform_eq (by decide) hlookup (by decide) (by decide)
  have hrun (src : Source) (s : State) (h : src.Holds 0 shortString) :
      (step .qb45).run src 0 s = (.ok (), 6, { s with stack := .string [0x41] :: s.stack }) := by
    obtain ⟨hword, htext⟩ := Source.holds_append.mp h
    rw [step, run_bind_ok (run_word_holds (by decide) hword s), hperform]
    exact run_bind_ok (run_packed_holds (by decide) htext s)
  have hholds (tail : Bytes) : ((Source.ofBytes shortString).append tail).Holds 0 shortString :=
    ⟨tail, rfl⟩
  have hstart := hrun (.ofBytes shortString) (.start .qb45) ⟨[], rfl⟩
  have hother := hrun (.ofBytes shortString) { State.start .qb45 with stack := [.omitted] } ⟨[], rfl⟩
  have hwhole : Whole (step .qb45) (.ofBytes shortString) 0 (.start .qb45) :=
    fun tail => (hrun _ _ (hholds tail)).trans hstart.symm
  exact ⟨_, _, hstart, hother, hwhole, (step_takes_whole_words hstart hother).2.2 (.inr hwhole)⟩

end Instruction

end SavedBasic
