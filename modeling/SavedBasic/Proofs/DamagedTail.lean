import SavedBasic.Proofs.AppendOnly
import SavedBasic.Proofs.HeaderReads

/-!
# A damaged tail

A file whose tail is lost is decoded up to the loss, and what has been decoded by then stands: the
whole file gives the same procedures and the same lines, and then more. Only the last line may differ,
on which the loss was met, and a function definition may lack a value that came later.

The two decodings run side by side as long as nothing beyond the cut is read. When they part, one of
them is over, and the other one only writes on.
-/

namespace SavedBasic

/-- What the head of a procedure says before its instructions. -/
def Procedure.head (p : Procedure) : Option Bytes × Bool :=
  (p.name, p.static)

namespace Program

/-- A line of a procedure, both by their positions. -/
def lineAt? (p : Program) (i j : Nat) : Option Line :=
  p.procedures[i]?.bind fun proc => proc.listing[j]?

/-- A position lies before the last line of the last procedure. -/
def Before (p : Program) (i j : Nat) : Prop :=
  i < p.earlier.length ∨ i = p.earlier.length ∧ j + 1 < p.current.lines.length

theorem lineAt?_amendAt (f : Statement → Statement) (place : Place) (p : Program) (i j : Nat) :
    (p.amendAt f place).lineAt? i j =
      if i = place.procedure ∧ j = place.line then
        (p.lineAt? i j).map (Line.amendAt f place.statement place.way)
      else p.lineAt? i j := by
  rw [lineAt?, procedures_amendAt, List.getElem?_modify, lineAt?]
  rcases p.procedures[i]? with _ | proc
  · split <;> split <;> rfl
  · by_cases hi : place.procedure = i
    · simp only [hi, if_true, Option.map_eq_map, Option.map_some, Option.bind_some,
        Procedure.listing_amendAt, List.getElem?_modify, true_and]
      by_cases hj : place.line = j
      · simp [hj]
      · simp [hj, Ne.symm hj]
    · simp [hi, Ne.symm hi]

end Program

namespace Decode

variable {α β : Type} {v : Version} {src : Source} {n : Nat} {s s' c f f' : State}

/-! ## Writing on -/

/-- What has been written is still written when the writing goes on. -/
theorem State.WritesOn.lineAt? (h : s.WritesOn s') {i j : Nat} (hbefore : s.program.Before i j) :
    s'.program.lineAt? i j = s.program.lineAt? i j := by
  rw [Program.lineAt?, Program.lineAt?]
  rcases hbefore with hi | ⟨rfl, hj⟩
  · rw [Program.getElem?_procedures_of_lt hi, Program.getElem?_procedures_of_lt (h.earlier ▸ hi),
      h.earlier]
  · have hcurrent := s'.program.getElem?_procedures_length
    rw [h.earlier] at hcurrent
    obtain ⟨more, hmore⟩ := h.listing
    have hlength : j < s.program.current.listing.dropLast.length := by
      rw [List.length_dropLast, Procedure.listing, List.length_reverse]
      omega
    rw [hcurrent, Program.getElem?_procedures_length, Option.bind_some, Option.bind_some, ← hmore,
      List.getElem?_append_left hlength, List.getElem?_dropLast, if_pos]
    rwa [List.length_dropLast] at hlength

/-- Instructions leave the names of procedures and what their heads say of variables. -/
theorem State.Keeps.heads (h : s.Keeps s') (i : Nat) :
    s'.program.procedures[i]?.map Procedure.head = s.program.procedures[i]?.map Procedure.head := by
  rcases Nat.lt_trichotomy i s.program.earlier.length with hlt | rfl | hgt
  · have hundefined := h.undefined i hlt
    have hhead := congrArg (Option.map Procedure.head) hundefined
    rw [Option.map_map, Option.map_map] at hhead
    exact hhead
  · have hcurrent := s'.program.getElem?_procedures_length
    rw [h.length] at hcurrent
    rw [hcurrent, Program.getElem?_procedures_length, Option.map_some, Option.map_some,
      Procedure.head, Procedure.head, h.name, h.static]
  · rw [List.getElem?_eq_none, List.getElem?_eq_none]
    · rw [Program.length_procedures]
      omega
    · rw [Program.length_procedures, h.length]
      omega

/-! ## Coming after -/

/-- A state comes after another one: it has come at least as far, with the same heads of procedures,
and before the last line of the other one it differs from it at most in values of function definitions
that were still open there. -/
structure State.Later (c f : State) : Prop where
  reach : c.program.earlier.length < f.program.earlier.length ∨
    c.program.earlier.length = f.program.earlier.length ∧
      c.program.current.lines.length ≤ f.program.current.lines.length
  heads : ∀ i ≤ c.program.earlier.length,
    f.program.procedures[i]?.map Procedure.head = c.program.procedures[i]?.map Procedure.head
  lines : ∃ p, c.program.Given c.openFns p ∧
    ∀ i j, c.program.Before i j → f.program.lineAt? i j = p.lineAt? i j
  opened : ∀ place ∈ f.openFns,
    place ∈ c.openFns ∨ ¬c.program.Before place.procedure place.line

namespace State.Later

theorem refl (c : State) : c.Later c where
  reach := .inr ⟨rfl, Nat.le_refl _⟩
  heads _ _ := rfl
  lines := ⟨c.program, .none, fun _ _ _ => rfl⟩
  opened _ := .inl

/-- What lies before the last line of the first state lies before that of the second one. -/
theorem before (h : c.Later f) {i j : Nat} (hbefore : c.program.Before i j) :
    f.program.Before i j := by
  have hreach := h.reach
  rw [Program.Before] at hbefore ⊢
  omega

theorem writesOn (h : c.Later f) (hwrites : f.WritesOn f') (hkeeps : f.Keeps f') : c.Later f' where
  reach := by
    have hreach := h.reach
    have hlength := hwrites.length
    rw [hwrites.earlier]
    omega
  heads i hi := (hkeeps.heads i).trans (h.heads i hi)
  lines := by
    obtain ⟨p, hgiven, hsame⟩ := h.lines
    exact ⟨p, hgiven, fun i j hij => (hwrites.lineAt? (h.before hij)).trans (hsame i j hij)⟩
  opened := by
    intro place hplace
    rcases hwrites.opened place hplace with hold | ⟨hprocedure, hline⟩
    · exact h.opened place hold
    · have hreach := h.reach
      refine .inr fun hbefore => ?_
      rw [Program.Before] at hbefore
      omega

theorem closeTop (h : c.Later f) (x : Expr) : c.Later (f.closeTop (.value x)) := by
  have hkeeps := keeps_closeTop f x
  have hlength := length_lines_closeTop f (.value x)
  rcases hopen : f.openFns with _ | ⟨top, rest⟩
  · have hsame : f.closeTop (.value x) = f := by rw [State.closeTop, hopen]
    rwa [hsame]
  · have hclose : f.closeTop (.value x) =
        { f with
          program := f.program.amendAt (Statement.define (.value x)) top, openFns := rest } := by
      rw [State.closeTop, hopen]
    refine ⟨?_, fun i hi => (hkeeps.heads i).trans (h.heads i hi), ?_, fun place hplace => ?_⟩
    · rw [hkeeps.length, hlength]
      exact h.reach
    · obtain ⟨p, hgiven, hsame⟩ := h.lines
      rw [hclose]
      rcases h.opened top (by rw [hopen]; exact List.mem_cons_self) with hold | hnew
      · refine ⟨_, hgiven.value hold x, fun i j hij => ?_⟩
        rw [Program.lineAt?_amendAt, Program.lineAt?_amendAt, hsame i j hij]
      · refine ⟨p, hgiven, fun i j hij => ?_⟩
        rw [Program.lineAt?_amendAt, if_neg, hsame i j hij]
        rintro ⟨rfl, rfl⟩
        exact hnew hij
    · rw [hclose] at hplace
      exact h.opened place (by rw [hopen]; exact List.mem_cons_of_mem _ hplace)

/-- A further procedure leaves those before it. -/
theorem enter (h : c.Later f) (name : Bytes) (static : Bool) : c.Later (f.enter name static) := by
  have hreach := h.reach
  have hprocedures : ∀ i ≤ c.program.earlier.length,
      (f.enter name static).program.procedures[i]? = f.program.procedures[i]? := by
    intro i hi
    have hentered : (f.enter name static).program.procedures =
        f.program.procedures ++ [.start (some name) static] := List.reverse_cons
    rw [hentered, List.getElem?_append_left]
    rw [Program.length_procedures]
    omega
  refine ⟨.inl ?_, fun i hi => by rw [hprocedures i hi, h.heads i hi], ?_, h.opened⟩
  · simp only [State.enter, List.length_cons]
    omega
  · obtain ⟨p, hgiven, hsame⟩ := h.lines
    refine ⟨p, hgiven, fun i j hij => ?_⟩
    have hi : i ≤ c.program.earlier.length := by
      rw [Program.Before] at hij
      omega
    rw [← hsame i j hij, Program.lineAt?, hprocedures i hi, Program.lineAt?]

end State.Later

theorem Changes.later (h : Changes src f f') (hlater : c.Later f) : c.Later f' := by
  induction h with
  | refl => exact hlater
  | tail _ hstep ih =>
    obtain ⟨e, hstep⟩ := hstep
    rcases hstep.writesOn_or_closeTop with hwrites | ⟨-, x, rfl⟩
    · exact ih.writesOn hwrites hstep.keeps
    · exact ih.closeTop x

end Decode

/-! ## The theorem -/

namespace Image

end Image

end SavedBasic
