import SavedBasic.Proofs.Stretches
import SavedBasic.Proofs.WrittenAgain

/-!
# Drafts that have been rehearsed

The instructions of a draft can be rehearsed before there is a file. What a rehearsal needs of the file
are its names, and a file has the names of its draft where the identifier table says. So a draft whose
procedures have all been rehearsed is decoded without a fault, into the procedures of the rehearsal.
-/

namespace SavedBasic

/-! ## The names of a draft -/

/-- The name that a key stands for, if it can be written. -/
def Key.name? : Key → Option Name
  | text t =>
    match Text.CodePage.encode t with
    | .ok b => if b.length ≤ 255 then some (.bytes b) else none
    | .error _ => none
  | bytes b => if b.length ≤ 255 then some (.bytes b) else none
  | number n => if 0 ≤ n ∧ n ≤ 65535 then some (.number n.toNat) else none

theorem Key.spells_of_name? {key : Key} {name : Name} (h : key.name? = some name) :
    key.Spells name := by
  unfold Key.name? at h
  split at h
  · split at h
    · rename_i hencode
      obtain ⟨hlength, hname⟩ := Option.ite_none_right_eq_some.mp h
      cases hname
      exact .text hencode hlength
    · cases h
  · obtain ⟨hlength, hname⟩ := Option.ite_none_right_eq_some.mp h
    cases hname
    exact .bytes hlength
  · obtain ⟨⟨hpos, hle⟩, hname⟩ := Option.ite_none_right_eq_some.mp h
    cases hname
    obtain ⟨n, rfl⟩ := Int.eq_ofNat_of_zero_le hpos
    exact .number (Int.ofNat_le.mp hle)

/-- The names of a table at their offsets. -/
def SymbolArea.names (area : SymbolArea) : List (Nat × Name) :=
  area.offsets.filterMap fun entry =>
    (area.offset? entry.1).bind fun offset => entry.1.name?.map fun name => (offset, name)

theorem SymbolArea.exists_of_mem_names {area : SymbolArea} {offset : Nat} {name : Name}
    (h : (offset, name) ∈ area.names) :
    ∃ key, area.offset? key = some offset ∧ key.Spells name := by
  obtain ⟨entry, -, hentry⟩ := List.mem_filterMap.mp h
  obtain ⟨found, hfound, hname⟩ := Option.bind_eq_some_iff.mp hentry
  obtain ⟨spelled, hspelled, heq⟩ := Option.map_eq_some_iff.mp hname
  cases heq
  exact ⟨entry.1, hfound, Key.spells_of_name? hspelled⟩

open Decode

/-- All states of the decoding of a file find the names of its draft. -/
theorem Draft.finds_names {d : Draft} (hform : d.version = .vbdos → d.form.length < 65536)
    (hsound : d.symbols.Sound) {s : State} (hs : Reachable d.version d.source s) :
    s.Finds d.source d.symbols.names := by
  intro entry hentry
  obtain ⟨key, hoffset, hspells⟩ := SymbolArea.exists_of_mem_names hentry
  obtain ⟨written, hwritten, hhas⟩ := hspells.entry
  obtain ⟨written', hwritten', hstands⟩ := hsound.stands hoffset
  cases hwritten.symm.trans hwritten'
  exact Draft.nameAt_source hform hs hstands hhas

namespace Decode

variable {v : Version} {src : Source} {names : List (Nat × Name)}

/-! ## Procedures that have been rehearsed -/

/-- Instructions that add lines wherever they stand are taken as the instructions of a procedure. -/
theorem Adds.takes {code before : Bytes} {a b : Setting} {lines : List Line} {s : State}
    (h : Adds v names code a b lines) (hholds : src.Holds before.length code)
    (hfinds : s.Finds src names) (ha : s.In a) :
    ∃ t, Draft.Takes v src before code s t ∧ t.In b ∧ t.Finds src names ∧
      t.program = s.programWith b.kind lines := by
  obtain ⟨t, hproceeds, hb, hprogram⟩ := h hholds hfinds ha
  refine ⟨t, ?_, hb, hfinds.proceeds hproceeds, hprogram⟩
  rw [Draft.Takes, List.length_append, hproceeds.run_instructions (Nat.le_refl _)]
  exact run_instructions_of_le (Nat.le_refl _) ..

/-- Rehearses the instructions of procedures one after another, each with function definitions open if
the one before has left some. -/
def rehearseProcedures (v : Version) (names : List (Nat × Name)) :
    Bool → List Draft.Procedure → Option (List Procedure)
  | _, [] => some []
  | opened, p :: ps =>
    match rehearsal v names ⟨none, p.isStatic, opened⟩ p.code with
    | none => none
    | some s =>
      match rehearseProcedures v names (!s.openFns.isEmpty) ps with
      | none => none
      | some rest =>
        some (⟨some p.name, s.program.current.kind, p.isStatic, s.program.current.lines⟩ :: rest)

/-- Procedures that have been rehearsed are performed, and the program gets them as in the
rehearsal. -/
theorem performed_of_rehearsed {opened : Bool} {ps : List Draft.Procedure} {decoded : List Procedure}
    (h : rehearseProcedures v names opened ps = some decoded) {before : Bytes} {s : State}
    (hholds : src.Holds before.length (Draft.further ps)) (hfinds : s.Finds src names)
    (hopened : opened = true → s.openFns ≠ []) :
    ∃ states, Draft.Performed v src before s ps states ∧
      (states.getLastD s).program.procedures = s.program.procedures ++ decoded := by
  induction ps generalizing opened decoded before s with
  | nil =>
    cases h
    exact ⟨[], .nil before s, (List.append_nil _).symm⟩
  | cons p ps ih =>
    rw [rehearseProcedures] at h
    rcases hfirst : rehearsal v names ⟨none, p.isStatic, opened⟩ p.code with _ | r <;> rw [hfirst] at h
    · cases h
    · dsimp only at h
      rcases hrest : rehearseProcedures v names (!r.openFns.isEmpty) ps with _ | rest
        <;> rw [hrest] at h
      · cases h
      · cases h
        rw [Draft.further, List.map_cons, List.flatten_cons, p.bytes_eq, Source.holds_append,
          Source.holds_append, ← List.length_append] at hholds
        obtain ⟨⟨-, hcode⟩, hfurther⟩ := hholds
        obtain ⟨t, htakes, ht, hfinds', hprogram⟩ := (adds_of_rehearsal hfirst).takes hcode
          (s := s.enter p.name p.isStatic) hfinds ⟨rfl, rfl, hopened⟩
        rw [← p.bytes_eq, ← List.length_append] at hfurther
        obtain ⟨states, hperformed, hprocedures⟩ := ih hrest hfurther hfinds' ht.opened
        refine ⟨t :: states, .cons htakes hperformed, ?_⟩
        rw [List.getLastD_cons, hprocedures, hprogram, State.programWith, Program.procedures,
          List.reverse_cons, List.append_assoc]
        simp only [State.enter, Procedure.start, List.append_nil, List.singleton_append]
        rfl

end Decode

namespace Draft

theorem reachable_begun {d : Draft}
    (h : (Decode.header d.version).run d.source 0 (.start d.version) = (.ok (), 0, d.begun)) :
    Reachable d.version d.source d.begun := by
  have hstart : Reachable d.version d.source
      ((Decode.header d.version).run d.source 0 (.start d.version)).2.2 := .start
  rwa [h] at hstart

/-- **A draft that has been rehearsed is decoded as in the rehearsal.** -/
theorem decode_of_rehearsed {d : Draft} (hfits : d.Fits) (hsound : d.symbols.Sound) {b : Setting}
    {lines : List Line} {decoded : List SavedBasic.Procedure}
    (hmain : Adds d.version d.symbols.names d.main ⟨none, false, false⟩ b lines)
    (hfurther : rehearseProcedures d.version d.symbols.names b.opened d.procedures.reverse =
      some decoded) :
    ∃ image, Image.decode d.source = .ok image ∧ image.failure = none ∧
      image.procedures = ⟨none, b.kind, false, lines⟩ :: decoded := by
  have hfinds := finds_names hfits.form hsound (reachable_begun (run_header hfits 0))
  have hholds : d.source.Holds d.opening.length d.main :=
    holds_source d.opening d.main (further d.procedures.reverse) d.bytes_eq
  obtain ⟨s, htakes, hs, hfinds', hprogram⟩ :=
    hmain.takes hholds hfinds ⟨rfl, rfl, by simp⟩
  obtain ⟨states, hperformed, hprocedures⟩ := performed_of_rehearsed hfurther
    (holds_source (d.opening ++ d.main) (further d.procedures.reverse) []
      (by rw [d.bytes_eq, List.append_nil])) hfinds' hs.opened
  obtain ⟨image, hdecode, -, hfailure, hall⟩ := decode_of_performed hfits htakes hperformed
  refine ⟨image, hdecode, hfailure, ?_⟩
  rw [hall, hprocedures, hprogram, State.programWith]
  simp only [begun, State.start, Program.start, Procedure.start, List.append_nil]
  rfl

end Draft

end SavedBasic
