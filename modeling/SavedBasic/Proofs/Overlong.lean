import SavedBasic.Proofs.DamagedTail
import SavedBasic.Proofs.RehearsedDrafts

/-!
# Lengths that do not fit

The length of the main program is stored in a word, and of a length that does not fit only the
remainder is stored. Decoding then leaves the main program early. What it has decoded by then stands
(`decode_short`): the lines are the first lines of the main program, up to the last one of them, which
may be incomplete. Behind it decoding takes what is left of the main program for further procedures.
What comes of that depends on the bytes; if the instructions that are found there fail, the program ends
with a procedure that nobody has written (`decode_misread`).
-/

namespace SavedBasic

open Decode Instruction

/-! ## Leaving off -/

/-- Procedures that differ in values of function definitions at most have lines that do so. -/
theorem Procedure.map_undefined_listing {p p' : Procedure} (h : p.undefined = p'.undefined) :
    p.listing.map Line.undefined = p'.listing.map Line.undefined := by
  have hlines : p.lines.map Line.undefined = p'.lines.map Line.undefined :=
    congrArg Procedure.lines h
  rw [Procedure.listing, Procedure.listing, List.map_reverse, List.map_reverse, hlines]

theorem Procedure.length_lines_eq {p p' : Procedure} (h : p.undefined = p'.undefined) :
    p.lines.length = p'.lines.length := by
  have hlines : (p.lines.map Line.undefined).length = (p'.lines.map Line.undefined).length :=
    congrArg (fun q => q.lines.length) h
  rwa [List.length_map, List.length_map] at hlines

section

variable {v : Version} {src : Source} {a b : Nat × State}

/-- Instructions that are performed only up to a position on the way stop at a state on the way. -/
theorem Proceeds.stops (h : Proceeds v src a b) {fin : Nat} (hfin : fin ≤ b.1) :
    ∃ c, Proceeds v src a c ∧ Proceeds v src c b ∧
      (instructions v fin).run src a.1 a.2 = (.ok (), c.1, c.2) := by
  induction h using Relation.ReflTransGen.head_induction_on with
  | refl => exact ⟨b, .refl, .refl, run_instructions_of_le hfin ..⟩
  | @head a c hstep hrest ih =>
    by_cases hlt : a.1 < fin
    · obtain ⟨d, hbefore, hbehind, hrun⟩ := ih
      exact ⟨d, .head hstep hbefore, hbehind, (run_instructions_step hlt hstep).trans hrun⟩
    · exact ⟨a, .refl, .head hstep hrest, run_instructions_of_le (Nat.not_lt.mp hlt) ..⟩

theorem Proceeds.changes (h : Proceeds v src a b) : Changes src a.2 b.2 := by
  induction h with
  | refl => exact .refl
  | @tail b c _ hstep ih =>
    have hchanges := changes_step v src b.1 b.2
    rw [hstep] at hchanges
    exact ih.trans hchanges

/-- On the way no procedure is added and no line is taken away. -/
theorem Proceeds.length_lines_le (h : Proceeds v src a b) :
    b.2.program.earlier.length = a.2.program.earlier.length ∧
      a.2.program.current.lines.length ≤ b.2.program.current.lines.length := by
  have hlength := h.changes.keeps.length
  have hreach := (h.changes.later (.refl a.2)).reach
  omega

/-- What stands in front of the last line on the way stands there at the end, but for values of function
definitions. -/
theorem Proceeds.undefined_listing (h : Proceeds v src a b) {j : Nat}
    (hj : j + 1 < a.2.program.current.lines.length) :
    b.2.program.current.listing[j]?.map Line.undefined =
      a.2.program.current.listing[j]?.map Line.undefined := by
  obtain ⟨p, hgiven, hsame⟩ := (h.changes.later (.refl a.2)).lines
  have hline := hsame a.2.program.earlier.length j (.inr ⟨rfl, hj⟩)
  have hlast := b.2.program.getElem?_procedures_length
  rw [h.length_lines_le.1] at hlast
  have hundefined := hgiven.undefined_eq a.2.program.earlier.length
  rw [Program.getElem?_procedures_length, Option.map_some] at hundefined
  obtain ⟨q, hq, hundefined'⟩ := Option.map_eq_some_iff.mp hundefined
  rw [Program.lineAt?, Program.lineAt?, hlast, hq, Option.bind_some, Option.bind_some] at hline
  rw [hline, ← List.getElem?_map, ← List.getElem?_map, Procedure.map_undefined_listing hundefined']

/-- A procedure as it stands on the way has the first lines of the procedure at the end, but for its last
line and for values of function definitions. -/
theorem Proceeds.undefined_dropLast (h : Proceeds v src a b) {p : Procedure}
    (hp : p.undefined = a.2.program.current.undefined) :
    p.listing.dropLast.map Line.undefined =
      (b.2.program.current.listing.take (p.lines.length - 1)).map Line.undefined := by
  have hlength := Procedure.length_lines_eq hp
  have hlisting : p.listing.length = p.lines.length := List.length_reverse
  rw [List.dropLast_eq_take, List.map_take, List.map_take, Procedure.map_undefined_listing hp, hlisting]
  apply List.ext_getElem?
  intro j
  rw [List.getElem?_take, List.getElem?_take]
  split
  · rename_i hj
    rw [List.getElem?_map, List.getElem?_map, h.undefined_listing (by omega)]
  · rfl

end

namespace Decode

/-- Once decoding has left the first procedure, only values of function definitions are added to
it. -/
theorem lasting_first (v : Version) (src : Source) (first : Option Procedure) :
    Lasting v src fun s => 0 < s.program.earlier.length ∧
      s.program.procedures[0]?.map Procedure.undefined = first where
  step pos s hs := by
    have hkeeps := (changes_step v src pos s).keeps
    exact ⟨hkeeps.length ▸ hs.1, (hkeeps.undefined 0 hs.1).trans hs.2⟩
  enter name static s hs := by
    refine ⟨Nat.succ_pos _, ?_⟩
    rw [State.procedures_enter, List.getElem?_append_left, hs.2]
    exact Nat.lt_of_lt_of_eq (Nat.succ_pos _) s.program.length_procedures.symm

/-- The head of a procedure is read as a whole before anything changes. -/
theorem run_procedureHead (src : Source) (pos : Nat) (s : State) :
    (∃ fault pos', procedureHead.run src pos s = (.error fault, pos', s)) ∨
      ∃ name static pos', procedureHead.run src pos s = (.ok (), pos', s.enter name static) := by
  have hname := state_procedureName src pos s
  rw [procedureHead, run_bind]
  rcases hrun : procedureName.run src pos s with ⟨fault | name, pos₁, s₁⟩ <;> rw [hrun] at hname
  · obtain rfl : s₁ = s := hname
    exact .inl ⟨fault, pos₁, rfl⟩
  · obtain rfl : s₁ = s := hname
    dsimp only
    rw [run_bind, run_number]
    rcases src.natLE pos₁ 1 with fault | flags
    · exact .inl ⟨fault, pos₁, rfl⟩
    · exact .inr ⟨name, flags.testBit 7, pos₁ + 1, rfl⟩

/-- Further procedures change no more of the first one. -/
theorem first_furtherProcedures (v : Version) (src : Source) (pos : Nat) (s : State) :
    ((furtherProcedures v).run src pos s).2.2.program.procedures[0]?.map Procedure.undefined =
      s.program.procedures[0]?.map Procedure.undefined := by
  by_cases hmore : pos + trailerSize < src.size
  · rw [run_furtherProcedures_of_lt hmore, nextProcedure_eq_head, bind_assoc, run_bind]
    rcases run_procedureHead src (pos + trailerSize) s with
      ⟨fault, pos', hhead⟩ | ⟨name, static, pos', hhead⟩
    · rw [hhead]
    · rw [hhead]
      have hlasting := lasting_first v src (s.program.procedures[0]?.map Procedure.undefined)
      have hrest := hlasting.body.bind fun _ => hlasting.furtherProcedures
      refine (hrest pos' (s.enter name static) ⟨Nat.succ_pos _, ?_⟩).2
      rw [State.procedures_enter, List.getElem?_append_left]
      exact Nat.lt_of_lt_of_eq (Nat.succ_pos _) s.program.length_procedures.symm
  · rw [run_furtherProcedures_of_le (Nat.not_lt.mp hmore)]

/-- If the main program is all there is, further procedures leave it, but for values of function
definitions. -/
theorem undefined_first (v : Version) (src : Source) (pos : Nat) {s : State}
    (h : s.program.earlier = []) :
    ∃ p, ((furtherProcedures v).run src pos s).2.2.program.procedures[0]? = some p ∧
      p.undefined = s.program.current.undefined := by
  have hfirst := first_furtherProcedures v src pos s
  have hcurrent : s.program.procedures[0]? = some s.program.current := by
    rw [Program.procedures, h]
    rfl
  rw [hcurrent, Option.map_some] at hfirst
  exact Option.map_eq_some_iff.mp hfirst

/-! ## Instructions that fail -/

/-- At a position of a file an instruction fails, wherever a procedure has the given lines and no more,
and changes nothing of the program. -/
def FaultsAt (v : Version) (src : Source) (pos : Nat) (lines : List Line) (fault : Fault) : Prop :=
  ∀ s : State, s.program.current.lines = lines →
    ∃ pos' s', (step v).run src pos s = (.error fault, pos', s') ∧ s'.program = s.program

/-- An opcode that a version does not have fails everywhere. -/
theorem faultsAt_of_undefined {v : Version} {src : Source} {pos w : Nat} (hw : src.natLE pos 2 = .ok w)
    (hop : operation v w = .undefined) (lines : List Line) :
    FaultsAt v src pos lines (.invalidOpcode (codeOf v w)) := by
  intro s _
  refine ⟨pos + 2, s, ?_, rfl⟩
  rw [step, run_bind_ok (run_word_ok hw s), perform, hop]
  rfl

theorem lookup_command {code count : Nat} {name : String} (h : (code, name, count) ∈ commands) :
    table.lookup code = some (always (command name count)) := by
  apply lookup_builtins
  have hmem : ∃ c n k, (c, n, k) ∈ commands ∧
      (c, always (command n k)) = (code, always (command name count)) := ⟨_, _, _, h, rfl⟩
  simp only [builtins, List.mem_append, List.mem_map, Prod.exists, hmem, true_or, or_true]

/-- A statement fails where there is no line. -/
theorem faultsAt_of_command {v : Version} {src : Source} {pos w code parameter count : Nat}
    {name : String} (hw : src.natLE pos 2 = .ok w) (hop : operation v w = .common code parameter)
    (hmem : (code, name, count) ∈ commands) : FaultsAt v src pos [] .noLine := by
  intro s hs
  refine ⟨pos + 2, { s with stack := s.stack.drop count }, ?_, rfl⟩
  have hnone : ({ s with stack := s.stack.drop count } : State).last? = none := by
    rw [State.last?, hs]
    rfl
  rw [step, run_bind_ok (run_word_ok hw s), perform_of_lookup hop (lookup_command hmem)]
  change (popMany count >>= fun args => put (.command name args)).run src (pos + 2) s = _
  rw [run_bind_ok (run_popMany ..), run_put, hnone]

end Decode

namespace Draft

/-! ## Main programs that are too long -/

/-- A length is stored modulo the number of values of a word. -/
theorem u16_mod (n : Nat) : Bytes.u16 n = Bytes.u16 (n % 65536 : Nat) := by
  have hmod : ((n : Int) % (Nat.pow 256 2 : Nat)).toNat =
      (((n % 65536 : Nat) : Int) % (Nat.pow 256 2 : Nat)).toNat := by
    rw [show Nat.pow 256 2 = 65536 from rfl]
    omega
  simp only [Bytes.u16, Bytes.ofIntLE, hmod]

/-- Without a form the header needs no more than that the identifier table fits. -/
theorem run_header_of_symbols {d : Draft} (hv : d.version ≠ .vbdos)
    (hsymbols : d.symbols.bytes.length < 65536) (pos : Nat) :
    (Decode.header d.version).run d.source pos (.start d.version) = (.ok (), pos, d.begun) := by
  have hsize : d.headerSize = d.version.headerSize := by rw [headerSize, if_neg hv]
  have hlayout : d.layout? = none := by rw [layout?, if_neg fun h => hv h.1]
  have hlength : d.source.natLE (d.version.headerSize - 2) 2 = .ok d.symbols.bytes.length := by
    rw [← hsize]
    exact d.holds_symbolsLength.natLE_u16 hsymbols
  unfold Decode.header
  simp only [if_neg hv, run_bind, run_source, run_get, run_given, State.start, hlength, run_modify,
    begun, hsize, hlayout]

/-- Behind the header and the main program come the further procedures. -/
theorem run_file_of_body {d : Draft} {pos : Nat} {s : State}
    (hheader : (Decode.header d.version).run d.source 0 (.start d.version) = (.ok (), 0, d.begun))
    (hbody : (body d.version).run d.source (d.headerSize + d.symbols.bytes.length) d.begun =
      (.ok (), pos, s)) :
    (file d.version).run d.source 0 (.start d.version) =
      (furtherProcedures d.version).run d.source pos s := by
  rw [file, run_bind_ok hheader, run_bind_ok (run_get _ _ _), run_bind_ok (run_advance _ _ _ _),
    Nat.zero_add]
  change (body d.version >>= fun _ => furtherProcedures d.version).run d.source
    (d.headerSize + d.symbols.bytes.length) d.begun = _
  rw [run_bind_ok hbody]

/-- Of the length of the main program the remainder counts. -/
theorem run_body_main (d : Draft) (s : State) :
    (body d.version).run d.source (d.headerSize + d.symbols.bytes.length) s =
      (instructions d.version (d.opening.length + d.main.length % 65536)).run d.source
        d.opening.length s := by
  have hlength := d.holds_mainLength
  rw [u16_mod] at hlength
  rw [run_body (Nat.mod_lt _ (by decide)) hlength, ← d.length_opening]

section

variable {d : Draft} (hv : d.version ≠ .vbdos) (hsymbols : d.symbols.bytes.length < 65536)
  (hsound : d.symbols.Sound)

include hv hsymbols hsound

theorem finds_begun : d.begun.Finds d.source d.symbols.names :=
  finds_names (fun h => absurd h hv) hsound (reachable_begun (run_header_of_symbols hv hsymbols 0))

/-- **A main program whose length does not fit.** If the remainder of its length ends within the second
of two stretches that add lines, the lines of the first stretch are decoded, and the lines of the second
one up to where decoding leaves off. The last line may be incomplete, and values may be given to
function definitions later. -/
theorem decode_short {first second rest : Bytes} (hmain : d.main = first ++ second ++ rest)
    (hlong : first.length ≤ d.main.length % 65536)
    (hshort : d.main.length % 65536 ≤ first.length + second.length) {b c : Setting}
    {lines lines' : List Line}
    (hfirst : Adds d.version d.symbols.names first ⟨none, false, false⟩ b lines)
    (hsecond : Adds d.version d.symbols.names second b c lines') :
    ∃ image p, Image.decode d.source = .ok image ∧ image.procedures[0]? = some p ∧
      lines.length ≤ p.lines.length ∧ p.lines.length ≤ lines'.length + lines.length ∧
      p.listing.dropLast.map Line.undefined =
        ((lines' ++ lines).reverse.take (p.lines.length - 1)).map Line.undefined := by
  have hfinds := finds_begun hv hsymbols hsound
  have hholds : d.source.Holds d.opening.length (first ++ second) :=
    holds_source d.opening (first ++ second) (rest ++ further d.procedures.reverse)
      (by rw [d.bytes_eq, hmain]; simp only [List.append_assoc])
  obtain ⟨hholdsFirst, hholdsSecond⟩ := Source.holds_append.mp hholds
  obtain ⟨s, hproceeds, hs, hprogram⟩ := hfirst hholdsFirst hfinds ⟨rfl, rfl, by simp⟩
  obtain ⟨t, hproceeds', -, hprogram'⟩ := hsecond hholdsSecond (hfinds.proceeds hproceeds) hs
  -- between the two stretches and the end of the second one decoding leaves off
  have hlong' : d.opening.length + first.length ≤ d.opening.length + d.main.length % 65536 := by omega
  have hshort' : d.opening.length + d.main.length % 65536 ≤
      d.opening.length + first.length + second.length := by omega
  obtain ⟨u, hbefore, hbehind, hstop⟩ := hproceeds'.stops hshort'
  have hbody : (body d.version).run d.source (d.headerSize + d.symbols.bytes.length) d.begun =
      (.ok (), u.1, u.2) := by
    rw [d.run_body_main]
    exact (hproceeds.run_instructions hlong').trans hstop
  have hs : s.program.current.lines = lines := by
    rw [hprogram]
    exact List.append_nil lines
  have ht : t.program.current.lines = lines' ++ lines := by
    rw [hprogram', ← hs]
    rfl
  have hfirstLines := hbefore.length_lines_le
  have hsecondLines := hbehind.length_lines_le
  have halone : u.2.program.earlier.length = 0 := by
    rw [hfirstLines.1, hprogram]
    rfl
  obtain ⟨p, hp, hundefined⟩ := undefined_first d.version d.source u.1
    (List.eq_nil_of_length_eq_zero halone)
  have hlength := Procedure.length_lines_eq hundefined
  refine ⟨_, p, d.decode_eq_decodeAs, ?_, ?_, ?_, ?_⟩
  · rw [← run_file_of_body (run_header_of_symbols hv hsymbols 0) hbody] at hp
    exact hp
  · rw [hlength, ← hs]
    exact hfirstLines.2
  · rw [hlength, ← List.length_append, ← ht]
    exact hsecondLines.2
  · rw [← ht]
    exact hbehind.undefined_dropLast hundefined

/-! ## Reading on in the main program -/

/-- **A main program that is taken for something else.** If instructions leave the main program early
and what follows is read as a procedure whose instructions fail, decoding ends there: it gives the main
program as far as it has been decoded and this procedure, and nothing behind. -/
theorem decode_misread {beginning rest : Bytes} (hmain : d.main = beginning ++ rest)
    {b c : Setting} {lines lines' : List Line}
    (hstops : Stops d.version d.symbols.names beginning (d.main.length % 65536) ⟨none, false, false⟩ b
      lines) {pos length flags size : Nat} (hpos : pos = d.opening.length + beginning.length)
    (hlength : d.source.natLE (pos + 17) 2 = .ok length)
    (hflags : d.source.natLE (pos + (21 + length)) 1 = .ok flags)
    (hsize : d.source.natLE (pos + (22 + length)) 2 = .ok size) {code : Bytes}
    (hholds : d.source.Holds (pos + (24 + length)) code) (hlt : code.length < size)
    (hcode : Adds d.version d.symbols.names code ⟨none, flags.testBit 7, false⟩ c lines')
    {fault : Fault}
    (hfaults : FaultsAt d.version d.source (pos + (24 + length) + code.length) lines' fault) :
    ∃ image name, Image.decode d.source = .ok image ∧ image.failure = some fault ∧
      name.length = length ∧ image.procedures =
        [⟨none, b.kind, false, lines⟩, ⟨some name, c.kind, flags.testBit 7, lines'⟩] := by
  subst hpos
  have hheader := run_header_of_symbols hv hsymbols 0
  have hfinds := finds_begun hv hsymbols hsound
  have hbeginning : d.source.Holds d.opening.length beginning :=
    holds_source d.opening beginning (rest ++ further d.procedures.reverse)
      (by rw [d.bytes_eq, hmain]; simp only [List.append_assoc])
  obtain ⟨s, hrun, -, hprogram⟩ := hstops hbeginning hfinds ⟨rfl, rfl, by simp⟩
  obtain ⟨ops, htrace⟩ := run_instructions_eq_ok.mp hrun
  have hfinds' : s.Finds d.source d.symbols.names := hfinds.proceeds (.of_trace htrace)
  rw [← d.run_body_main] at hrun
  -- the head of what is taken for a procedure
  have hend := Source.le_size_of_natLE hsize
  have hmore : d.opening.length + beginning.length + trailerSize < d.source.size := by
    rw [trailerSize]
    omega
  generalize hname : d.source.slice (d.opening.length + beginning.length + 19) length = name
  have hnext := run_nextProcedure_of_reads hlength hflags hsize d.version s
  rw [hname] at hnext
  -- its instructions, up to the one that fails
  obtain ⟨t, hproceeds, -, hprogram'⟩ :=
    hcode (s := s.enter name (flags.testBit 7)) hholds hfinds' ⟨rfl, rfl, by simp⟩
  have hlines : t.program.current.lines = lines' := by
    rw [hprogram']
    exact List.append_nil lines'
  obtain ⟨pos', u, hstep, hsame⟩ := hfaults t hlines
  have hfault : (nextProcedure d.version).run d.source
      (d.opening.length + beginning.length + trailerSize) s = (.error fault, pos', u) := by
    rw [hnext, hproceeds.run_instructions (by dsimp only; omega)]
    exact run_instructions_fault (by omega) hstep
  have hfile : (file d.version).run d.source 0 (.start d.version) = (.error fault, pos', u) := by
    rw [run_file_of_body hheader hrun, run_furtherProcedures_of_lt hmore, run_bind_error hfault]
  simp only [run, Prod.mk.injEq] at hfile
  obtain ⟨hresult, -, hstate⟩ := hfile
  refine ⟨_, name, d.decode_eq_decodeAs, ?_, ?_, ?_⟩
  · rw [Image.decodeAs, hresult]
  · rw [← hname, Source.length_slice]
    omega
  · rw [Image.procedures, Image.decodeAs, hstate, hsame, hprogram', State.programWith, State.enter,
      hprogram]
    simp only [State.programWith, begun, State.start, Program.start, Procedure.start, List.append_nil]
    rfl

end

end Draft

end SavedBasic
