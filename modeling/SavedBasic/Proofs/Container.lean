import Mathlib.Data.List.Forall2
import SavedBasic.Draft
import SavedBasic.Proofs.Changes
import SavedBasic.Proofs.VersionDifferences

/-!
# Files that were written are read back

A draft is written as a header, an identifier table, the instructions of the main program and those
of further procedures, with nothing but words of length to tell where one part ends. Decoding finds
its way by these words and by moving on over a fixed number of bytes. This module shows that it
meets every part where it was written: provided all lengths fit their words, and provided each run
of instructions takes exactly its own bytes, a file is decoded without a fault into the procedures
of the draft, in order.

The argument is an induction over the procedures. `Performed` describes their instructions being
performed one after another at the positions where they were written, and keeps the state after each
of them; `Tracks` is what then holds of the program: each procedure still is what its own
instructions have left, but for function definitions that were open at its end and got their values
later.
-/

namespace SavedBasic

open Decode

namespace Draft

/-! ## What stands where -/

/-- The file of a draft. -/
def source (d : Draft) : Source :=
  .ofBytes d.bytes

/-- What is written in front of the instructions of a procedure. -/
def Procedure.head (p : Procedure) : Bytes :=
  List.replicate 17 0 ++ counted p.name ++ [0, 0] ++ Bytes.u8 p.flags ++ Bytes.u16 p.code.length

/-- Whether the variables of a procedure keep their values between calls: bit 7 of the flags. -/
def Procedure.isStatic (p : Procedure) : Bool :=
  p.flags / 128 % 2 = 1

/-- What is written in front of the instructions of the main program. -/
def opening (d : Draft) : Bytes :=
  d.header ++ counted d.symbols.bytes ++ Bytes.u16 d.main.length

/-- What is written for procedures behind the main program. -/
def further (ps : List Procedure) : Bytes :=
  (ps.map Procedure.bytes).flatten

theorem Procedure.bytes_eq (p : Procedure) : p.bytes = p.head ++ p.code := by
  simp only [bytes, head, counted, List.append_assoc]

theorem bytes_eq (d : Draft) :
    d.bytes = d.opening ++ d.main ++ further d.procedures.reverse := by
  simp only [bytes, opening, counted, further, List.append_assoc]

@[simp] theorem length_u8 (n : Int) : (Bytes.u8 n).length = 1 := Bytes.length_ofIntLE 1 n

@[simp] theorem length_u16 (n : Int) : (Bytes.u16 n).length = 2 := Bytes.length_ofIntLE 2 n

@[simp] theorem length_counted (text : Bytes) : (counted text).length = 2 + text.length := by
  rw [counted, List.length_append, length_u16]

theorem Procedure.length_head (p : Procedure) : p.head.length = 24 + p.name.length := by
  simp only [head, List.length_append, List.length_replicate, length_counted, length_u8, length_u16,
    List.length_cons, List.length_nil]
  omega

theorem length_fillTo {length : Nat} {text : Bytes} (h : text.length ≤ length) :
    (fillTo length text).length = length := by
  rw [fillTo, List.length_append, List.length_replicate]
  omega

/-- The header ends where the word with the length of the identifier table stands. -/
theorem length_header (d : Draft) : d.header.length = d.headerSize - 2 := by
  have hstart : (0xFC :: Bytes.u16 d.version.stamp).length = 3 := by rw [List.length_cons, length_u16]
  unfold header
  split
  · rename_i hv
    apply length_fillTo
    have hsize : d.headerSize = 0x20 + d.form.length := by rw [headerSize, if_pos hv, hv]; rfl
    rw [List.length_append, length_fillTo (by rw [hstart]; omega), formArea, if_pos hv,
      List.length_append, length_u16, hsize]
    omega
  · rename_i hv
    apply length_fillTo
    rw [hstart, headerSize, if_neg hv]
    cases d.version <;> decide

theorem two_le_headerSize (d : Draft) : 2 ≤ d.headerSize := by
  unfold headerSize
  split <;> cases d.version <;> simp only [Version.headerSize] <;> omega

/-- Nothing but bytes of the file stands in front of the instructions of the main program. -/
theorem length_opening (d : Draft) : d.opening.length = d.headerSize + d.symbols.bytes.length + 2 := by
  have := d.two_le_headerSize
  rw [opening, List.length_append, List.length_append, length_header, length_counted, length_u16]
  omega

/-- Every part of the file stands behind the parts that were written before it. -/
theorem holds_source {d : Draft} (before text behind : Bytes)
    (h : d.bytes = before ++ text ++ behind) : d.source.Holds before.length text := by
  rw [source, h]
  exact Source.holds_ofBytes before text behind

theorem holds_header (d : Draft) : d.source.Holds 0 d.header :=
  holds_source [] d.header (counted d.symbols.bytes ++ counted d.main ++ further d.procedures.reverse)
    (by simp only [bytes, further, List.nil_append, List.append_assoc])

theorem holds_opening (d : Draft) : d.source.Holds 0 d.opening :=
  holds_source [] d.opening (d.main ++ further d.procedures.reverse)
    (by rw [bytes_eq, List.nil_append, List.append_assoc])

/-- The file starts with the mark and the stamp. -/
theorem holds_stamp (d : Draft) : d.source.Holds 0 (0xFC :: Bytes.u16 d.version.stamp) := by
  have h := d.holds_header
  unfold header at h
  split at h
  · exact (Source.holds_append.mp (Source.holds_append.mp (Source.holds_append.mp h).1).1).1
  · exact (Source.holds_append.mp h).1

/-- In a file of Visual Basic the length of the form area stands behind the first twenty bytes. -/
theorem holds_formLength {d : Draft} (hv : d.version = .vbdos) :
    d.source.Holds 0x14 (Bytes.u16 d.form.length) := by
  have h := d.holds_header
  rw [header, if_pos hv, formArea, if_pos hv, fillTo, Source.holds_append, Source.holds_append] at h
  have hlen : (fillTo 0x14 (0xFC :: Bytes.u16 d.version.stamp)).length = 0x14 :=
    length_fillTo (by rw [List.length_cons, length_u16]; decide)
  have harea := h.1.2
  rw [hlen, Source.holds_append] at harea
  exact harea.1

/-- The last word of the header is the length of the identifier table. -/
theorem holds_symbolsLength (d : Draft) :
    d.source.Holds (d.headerSize - 2) (Bytes.u16 d.symbols.bytes.length) := by
  have h := d.holds_opening
  rw [opening, Source.holds_append, Source.holds_append, counted, Source.holds_append,
    length_header, Nat.zero_add] at h
  exact h.1.2.1

theorem holds_mainLength (d : Draft) :
    d.source.Holds (d.headerSize + d.symbols.bytes.length) (Bytes.u16 d.main.length) := by
  have h := d.holds_opening
  have hsize := d.two_le_headerSize
  rw [opening, Source.holds_append, List.length_append, length_header, length_counted] at h
  have hpos : 0 + (d.headerSize - 2 + (2 + d.symbols.bytes.length)) =
      d.headerSize + d.symbols.bytes.length := by omega
  rw [hpos] at h
  exact h.2

/-! ## The header is read back -/

/-- The version of a file is the version of its draft. -/
theorem versionOf_source (d : Draft) : Image.versionOf d.source = .ok d.version := by
  have h := d.holds_stamp
  rw [← List.singleton_append, Source.holds_append] at h
  have hmark : d.source.natLE 0 1 = .ok Image.mark :=
    Source.Holds.natLE_ofNatLE (n := 0xFC) (by decide) h.1
  have hstamp : d.source.natLE 1 2 = .ok d.version.stamp :=
    Source.Holds.natLE_u16 (Version.stamp_lt d.version) h.2
  simp only [Image.versionOf, hmark, hstamp, bind, Except.bind, Version.ofStamp?_stamp]
  rfl

/-- A file of a draft is decoded as one of its version, whatever comes of it. -/
theorem decode_eq_decodeAs (d : Draft) :
    Image.decode d.source = .ok (Image.decodeAs d.version d.source) := by
  rw [Image.decode, versionOf_source]
  rfl

/-- The form of a draft. -/
def layout? (d : Draft) : Option Form.Layout :=
  if d.version = .vbdos ∧ d.form ≠ [] ∧ (Form.read d.source).1.controls.isEmpty = false then
    some (Form.read d.source).1
  else none

/-- The state in which the instructions of the main program begin. -/
def begun (d : Draft) : State :=
  { State.start d.version with
    headerSize := d.headerSize
    symbols := { codeOffset := d.symbols.bytes.length }
    form := d.layout? }

/-- All lengths fit their words, and the form area of a file of Visual Basic is empty or can be
read. -/
structure Fits (d : Draft) : Prop where
  symbols : d.symbols.bytes.length < 65536
  main : d.main.length < 65536
  name : ∀ p ∈ d.procedures, p.name.length < 65536
  code : ∀ p ∈ d.procedures, p.code.length < 65536
  form : d.version = .vbdos → d.form.length < 65536
  layout : d.version = .vbdos → d.form = [] ∨ (Form.read d.source).2 = none

/-- The form area makes the header longer by its own length, and its form is kept. -/
theorem run_formArea {d : Draft} (hfits : d.Fits) (hv : d.version = .vbdos) (pos : Nat) :
    Decode.formArea.run d.source pos (.start d.version) =
      (.ok (), pos, { State.start d.version with headerSize := d.headerSize, form := d.layout? }) := by
  have hlength : d.source.natLE 0x14 2 = .ok d.form.length :=
    (holds_formLength hv).natLE_u16 (hfits.form hv)
  have hsize : d.headerSize = d.version.headerSize + d.form.length := by rw [headerSize, if_pos hv]
  simp only [Decode.formArea, run_bind, run_source, run_given, hlength, run_modify]
  by_cases hempty : d.form = []
  · rw [if_neg (by simp [hempty]), run_pure, layout?, if_neg (fun h => h.2.1 hempty), hsize]
    rfl
  · have hfault : (Form.read d.source).2 = none := (hfits.layout hv).resolve_left hempty
    rw [if_pos (List.length_pos_iff.mpr hempty)]
    rcases hread : Form.read d.source with ⟨layout, fault⟩
    rw [hread] at hfault
    cases hfault
    have hlayout : d.layout? = if layout.controls.isEmpty then none else some layout := by
      cases h : layout.controls.isEmpty <;> simp [layout?, hv, hempty, hread, h]
    rw [hlayout, hsize]
    cases layout.controls.isEmpty <;> rfl

theorem run_header {d : Draft} (hfits : d.Fits) (pos : Nat) :
    (Decode.header d.version).run d.source pos (.start d.version) = (.ok (), pos, d.begun) := by
  have hlength : d.source.natLE (d.headerSize - 2) 2 = .ok d.symbols.bytes.length :=
    d.holds_symbolsLength.natLE_u16 hfits.symbols
  unfold Decode.header
  by_cases hv : d.version = .vbdos
  · simp only [if_pos hv, run_bind, run_formArea hfits hv, run_source, run_get, run_given, hlength,
      run_modify]
    rfl
  · have hsize : d.headerSize = d.version.headerSize := by rw [headerSize, if_neg hv]
    have hform : d.layout? = none := by rw [layout?, if_neg (fun h => hv h.1)]
    rw [hsize] at hlength
    simp only [if_neg hv, run_bind, run_source, run_get, State.start, run_given, hlength,
      run_modify, begun, hform, hsize]

/-! ## One procedure is read back -/

/-- Behind the word with their length, the instructions of a procedure are performed to their end. -/
theorem run_body {src : Source} {pos n : Nat} (hn : n < 65536) (h : src.Holds pos (Bytes.u16 n))
    (v : Version) (s : State) :
    (body v).run src pos s = (instructions v (pos + 2 + n)).run src (pos + 2) s := by
  rw [body, run_bind_ok (run_word_ok (h.natLE_u16 hn) s), run_bind_ok (run_position src (pos + 2) s)]

/-- The bit of the flags that is read is the one that was written. -/
theorem Procedure.testBit_flags (p : Procedure) :
    ((p.flags % Nat.pow 256 1).toNat % Nat.pow 256 1).testBit 7 = p.isStatic := by
  rw [Nat.testBit_eq_decide_div_mod_eq, isStatic]
  apply decide_eq_decide.mpr
  rw [Nat.pow_eq]
  omega

/-- Whatever stands there is read as a procedure: behind the trailer and one more byte a name with its
length, behind two more bytes the flags, and then instructions with their length. -/
theorem run_nextProcedure_of_reads {src : Source} {pos length flags size : Nat}
    (hlength : src.natLE (pos + 17) 2 = .ok length)
    (hflags : src.natLE (pos + (21 + length)) 1 = .ok flags)
    (hsize : src.natLE (pos + (22 + length)) 2 = .ok size) (v : Version) (s : State) :
    (nextProcedure v).run src (pos + trailerSize) s =
      (instructions v (pos + (24 + length) + size)).run src (pos + (24 + length))
        (s.enter (src.slice (pos + 19) length) (flags.testBit 7)) := by
  have hend := Source.le_size_of_natLE hsize
  -- the last number is there, so nothing in front of it is cut short
  have hbytes : ∀ p n, p + n ≤ src.size →
      (Decode.bytes n).run src p s = (.ok (src.slice p n), p + n, s) := fun p n hle => by
    rw [run_bytes, Source.length_slice, Nat.min_eq_left (by omega)]
  have hgapRun : (Decode.bytes 1).run src (pos + trailerSize) s =
      (.ok (src.slice (pos + trailerSize) 1), pos + 17, s) := hbytes _ _ (by rw [trailerSize]; omega)
  have hlengthRun : word.run src (pos + 17) s = (.ok length, pos + 19, s) := run_word_ok hlength s
  have hnameRun : (Decode.bytes length).run src (pos + 19) s =
      (.ok (src.slice (pos + 19) length), pos + 19 + length, s) := hbytes _ _ (by omega)
  have hzerosRun : (Decode.bytes 2).run src (pos + 19 + length) s =
      (.ok (src.slice (pos + 19 + length) 2), pos + (21 + length), s) := by
    rw [hbytes _ _ (by omega)]
    congr 2
    omega
  have hflagsRun : byte.run src (pos + (21 + length)) s = (.ok flags, pos + (22 + length), s) := by
    rw [byte, run_number_ok hflags]
    congr 2
    omega
  have hsizeRun : ∀ t, word.run src (pos + (22 + length)) t = (.ok size, pos + (24 + length), t) := by
    intro t
    rw [run_word_ok hsize]
    congr 2
    omega
  rw [nextProcedure, run_bind_ok hgapRun, run_bind_ok hlengthRun, run_bind_ok hnameRun,
    run_bind_ok hzerosRun, run_bind_ok hflagsRun, run_bind_ok (run_modify _ _ _ _)]
  change (body v).run src _ (s.enter (src.slice (pos + 19) length) (flags.testBit 7)) = _
  rw [body, run_bind_ok (hsizeRun _), run_bind_ok (run_position _ _ _)]

/-- Behind the trailer of the procedure before it, a procedure is read with its name and its flags,
and its instructions are performed to their end. -/
theorem run_nextProcedure {src : Source} {pos : Nat} {p : Procedure} (hname : p.name.length < 65536)
    (hcode : p.code.length < 65536) (h : src.Holds pos p.bytes) (v : Version) (s : State) :
    (nextProcedure v).run src (pos + trailerSize) s =
      (instructions v (pos + p.bytes.length)).run src (pos + p.head.length)
        (s.enter p.name p.isStatic) := by
  have hsize : pos + p.bytes.length = pos + (24 + p.name.length) + p.code.length := by
    rw [p.bytes_eq, List.length_append, p.length_head, ← Nat.add_assoc]
  rw [p.bytes_eq, Procedure.head, counted] at h
  simp only [Source.holds_append, List.length_append, List.length_replicate, List.length_cons,
    List.length_nil, length_u16, length_u8] at h
  obtain ⟨⟨⟨⟨⟨-, hlength, htext⟩, -⟩, hflags⟩, hcodeLength⟩, -⟩ := h
  have hat : ∀ n, pos + (17 + (2 + p.name.length) + n) = pos + (19 + n + p.name.length) :=
    fun n => by omega
  rw [hat] at hflags
  rw [Nat.add_assoc (17 + _), hat] at hcodeLength
  rw [run_nextProcedure_of_reads (hlength.natLE_u16 hname) (hflags.natLE_ofNatLE (by decide))
    (hcodeLength.natLE_u16 hcode), htext.slice_eq, p.testBit_flags, hsize, p.length_head]

/-! ## All procedures are read back -/

/-- Instructions that stand in a file behind the given bytes are performed from a state. They take
exactly their own bytes and leave another state. -/
def Takes (v : Version) (src : Source) (before code : Bytes) (s s' : State) : Prop :=
  (instructions v (before ++ code).length).run src before.length s =
    (.ok (), (before ++ code).length, s')

/-- The instructions of procedures that stand in a file behind the given bytes are performed, each
from the state that the procedure before it has left. The list has the state that each of them
leaves. -/
inductive Performed (v : Version) (src : Source) :
    Bytes → State → List Procedure → List State → Prop where
  /-- there are no more procedures -/
  | nil (before : Bytes) (s : State) : Performed v src before s [] []
  /-- one procedure, and the others behind it -/
  | cons {before : Bytes} {s s' : State} {p : Procedure} {ps : List Procedure} {states : List State}
    (hcode : Takes v src (before ++ p.head) p.code (s.enter p.name p.isStatic) s')
    (rest : Performed v src (before ++ p.bytes) s' ps states) :
    Performed v src before s (p :: ps) (s' :: states)

/-- The procedures behind the main program are met one after another, up to the end of the file. -/
theorem run_furtherProcedures {v : Version} {src : Source} {before : Bytes} {s : State}
    {ps : List Procedure} {states : List State} (h : Performed v src before s ps states)
    (hsrc : src.Holds before.length (further ps))
    (hsize : (before ++ further ps).length = src.size)
    (hname : ∀ p ∈ ps, p.name.length < 65536) (hcode : ∀ p ∈ ps, p.code.length < 65536) :
    (furtherProcedures v).run src before.length s = (.ok (), src.size, states.getLastD s) := by
  induction h with
  | nil before s =>
    rw [further, List.map_nil, List.flatten_nil, List.append_nil] at hsize
    rw [run_furtherProcedures_of_le (by omega), hsize]
    rfl
  | @cons before s s' p ps states htakes _ ih =>
    rw [further, List.map_cons, List.flatten_cons, ← further] at hsrc hsize
    rw [Source.holds_append, ← List.length_append] at hsrc
    rw [← List.append_assoc] at hsize
    -- a procedure is longer than the trailer that the loop looks for
    have hlt : before.length + trailerSize < src.size := by
      have hhead := p.length_head
      rw [← hsize, p.bytes_eq, trailerSize]
      simp only [List.length_append]
      omega
    have hrun : (nextProcedure v).run src (before.length + trailerSize) s =
        (.ok (), (before ++ p.bytes).length, s') := by
      rw [run_nextProcedure (hname p List.mem_cons_self) (hcode p List.mem_cons_self) hsrc.1,
        ← List.length_append, ← List.length_append, p.bytes_eq, ← List.append_assoc]
      exact htakes
    rw [run_furtherProcedures_of_lt hlt, run_bind_ok hrun, List.getLastD_cons]
    exact ih hsrc.2 hsize (fun q hq => hname q (List.mem_cons_of_mem _ hq))
      fun q hq => hcode q (List.mem_cons_of_mem _ hq)

/-- A whole file is decoded by performing the instructions of its procedures one after another. -/
theorem run_file {d : Draft} {s : State} {states : List State} (hfits : d.Fits)
    (hmain : Takes d.version d.source d.opening d.main d.begun s)
    (hfurther : Performed d.version d.source (d.opening ++ d.main) s d.procedures.reverse states) :
    (file d.version).run d.source 0 (.start d.version) =
      (.ok (), d.source.size, states.getLastD s) := by
  have hbody : (body d.version).run d.source (d.headerSize + d.symbols.bytes.length) d.begun =
      (.ok (), (d.opening ++ d.main).length, s) := by
    rw [run_body hfits.main d.holds_mainLength, ← d.length_opening, ← List.length_append]
    exact hmain
  have hrest := run_furtherProcedures hfurther
    (holds_source (d.opening ++ d.main) (further d.procedures.reverse) []
      (by rw [d.bytes_eq, List.append_nil]))
    (by rw [source, Source.size_ofBytes, ← d.bytes_eq])
    (fun p hp => hfits.name p (List.mem_reverse.mp hp))
    (fun p hp => hfits.code p (List.mem_reverse.mp hp))
  rw [file, run_bind_ok (run_header hfits 0), run_bind_ok (run_get _ _ _),
    run_bind_ok (run_advance _ _ _ _), Nat.zero_add]
  change (body d.version >>= fun _ => furtherProcedures d.version).run d.source
    (d.headerSize + d.symbols.bytes.length) d.begun = _
  rw [run_bind_ok hbody, hrest]

end Draft

/-! ## What later procedures leave of earlier ones -/

namespace Decode

/-- The program of a state has one procedure for each of the given states, and it is what remains of
the last procedure of that state. What is open in it was open then. -/
structure State.Tracks (s : State) (states : List State) : Prop where
  length : s.program.earlier.length + 1 = states.length
  index : ∀ (i : Nat) (t : State), states[i]? = some t → t.program.earlier.length = i
  given : ∀ (i : Nat) (t : State), states[i]? = some t →
    ∃ program, t.program.Given t.openFns program ∧
      s.program.procedures[i]? = program.procedures[i]?
  opened : ∀ (i : Nat) (t : State), states[i]? = some t →
    ∀ place ∈ s.openFns, place.procedure = i → place ∈ t.openFns

theorem State.procedures_enter (s : State) (name : Bytes) (static : Bool) :
    (s.enter name static).program.procedures =
      s.program.procedures ++ [.start (some name) static] :=
  List.reverse_cons

/-- An entry of a list with one more entry is one of the old ones or the new one. -/
theorem cases_of_getElem?_concat {α : Type} {l : List α} {a b : α} {i : Nat}
    (h : (l ++ [a])[i]? = some b) : (i < l.length ∧ l[i]? = some b) ∨ (i = l.length ∧ b = a) := by
  by_cases hlt : i < l.length
  · rw [List.getElem?_append_left hlt] at h
    exact .inl ⟨hlt, h⟩
  · rw [List.getElem?_append_right (Nat.not_lt.mp hlt), List.getElem?_singleton] at h
    obtain ⟨hzero, hb⟩ := Option.ite_none_right_eq_some.mp h
    cases hb
    exact .inr ⟨by omega, rfl⟩

/-- What remains of a procedure remains while a later procedure is decoded. -/
theorem State.Tracks.enter {s s' : State} {states : List State} {name : Bytes} {static : Bool}
    (h : s.Tracks states) (hkeeps : (s.enter name static).Keeps s') : s'.Tracks (states ++ [s']) := by
  have hlength : s'.program.earlier.length = states.length := hkeeps.length.trans h.length
  have hbefore : ∀ i < states.length, i < (s.enter name static).program.earlier.length :=
    fun i hi => Nat.lt_of_lt_of_eq hi h.length.symm
  have hentered : ∀ i < states.length,
      (s.enter name static).program.procedures[i]? = s.program.procedures[i]? := fun i hi => by
    rw [State.procedures_enter, List.getElem?_append_left]
    rwa [Program.length_procedures, h.length]
  refine ⟨by rw [hlength, List.length_append]; rfl, fun i t hi => ?_, fun i t hi => ?_,
    fun i t hi place hplace heq => ?_⟩
  · rcases cases_of_getElem?_concat hi with ⟨-, hold⟩ | ⟨rfl, rfl⟩
    · exact h.index i t hold
    · exact hlength
  · rcases cases_of_getElem?_concat hi with ⟨hlt, hold⟩ | ⟨rfl, rfl⟩
    · obtain ⟨program, hgiven, hsame⟩ := h.given i t hold
      obtain ⟨program', hgiven', hsame'⟩ := hkeeps.given
      -- what the later procedure gives to this one was open when its own instructions had ended
      have hfirst : ∀ j, j = i →
          (s.enter name static).program.procedures[j]? = program.procedures[j]? := by
        rintro j rfl
        rw [hentered j hlt, hsame]
      obtain ⟨program'', hgiven'', hsame''⟩ := hgiven'.follow (I := (· = i)) (h.opened i t hold) hfirst
      refine ⟨program'', hgiven.trans hgiven'', ?_⟩
      rw [hsame' i (hbefore i hlt), hsame'' i rfl]
    · exact ⟨t.program, .none, rfl⟩
  · rcases cases_of_getElem?_concat hi with ⟨hlt, hold⟩ | ⟨rfl, rfl⟩
    · exact h.opened i t hold place (hkeeps.opened place hplace (heq ▸ hbefore i hlt)) heq
    · exact hplace

end Decode

namespace Draft

theorem Takes.keeps {v : Version} {src : Source} {before code : Bytes} {s s' : State}
    (h : Takes v src before code s s') : s.Keeps s' := by
  have hchanges := changes_instructions v (before ++ code).length src before.length s
  rw [h] at hchanges
  exact hchanges.keeps

/-- The image of a file has the program that its procedures, performed one after another, leave. -/
theorem decode_of_performed {d : Draft} {s : State} {states : List State} (hfits : d.Fits)
    (hmain : Takes d.version d.source d.opening d.main d.begun s)
    (hfurther : Performed d.version d.source (d.opening ++ d.main) s d.procedures.reverse states) :
    ∃ image, Image.decode d.source = .ok image ∧ image.version = d.version ∧ image.failure = none ∧
      image.procedures = (states.getLastD s).program.procedures := by
  have hrun := run_file hfits hmain hfurther
  simp only [run, Prod.mk.injEq] at hrun
  obtain ⟨hresult, -, hstate⟩ := hrun
  refine ⟨_, d.decode_eq_decodeAs, rfl, ?_, ?_⟩
  · rw [Image.decodeAs, hresult]
  · rw [Image.procedures, Image.decodeAs, hstate]

end Draft

end SavedBasic
