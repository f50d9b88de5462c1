import Mathlib.Data.List.Infix
import SavedBasic.Proofs.Overlong

/-!
# Copies of a program

A program whose main part has been rehearsed can be copied: with any number of copies, each of them
adds the same lines. What ends this is the word with the length of the main program. When the copies
have more bytes than a word can count, the rest of the length is read, so that decoding leaves the main
program early and takes the copies behind for something else.
-/

namespace SavedBasic

open Decode

namespace Draft

/-! ## Drafts with copies -/

/-- A draft whose main program has been rehearsed and can be repeated, with the lines of the main
program, most recent first, and the other procedures as they are decoded. -/
structure Rehearsed (d : Draft) (lines : List Line) (decoded : List SavedBasic.Procedure) : Prop where
  version : d.version ≠ .vbdos
  fits : d.Fits
  sound : d.symbols.Sound
  main : ∃ b, Adds d.version d.symbols.names d.main ⟨none, false, false⟩ b lines ∧
    b.kind = none ∧ b.static = false ∧
    rehearseProcedures d.version d.symbols.names b.opened d.procedures.reverse = some decoded

variable {d : Draft} {lines : List Line} {decoded : List SavedBasic.Procedure}

/-- A draft with further copies of its main program. -/
def copied (d : Draft) (n : Nat) : Draft :=
  d.withMain (List.replicate n d.main).flatten

theorem length_flatten_replicate {α : Type} (n : Nat) (l : List α) :
    (List.replicate n l).flatten.length = n * l.length := by
  induction n with
  | zero => rw [Nat.zero_mul]; rfl
  | succ n ih =>
    rw [List.replicate_succ, List.flatten_cons, List.length_append, ih, Nat.succ_mul, Nat.add_comm]

theorem length_main_copied (d : Draft) (n : Nat) :
    (d.copied n).main.length = n * d.main.length :=
  length_flatten_replicate n d.main

theorem flatten_replicate_add {α : Type} (m n : Nat) (l : List α) :
    (List.replicate (m + n) l).flatten =
      (List.replicate m l).flatten ++ (List.replicate n l).flatten := by
  rw [← List.replicate_append_replicate, List.flatten_append]

/-- So many of the first copies, and a part of the next one. -/
theorem take_flatten_replicate {α : Type} {q n k : Nat} {l : List α} (hq : q < n) (hk : k ≤ l.length) :
    (List.replicate n l).flatten.take (q * l.length + k) =
      (List.replicate q l).flatten ++ l.take k := by
  obtain ⟨m, rfl⟩ := Nat.exists_eq_add_of_lt hq
  rw [Nat.add_assoc, flatten_replicate_add, ← length_flatten_replicate, List.take_length_add_append,
    List.replicate_succ, List.flatten_cons, List.take_append_of_le_length hk]

theorem reverse_flatten_replicate {α : Type} (n : Nat) (l : List α) :
    (List.replicate n l).flatten.reverse = (List.replicate n l.reverse).flatten := by
  rw [List.reverse_flatten, List.map_replicate, List.reverse_replicate]

/-- One of the copies of a main program, with those in front of it and behind it. -/
theorem main_copied (d : Draft) (j m : Nat) : (d.copied (j + m + 1)).main =
    (List.replicate j d.main).flatten ++ d.main ++ (List.replicate m d.main).flatten := by
  rw [copied, withMain, Nat.add_assoc, flatten_replicate_add, List.replicate_succ, List.flatten_cons,
    List.append_assoc]

/-- The copies of a main program, cut within one of them. -/
theorem main_copied_cut (d : Draft) (j m i : Nat) : (d.copied (j + m + 1)).main =
    ((List.replicate j d.main).flatten ++ d.main.take i) ++
      (d.main.drop i ++ (List.replicate m d.main).flatten) := by
  rw [main_copied, List.append_assoc, List.append_assoc, ← List.append_assoc (d.main.take i),
    List.take_append_drop]

/-- What stands in the main program stands in each of its copies. -/
theorem holds_copied {n j i : Nat} (hj : j < n) {bytes : Bytes} (h : bytes <+: d.main.drop i) :
    (d.copied n).source.Holds ((d.copied n).opening.length + (j * d.main.length + i)) bytes := by
  obtain ⟨m, rfl⟩ := Nat.exists_eq_add_of_lt hj
  have hcopy : (d.copied (j + m + 1)).source.Holds
      ((d.copied (j + m + 1)).opening ++ (List.replicate j d.main).flatten).length d.main :=
    holds_source _ d.main ((List.replicate m d.main).flatten ++ further d.procedures.reverse) (by
      rw [bytes_eq, main_copied]
      simp only [List.append_assoc]
      rfl)
  rw [List.length_append, length_flatten_replicate] at hcopy
  rw [Source.Holds, ← Nat.add_assoc, Source.rest_add]
  exact List.IsPrefix.trans h (List.IsPrefix.drop hcopy i)

/-- Copies of a main program that has been rehearsed add its lines again and again. -/
theorem Rehearsed.adds_replicate (h : d.Rehearsed lines decoded) (n : Nat) :
    Adds d.version d.symbols.names (List.replicate n d.main).flatten ⟨none, false, false⟩
      ⟨none, false, false⟩ (List.replicate n lines).flatten := by
  obtain ⟨b, hadds, hkind, hstatic, -⟩ := h.main
  have hforget := hadds.forget
  rw [hkind, hstatic] at hforget
  exact hforget.replicate n

/-- As long as their length fits, all copies are decoded. -/
theorem Rehearsed.decode_copied_of_lt (h : d.Rehearsed lines decoded) {n : Nat} (hn : 0 < n)
    (hlength : n * d.main.length < 65536) :
    ∃ image, Image.decode (d.copied n).source = .ok image ∧ image.failure = none ∧
      image.procedures = ⟨none, none, false, (List.replicate n lines).flatten⟩ :: decoded := by
  obtain ⟨n, rfl⟩ := Nat.exists_eq_add_one.mpr hn
  obtain ⟨b, hadds, hkind, -, hfurther⟩ := h.main
  have hall := (h.adds_replicate n).append hadds
  rw [← List.flatten_cons, ← List.replicate_succ, ← List.flatten_concat, ← List.replicate_succ'] at hall
  have hfits : (d.copied (n + 1)).Fits :=
    { h.fits with
      main := by rwa [length_main_copied]
      layout := fun hv => absurd hv h.version }
  rw [← hkind]
  exact decode_of_rehearsed hfits h.sound hall hfurther

/-- When their length does not fit, the main program ends within a copy. The lines are those of the
copies in front of it and of a part of this copy. -/
theorem Rehearsed.decode_copied_of_le (h : d.Rehearsed lines decoded) {n q : Nat}
    (hq : q = n * d.main.length % 65536 / d.main.length) (hlength : 65536 ≤ n * d.main.length) :
    ∃ image p, Image.decode (d.copied n).source = .ok image ∧ image.procedures[0]? = some p ∧
      q + 1 < n ∧ q * lines.length ≤ p.lines.length ∧ p.lines.length ≤ (q + 1) * lines.length ∧
      p.listing.dropLast.map Line.undefined =
        ((List.replicate n lines.reverse).flatten.take (p.lines.length - 1)).map Line.undefined := by
  have hfits := h.fits.main
  have hpos : 0 < d.main.length := by
    rcases Nat.eq_zero_or_pos d.main.length with hzero | hpos
    · rw [hzero] at hlength
      omega
    · exact hpos
  have hlong : q * d.main.length ≤ n * d.main.length % 65536 := hq ▸ Nat.div_mul_le_self _ _
  have hshort : n * d.main.length % 65536 < q * d.main.length + d.main.length := by
    have hlt := Nat.lt_mul_div_succ (n * d.main.length % 65536) hpos
    rwa [← hq, Nat.mul_succ, Nat.mul_comm d.main.length q] at hlt
  have hlt : q + 1 < n := by
    refine Nat.lt_of_mul_lt_mul_right (a := d.main.length) ?_
    rw [Nat.succ_mul]
    omega
  obtain ⟨m, rfl⟩ := Nat.exists_eq_add_of_lt (Nat.lt_of_succ_lt hlt)
  obtain ⟨b, hadds, -⟩ := h.main
  obtain ⟨image, p, hdecode, hp, hle, hge, hlisting⟩ :=
    decode_short (d := d.copied (q + m + 1)) h.version h.fits.symbols h.sound (d.main_copied q m)
      (by rwa [length_main_copied, length_flatten_replicate])
      (by rw [length_main_copied, length_flatten_replicate]; omega) (h.adds_replicate q) hadds
  rw [length_flatten_replicate] at hle hge
  refine ⟨image, p, hdecode, hp, hlt, hle, by rw [Nat.succ_mul]; omega, ?_⟩
  have hfront : (lines ++ (List.replicate q lines).flatten).reverse =
      (List.replicate (q + 1) lines.reverse).flatten := by
    rw [← List.flatten_cons, ← List.replicate_succ, reverse_flatten_replicate]
  have hsplit : (List.replicate (q + m + 1) lines.reverse).flatten =
      (List.replicate (q + 1) lines.reverse).flatten ++ (List.replicate m lines.reverse).flatten := by
    rw [Nat.add_right_comm, flatten_replicate_add]
  rw [hlisting, hfront, hsplit, List.take_append_of_le_length]
  rw [length_flatten_replicate, List.length_reverse, Nat.succ_mul]
  omega

/-- How the copies of a main program are misread when the word with their length ends within one of
them. -/
structure Misreading where
  /-- how many lines of this copy are decoded as a whole -/
  whole : Nat
  /-- how many bytes of it the word counts -/
  counted : Nat
  /-- how many bytes of it are performed; an instruction is not cut off -/
  performed : Nat
  /-- the word that is taken for the length of a name -/
  length : Nat
  /-- how many copies further this name ends -/
  copies : Nat
  /-- where the byte stands there that is taken for flags -/
  offset : Nat
  /-- the word that is taken for the length of instructions -/
  size : Nat
  /-- the stretches of instructions that are performed -/
  code : List Bytes
  /-- the word at which decoding fails -/
  word : Nat

namespace Misreading

variable (m : Misreading) (codes : List Bytes)

/-- The lines that are decoded as a whole. -/
def front : Bytes :=
  (codes.take m.whole).flatten

/-- What is performed of the line behind them. -/
def partOf : Bytes :=
  (codes.getD m.whole []).take (m.performed - (m.front codes).length)

/-- How many bytes of the line behind them the word counts. -/
def countedIn : Nat :=
  m.counted - (m.front codes).length

/-- Whether the words of a misreading stand where they are read in copies of the lines. -/
def isFound : Bool :=
  decide ((m.front codes).length + (m.partOf codes).length = m.performed) &&
    (Bytes.u16 m.length).isPrefixOf (codes.flatten.drop (m.performed + 17)) &&
    decide (m.performed + (21 + m.length) = m.copies * codes.flatten.length + m.offset) &&
    ([0] ++ Bytes.u16 m.size ++ m.code.flatten ++ Bytes.u16 m.word).isPrefixOf
      (codes.flatten.drop m.offset) &&
    decide (m.code.flatten.length < m.size) &&
    decide (m.length < 65536 ∧ m.size < 65536 ∧ m.word < 65536)

/-- The lines are written one behind the other, so what is performed stands at their beginning. -/
theorem front_append_partOf_prefix : m.front codes ++ m.partOf codes <+: codes.flatten := by
  have hnext : codes.getD m.whole [] <+: (codes.drop m.whole).flatten := by
    rw [List.getD_eq_getElem?_getD]
    by_cases hlt : m.whole < codes.length
    · rw [List.drop_eq_getElem_cons hlt, List.flatten_cons, List.getElem?_eq_getElem hlt]
      exact List.prefix_append ..
    · rw [List.getElem?_eq_none (Nat.not_lt.mp hlt)]
      exact List.nil_prefix
  have hsplit : codes.flatten = m.front codes ++ (codes.drop m.whole).flatten := by
    rw [front, ← List.flatten_append, List.take_append_drop]
  rw [hsplit, List.prefix_append_right_inj]
  exact List.IsPrefix.trans (List.take_prefix ..) hnext

end Misreading

/-- The copies of a draft are misread in this way. In the copy the last of the given lines is
incomplete; behind the name come the other lines. -/
structure Misreading.Of (m : Misreading) (d : Draft) (lines others : List Line) : Prop where
  stops : ∃ b, b.kind = none ∧ Stops d.version d.symbols.names (d.main.take m.performed) m.counted
    ⟨none, false, false⟩ b lines
  length : Bytes.u16 m.length <+: d.main.drop (m.performed + 17)
  name : m.performed + (21 + m.length) = m.copies * d.main.length + m.offset
  behind : [0] ++ Bytes.u16 m.size ++ m.code.flatten ++ Bytes.u16 m.word <+: d.main.drop m.offset
  code : ∃ c, Adds d.version d.symbols.names m.code.flatten ⟨none, false, false⟩ c others
  size : m.code.flatten.length < m.size
  fits : m.length < 65536 ∧ m.size < 65536 ∧ m.word < 65536

/-- **Copies that are misread.** The main program has the lines of the copies in front of the one in
which it ends, and the lines of a part of that one. One more procedure is found, with a name that is made
of the copies, and decoding fails in it. -/
theorem Rehearsed.decode_copied_misread (h : d.Rehearsed lines decoded) {m : Misreading}
    {part others : List Line} (hm : m.Of d part others) {n q : Nat}
    (hlength : n * d.main.length % 65536 = q * d.main.length + m.counted) (hq : q + m.copies < n)
    {fault : Fault}
    (hfaults : ∀ src pos, src.natLE pos 2 = .ok m.word → FaultsAt d.version src pos others fault) :
    ∃ image name kind, Image.decode (d.copied n).source = .ok image ∧ image.failure = some fault ∧
      name.length = m.length ∧ image.procedures =
        [⟨none, none, false, part ++ (List.replicate q lines).flatten⟩,
          ⟨some name, kind, false, others⟩] := by
  obtain ⟨b, hkind, hstops⟩ := hm.stops
  obtain ⟨c, hcode⟩ := hm.code
  have hall := (h.adds_replicate q).stops hstops
  rw [length_flatten_replicate, ← hlength, ← length_main_copied] at hall
  -- the performed part lies within the copy
  have hperformed : (d.main.take m.performed).length = m.performed := by
    have hle := hm.length.length_le
    rw [length_u16, List.length_drop] at hle
    rw [List.length_take]
    omega
  obtain ⟨k, rfl⟩ := Nat.exists_eq_add_of_lt (Nat.lt_of_le_of_lt (Nat.le_add_right q m.copies) hq)
  obtain ⟨pos, hpos⟩ : ∃ pos, pos = (d.copied (q + k + 1)).opening.length +
      ((List.replicate q d.main).flatten ++ d.main.take m.performed).length := ⟨_, rfl⟩
  -- what is read behind it stands in this copy and in a later one
  have hname := holds_copied (n := q + k + 1) (j := q) (by omega) hm.length
  have hbehind := holds_copied hq hm.behind
  rw [Nat.add_mul, Nat.add_assoc (q * _), ← hm.name] at hbehind
  have hat : ∀ i, (d.copied (q + k + 1)).opening.length + (q * d.main.length + (m.performed + i)) =
      pos + i := fun i => by
    rw [hpos, List.length_append, length_flatten_replicate, hperformed]
    omega
  rw [hat] at hname hbehind
  simp only [Source.holds_append, List.length_append, List.length_cons, List.length_nil, length_u16]
    at hbehind
  obtain ⟨⟨⟨hflags, hsize⟩, hcodeHolds⟩, hword⟩ := hbehind
  have hshift : ∀ i, pos + (21 + m.length) + i = pos + (21 + i + m.length) := fun i => by omega
  rw [hshift] at hsize hcodeHolds
  rw [← Nat.add_assoc, hshift] at hword
  have hzero : (d.copied (q + k + 1)).source.natLE (pos + (21 + m.length)) 1 = .ok 0 :=
    hflags.natLE_ofNatLE (n := 0) (by decide)
  obtain ⟨image, name, hdecode, hfailure, hlength', hprocedures⟩ :=
    decode_misread (d := d.copied (q + k + 1)) h.version h.fits.symbols h.sound
      (d.main_copied_cut q k m.performed) hall hpos (hname.natLE_u16 hm.fits.1) hzero
      (hsize.natLE_u16 hm.fits.2.1) hcodeHolds hm.size hcode (hfaults _ _ (hword.natLE_u16 hm.fits.2.2))
  rw [hkind] at hprocedures
  exact ⟨image, name, c.kind, hdecode, hfailure, hlength', hprocedures⟩

end Draft

/-! ## Rehearsing samples -/

namespace Sample

open Assembly

/-- Whether a draft is of a version without a form and all its lengths fit their words. -/
def isSmall (d : Draft) : Bool :=
  decide (d.version ≠ .vbdos) && decide (d.symbols.bytes.length < 65536) &&
    decide (d.main.length < 65536) &&
    d.procedures.all fun p => decide (p.name.length < 65536) && decide (p.code.length < 65536)

theorem fits_of_isSmall {d : Draft} (h : isSmall d = true) : d.version ≠ .vbdos ∧ d.Fits := by
  simp only [isSmall, Bool.and_eq_true, decide_eq_true_eq, List.all_eq_true] at h
  obtain ⟨⟨⟨hv, hsymbols⟩, hmain⟩, hprocedures⟩ := h
  exact ⟨hv,
    { symbols := hsymbols
      main := hmain
      name := fun p hp => (hprocedures p hp).1
      code := fun p hp => (hprocedures p hp).2
      form := fun hv' => absurd hv' hv
      layout := fun hv' => absurd hv' hv }⟩

section Trial

/-! The lines of a main program are written, with other parts behind it, and the draft is rehearsed. A
trial of many lines is made in parts, none of which is too large to be evaluated. -/

variable (v : Version) (lines : List (List Instr)) (others : List Part)

/-- What a trial rehearses: the lines as they are written, and the draft. -/
def trialDraft : Option (List Bytes × Draft) :=
  match writeLines lines {} with
  | .error _ => none
  | .ok (codes, area) =>
    match addAll others { Draft.start v with symbols := area, main := codes.flatten } with
    | .error _ => none
    | .ok d => some (codes, d)

/-- Rehearses so many of the lines from one of them on. Whether a function definition is open is given
for their beginning and found for their end; behind it stands the number of lines that they add. -/
def trialPart (opened : Bool) (start count : Nat) : Option (Bool × Nat) :=
  (trialDraft v lines others).bind fun w =>
    (rehearseAll w.2.version w.2.symbols.names ⟨none, false, opened⟩
      ((w.1.drop start).take count)).bind fun r =>
        if r.1.kind.isNone && !r.1.static then some (r.1.opened, r.2.length) else none

/-- Rehearses the procedures behind the main program, if it has at most so many lines. Gives the number
of its bytes and the number of the procedures. -/
def trialOthers (opened : Bool) (count : Nat) : Option (Nat × Nat) :=
  (trialDraft v lines others).bind fun w =>
    if isSmall w.2 && decide (w.2.version = v) && decide (w.1.length ≤ count) then
      (rehearseProcedures w.2.version w.2.symbols.names opened w.2.procedures.reverse).map
        fun decoded => (w.2.main.length, decoded.length)
    else none

/-- Rehearses how copies of the main program are misread behind the lines that are decoded as a whole.
Gives the number of the lines of what is taken for a procedure. -/
def trialMisreading (m : Draft.Misreading) : Option Nat :=
  (trialDraft v lines others).bind fun w =>
    (rehearsalTo w.2.version w.2.symbols.names ⟨none, false, false⟩ (m.countedIn w.1)
      (m.partOf w.1)).bind fun s =>
        (rehearseAll w.2.version w.2.symbols.names ⟨none, false, false⟩ m.code).bind fun r =>
          if m.isFound w.1 && s.program.current.kind.isNone &&
            decide (s.program.current.lines.length = 1) then some r.2.length
          else none

variable {v lines others} {opened opened' opened'' : Bool} {start count count' n n' : Nat}

theorem exists_of_trialDraft {codes : List Bytes} {d : Draft}
    (h : trialDraft v lines others = some (codes, d)) :
    ∃ area, writeLines lines {} = .ok (codes, area) ∧
      addAll others { Draft.start v with symbols := area, main := codes.flatten } = .ok d := by
  unfold trialDraft at h
  split at h
  · cases h
  · rename_i hwrite
    split at h
    · cases h
    · rename_i hadd
      cases h
      exact ⟨_, hwrite, hadd⟩

theorem trialPart_eq_some :
    trialPart v lines others opened start count = some (opened', n) ↔
      ∃ codes d block, trialDraft v lines others = some (codes, d) ∧
        rehearseAll d.version d.symbols.names ⟨none, false, opened⟩ ((codes.drop start).take count) =
          some (⟨none, false, opened'⟩, block) ∧ block.length = n := by
  rw [trialPart, Option.bind_eq_some_iff]
  constructor
  · rintro ⟨⟨codes, d⟩, hdraft, h⟩
    obtain ⟨⟨⟨kind, static, _⟩, block⟩, hblock, hchecks⟩ := Option.bind_eq_some_iff.mp h
    obtain ⟨hplain, hcounts⟩ := Option.ite_none_right_eq_some.mp hchecks
    simp only [Bool.and_eq_true, Option.isNone_iff_eq_none, Bool.not_eq_true'] at hplain
    obtain ⟨rfl, rfl⟩ := hplain
    cases hcounts
    exact ⟨codes, d, block, hdraft, hblock, rfl⟩
  · rintro ⟨codes, d, block, hdraft, hblock, rfl⟩
    exact ⟨_, hdraft, Option.bind_eq_some_iff.mpr ⟨_, hblock, rfl⟩⟩

/-- Two parts, one behind the other, are one part. -/
theorem trialPart_add (h : trialPart v lines others opened start count = some (opened', n))
    (h' : trialPart v lines others opened' (start + count) count' = some (opened'', n')) :
    trialPart v lines others opened start (count + count') = some (opened'', n + n') := by
  rw [trialPart_eq_some] at h h' ⊢
  obtain ⟨codes, d, block, hdraft, hblock, rfl⟩ := h
  obtain ⟨codes', d', block', hdraft', hblock', rfl⟩ := h'
  cases hdraft.symm.trans hdraft'
  refine ⟨codes, d, block' ++ block, hdraft, ?_, ?_⟩
  · rw [List.take_add, List.drop_drop, rehearseAll_append, hblock, Option.bind_some, hblock',
      Option.map_some]
  · rw [List.length_append, Nat.add_comm]

/-- The draft of parts whose lines and procedures have been tried out is rehearsed. -/
theorem rehearsed_of_trial {parts : List Part} {codes : List (List Instr)}
    (hparts : parts.map Part.code? = codes.map some) (hlines : codes.flatten = lines.flatten)
    (hothers : ∀ part ∈ others, part.code? = none) {bytes further : Nat}
    (hmain : trialPart v lines others false 0 count = some (opened, n))
    (hfurther : trialOthers v lines others opened count = some (bytes, further)) :
    ∃ written d block decoded, trialDraft v lines others = some (written, d) ∧ d.version = v ∧
      d.main = written.flatten ∧ draft v (parts ++ others) = .ok d ∧
      rehearseAll d.version d.symbols.names ⟨none, false, false⟩ written =
        some (⟨none, false, opened⟩, block) ∧
      d.Rehearsed block decoded ∧ d.main.length = bytes ∧ block.length = n ∧
      decoded.length = further := by
  obtain ⟨written, d, block, hwritten, hblock, rfl⟩ := trialPart_eq_some.mp hmain
  rw [trialOthers, hwritten, Option.bind_some] at hfurther
  obtain ⟨hchecks, hdecoded⟩ := Option.ite_none_right_eq_some.mp hfurther
  obtain ⟨decoded, hprocedures, hcounts⟩ := Option.map_eq_some_iff.mp hdecoded
  simp only [Bool.and_eq_true, decide_eq_true_eq] at hchecks
  obtain ⟨⟨hsmall, hversion⟩, hcount⟩ := hchecks
  rw [List.drop_zero, List.take_of_length_le hcount] at hblock
  cases hcounts
  obtain ⟨area, hwrite, hadd⟩ := exists_of_trialDraft hwritten
  have hdraft : draft v (parts ++ others) = .ok d := by
    change addAll (parts ++ others) (.start v) = .ok d
    rw [addAll_append, addAll_of_code? hparts, hlines]
    refine bind_eq_ok_iff.mpr ⟨_, ?_, hadd⟩
    exact Draft.appendMain_eq_ok.mpr ⟨_, _, write_flatten hwrite, rfl⟩
  have hsame : d.main = written.flatten := (addAll_of_no_code hothers hadd).1
  have hadds := adds_of_rehearseAll hblock
  rw [← hsame] at hadds
  obtain ⟨hv, hfits⟩ := fits_of_isSmall hsmall
  exact ⟨written, d, block, decoded, hwritten, hversion, hsame, hdraft, hblock,
    ⟨hv, hfits, sound_draft hdraft, _, hadds, rfl, rfl, hprocedures⟩, rfl, rfl, rfl⟩

/-- Copies whose misreading has been tried out are misread. Their whole lines are the first lines of the
main program. -/
theorem misread_of_trial {codes : List Bytes} {d : Draft} {m : Draft.Misreading} {b : Setting}
    {block : List Line} (hdraft : trialDraft v lines others = some (codes, d))
    (hmain : d.main = codes.flatten)
    (hblock : rehearseAll d.version d.symbols.names ⟨none, false, false⟩ codes = some (b, block))
    (hfront : trialPart v lines others false 0 m.whole = some (opened, n))
    (h : trialMisreading v lines others m = some n') :
    ∃ last whole rest procedure, m.Of d (last :: whole) procedure ∧ block = rest ++ whole ∧
      whole.length = n ∧ procedure.length = n' := by
  obtain ⟨codes', d', whole, hdraft', hwhole, rfl⟩ := trialPart_eq_some.mp hfront
  cases hdraft.symm.trans hdraft'
  rw [List.drop_zero] at hwhole
  rw [trialMisreading, hdraft, Option.bind_some] at h
  dsimp only at h
  obtain ⟨s, hpart, h⟩ := Option.bind_eq_some_iff.mp h
  obtain ⟨⟨c, procedure⟩, hprocedure, h⟩ := Option.bind_eq_some_iff.mp h
  obtain ⟨hchecks, hcounts⟩ := Option.ite_none_right_eq_some.mp h
  simp only [Bool.and_eq_true, Option.isNone_iff_eq_none, decide_eq_true_eq] at hchecks
  obtain ⟨⟨hfound, hkind⟩, hone⟩ := hchecks
  cases hcounts
  simp only [Draft.Misreading.isFound, Bool.and_eq_true, decide_eq_true_eq, List.isPrefixOf_iff_prefix]
    at hfound
  obtain ⟨⟨⟨⟨⟨hperformed, hlength⟩, hname⟩, hbehind⟩, hsize⟩, hfits⟩ := hfound
  rw [← hmain] at hlength hname hbehind
  -- the lines in front and the part behind them are what is performed of the copy
  have htake : d.main.take m.performed = m.front codes ++ m.partOf codes := by
    rw [hmain, ← hperformed, ← List.length_append]
    exact (List.prefix_iff_eq_take.mp (m.front_append_partOf_prefix codes)).symm
  have hcounted : (m.front codes).length + m.countedIn codes = m.counted := by
    obtain ⟨w, -, hpos, -⟩ := rehearsalTo_eq_some hpart
    rw [Draft.Misreading.countedIn] at hpos ⊢
    omega
  obtain ⟨last, hlast⟩ := List.length_eq_one_iff.mp hone
  have hstops := (adds_of_rehearseAll hwhole).forget.stops (stops_of_rehearsalTo hpart)
  rw [← Draft.Misreading.front, ← htake, hcounted, hlast, List.singleton_append] at hstops
  -- the other lines come behind the whole ones
  have hall := hblock
  rw [← List.take_append_drop m.whole codes, rehearseAll_append, hwhole, Option.bind_some] at hall
  obtain ⟨r, -, hr⟩ := Option.map_eq_some_iff.mp hall
  cases hr
  exact ⟨last, whole, r.2, procedure,
    ⟨⟨_, hkind, hstops⟩, hlength, hname, hbehind, ⟨c, adds_of_rehearseAll hprocedure⟩, hsize, hfits⟩,
    rfl, rfl, rfl⟩

end Trial

/-- The parts behind the main program in the program of version 4.5. -/
def commonOthers : List Part :=
  [.sub "Helper" true false, .function "Compute" false]

/-- The parts of the program of version 4.5 with copies of its main program. -/
def commonCopies (n : Nat) : List Part :=
  copies n [.common, .line eraseLine] ++ commonOthers

/-- A part of the trial of the main program of version 4.5. -/
def commonPart (opened : Bool) (start count : Nat) : Option (Bool × Nat) :=
  trialPart .qb45 (common ++ [eraseLine]) commonOthers opened start count

/-- A length that ends 622 bytes behind the beginning of a copy. What is taken for a procedure there
begins with lines, and then comes a word with an opcode that does not exist. -/
def unknownOpcode : Draft.Misreading where
  whole := 50
  counted := 622
  performed := 622
  length := 19981
  copies := 5
  offset := 3214
  size := 60160
  code := [[0x00, 0x00, 0x00, 0x64, 0x09, 0x64, 0x09, 0xEC, 0x00, 0x00]]
  word := 0xEE00

/-- A length that ends 1244 bytes behind the beginning of a copy, within an instruction. What is taken
for a procedure there begins with a statement that has no line. -/
def statementWithoutLine : Draft.Misreading where
  whole := 113
  counted := 1244
  performed := 1246
  length := 26112
  copies := 7
  offset := 3005
  size := 2404
  code := []
  word := 0x009E

/-- The trials of the main program of version 4.5. -/
theorem trials_common :
    commonPart false 0 323 = some (true, 323) ∧
      trialOthers .qb45 (common ++ [eraseLine]) commonOthers true 323 = some (3482, 2) ∧
      commonPart false 0 50 = some (false, 50) ∧
      trialMisreading .qb45 (common ++ [eraseLine]) commonOthers unknownOpcode = some 3 ∧
      commonPart false 0 113 = some (false, 113) ∧
      trialMisreading .qb45 (common ++ [eraseLine]) commonOthers statementWithoutLine = some 0 := by
  have hfirst : commonPart false 0 50 = some (false, 50) := by decide +kernel
  have hsecond : commonPart false 50 63 = some (false, 63) := by decide +kernel
  have hthird : commonPart false 113 70 = some (false, 70) := by decide +kernel
  have hfourth : commonPart false 183 57 = some (false, 57) := by decide +kernel
  have hfifth : commonPart false 240 83 = some (true, 83) := by decide +kernel
  have hfront := trialPart_add hfirst hsecond
  have hall := trialPart_add (trialPart_add (trialPart_add hfront hthird) hfourth) hfifth
  have hrest : trialOthers .qb45 (common ++ [eraseLine]) commonOthers true 323 = some (3482, 2) ∧
      trialMisreading .qb45 (common ++ [eraseLine]) commonOthers unknownOpcode = some 3 ∧
      trialMisreading .qb45 (common ++ [eraseLine]) commonOthers statementWithoutLine = some 0 := by
    decide +kernel
  exact ⟨hall, hrest.1, hfirst, hrest.2.1, hfront, hrest.2.2⟩

theorem survey_eq {v : Version} {parts : List Part} {findings : Image → String → List Finding}
    {d : Draft} {image : Image} (hdraft : draft v parts = .ok d)
    (hdecode : Image.decode d.source = .ok image) :
    survey v parts findings =
      .ok ⟨findings image image.print.text, image.print.text, image.failure⟩ := by
  exact bind_eq_ok_iff.mpr ⟨d, hdraft, bind_eq_ok_iff.mpr ⟨image, hdecode, rfl⟩⟩

theorem mainLines_eq {image : Image} {p : Procedure} (h : image.procedures[0]? = some p) :
    mainLines image = p.lines.length := by
  rw [mainLines, List.head?_eq_getElem?, h]
  rfl

/-- Decoding has broken off in a second procedure. The main program has the given lines and one more;
the second procedure has a name of the given length and so many lines. -/
def BreaksOff (image : Image) (fault : Fault) (lines : List Line) (length count : Nat) : Prop :=
  image.failure = some fault ∧ ∃ main other last name, image.procedures = [main, other] ∧
    main.listing = lines ++ [last] ∧ other.name = some name ∧ name.length = length ∧
    other.lines.length = count

/-- Copies of the main program that are misread break off. -/
theorem breaksOff_of_misread {d : Draft} {lines : List Line} {decoded : List Procedure}
    (h : d.Rehearsed lines decoded) {m : Draft.Misreading} {last : Line}
    {whole rest procedure : List Line} (hm : m.Of d (last :: whole) procedure)
    (hlines : lines = rest ++ whole) {n q : Nat}
    (hlength : n * d.main.length % 65536 = q * d.main.length + m.counted) (hq : q + m.copies < n)
    {fault : Fault}
    (hfaults : ∀ src pos, src.natLE pos 2 = .ok m.word → FaultsAt d.version src pos procedure fault) :
    ∃ image, Image.decode (d.copied n).source = .ok image ∧
      BreaksOff image fault ((List.replicate n lines.reverse).flatten.take
        (q * lines.length + whole.length)) m.length procedure.length := by
  obtain ⟨image, name, kind, hdecode, hfailure, hname, hprocedures⟩ :=
    h.decode_copied_misread hm hlength hq hfaults
  refine ⟨image, hdecode, hfailure, _, _, last, name, hprocedures, ?_, rfl, hname, rfl⟩
  have hwhole : lines.reverse.take whole.length = whole.reverse := by
    rw [hlines, List.reverse_append, List.take_left' List.length_reverse]
  have hcount : lines.reverse.length = lines.length := List.length_reverse
  rw [← hcount, Draft.take_flatten_replicate (Nat.lt_of_le_of_lt (Nat.le_add_right ..) hq)
      (by rw [hlines]; simp), hwhole, Procedure.listing, List.reverse_append,
    Draft.reverse_flatten_replicate, List.reverse_cons, List.append_assoc]

/-- What the trials say of a draft with a main program of version 4.5. -/
structure IsCommon (d : Draft) (lines : List Line) (decoded : List Procedure) : Prop where
  rehearsed : d.Rehearsed lines decoded
  version : d.version = .qb45
  bytes : d.main.length = 3482
  count : lines.length = 323
  further : decoded.length = 2
  unknown : ∃ last whole rest procedure, unknownOpcode.Of d (last :: whole) procedure ∧
    lines = rest ++ whole ∧ whole.length = 50 ∧ procedure.length = 3
  without : ∃ last whole rest procedure, statementWithoutLine.Of d (last :: whole) procedure ∧
    lines = rest ++ whole ∧ whole.length = 113 ∧ procedure.length = 0

/-- What the copies of the main program of version 4.5 are copies of. -/
theorem exists_isCommon : ∃ (d : Draft) (lines : List Line) (decoded : List Procedure),
    IsCommon d lines decoded ∧ ∀ n, draft .qb45 (commonCopies (n + 1)) = .ok (d.copied (n + 1)) := by
  have hparts : [Part.common, .line eraseLine].map Part.code? =
      [common.flatten, eraseLine].map some := rfl
  have hothers : ∀ part ∈ commonOthers, part.code? = none := by simp [commonOthers, Part.code?]
  have hlines : [common.flatten, eraseLine].flatten = (common ++ [eraseLine]).flatten := by
    rw [List.flatten_append]
    rfl
  obtain ⟨hall, hfurther, hfront, hunknown, hfront', hwithout⟩ := trials_common
  obtain ⟨written, d, lines, decoded, hdraft, hversion, hmain, hwritten, hblock, hrehearsed, hbytes,
    hcount, hcount'⟩ := rehearsed_of_trial hparts hlines hothers hall hfurther
  exact ⟨d, lines, decoded,
    ⟨hrehearsed, hversion, hbytes, hcount, hcount',
      misread_of_trial hdraft hmain hblock hfront hunknown,
      misread_of_trial hdraft hmain hblock hfront' hwithout⟩, draft_copies hparts hothers hwritten⟩

section

variable {d : Draft} {lines : List Line} {decoded : List Procedure} (h : IsCommon d lines decoded)

include h

/-- Copies that fit are decoded as copies of the lines. -/
theorem IsCommon.decode_of_le {n : Nat} (hn : 1 ≤ n) (hle : n ≤ 18) :
    ∃ image, Image.decode (d.copied n).source = .ok image ∧ image.failure = none ∧
      image.procedures.length = 3 ∧
      image.procedures.head?.map Procedure.listing = some (List.replicate n lines.reverse).flatten ∧
      mainLines image = n * 323 := by
  obtain ⟨image, hdecode, hfailure, hprocedures⟩ :=
    h.rehearsed.decode_copied_of_lt hn (by rw [h.bytes]; omega)
  refine ⟨image, hdecode, hfailure, ?_, ?_, ?_⟩
  · rw [hprocedures, List.length_cons, h.further]
  · rw [hprocedures, List.head?_cons, Option.map_some, Procedure.listing,
      Draft.reverse_flatten_replicate]
  · rw [mainLines_eq (by rw [hprocedures]; rfl), Draft.length_flatten_replicate, h.count]

/-- From nineteen copies on, the word with the length leaves off 622 bytes behind the beginning of a
copy. -/
theorem IsCommon.breaksOff_of_le {n : Nat} (hlt : 18 < n) (hle : n ≤ 37) :
    ∃ image, Image.decode (d.copied n).source = .ok image ∧
      BreaksOff image (.invalidOpcode 0x200)
        ((List.replicate n lines.reverse).flatten.take ((n - 19) * 323 + 50)) 19981 3 := by
  obtain ⟨last, whole, rest, procedure, hm, hlines, hwhole, hprocedure⟩ := h.unknown
  rw [← hwhole, ← hprocedure, ← h.count]
  refine breaksOff_of_misread h.rehearsed hm hlines ?_ ?_ fun src pos hw => ?_
  · rw [h.bytes]
    change n * 3482 % 65536 = (n - 19) * 3482 + 622
    omega
  · change n - 19 + 5 < n
    omega
  · rw [h.version]
    exact faultsAt_of_undefined hw rfl procedure

/-- From thirty-eight copies on, it leaves off 1244 bytes behind the beginning of a copy. -/
theorem IsCommon.breaksOff_of_lt {n : Nat} (hlt : 37 < n) (hle : n ≤ 56) :
    ∃ image, Image.decode (d.copied n).source = .ok image ∧
      BreaksOff image .noLine
        ((List.replicate n lines.reverse).flatten.take ((n - 38) * 323 + 113)) 26112 0 := by
  obtain ⟨last, whole, rest, procedure, hm, hlines, hwhole, hprocedure⟩ := h.without
  rw [← hwhole, ← hprocedure, ← h.count]
  refine breaksOff_of_misread h.rehearsed hm hlines ?_ ?_ fun src pos hw => ?_
  · rw [h.bytes]
    change n * 3482 % 65536 = (n - 38) * 3482 + 1244
    omega
  · change n - 38 + 7 < n
    omega
  · rw [h.version, List.eq_nil_of_length_eq_zero hprocedure]
    have hmem : (0x009E, "CHDIR", 1) ∈ Instruction.commands := by decide
    exact faultsAt_of_command hw rfl hmem

end

/-- The lines as which one copy of the main program of version 4.5 is decoded. -/
def IsBlock (block : List Line) : Prop :=
  ∃ d image, draft .qb45 (commonCopies 1) = .ok d ∧ Image.decode (.ofBytes d.bytes) = .ok image ∧
    image.procedures.head?.map Procedure.listing = some block

/-- **Copies of a program are decoded as copies of its listing** only as long as the length of the main
program fits its word. The main program of version 4.5 has 3482 bytes and 323 lines. Up to eighteen
copies of it are decoded without a fault, with both procedures behind them, and the main program has
the lines of one copy again and again.

Of more copies only the remainder of the length is stored. The main program then ends within one of the
copies: it has all lines of the copies in front of it and at most those of this one, and they are the
first lines of the copies, but for the last of them and for values that function definitions get later.
What is left of the copies is taken for further procedures. With 19 to 37 copies this breaks off at an
opcode that does not exist, with 38 to 56 copies at a statement without a line. A procedure with a name
of thousands of bytes stands then in place of the two that were written. -/
theorem copies_listing (n : Nat) (hn : 1 ≤ n) : ∃ block d image,
    IsBlock block ∧ block.length = 323 ∧
    draft .qb45 (commonCopies n) = .ok d ∧ d.main.length = n * 3482 ∧
    Image.decode (.ofBytes d.bytes) = .ok image ∧
    surveyCommon n = .ok ⟨[.count image.print.text.length, .count image.procedures.length,
      .count (mainLines image)], image.print.text, image.failure⟩ ∧
    (n ≤ 18 → image.failure = none ∧ image.procedures.length = 3 ∧
      image.procedures.head?.map Procedure.listing = some (List.replicate n block).flatten ∧
      mainLines image = n * 323) ∧
    (18 < n → mainLines image < n * 323 ∧
      n * 3482 % 65536 / 3482 * 323 ≤ mainLines image ∧
      mainLines image ≤ (n * 3482 % 65536 / 3482 + 1) * 323 ∧
      image.procedures.head?.map (fun p => p.listing.dropLast.map Line.undefined) =
        some (((List.replicate n block).flatten.take (mainLines image - 1)).map Line.undefined)) ∧
    (18 < n → n ≤ 37 → BreaksOff image (.invalidOpcode 0x200)
      ((List.replicate n block).flatten.take ((n - 19) * 323 + 50)) 19981 3) ∧
    (37 < n → n ≤ 56 → BreaksOff image .noLine
      ((List.replicate n block).flatten.take ((n - 38) * 323 + 113)) 26112 0) := by
  obtain ⟨d, lines, decoded, hcommon, hdraft⟩ := exists_isCommon
  have hblock : IsBlock lines.reverse := by
    obtain ⟨image, hdecode, -, -, hlisting, -⟩ := hcommon.decode_of_le (Nat.le_refl 1) (by decide)
    rw [List.replicate_one, List.flatten_singleton] at hlisting
    exact ⟨_, image, hdraft 0, hdecode, hlisting⟩
  have hcount : lines.reverse.length = 323 := by rw [List.length_reverse, hcommon.count]
  obtain ⟨k, rfl⟩ := Nat.exists_eq_add_one.mpr hn
  have hlength := d.length_main_copied (k + 1)
  rw [hcommon.bytes] at hlength
  by_cases hle : k + 1 ≤ 18
  · obtain ⟨image, hdecode, hfits⟩ := hcommon.decode_of_le hn hle
    exact ⟨_, _, image, hblock, hcount, hdraft k, hlength, hdecode, survey_eq (hdraft k) hdecode,
      fun _ => hfits, fun hlt => by omega, fun hlt _ => by omega, fun hlt _ => by omega⟩
  · obtain ⟨image, p, hdecode, hp, hfewer, hlong, hshort, hlisting⟩ :=
      hcommon.rehearsed.decode_copied_of_le (n := k + 1) rfl (by rw [hcommon.bytes]; omega)
    -- decoding gives one image, so what is said of an image holds of this one
    have hsame : ∀ {P : Image → Prop}, (∃ other, Image.decode (d.copied (k + 1)).source = .ok other ∧
        P other) → P image := by
      rintro P ⟨other, hother, hP⟩
      cases hdecode.symm.trans hother
      exact hP
    rw [hcommon.bytes, hcommon.count] at hlong hshort
    rw [hcommon.bytes] at hfewer
    refine ⟨_, _, image, hblock, hcount, hdraft k, hlength, hdecode, survey_eq (hdraft k) hdecode,
      fun hle' => absurd hle' hle, fun _ => ?_,
      fun hlt hle' => hsame (hcommon.breaksOff_of_le hlt hle'),
      fun hlt hle' => hsame (hcommon.breaksOff_of_lt hlt hle')⟩
    rw [mainLines_eq hp, List.head?_eq_getElem?, hp, Option.map_some, hlisting]
    exact ⟨by omega, hlong, hshort, rfl⟩

/-- Eighteen copies, nineteen and forty. -/
theorem copies_listing_at_the_limit :
    (1 ≤ 18 ∧ ∃ block d image, IsBlock block ∧ draft .qb45 (commonCopies 18) = .ok d ∧
      d.main.length = 62676 ∧ Image.decode (.ofBytes d.bytes) = .ok image ∧ image.failure = none ∧
      image.procedures.length = 3 ∧
      image.procedures.head?.map Procedure.listing = some (List.replicate 18 block).flatten) ∧
    (1 ≤ 19 ∧ ∃ block d image, IsBlock block ∧ draft .qb45 (commonCopies 19) = .ok d ∧
      d.main.length = 66158 ∧ Image.decode (.ofBytes d.bytes) = .ok image ∧
      BreaksOff image (.invalidOpcode 0x200) ((List.replicate 19 block).flatten.take 50) 19981 3) ∧
    1 ≤ 40 ∧ ∃ block d image, IsBlock block ∧ draft .qb45 (commonCopies 40) = .ok d ∧
      d.main.length = 139280 ∧ Image.decode (.ofBytes d.bytes) = .ok image ∧
      BreaksOff image .noLine ((List.replicate 40 block).flatten.take 759) 26112 0 := by
  refine ⟨⟨by decide, ?_⟩, ⟨by decide, ?_⟩, by decide, ?_⟩
  · obtain ⟨block, d, image, hblock, -, hdraft, hlength, hdecode, -, hfits, -⟩ :=
      copies_listing 18 (by decide)
    obtain ⟨hfailure, hprocedures, hlisting, -⟩ := hfits (by decide)
    exact ⟨block, d, image, hblock, hdraft, hlength, hdecode, hfailure, hprocedures, hlisting⟩
  · obtain ⟨block, d, image, hblock, -, hdraft, hlength, hdecode, -, -, -, hbreaks, -⟩ :=
      copies_listing 19 (by decide)
    exact ⟨block, d, image, hblock, hdraft, hlength, hdecode, hbreaks (by decide) (by decide)⟩
  · obtain ⟨block, d, image, hblock, -, hdraft, hlength, hdecode, -, -, -, -, hbreaks⟩ :=
      copies_listing 40 (by decide)
    exact ⟨block, d, image, hblock, hdraft, hlength, hdecode, hbreaks (by decide) (by decide)⟩

/-- Nineteen copies are not decoded as nineteen times the lines of one, with the procedures behind them:
there is a fault, the two procedures are missing, and of the lines there are fifty-one. -/
theorem nineteen_copies_break_off : ∃ (d d' : Draft) (image image' : Image),
    draft .qb45 (commonCopies 1) = .ok d ∧ Image.decode (.ofBytes d.bytes) = .ok image ∧
    image.failure = none ∧ image.procedures.length = 3 ∧ mainLines image = 323 ∧
    draft .qb45 (commonCopies 19) = .ok d' ∧ Image.decode (.ofBytes d'.bytes) = .ok image' ∧
    image'.failure = some (.invalidOpcode 0x200) ∧ image'.procedures.length = 2 ∧
    mainLines image' = 51 := by
  obtain ⟨d, lines, decoded, hcommon, hdraft⟩ := exists_isCommon
  obtain ⟨image, hdecode, hfailure, hprocedures, -, hcount⟩ :=
    hcommon.decode_of_le (Nat.le_refl 1) (by decide)
  obtain ⟨image', hdecode', hfailure', main, other, last, name, hprocedures', hlisting, -⟩ :=
    hcommon.breaksOff_of_le (n := 19) (by decide) (by decide)
  refine ⟨_, _, image, image', hdraft 0, hdecode, hfailure, hprocedures, hcount, hdraft 18, hdecode',
    hfailure', ?_, ?_⟩
  · rw [hprocedures']
    rfl
  · have hlength := congrArg List.length hlisting
    rw [Procedure.listing, List.length_reverse, List.length_append, List.length_take,
      Draft.length_flatten_replicate, List.length_reverse, hcommon.count] at hlength
    rw [mainLines_eq (by rw [hprocedures']; rfl), hlength]
    rfl

end Sample

end SavedBasic
