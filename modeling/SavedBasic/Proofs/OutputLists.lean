import SavedBasic.Proofs.Workspace

/-!
# Output lists

`PRINT`, `LPRINT` and `WRITE` arrive one part at a time: a file number, then values with a separator
behind them, separators alone, `TAB`, `SPC` and formats, and at the end a value without a separator or
nothing. All of it is kept in the statement. The text of the statement has less: the file number is
written in front of a list only, so an empty list loses it, and a separator alone is left out behind
`TAB` and `SPC`, which bring a semicolon, whether it is a semicolon itself or a comma. Nothing else is
lost: two lists that are the same but for their file numbers and separators have the same text exactly
if they differ there alone.
-/

namespace SavedBasic

open Decode Instruction

variable {v : Version} {src : Source} {names : Nat → Except Fault Identifier} {p q : Nat}

/-! ## Output statements -/

/-- The separators of an output list. -/
inductive Separator where
  | comma
  | semicolon
deriving DecidableEq

/-- The functions that move the print position. -/
inductive Spacing where
  | tab
  | spc
deriving DecidableEq

/-- A part of an output list. -/
inductive OutputPart where
  /-- a value with a separator behind it -/
  | item (value : Expr) (separator : Separator)
  /-- a separator alone -/
  | bare (separator : Separator)
  /-- `TAB` or `SPC` -/
  | spacing (function : Spacing) (value : Expr)
  /-- a format -/
  | format (picture : Expr)

/-- An output statement. -/
structure Output where
  /-- the kind of statement -/
  kind : PrintKind
  /-- the file number -/
  file : Option Expr
  /-- the parts of the list -/
  parts : List OutputPart
  /-- the value at the end -/
  final : Option Expr

namespace Separator

def text : Separator → String
  | comma => ","
  | semicolon => ";"

/-- The opcode of a value with a separator behind it. -/
def itemCode : Separator → Nat
  | comma => 0x0094
  | semicolon => 0x0095

/-- The opcode of a separator alone. -/
def bareCode : Separator → Nat
  | comma => 0x0091
  | semicolon => 0x0092

end Separator

namespace Spacing

def word : Spacing → String
  | tab => "TAB"
  | spc => "SPC"

def code : Spacing → Nat
  | tab => 0x0090
  | spc => 0x008F

end Spacing

namespace OutputPart

/-- The part as the statement has it. -/
def toPart : OutputPart → PrintPart
  | item value separator => .item value separator.text
  | bare separator => .item .omitted separator.text
  | spacing function value => .control function.word value
  | format picture => .format picture

/-- The expression in a part. -/
def value? : OutputPart → Option Expr
  | item value _ => some value
  | bare _ => none
  | spacing _ value => some value
  | format picture => some picture

/-- The text of a part, when its expression has one. -/
def text (texts : Expr → String) : OutputPart → String
  | item value separator => texts value ++ separator.text
  | bare separator => separator.text
  | spacing function value => function.word ++ "(" ++ texts value ++ ");"
  | format picture => "USING " ++ texts picture ++ ";"

def isBare : OutputPart → Bool
  | bare _ => true
  | _ => false

def isSpacing : OutputPart → Bool
  | spacing .. => true
  | _ => false

/-- Whether a part is a separator alone behind `TAB` or `SPC`; `before` is the part in front of it. -/
def isMerged (before : Option OutputPart) (part : OutputPart) : Bool :=
  part.isBare && before.any isSpacing

end OutputPart

/-- The part in front of each part of a list; `before` is the one in front of them all. -/
def partBefore (before : Option OutputPart) (parts : List OutputPart) : Nat → Option OutputPart
  | 0 => before
  | i + 1 => parts[i]?

/-- The parts that are written. -/
def writtenParts (before : Option OutputPart) (parts : List OutputPart) : List OutputPart :=
  ((parts.zip (before :: parts.map some)).filter fun x => !x.1.isMerged x.2).map Prod.fst

namespace Output

/-- The whole list as the statement has it. -/
def printParts (o : Output) : List PrintPart :=
  o.parts.map OutputPart.toPart ++ o.final.toList.map .last

/-- The statement that is decoded. -/
def statement (o : Output) : Statement :=
  .print ⟨o.kind, .omitted, o.file.getD .omitted, o.printParts⟩

/-- Whether there is nothing to write. -/
def isBlank (o : Output) : Bool :=
  o.parts.isEmpty && o.final.isNone

/-- The texts of the parts of the list. -/
def pieces (o : Output) (texts : Expr → String) : List String :=
  (writtenParts none o.parts).map (OutputPart.text texts) ++ o.final.toList.map texts

/-- The text of an output statement, when its expressions have texts. -/
def text (o : Output) (texts : Expr → String) : String :=
  o.kind.word ++
    if o.isBlank then "" else
      " " ++ (o.file.elim "" (texts · ++ ", ") ++ Text.join " " (o.pieces texts))

/-- The expressions of an output statement. -/
def values (o : Output) : List Expr :=
  o.file.toList ++ o.parts.filterMap OutputPart.value? ++ o.final.toList

end Output

/-! ## How output statements are written -/

/-- From `p` to `q` a file has the instructions of a part of an output list. -/
inductive PartAt (v : Version) (src : Source) (names : Nat → Except Fault Identifier) (p : Nat) :
    (q : Nat) → OutputPart → Prop where
  | item {q parameter : Nat} {e : Expr} {separator : Separator} (he : Pushed v src names p q [e])
    (hpresent : e.isOmitted = false) (hcode : InstructionAt v src q separator.itemCode parameter) :
    PartAt v src names p (q + 2) (.item e separator)
  | bare {parameter : Nat} {separator : Separator}
    (hcode : InstructionAt v src p separator.bareCode parameter) :
    PartAt v src names p (p + 2) (.bare separator)
  | spacing {q parameter : Nat} {e : Expr} {function : Spacing} (he : Pushed v src names p q [e])
    (hcode : InstructionAt v src q function.code parameter) :
    PartAt v src names p (q + 2) (.spacing function e)
  | format {q parameter : Nat} {e : Expr} (he : Pushed v src names p q [e])
    (hcode : InstructionAt v src q 0x00FF parameter) : PartAt v src names p (q + 2) (.format e)

/-- From `p` to `q` a file has the instruction of a kind of output statement; `PRINT` has none. -/
inductive KindAt (v : Version) (src : Source) (p : Nat) : (q : Nat) → PrintKind → Prop where
  | print : KindAt v src p p .print
  | lprint {parameter : Nat} (h : InstructionAt v src p 0x00C3 parameter) :
    KindAt v src p (p + 2) .lprint
  | write {parameter : Nat} (h : InstructionAt v src p 0x00FE parameter) :
    KindAt v src p (p + 2) .write

/-- From `p` to `q` a file has the instructions of a file number, or nothing. -/
inductive FileAt (v : Version) (src : Source) (names : Nat → Except Fault Identifier) (p : Nat) :
    (q : Nat) → Option Expr → Prop where
  | given {q parameter : Nat} {e : Expr} (he : Pushed v src names p q [e])
    (hpresent : e.isOmitted = false) (hcode : InstructionAt v src q 0x007D parameter) :
    FileAt v src names p (q + 2) (some e)
  | missing : FileAt v src names p p none

/-- From `p` to `q` a file has the end of an output list. -/
inductive EndAt (v : Version) (src : Source) (names : Nat → Except Fault Identifier) (p : Nat) :
    (q : Nat) → Option Expr → Prop where
  | value {q parameter : Nat} {e : Expr} (he : Pushed v src names p q [e])
    (hcode : InstructionAt v src q 0x0096 parameter) : EndAt v src names p (q + 2) (some e)
  | nothing {parameter : Nat} (hcode : InstructionAt v src p 0x0093 parameter) :
    EndAt v src names p (p + 2) none

/-- From `p` to `q` a file has the instructions of an output statement. -/
inductive OutputAt (v : Version) (src : Source) (names : Nat → Except Fault Identifier) (p q : Nat)
    (o : Output) : Prop where
  | intro {p₁ p₂ p₃ : Nat} (hkind : KindAt v src p p₁ o.kind) (hfile : FileAt v src names p₁ p₂ o.file)
    (hparts : SequenceAt (PartAt v src names) p₂ p₃ o.parts) (hend : EndAt v src names p₃ q o.final)

/-! ## How they are decoded -/

/-- At the end of a line stands an output statement, or nothing, so that `PRINT` begins here. -/
abbrev Awaits (st : Statement) (pr : Print) : Prop :=
  Continues isPrint (Statement.emptyPrint .print .omitted) st (.print pr)

section Turns

variable {st : Statement} {pr : Print} {stack below : List Expr} {a : Arguments}

theorem turns_printing (h : Awaits st pr) :
    Turns src names printing p p (.ok ()) ⟨st, stack, a⟩ ⟨.print pr, stack, a⟩ :=
  turns_continueWith h

theorem turns_amendPrint (f : Print → Print) :
    Turns src names (amendPrint f) p p (.ok ()) ⟨.print pr, stack, a⟩ ⟨.print (f pr), stack, a⟩ :=
  turns_amend rfl

theorem turns_printPart {part : Decode PrintPart} {x : PrintPart} {parameter : Nat} (h : Awaits st pr)
    (hpart : Turns src names part p p (.ok x) ⟨.print pr, stack, a⟩ ⟨.print pr, below, a⟩) :
    Turns src names (printPart part v parameter) p p (.ok ()) ⟨st, stack, a⟩
      ⟨.print { pr with parts := pr.parts ++ [x] }, below, a⟩ :=
  (turns_printing h).bind ((turns_amendPrint id).bind (hpart.bind (turns_amendPrint _)))

/-- An instruction that takes a value for a part adds this part. -/
theorem InstructionAt.carries_part {code parameter r : Nat} {e : Expr} (make : Expr → PrintPart)
    (he : Pushed v src names p r [e]) (hcode : InstructionAt v src r code parameter)
    (hlookup : table.lookup code = some (printPart (pop >>= fun e => pure (make e))))
    (h : Awaits st pr) :
    Carries v src names p (r + 2) ⟨st, stack, a⟩
      ⟨.print { pr with parts := pr.parts ++ [make e] }, stack, a⟩ :=
  hcode.takes he hlookup (turns_printPart h ((turns_pop e).bind (turns_pure (make e))))

/-- The instructions of a part add this part. -/
theorem PartAt.carries {part : OutputPart} (hpart : PartAt v src names p q part) (h : Awaits st pr) :
    Carries v src names p q ⟨st, stack, a⟩
      ⟨.print { pr with parts := pr.parts ++ [part.toPart] }, stack, a⟩ := by
  cases hpart with
  | @item _ _ _ separator he _ hcode =>
    exact hcode.carries_part (.item · separator.text) he (by cases separator <;> rfl) h
  | @bare _ separator hcode =>
    have hlookup : table.lookup separator.bareCode =
        some (printPart (pure (.item .omitted separator.text))) := by cases separator <;> rfl
    exact hcode.carries hlookup (turns_printPart h (turns_pure _))
  | @spacing _ _ _ function he hcode =>
    exact hcode.carries_part (.control function.word) he (by cases function <;> rfl) h
  | format he hcode => exact hcode.carries_part .format he rfl h

theorem KindAt.carries (names : Nat → Except Fault Identifier) {kind : PrintKind}
    (h : KindAt v src p q kind) :
    ∃ st, Awaits st ⟨kind, .omitted, .omitted, []⟩ ∧
      Carries v src names p q .fresh ⟨st, [], .none⟩ := by
  cases h with
  | print => exact ⟨_, .placed rfl rfl, .refl⟩
  | lprint h => exact ⟨_, .same rfl, h.carries rfl (turns_put rfl)⟩
  | write h => exact ⟨_, .same rfl, h.carries rfl (turns_put rfl)⟩

theorem FileAt.carries {kind : PrintKind} {file : Option Expr} (hfile : FileAt v src names p q file)
    (h : Awaits st ⟨kind, .omitted, .omitted, []⟩) :
    ∃ st', Awaits st' ⟨kind, .omitted, file.getD .omitted, []⟩ ∧
      Carries v src names p q ⟨st, stack, a⟩ ⟨st', stack, a⟩ := by
  cases hfile with
  | @given _ _ e he _ hcode =>
    refine ⟨_, .same rfl, hcode.takes he rfl ?_⟩
    exact (turns_printing h).bind ((turns_amendPrint id).bind ((turns_pop e).bind (turns_amendPrint _)))
  | missing => exact ⟨st, h, .refl⟩

theorem EndAt.carries {final : Option Expr} (hend : EndAt v src names p q final) (h : Awaits st pr) :
    Carries v src names p q ⟨st, stack, a⟩
      ⟨.print { pr with parts := pr.parts ++ final.toList.map .last }, stack, a⟩ := by
  cases hend with
  | value he hcode => exact hcode.carries_part .last he rfl h
  | nothing hcode =>
    rw [Option.toList_none, List.map_nil, List.append_nil]
    exact hcode.carries rfl (turns_printing h)

end Turns

/-- The instructions of an output statement put exactly this statement on a new line. -/
theorem OutputAt.carries {o : Output} (h : OutputAt v src names p q o) :
    Carries v src names p q .fresh ⟨o.statement, [], .none⟩ := by
  -- the statement so far, when these parts have been added
  let Added (done : List OutputPart) (b : Workspace) : Prop :=
    ∃ st, Awaits st ⟨o.kind, .omitted, o.file.getD .omitted, done.map OutputPart.toPart⟩ ∧
      b = ⟨st, [], .none⟩
  have hadds : ∀ {p q : Nat} {part : OutputPart} {done : List OutputPart} {b : Workspace},
      PartAt v src names p q part → Added done b →
        ∃ b', Added (done ++ [part]) b' ∧ Carries v src names p q b b' := by
    rintro p q part done _ hpart ⟨st, hst, rfl⟩
    refine ⟨_, ⟨_, ?_, rfl⟩, hpart.carries hst⟩
    rw [List.map_append]
    exact .same rfl
  cases h with
  | intro hkind hfile hparts hend =>
    obtain ⟨st, hst, hbegun⟩ := hkind.carries names
    obtain ⟨st', hst', hnumbered⟩ := hfile.carries hst
    have hstart : Added [] ⟨st', [], .none⟩ := ⟨st', hst', rfl⟩
    obtain ⟨_, ⟨st'', hst'', rfl⟩, hlisted⟩ := hparts.carries Added hadds hstart
    exact ((hbegun.trans hnumbered).trans hlisted).trans (hend.carries hst'')

/-! ## Their texts -/

section Texts

variable {texts : Expr → String}

theorem OutputPart.render_toPart {part : OutputPart}
    (h : ∀ e, part.value? = some e → e.render = .ok (texts e)) :
    part.toPart.render = .ok (part.text texts) := by
  cases part with
  | item value separator =>
    have hvalue := h value rfl
    have hafter : value.renderAfter "" = value.render.map ("" ++ ·) := by
      cases value with
      | omitted => cases hvalue
      | _ => rfl
    rw [toPart, PrintPart.render, hafter, hvalue]
    exact congrArg (fun text => Except.ok (text ++ separator.text)) String.empty_append
  | bare separator => exact congrArg Except.ok String.empty_append
  | spacing function value =>
    rw [toPart, PrintPart.render, h value rfl]
    rfl
  | format picture =>
    rw [toPart, PrintPart.render, h picture rfl]
    rfl

theorem OutputPart.isBare_toPart {part : OutputPart}
    (h : ∀ e, part.value? = some e → e.render = .ok (texts e)) : part.toPart.isBare = part.isBare := by
  cases part with
  | item value separator =>
    have hvalue := h value rfl
    cases value with
    | omitted => cases hvalue
    | _ => rfl
  | _ => rfl

theorem OutputPart.isControl_toPart (part : OutputPart) : part.toPart.isControl = part.isSpacing := by
  cases part <;> rfl

theorem writtenParts_cons (before : Option OutputPart) (part : OutputPart) (parts : List OutputPart) :
    writtenParts before (part :: parts) =
      if part.isMerged before then writtenParts (some part) parts
      else part :: writtenParts (some part) parts := by
  rw [writtenParts, List.map_cons, List.zip_cons_cons, List.filter_cons]
  cases part.isMerged before <;> rfl

theorem shownParts_of_not_bare {parts : List PrintPart} (h : ∀ part ∈ parts, part.isBare = false)
    (afterControl : Bool) : shownParts afterControl parts = parts := by
  induction parts generalizing afterControl with
  | nil => rfl
  | cons part parts ih =>
    rw [shownParts, h part List.mem_cons_self, Bool.and_false, if_neg (by decide),
      ih fun part hpart => h part (List.mem_cons_of_mem _ hpart)]

/-- The parts that the statement shows are those that are written. -/
theorem shownParts_eq {parts : List OutputPart} {tail : List PrintPart}
    (h : ∀ part ∈ parts, ∀ e, part.value? = some e → e.render = .ok (texts e))
    (htail : ∀ part ∈ tail, part.isBare = false) (before : Option OutputPart) :
    shownParts (before.any OutputPart.isSpacing) (parts.map OutputPart.toPart ++ tail) =
      (writtenParts before parts).map OutputPart.toPart ++ tail := by
  induction parts generalizing before with
  | nil => exact shownParts_of_not_bare htail _
  | cons part parts ih =>
    have hrest := ih (fun part hpart => h part (List.mem_cons_of_mem _ hpart)) (some part)
    rw [Option.any_some] at hrest
    rw [List.map_cons, List.cons_append, shownParts, part.isControl_toPart, hrest,
      OutputPart.isBare_toPart (h part List.mem_cons_self), Bool.and_comm, writtenParts_cons,
      OutputPart.isMerged]
    split <;> rfl

theorem mapM_eq_ok {α β ε : Type} {f : α → Except ε β} {xs : List α} {ys : List β}
    (h : List.Forall₂ (fun x y => f x = .ok y) xs ys) : xs.mapM f = .ok ys := by
  induction h with
  | nil => rfl
  | cons hx _ ih =>
    rw [List.mapM_cons, hx, ih]
    rfl

theorem mem_of_mem_writtenParts {before : Option OutputPart} {parts : List OutputPart}
    {part : OutputPart} (h : part ∈ writtenParts before parts) : part ∈ parts := by
  obtain ⟨x, hx, rfl⟩ := List.mem_map.mp h
  exact (List.of_mem_zip (List.mem_of_mem_filter hx)).1

theorem Print.render_without_file (kind : PrintKind) (parts : List PrintPart) :
    (Print.mk kind .omitted .omitted parts).render =
      if parts.isEmpty then .ok kind.word else
        (shownParts false parts).mapM PrintPart.render >>= fun pieces =>
          .ok (kind.word ++ " " ++ "" ++ Text.join " " pieces) := rfl

theorem Print.render_with_file (kind : PrintKind) {file : Expr} {fileText : String}
    (h : file.render = .ok fileText) (parts : List PrintPart) :
    (Print.mk kind .omitted file parts).render =
      if parts.isEmpty then .ok kind.word else
        (shownParts false parts).mapM PrintPart.render >>= fun pieces =>
          .ok (kind.word ++ " " ++ (fileText ++ ", ") ++ Text.join " " pieces) := by
  have hrender : (Print.mk kind .omitted file parts).render =
      if parts.isEmpty then .ok kind.word else
        file.render >>= fun text => (shownParts false parts).mapM PrintPart.render >>= fun pieces =>
          .ok (kind.word ++ " " ++ (text ++ ", ") ++ Text.join " " pieces) := by
    cases file with
    | omitted => cases h
    | _ => rfl
  rw [hrender, h]
  rfl

namespace Output

theorem isEmpty_printParts (o : Output) : o.printParts.isEmpty = o.isBlank := by
  obtain ⟨kind, file, parts, final⟩ := o
  cases parts <;> cases final <;> rfl

theorem mapM_shownParts {o : Output}
    (hparts : ∀ part ∈ o.parts, ∀ e, part.value? = some e → e.render = .ok (texts e))
    (hfinal : ∀ e ∈ o.final.toList, e.render = .ok (texts e)) :
    (shownParts false o.printParts).mapM PrintPart.render = .ok (o.pieces texts) := by
  have hnot : ∀ part ∈ o.final.toList.map PrintPart.last, part.isBare = false := by
    simp [PrintPart.isBare]
  have hshown := shownParts_eq hparts hnot none
  rw [Option.any_none] at hshown
  rw [printParts, hshown]
  apply mapM_eq_ok
  apply List.rel_append
  · rw [List.forall₂_map_left_iff, List.forall₂_map_right_iff, List.forall₂_same]
    intro part hpart
    exact OutputPart.render_toPart (hparts part (mem_of_mem_writtenParts hpart))
  · rw [List.forall₂_map_left_iff, List.forall₂_map_right_iff, List.forall₂_same]
    exact hfinal

/-- An output statement has its text if its expressions have texts. -/
theorem render_statement {o : Output} (h : ∀ e ∈ o.values, e.render = .ok (texts e)) (column : Nat) :
    o.statement.render column = .ok (o.text texts) := by
  have hpieces : (shownParts false o.printParts).mapM PrintPart.render = .ok (o.pieces texts) := by
    apply mapM_shownParts
    · intro part hpart e he
      have hmem := List.mem_filterMap.mpr ⟨part, hpart, he⟩
      exact h e (List.mem_append_left _ (List.mem_append_right _ hmem))
    · intro e he
      exact h e (List.mem_append_right _ he)
  have hrender : o.statement.render column =
      if o.isBlank then .ok o.kind.word else
        .ok (o.kind.word ++ " " ++ o.file.elim "" (texts · ++ ", ") ++
          Text.join " " (o.pieces texts)) := by
    rw [← o.isEmpty_printParts, statement]
    rcases hfile : o.file with _ | file
    · have hwithout := Print.render_without_file o.kind o.printParts
      rw [hpieces] at hwithout
      exact hwithout
    · have hwith := Print.render_with_file o.kind (h file (by simp [values, hfile])) o.printParts
      rw [hpieces] at hwith
      exact hwith
  rw [hrender, text]
  split
  · rw [String.append_empty]
  · rw [String.append_assoc, String.append_assoc]

end Output

end Texts

/-! ## Which of them have the same text -/

theorem Text.append_inj {a b c d : String} (h : a ++ b = c ++ d) (hlength : a.length = c.length) :
    a = c ∧ b = d := by
  have hlist : a.toList ++ b.toList = c.toList ++ d.toList := by
    rw [← String.toList_append, ← String.toList_append, h]
  obtain ⟨hac, hbd⟩ := List.append_inj hlist (by rwa [String.length_toList, String.length_toList])
  exact ⟨String.toList_inj.mp hac, String.toList_inj.mp hbd⟩

section Joined

variable {xs ys : List String}

theorem Text.length_join_eq (separator : String)
    (h : List.Forall₂ (fun x y => x.length = y.length) xs ys) :
    (Text.join separator xs).length = (Text.join separator ys).length := by
  induction h with
  | nil => rfl
  | cons hlength hrest ih =>
    cases hrest with
    | nil => exact hlength
    | cons => rw [Text.join_cons_cons, Text.join_cons_cons, String.length_append, String.length_append,
        String.length_append, String.length_append, hlength, ih]

/-- Texts of the same lengths can be told from what they are joined to. -/
theorem Text.join_inj {separator : String}
    (h : List.Forall₂ (fun x y => x.length = y.length) xs ys)
    (hjoin : Text.join separator xs = Text.join separator ys) : xs = ys := by
  induction h with
  | nil => rfl
  | cons hlength hrest ih =>
    cases hrest with
    | nil => exact congrArg (fun x => [x]) hjoin
    | cons =>
      rw [Text.join_cons_cons, Text.join_cons_cons, String.append_assoc, String.append_assoc] at hjoin
      obtain ⟨hx, hrest⟩ := Text.append_inj hjoin hlength
      rw [hx, ih ((String.append_right_inj separator).mp hrest)]

end Joined

/-- Two parts that are the same but for their separators. -/
inductive OutputPart.Alike : OutputPart → OutputPart → Prop where
  | item (value : Expr) (separator separator' : Separator) :
    Alike (.item value separator) (.item value separator')
  | bare (separator separator' : Separator) : Alike (.bare separator) (.bare separator')
  | same (part : OutputPart) : Alike part part

/-- Two output statements that are the same but for their file numbers and separators. -/
structure Output.Alike (o o' : Output) : Prop where
  kind : o.kind = o'.kind
  parts : List.Forall₂ OutputPart.Alike o.parts o'.parts
  final : o.final = o'.final

section Alike

variable {texts : Expr → String}

theorem Separator.length_text (separator : Separator) : separator.text.length = 1 := by
  cases separator <;> rfl

theorem Separator.text_inj {separator separator' : Separator}
    (h : separator.text = separator'.text) : separator = separator' := by
  cases separator with
  | comma =>
    cases separator' with
    | comma => rfl
    | semicolon => exact absurd h (by decide)
  | semicolon =>
    cases separator' with
    | comma => exact absurd h (by decide)
    | semicolon => rfl

namespace OutputPart.Alike

variable {part part' : OutputPart}

theorem length_text (h : part.Alike part') :
    (part.text texts).length = (part'.text texts).length := by
  cases h with
  | item => rw [text, text, String.length_append, String.length_append, Separator.length_text,
      Separator.length_text]
  | bare => exact (Separator.length_text _).trans (Separator.length_text _).symm
  | same => rfl

theorem eq_of_text (h : part.Alike part') (htext : part.text texts = part'.text texts) :
    part = part' := by
  cases h with
  | item => rw [Separator.text_inj ((String.append_right_inj _).mp htext)]
  | bare => rw [Separator.text_inj htext]
  | same => rfl

theorem isMerged_eq (h : part.Alike part') {before before' : Option OutputPart}
    (hbefore : before.any isSpacing = before'.any isSpacing) :
    part.isMerged before = part'.isMerged before' := by
  have hbare : part.isBare = part'.isBare := by cases h <;> rfl
  rw [isMerged, isMerged, hbare, hbefore]

theorem isSpacing_eq (h : part.Alike part') : part.isSpacing = part'.isSpacing := by
  cases h <;> rfl

end OutputPart.Alike

/-- Two lists differ only in separators alone behind `TAB` or `SPC`; `before` is the part in front of
the first list. -/
def SameButMerged (before : Option OutputPart) (parts parts' : List OutputPart) : Prop :=
  ∀ (i : Nat) (part part' : OutputPart), parts[i]? = some part → parts'[i]? = some part' →
    part = part' ∨ part.isMerged (partBefore before parts i) = true

variable {parts parts' : List OutputPart} {before before' : Option OutputPart}

theorem sameButMerged_cons {part part' : OutputPart} :
    SameButMerged before (part :: parts) (part' :: parts') ↔
      (part = part' ∨ part.isMerged before = true) ∧ SameButMerged (some part) parts parts' := by
  have hbefore : ∀ i, partBefore before (part :: parts) (i + 1) = partBefore (some part) parts i := by
    intro i
    cases i <;> rfl
  constructor
  · intro h
    refine ⟨h 0 part part' rfl rfl, fun i x x' hx hx' => ?_⟩
    rw [← hbefore]
    exact h (i + 1) x x' hx hx'
  · rintro ⟨hfirst, hrest⟩ i x x' hx hx'
    cases i with
    | zero =>
      cases hx
      cases hx'
      exact hfirst
    | succ i =>
      rw [hbefore]
      exact hrest i x x' hx hx'

/-- Alike lists are written with texts of the same lengths. -/
theorem length_written_eq (h : List.Forall₂ OutputPart.Alike parts parts')
    (hbefore : before.any OutputPart.isSpacing = before'.any OutputPart.isSpacing) :
    List.Forall₂ (fun x y => x.length = y.length)
      ((writtenParts before parts).map (OutputPart.text texts))
      ((writtenParts before' parts').map (OutputPart.text texts)) := by
  induction h generalizing before before' with
  | nil => exact .nil
  | @cons part part' _ _ hpart _ ih =>
    have hspacing : (some part).any OutputPart.isSpacing = (some part').any OutputPart.isSpacing :=
      hpart.isSpacing_eq
    rw [writtenParts_cons, writtenParts_cons, hpart.isMerged_eq hbefore]
    split
    · exact ih hspacing
    · exact .cons hpart.length_text (ih hspacing)

/-- Alike lists are written alike if they differ in separators only that are not written. -/
theorem written_eq_iff (h : List.Forall₂ OutputPart.Alike parts parts')
    (hbefore : before.any OutputPart.isSpacing = before'.any OutputPart.isSpacing) :
    (writtenParts before parts).map (OutputPart.text texts) =
        (writtenParts before' parts').map (OutputPart.text texts) ↔
      SameButMerged before parts parts' := by
  induction h generalizing before before' with
  | nil => simp [SameButMerged, writtenParts]
  | @cons part part' parts parts' hpart _ ih =>
    have hspacing : (some part).any OutputPart.isSpacing = (some part').any OutputPart.isSpacing :=
      hpart.isSpacing_eq
    rw [writtenParts_cons, writtenParts_cons, ← hpart.isMerged_eq hbefore, sameButMerged_cons,
      ← ih hspacing]
    by_cases hmerged : part.isMerged before = true
    · simp [hmerged]
    · have heq : part.text texts = part'.text texts ↔ part = part' :=
        ⟨hpart.eq_of_text, congrArg _⟩
      simp [hmerged, heq]

namespace Output

variable {o o' : Output}

theorem Alike.isBlank_eq (h : o.Alike o') : o.isBlank = o'.isBlank := by
  have hempty : o.parts.isEmpty = o'.parts.isEmpty := by
    rw [Bool.eq_iff_iff, List.isEmpty_iff_length_eq_zero, List.isEmpty_iff_length_eq_zero,
      h.parts.length_eq]
  rw [isBlank, isBlank, hempty, h.final]

theorem Alike.length_pieces (h : o.Alike o') (texts : Expr → String) :
    List.Forall₂ (fun x y => x.length = y.length) (o.pieces texts) (o'.pieces texts) := by
  rw [pieces, pieces, h.final]
  exact List.rel_append (length_written_eq h.parts rfl) (List.forall₂_same.mpr fun _ _ => rfl)

theorem Alike.pieces_eq_iff (h : o.Alike o') :
    o.pieces texts = o'.pieces texts ↔ SameButMerged none o.parts o'.parts := by
  rw [pieces, pieces, h.final, List.append_left_inj]
  exact written_eq_iff h.parts rfl

/-- A file number can be told from what is written in front of a list. -/
theorem fileText_eq_iff {file file' : Option Expr} :
    file.elim "" (texts · ++ ", ") = file'.elim "" (texts · ++ ", ") ↔
      file.map texts = file'.map texts := by
  have hne : ∀ text : String, text ++ ", " ≠ "" := by
    intro text h
    have hlength := congrArg String.length h
    rw [String.length_append, String.length_empty] at hlength
    exact absurd (Nat.eq_zero_of_add_eq_zero_left hlength) (by decide)
  rcases file with _ | e <;> rcases file' with _ | e'
  · exact ⟨fun _ => rfl, fun _ => rfl⟩
  · refine ⟨fun h => absurd h.symm (hne _), ?_⟩
    rintro ⟨⟩
  · refine ⟨fun h => absurd h (hne _), ?_⟩
    rintro ⟨⟩
  · rw [Option.elim_some, Option.elim_some, String.append_left_inj, Option.map_some, Option.map_some,
      Option.some_inj]

/-- Alike output statements have the same text if there is nothing to write, or if they have the same
file number and differ in separators only that are not written. -/
theorem Alike.text_eq_iff (h : o.Alike o') :
    o.text texts = o'.text texts ↔
      o.isBlank = true ∨
        o.file.map texts = o'.file.map texts ∧ SameButMerged none o.parts o'.parts := by
  rw [text, text, ← h.kind, ← h.isBlank_eq, String.append_right_inj]
  cases hblank : o.isBlank with
  | true => exact ⟨fun _ => .inl rfl, fun _ => rfl⟩
  | false =>
    have hlengths := h.length_pieces texts
    rw [if_neg (by decide), if_neg (by decide), String.append_right_inj, ← fileText_eq_iff,
      ← h.pieces_eq_iff]
    constructor
    · intro heq
      -- what stands in front of the lists has the same length, as the lists have
      have htotal := congrArg String.length heq
      rw [String.length_append, String.length_append, Text.length_join_eq " " hlengths] at htotal
      obtain ⟨hfile, hjoin⟩ := Text.append_inj heq (Nat.add_right_cancel htotal)
      exact .inr ⟨hfile, Text.join_inj hlengths hjoin⟩
    · rintro (hfalse | ⟨hfile, hpieces⟩)
      · cases hfalse
      · rw [hfile, hpieces]

end Output

end Alike

/-! ## Output statements on a line -/

/-- **The texts of output statements.** Let a new line have the instructions of an output statement.
Decoding succeeds, and the line has exactly this statement. Its text is the keyword alone if the list
is empty, also when there is a file number; otherwise the keyword, the file number, and the parts in
order, each with its separator, but for separators alone behind `TAB` or `SPC`. Another such statement
that is the same but for its file number and its separators has another text, unless both lists are
empty, or the file numbers have the same text and the statements differ only in separators alone behind
`TAB` or `SPC`. -/
theorem output_on_line {s : State} {pos indent : Nat} {label : Option Identifier} {o : Output}
    (hline : LineAt v src (s.identifierAt src) pos p label indent)
    (h : OutputAt v src (s.identifierAt src) p q o) :
    (∃ t l, (instructions v q).run src pos s = (.ok (), q, t) ∧ t.stack = [] ∧
      t.program.current.lines = l :: s.program.current.lines ∧ l.statements = [o.statement] ∧
      ∀ texts, (∀ e ∈ o.values, e.render = .ok (texts e)) →
        l.render = .ok (Line.margin label indent ++ o.text texts)) ∧
    ∀ o' texts column, o.Alike o' → (∀ e ∈ o.values ++ o'.values, e.render = .ok (texts e)) →
      (o.statement.render column = o'.statement.render column ↔
        o.isBlank = true ∨
          o.file.map texts = o'.file.map texts ∧ SameButMerged none o.parts o'.parts) := by
  constructor
  · obtain ⟨t, hrun, hstack, hlines⟩ := h.carries.adds_line hline
    refine ⟨t, _, hrun, hstack, hlines, rfl, fun texts htexts => ?_⟩
    rw [Line.render_setLast_start]
    exact congrArg (Except.map _) (Output.render_statement htexts _)
  · intro o' texts column halike htexts
    rw [Output.render_statement fun e he => htexts e (List.mem_append_left _ he),
      Output.render_statement fun e he => htexts e (List.mem_append_right _ he), ← halike.text_eq_iff]
    exact ⟨Except.ok.inj, congrArg Except.ok⟩

/-- Output to a file, with `TAB` and a separator alone behind it. -/
def tabbedOutput (separator : Separator) : Output :=
  ⟨.print, some (.fileNumber (.number 1)), [.spacing .tab (.number 1), .bare separator,
    .item (.number 2) .semicolon], some (.number 3)⟩

/-- A line with such output. -/
def tabbedFile (separator : Separator) : Source :=
  lineFile [0x64, 0x05, 0x8A, 0x00, 0x7D, 0x00, 0x64, 0x05, 0x90, 0x00, .ofNat separator.bareCode, 0x00,
    0x64, 0x09, 0x95, 0x00, 0x64, 0x0D, 0x96, 0x00]

theorem outputAt_tabbedFile (separator : Separator) :
    OutputAt .qb45 (tabbedFile separator) ((State.start .qb45).identifierAt (tabbedFile separator)) 0x24
      0x38 (tabbedOutput separator) := by
  cases separator <;>
    exact .intro .print
      (.given (Pushed.fileNumber (pushed_small (by decide) ⟨_, rfl⟩) ⟨_, rfl, rfl⟩) rfl ⟨_, rfl, rfl⟩)
      (.cons (.spacing (pushed_small (by decide) ⟨_, rfl⟩) ⟨_, rfl, rfl⟩)
        (.cons (.bare ⟨_, rfl, rfl⟩)
          (.cons (.item (pushed_small (by decide) ⟨_, rfl⟩) rfl ⟨_, rfl, rfl⟩) .nil)))
      (.value (pushed_small (by decide) ⟨_, rfl⟩) ⟨_, rfl, rfl⟩)

theorem render_tabbedOutput (separator : Separator) :
    ∀ e ∈ (tabbedOutput separator).values, e.render = .ok e.textOf := by
  intro e he
  simp only [tabbedOutput, Output.values, OutputPart.value?, Option.toList, List.filterMap,
    List.cons_append, List.nil_append, List.mem_cons, List.not_mem_nil, or_false] at he
  rcases he with rfl | rfl | rfl | rfl <;> rfl

/-- The comma behind `TAB` is left out, so a semicolon in its place makes no difference. -/
theorem tabbedFile_decoded :
    (∃ t l, (instructions .qb45 0x38).run (tabbedFile .comma) 0x22 (.start .qb45) = (.ok (), 0x38, t) ∧
      t.stack = [] ∧ t.program.current.lines = [l] ∧
      l.statements = [(tabbedOutput .comma).statement] ∧
      l.render = .ok "PRINT #1, TAB(1); 2; 3") ∧
    (tabbedOutput .comma).statement.render 0 = (tabbedOutput .semicolon).statement.render 0 := by
  obtain ⟨⟨t, l, hrun, hstack, hlines, hstatements, htext⟩, hsame⟩ :=
    output_on_line (.plain ⟨_, rfl, rfl⟩) (outputAt_tabbedFile .comma)
  refine ⟨⟨t, l, hrun, hstack, hlines, hstatements, htext _ (render_tabbedOutput _)⟩, ?_⟩
  have halike : (tabbedOutput .comma).Alike (tabbedOutput .semicolon) :=
    ⟨rfl, .cons (.same _) (.cons (.bare _ _) (.cons (.same _) .nil)), rfl⟩
  have htexts : ∀ e ∈ (tabbedOutput .comma).values ++ (tabbedOutput .semicolon).values,
      e.render = .ok e.textOf := by
    intro e he
    rcases List.mem_append.mp he with he | he
    · exact render_tabbedOutput _ e he
    · exact render_tabbedOutput _ e he
  have hmerged : SameButMerged none (tabbedOutput .comma).parts (tabbedOutput .semicolon).parts := by
    refine sameButMerged_cons.mpr ⟨.inl rfl, sameButMerged_cons.mpr ⟨.inr rfl, sameButMerged_cons.mpr
      ⟨.inl rfl, ?_⟩⟩⟩
    intro i part part' hpart
    cases hpart
  exact (hsame _ Expr.textOf 0 halike htexts).mpr (.inr ⟨rfl, hmerged⟩)

/-- A line with a file number and an empty list. -/
def numberedFile : Source :=
  lineFile [0x64, 0x05, 0x8A, 0x00, 0x7D, 0x00, 0x93, 0x00]

/-- A comma and a semicolon behind `TAB` have the same text, and a file number alone has none. -/
theorem output_text_incomplete :
    (∀ separator, ∃ t l,
      (instructions .qb45 0x38).run (tabbedFile separator) 0x22 (.start .qb45) = (.ok (), 0x38, t) ∧
        t.program.current.lines = [l] ∧ l.render = .ok "PRINT #1, TAB(1); 2; 3") ∧
    ∃ t l, (instructions .qb45 0x2C).run numberedFile 0x22 (.start .qb45) = (.ok (), 0x2C, t) ∧
      t.program.current.lines = [l] ∧ l.render = .ok "PRINT" := by
  constructor
  · intro separator
    have hline : LineAt .qb45 (tabbedFile separator)
        ((State.start .qb45).identifierAt (tabbedFile separator)) 0x22 0x24 none 0 := by
      cases separator <;> exact .plain ⟨_, rfl, rfl⟩
    obtain ⟨t, hrun, -, hlines⟩ := (outputAt_tabbedFile separator).carries.adds_line hline
    refine ⟨t, _, hrun, hlines, ?_⟩
    cases separator <;> rfl
  · have h : OutputAt .qb45 numberedFile ((State.start .qb45).identifierAt numberedFile) 0x24 0x2C
        ⟨.print, some (.fileNumber (.number 1)), [], none⟩ :=
      .intro .print (.given (Pushed.fileNumber (pushed_small (by decide) ⟨_, rfl⟩) ⟨_, rfl, rfl⟩) rfl
        ⟨_, rfl, rfl⟩) .nil (.nothing ⟨_, rfl, rfl⟩)
    obtain ⟨t, hrun, -, hlines⟩ := h.carries.adds_line (.plain ⟨_, rfl, rfl⟩)
    exact ⟨t, _, hrun, hlines, rfl⟩

end SavedBasic
