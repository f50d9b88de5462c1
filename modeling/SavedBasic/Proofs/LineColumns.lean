import Mathlib.Data.List.DropRight
import SavedBasic.Proofs.Placing
import SavedBasic.Proofs.Workspace

/-!
# Columns on a line

A line is written from left to right: its label and its indentation, the first statement, each further
statement behind a colon, and the comment. Columns are counted from the start of the line. So where a
statement comes to stand depends on how long the line has become; it is padded up to its column, and
the blanks at its end are dropped before the line goes on. A colon is not blank. Hence dropping blanks
never reaches what stands in front of the statement, and the text of the line that ends behind a
statement is the beginning of the text of the whole line. All positions are stated in terms of that
shorter line.

The text of a statement depends on its column in its spaces only, because the column decides about
nothing but the distance of `AS`. So a statement that has a text anywhere has one wherever it is put.
-/

namespace SavedBasic

open Text

/-! ## Blanks at the end of a text -/

namespace Text

/-- A text of blanks. -/
def Blank (text : String) : Prop :=
  ∀ c ∈ text.toList, isBlank c = true

instance (text : String) : Decidable (Blank text) :=
  decidable_of_iff (text.toList.all isBlank = true) List.all_eq_true

/-- What is left of a text when the blanks at its end are taken away. -/
structure Trimmed (text shown : String) : Prop where
  /-- only blanks are missing -/
  rest : ∃ blanks, Blank blanks ∧ text = shown ++ blanks
  /-- no blank is left at the end -/
  last : ∀ c ∈ shown.toList.getLast?, isBlank c = false

theorem toList_trimEnd (text : String) : (trimEnd text).toList = text.toList.rdropWhile isBlank :=
  String.toList_ofList

theorem trimmed_trimEnd (text : String) : Trimmed text (trimEnd text) where
  rest := by
    refine ⟨String.ofList (text.toList.rtakeWhile isBlank), ?_, ?_⟩
    · intro c hc
      rw [String.toList_ofList] at hc
      exact List.mem_rtakeWhile_imp hc
    · rw [← String.toList_inj, String.toList_append, toList_trimEnd, String.toList_ofList,
        List.rdropWhile_append_rtakeWhile]
  last := by
    intro c hc
    rw [toList_trimEnd] at hc
    obtain ⟨hne, rfl⟩ := List.mem_getLast?_eq_getLast hc
    simpa using List.rdropWhile_last_not isBlank text.toList hne

theorem trimEnd_append_of_blank {text : String} (h : Blank text) (front : String) :
    trimEnd (front ++ text) = trimEnd front := by
  have hnil : text.toList.reverse.dropWhile isBlank = [] := by
    rw [List.dropWhile_eq_nil_iff]
    simpa [Blank] using h
  rw [← String.toList_inj, toList_trimEnd, toList_trimEnd, String.toList_append, List.rdropWhile,
    List.reverse_append, List.dropWhile_append, if_pos (by simp [hnil]), List.rdropWhile]

theorem trimEnd_append_of_not_blank {text : String} (h : ¬ Blank text) (front : String) :
    trimEnd (front ++ text) = front ++ trimEnd text := by
  have hne : text.toList.reverse.dropWhile isBlank ≠ [] := by
    rw [Ne, List.dropWhile_eq_nil_iff]
    simpa [Blank] using h
  rw [← String.toList_inj, String.toList_append, toList_trimEnd, toList_trimEnd, String.toList_append,
    List.rdropWhile, List.reverse_append, List.dropWhile_append, if_neg (by simpa using hne),
    List.reverse_append, List.reverse_reverse, List.rdropWhile]

@[simp] theorem length_spaces (n : Nat) : (spaces n).length = n := by
  rw [spaces, String.length_ofList, List.length_replicate]

theorem blank_spaces (n : Nat) : Blank (spaces n) := by
  intro c hc
  rw [spaces, String.toList_ofList] at hc
  rw [List.eq_of_mem_replicate hc]
  decide

theorem length_padTo (width : Nat) (text : String) :
    (padTo width text).length = max width text.length := by
  rw [padTo, String.length_append, length_spaces]
  omega

end Text

/-! ## Statements at another column -/

namespace Statement

@[simp] theorem unspaced_spaces (n : Nat) : unspaced (spaces n) = [] := by
  rw [unspaced, spaces, String.toList_ofList, List.filter_eq_nil_iff]
  intro c hc
  simp [List.eq_of_mem_replicate hc]

/-- What goes on from two texts that are the same but for spaces is the same but for spaces, if it
depends on nothing else. -/
theorem unspaced_bind {printed printed' : Printed} (h : unspaced <$> printed = unspaced <$> printed')
    {f f' : String → Printed}
    (hf : ∀ text text', unspaced text = unspaced text' → unspaced <$> f text = unspaced <$> f' text') :
    unspaced <$> (printed >>= f) = unspaced <$> (printed' >>= f') := by
  rcases printed with fault | text <;> rcases printed' with fault' | text'
  · cases h
    rfl
  · cases h
  · cases h
  · exact hf text text' (Except.ok.inj h)

variable (column column' : Nat)

theorem unspaced_renderTyped (name : String) (type : Option DataType) (asColumn : Nat) :
    unspaced (renderTyped column name type asColumn) =
      unspaced (renderTyped column' name type asColumn) := by
  cases type <;> simp [renderTyped]

theorem unspaced_render_declaration (d : VariableDeclaration) :
    unspaced <$> d.render column = unspaced <$> d.render column' := by
  cases hbounds : d.bounds <;>
    simp [VariableDeclaration.render, hbounds, unspaced_renderTyped column column']

theorem unspaced_renderDeclarations {text text' : String} (h : unspaced text = unspaced text')
    (first : Bool) (items : List VariableDeclaration) :
    unspaced <$> renderDeclarations column text first items =
      unspaced <$> renderDeclarations column' text' first items := by
  induction items generalizing text text' first with
  | nil => exact congrArg Except.ok h
  | cons d rest ih =>
    have hseparated : unspaced (if first then text else text ++ ", ") =
        unspaced (if first then text' else text' ++ ", ") := by
      split <;> simp [h]
    refine unspaced_bind (unspaced_render_declaration _ _ d) fun s s' hs => ih ?_ false
    rw [unspaced_append, unspaced_append, hseparated, hs]

/-- The column of a statement decides about nothing but spaces. -/
theorem unspaced_render_column (st : Statement) :
    unspaced <$> st.render column = unspaced <$> st.render column' := by
  induction st with
  | misreadBefore text rest ih =>
    refine unspaced_bind ih fun s s' hs => congrArg Except.ok ?_
    rw [unspaced_append, unspaced_append, hs]
  | ifThen condition action ih =>
    rw [unspaced_render_ifThen, unspaced_render_ifThen, ih]
    rfl
  | ifThenElse condition action alternative iha ihb =>
    rw [unspaced_render_ifThenElse, unspaced_render_ifThenElse, unspaced_render_ifThen,
      unspaced_render_ifThen, unspaced_render_otherwise, unspaced_render_otherwise, iha, ihb]
    rfl
  | otherwise action ih => rw [unspaced_render_otherwise, unspaced_render_otherwise, ih]
  | typeField f => simp [render, TypeField.render, unspaced_renderTyped column column']
  | declarations d =>
    refine unspaced_bind (unspaced_renderDeclarations column column' rfl true d.items)
      fun s s' hs => ?_
    split
    · rfl
    · exact congrArg Except.ok hs
  -- all others do not look at the column; for these four that shows once an operand is known
  | call form => cases form <;> rfl
  | viewPrint top => cases top <;> rfl
  | event source => cases source <;> rfl
  | next counters => cases counters <;> rfl
  | _ => rfl

variable {column} in
/-- Whether a statement has a text does not depend on where it stands. -/
theorem exists_render_eq_ok {st : Statement} {text : String} (h : st.render column = .ok text) :
    ∃ text', st.render column' = .ok text' := by
  have hsame := unspaced_render_column column column' st
  rw [h] at hsame
  rcases hrender : st.render column' with fault | text'
  · rw [hrender] at hsame
    cases hsame
  · exact ⟨text', rfl⟩

end Statement

/-! ## Statement after statement -/

/-- The column at which a statement starts behind a line that ends with the colon: the one that was
stored for it, or one space behind the colon if the line reaches further. -/
def Slot.columnBehind (slot : Slot) (line : String) : Nat :=
  max (slot.column.getD 0) (line.length + 1)

namespace Line

/-- `after` is the line `before` with a colon and the statement of a slot behind it. -/
structure Extends (before : String) (slot : Slot) (printed after : String) : Prop where
  /-- the statement is printed for the column where it starts -/
  prints : slot.statement.render (slot.columnBehind (before ++ ":")) = .ok printed
  /-- of a blank statement nothing is left behind the colon -/
  of_blank : Blank printed → after = before ++ ":"
  /-- any other statement starts at its column, behind spaces, and only loses the blanks at its end -/
  of_not_blank : ¬ Blank printed → ∃ gap shown, Trimmed printed shown ∧
    after = before ++ ":" ++ spaces gap ++ shown ∧
    (before ++ ":" ++ spaces gap).length = slot.columnBehind (before ++ ":")

theorem length_padTo_columnBehind (line : String) (slot : Slot) :
    (padTo (slot.columnBehind line) line).length = slot.columnBehind line := by
  rw [length_padTo, Slot.columnBehind]
  omega

/-- Both ways of padding bring a line to the column of the statement. -/
theorem renderNext_eq (before : String) (slot : Slot) :
    renderNext before slot = do
      let printed ← slot.statement.render (slot.columnBehind (before ++ ":"))
      return trimEnd (padTo (slot.columnBehind (before ++ ":")) (before ++ ":") ++ printed) := by
  have hpadded : (if (before ++ ":").length < slot.column.getD 0 then
      padTo (slot.column.getD 0) (before ++ ":") else before ++ ":" ++ " ") =
        padTo (slot.columnBehind (before ++ ":")) (before ++ ":") := by
    rw [Slot.columnBehind]
    split
    · rw [max_eq_left (by omega)]
    · rw [max_eq_right (by omega), padTo, Nat.add_sub_cancel_left]
      rfl
  rw [renderNext, hpadded, length_padTo_columnBehind]

theorem extends_of_renderNext {before after : String} {slot : Slot}
    (h : renderNext before slot = .ok after) : ∃ printed, Extends before slot printed after := by
  rw [renderNext_eq] at h
  obtain ⟨printed, hprinted, hafter⟩ := bind_eq_ok_iff.mp h
  cases hafter
  refine ⟨printed, hprinted, fun hblank => ?_, fun hblank => ?_⟩
  · rw [trimEnd_append_of_blank hblank, padTo, trimEnd_append_of_blank (blank_spaces _),
      trimEnd_append_of_not_blank (by decide)]
    rfl
  · exact ⟨_, trimEnd printed, trimmed_trimEnd printed, trimEnd_append_of_not_blank hblank _,
      length_padTo_columnBehind _ slot⟩

/-- Nothing in front of a new statement is changed. -/
theorem Extends.exists_append {before printed after : String} {slot : Slot}
    (h : Extends before slot printed after) : ∃ rest, after = before ++ rest := by
  by_cases hblank : Blank printed
  · exact ⟨":", h.of_blank hblank⟩
  · obtain ⟨gap, shown, -, hafter, -⟩ := h.of_not_blank hblank
    refine ⟨":" ++ spaces gap ++ shown, ?_⟩
    rw [hafter, String.append_assoc, String.append_assoc, String.append_assoc]

/-- The text of statements behind a margin. -/
def renderSlots (margin : String) : List Slot → Printed
  | [] => .ok margin
  | first :: rest => do
    rest.foldlM renderNext (← renderFirst margin first)

theorem renderSlots_singleton (margin : String) (slot : Slot) :
    renderSlots margin [slot] = renderFirst margin slot :=
  bind_pure _

theorem renderSlots_concat (margin : String) {slots : List Slot} (h : slots ≠ []) (slot : Slot) :
    renderSlots margin (slots ++ [slot]) = renderSlots margin slots >>= (renderNext · slot) := by
  cases slots with
  | nil => exact absurd rfl h
  | cons first rest => simp [renderSlots, List.foldlM_append]

/-- Statements that have a text have one behind each other. -/
theorem exists_renderSlots {slots : List Slot}
    (h : ∀ slot ∈ slots, ∃ column text, slot.statement.render column = .ok text) (margin : String) :
    ∃ text, renderSlots margin slots = .ok text := by
  induction slots using List.reverseRec with
  | nil => exact ⟨margin, rfl⟩
  | append_singleton slots slot ih =>
    obtain ⟨column, printed, hprinted⟩ := h slot (by simp)
    by_cases hempty : slots = []
    · subst hempty
      obtain ⟨first, hfirst⟩ := Statement.exists_render_eq_ok margin.length hprinted
      refine ⟨margin ++ first, (renderSlots_singleton margin slot).trans ?_⟩
      rw [renderFirst, hfirst]
      rfl
    · obtain ⟨before, hbefore⟩ := ih fun slot hslot => h slot (List.mem_append_left _ hslot)
      obtain ⟨next, hnext⟩ :=
        Statement.exists_render_eq_ok (slot.columnBehind (before ++ ":")) hprinted
      refine ⟨trimEnd (padTo (slot.columnBehind (before ++ ":")) (before ++ ":") ++ next), ?_⟩
      rw [renderSlots_concat margin hempty, hbefore]
      change renderNext before slot = _
      rw [renderNext_eq, hnext]
      rfl

/-- The text of statements begins with the text of the first ones among them. -/
theorem exists_append_of_renderSlots {margin text : String} {slots more : List Slot}
    (h : renderSlots margin (slots ++ more) = .ok text) :
    ∃ before rest, renderSlots margin slots = .ok before ∧ text = before ++ rest := by
  induction more using List.reverseRec generalizing text with
  | nil => exact ⟨text, "", by rwa [List.append_nil] at h, String.append_empty.symm⟩
  | append_singleton more slot ih =>
    rw [← List.append_assoc] at h
    by_cases hempty : slots ++ more = []
    · -- the first statement of all stands behind the margin and is not trimmed
      obtain ⟨rfl, rfl⟩ := List.append_eq_nil_iff.mp hempty
      obtain ⟨printed, -, htext⟩ :=
        bind_eq_ok_iff.mp ((renderSlots_singleton margin slot).symm.trans h)
      cases htext
      exact ⟨margin, printed, rfl, rfl⟩
    · rw [renderSlots_concat margin hempty] at h
      obtain ⟨middle, hmiddle, hnext⟩ := bind_eq_ok_iff.mp h
      obtain ⟨before, rest, hbefore, rfl⟩ := ih hmiddle
      obtain ⟨printed, hextends⟩ := extends_of_renderNext hnext
      obtain ⟨rest', rfl⟩ := hextends.exists_append
      exact ⟨before, rest ++ rest', hbefore, String.append_assoc⟩

/-! ## The whole line -/

/-- The text with the comment, if there is one. -/
def withComment (text : String) : Option Comment → String
  | some comment => padTo comment.column text ++ comment.render
  | none => text

theorem exists_withComment_eq (text : String) (comment : Option Comment) :
    ∃ rest, withComment text comment = text ++ rest := by
  cases comment with
  | none => exact ⟨"", String.append_empty.symm⟩
  | some comment => exact ⟨_, String.append_assoc⟩

/-- The apostrophe stands at the column of the comment, or right behind a longer text. -/
theorem exists_withComment_some (text : String) (comment : Comment) :
    ∃ gap rest, comment.render = "'" ++ rest ∧
      withComment text (some comment) = text ++ spaces gap ++ "'" ++ rest ∧
      (text ++ spaces gap).length = max comment.column text.length := by
  refine ⟨comment.column - text.length, _, String.append_assoc, ?_, length_padTo comment.column text⟩
  simp only [withComment, padTo, Comment.render, String.append_assoc]

theorem render_eq (l : Line) :
    l.render = (withComment · l.comment) <$> renderSlots (margin l.label l.indent) l.slots := by
  rw [render]
  cases l.comment <;> cases l.slots <;> simp [renderSlots, withComment, margin] <;> rfl

/-- The line up to its `k`-th statement: the later ones are left out, and so is the comment. -/
def upTo (l : Line) (k : Nat) : Line :=
  match (l.slots.take k).reverse with
  | [] => .start l.label l.indent
  | last :: earlier => { l with earlier := earlier, last := last, comment := none }

theorem render_upTo (l : Line) (k : Nat) :
    (l.upTo k).render = renderSlots (margin l.label l.indent) (l.slots.take k) := by
  rw [render_eq]
  rcases h : (l.slots.take k).reverse with _ | ⟨last, earlier⟩
  · rw [List.reverse_eq_nil_iff.mp h, upTo, h]
    exact congrArg Except.ok String.append_empty
  · rw [upTo, h]
    change Except.map id (renderSlots (margin l.label l.indent) (last :: earlier).reverse) = _
    rw [← h, List.reverse_reverse, Except.map_id]
    rfl

theorem render_upTo_one {l : Line} {slot : Slot} {text : String} (hslot : l.slots[0]? = some slot)
    (h : (l.upTo 1).render = .ok text) : ∃ printed,
      slot.statement.render (margin l.label l.indent).length = .ok printed ∧
      (l.upTo 1).render = .ok (margin l.label l.indent ++ printed) := by
  have htake : l.slots.take 1 = [slot] := by
    rw [List.take_add_one, hslot]
    rfl
  rw [render_upTo, htake, renderSlots_singleton] at h ⊢
  obtain ⟨printed, hprinted, htext⟩ := bind_eq_ok_iff.mp h
  cases htext
  exact ⟨printed, hprinted, h⟩

theorem extends_of_upTo {l : Line} {k : Nat} {slot : Slot} {before after : String}
    (hslot : l.slots[k + 1]? = some slot) (hbefore : (l.upTo (k + 1)).render = .ok before)
    (hafter : (l.upTo (k + 2)).render = .ok after) : ∃ printed, Extends before slot printed after := by
  have htake : l.slots.take (k + 2) = l.slots.take (k + 1) ++ [slot] := by
    rw [List.take_add_one, hslot]
    rfl
  have hne : l.slots.take (k + 1) ≠ [] := by simp [slots]
  rw [render_upTo] at hbefore hafter
  rw [htake, renderSlots_concat _ hne, hbefore] at hafter
  exact extends_of_renderNext hafter

/-- How the text of a line is laid out. -/
structure Layout (l : Line) (text : String) : Prop where
  /-- in front stands the label, then the indentation -/
  label : ∀ id, l.label = some id →
    ∃ rest, text = id.stem ++ (if id.isNumber then " " else ": ") ++ spaces l.indent ++ rest
  /-- a line without a label starts with the indentation -/
  indent : l.label = none → ∃ rest, text = spaces l.indent ++ rest
  /-- the first statement stands right behind the indentation -/
  first : ∀ slot, l.slots[0]? = some slot → ∃ printed,
    slot.statement.render (margin l.label l.indent).length = .ok printed ∧
    (l.upTo 1).render = .ok (margin l.label l.indent ++ printed)
  /-- each further statement stands behind the line up to the one before it -/
  statement : ∀ k slot, l.slots[k + 1]? = some slot → ∃ before printed after,
    (l.upTo (k + 1)).render = .ok before ∧ (l.upTo (k + 2)).render = .ok after ∧
    Extends before slot printed after
  /-- the line up to a statement stays as it is -/
  kept : ∀ k, ∃ before rest, (l.upTo k).render = .ok before ∧ text = before ++ rest
  /-- the comment stands at its column, or right behind the statements if they reach further -/
  comment : ∀ c, l.comment = some c → ∃ before gap rest,
    (l.upTo l.slots.length).render = .ok before ∧ c.render = "'" ++ rest ∧
    text = before ++ spaces gap ++ "'" ++ rest ∧
    (before ++ spaces gap).length = max c.column before.length
  /-- without a comment nothing stands behind the statements -/
  ending : l.comment = none → (l.upTo l.slots.length).render = .ok text

/-- **The layout of a line.** If each of its statements has a text, a line has one. It starts with the
label, the indentation and the first statement. A statement behind a colon starts at its column, or
one space behind the colon if the line has come further than that; the apostrophe of the comment
stands at its column or right behind the statements. What stands on the line already is never changed
by what is added, but for the blanks at the end of the statement that is added itself. -/
theorem laid_out (l : Line) (h : ∀ st ∈ l.statements, ∃ column text, st.render column = .ok text) :
    ∃ text, l.render = .ok text ∧ l.Layout text := by
  obtain ⟨body, hbody⟩ := exists_renderSlots (fun slot hslot => h _ (List.mem_map_of_mem hslot))
    (margin l.label l.indent)
  have hwhole : (l.upTo l.slots.length).render = .ok body := by
    rw [render_upTo, List.take_length, hbody]
  have hkept (k : Nat) : ∃ before rest, (l.upTo k).render = .ok before ∧
      withComment body l.comment = before ++ rest := by
    rw [← List.take_append_drop k l.slots] at hbody
    obtain ⟨before, rest, hbefore, rfl⟩ := exists_append_of_renderSlots hbody
    obtain ⟨behind, hbehind⟩ := exists_withComment_eq (before ++ rest) l.comment
    exact ⟨before, rest ++ behind, by rw [render_upTo, hbefore], by rw [hbehind, String.append_assoc]⟩
  obtain ⟨rest, hmargin⟩ : ∃ rest, withComment body l.comment = margin l.label l.indent ++ rest := by
    obtain ⟨before, rest, hbefore, htext⟩ := hkept 0
    rw [render_upTo] at hbefore
    cases hbefore
    exact ⟨rest, htext⟩
  refine ⟨withComment body l.comment, by rw [render_eq, hbody]; rfl, ?_⟩
  constructor
  case label =>
    intro id hid
    rw [hmargin, hid]
    exact ⟨rest, rfl⟩
  case indent =>
    intro hnone
    rw [hmargin, hnone]
    exact ⟨rest, congrArg (· ++ rest) String.empty_append⟩
  case first =>
    intro slot hslot
    obtain ⟨before, -, hbefore, -⟩ := hkept 1
    exact render_upTo_one hslot hbefore
  case statement =>
    intro k slot hslot
    obtain ⟨before, -, hbefore, -⟩ := hkept (k + 1)
    obtain ⟨after, -, hafter, -⟩ := hkept (k + 2)
    obtain ⟨printed, hextends⟩ := extends_of_upTo hslot hbefore hafter
    exact ⟨before, printed, after, hbefore, hafter, hextends⟩
  case kept => exact hkept
  case comment =>
    intro c hc
    obtain ⟨gap, rest, hrender, htext, hlength⟩ := exists_withComment_some body c
    exact ⟨body, gap, rest, hwhole, hrender, hc ▸ htext, hlength⟩
  case ending =>
    intro hnone
    rw [hnone]
    exact hwhole

/-- A line with a number and an indentation. Its second statement has a column and ends with two
blanks, one of which is not a space; the third one is empty, and the comment comes late. -/
def crowded : Line where
  label := some ⟨.number 10, true, none⟩
  indent := 2
  earlier := [⟨some 12, .misread [0x42, 0xFF, 0x20]⟩, ⟨none, .misread [0x41]⟩]
  last := ⟨some 1, .empty⟩
  comment := some ⟨[0x43], 5, none⟩

theorem crowded_laid_out :
    (∀ st ∈ crowded.statements, ∃ column text, st.render column = .ok text) ∧
      crowded.render = .ok "10   A:     B:'C" ∧ crowded.Layout "10   A:     B:'C" := by
  have hprints : ∀ st ∈ crowded.statements, ∃ column text, st.render column = .ok text := by
    intro st hst
    simp only [crowded, statements, slots, List.reverse_cons, List.reverse_nil, List.nil_append,
      List.cons_append, List.map_cons, List.map_nil, List.mem_cons, List.not_mem_nil, or_false] at hst
    rcases hst with rfl | rfl | rfl <;> exact ⟨0, _, rfl⟩
  have hrender : crowded.render = .ok "10   A:     B:'C" := by decide +kernel
  obtain ⟨text, htext, hlayout⟩ := laid_out crowded hprints
  cases htext.symm.trans hrender
  exact ⟨hprints, hrender, hlayout⟩

end Line

end SavedBasic
