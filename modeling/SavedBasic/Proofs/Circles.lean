import Mathlib.Data.List.TakeWhile
import SavedBasic.Proofs.Workspace

/-!
# Circles

A circle is written as its center, its radius, its color if it has one, and then the angles and the
ratio of the axes. Those travel under a name. An operand that is left out has a mark of its own where
one of them follows, and is not written at all where none follows. The mark lies on the stack, and
nothing ever takes it from there: the instruction of the circle finds it in the place of the radius or
the color. So a circle is rebuilt exactly if it needs no mark. With one mark and a color, the color is
taken for the radius and the radius is lost; with any other marks, there is no radius at all, and
decoding fails.
-/

namespace SavedBasic

open Decode Instruction

variable {v : Version} {src : Source} {names : Nat → Except Fault Identifier} {p q : Nat}

/-! ## How circles are written -/

/-- A circle. -/
structure Circle where
  /-- the center -/
  center : Point
  /-- the radius -/
  radius : Expr
  /-- the color -/
  color : Option Expr
  /-- the first angle -/
  start : Option Expr
  /-- the last angle -/
  stop : Option Expr
  /-- the ratio of the axes -/
  aspect : Option Expr

/-- From `p` to `q` a file has an operand that travels under a name, with the opcode that gives it, or
the mark of an operand that is left out; an operand that none follows is left out without a mark. -/
inductive OptionalAt (v : Version) (src : Source) (names : Nat → Except Fault Identifier)
    (p code : Nat) : (q : Nat) → (operand : Option Expr) → (followed : Bool) → Prop where
  | given {q parameter : Nat} {e : Expr} {followed : Bool} (he : Pushed v src names p q [e])
    (hcode : InstructionAt v src q code parameter) :
    OptionalAt v src names p code (q + 2) (some e) followed
  | marked {parameter : Nat} (h : InstructionAt v src p 0x0172 parameter) :
    OptionalAt v src names p code (p + 2) none true
  | missing : OptionalAt v src names p code p none false

/-- From `p` to `q` a file has an expression, or nothing. -/
inductive MaybePushed (v : Version) (src : Source) (names : Nat → Except Fault Identifier) (p : Nat) :
    (q : Nat) → Option Expr → Prop where
  | given {q : Nat} {e : Expr} (he : Pushed v src names p q [e]) (hpresent : e.isOmitted = false) :
    MaybePushed v src names p q (some e)
  | missing : MaybePushed v src names p p none

/-- From `p` to `q` a file has the instructions of a circle. -/
inductive CircleAt (v : Version) (src : Source) (names : Nat → Except Fault Identifier) (p : Nat) :
    (q : Nat) → Circle → Prop where
  | intro {p₁ p₂ p₃ p₄ p₅ q parameter parameter' : Nat} {c : Circle}
    (hcenter : Pushed v src names p p₁ [c.center.x, c.center.y])
    (hpoint : InstructionAt v src p₁ (if c.center.step then 0x0082 else 0x0081) parameter)
    (hradius : Pushed v src names (p₁ + 2) p₂ [c.radius]) (hpresent : c.radius.isOmitted = false)
    (hcolor : MaybePushed v src names p₂ p₃ c.color)
    (hstart : OptionalAt v src names p₃ 0x0080 p₄ c.start (c.stop.isSome || c.aspect.isSome))
    (hstop : OptionalAt v src names p₄ 0x007F p₅ c.stop c.aspect.isSome)
    (haspect : OptionalAt v src names p₅ 0x007E q c.aspect false)
    (hcircle : InstructionAt v src q (if c.color.isSome then 0x00A0 else 0x009F) parameter') :
    CircleAt v src names p (q + 2) c

namespace Circle

/-- The mark of an operand that is left out and followed by another one. -/
def mark (operand : Option Expr) (followed : Bool) : List Expr :=
  if operand.isNone && followed then [.omitted] else []

/-- The marks of a circle. -/
def marks (c : Circle) : List Expr :=
  mark c.stop c.aspect.isSome ++ mark c.start (c.stop.isSome || c.aspect.isSome)

/-- The statement with the given radius and color, and with the other operands of a circle. -/
def statementWith (c : Circle) (radius : Expr) (color : Option Expr) : Statement :=
  .circle c.center radius (color.getD .omitted) (c.start.getD .omitted) (c.stop.getD .omitted)
    (c.aspect.getD .omitted)

/-- The operands that a circle has under a name. -/
def arguments (c : Circle) : Arguments :=
  ⟨some c.center, none, c.start, c.stop, c.aspect⟩

end Circle

/-! ## What lies on the stack -/

theorem Circle.mark_of_last (operand : Option Expr) : Circle.mark operand false = [] := by
  rw [Circle.mark, Bool.and_false]
  rfl

/-- An operand comes to stand under its name, and a mark on the stack. -/
theorem OptionalAt.carries {code : Nat} {operand : Option Expr} {followed : Bool}
    {isGiven : Arguments → Bool} {set : Expr → Arguments → Arguments}
    (h : OptionalAt v src names p code q operand followed)
    (hlookup : table.lookup code = some (always (pop >>= fun e => setArgument isGiven (set e))))
    {a : Arguments} (hgiven : isGiven a = false) (stack : List Expr) :
    Carries v src names p q ⟨.empty, stack, a⟩
      ⟨.empty, Circle.mark operand followed ++ stack, operand.elim a fun e => set e a⟩ := by
  cases h with
  | given he hcode =>
    exact hcode.takes he hlookup ((turns_pop _).bind (turns_setArgument _ hgiven))
  | marked h => exact h.carries rfl (turns_push .omitted)
  | missing => exact .refl

theorem turns_point (x y : Expr) (step : Bool) (st : Statement) (below : List Expr) (a : Arguments) :
    Turns src names (point step) p p (.ok ⟨x, y, step⟩) ⟨st, y :: x :: below, a⟩ ⟨st, below, a⟩ := by
  have hpair : Turns src names popTwo p p (.ok (x, y)) ⟨st, y :: x :: below, a⟩ ⟨st, below, a⟩ :=
    (turns_popMany [x, y]).bind (turns_pure (x, y))
  exact hpair.bind (turns_pure _)

theorem MaybePushed.carries {operand : Option Expr} (h : MaybePushed v src names p q operand)
    (st : Statement) (below : List Expr) (a : Arguments) :
    Carries v src names p q ⟨st, below, a⟩ ⟨st, operand.toList ++ below, a⟩ := by
  cases h with
  | given he _ => exact he.carries st below a
  | missing => exact .refl

/-- Before the last instruction the center has been put aside, and what lies on the stack is the
radius, the color and the marks. -/
theorem CircleAt.carries {c : Circle} (h : CircleAt v src names p q c) :
    ∃ p' parameter, q = p' + 2 ∧
      InstructionAt v src p' (if c.color.isSome then 0x00A0 else 0x009F) parameter ∧
      Carries v src names p p' .fresh
        ⟨.empty, c.marks ++ (c.color.toList ++ [c.radius]), c.arguments⟩ := by
  cases h with
  | @intro p₁ p₂ p₃ p₄ p₅ q parameter parameter' _ hcenter hpoint hradius hpresent hcolor hstart hstop
      haspect hcircle =>
    refine ⟨q, parameter', rfl, hcircle, ?_⟩
    have hcentered : Carries v src names p₁ (p₁ + 2) ⟨.empty, [c.center.y, c.center.x], .none⟩
        ⟨.empty, [], ⟨some c.center, none, none, none, none⟩⟩ := by
      obtain ⟨⟨x, y, step⟩, _, _, _, _, _⟩ := c
      cases step <;>
        exact hpoint.carries rfl ((turns_point x y _ _ _ _).bind
          (turns_setArgument (fun a => { a with start := some ⟨x, y, _⟩ }) rfl))
    have hcolored : Carries v src names p p₃ .fresh
        ⟨.empty, c.color.toList ++ [c.radius], ⟨some c.center, none, none, none, none⟩⟩ :=
      (((hcenter.carries _ _ _).trans hcentered).trans (hradius.carries _ _ _)).trans
        (hcolor.carries _ _ _)
    -- each operand is given under a name that is still free
    have hangles := ((hcolored.trans (hstart.carries rfl rfl _)).trans
      (hstop.carries rfl (by rcases c.start with _ | e <;> rfl) _)).trans
        (haspect.carries rfl (by rcases c.start with _ | e <;> rcases c.stop with _ | e <;> rfl) _)
    rw [Circle.mark_of_last, List.nil_append, ← List.append_assoc] at hangles
    obtain ⟨center, radius, color, start, stop, aspect⟩ := c
    rcases start with _ | e <;> rcases stop with _ | e <;> rcases aspect with _ | e <;> exact hangles

/-! ## The instruction of a circle -/

/-- The topmost operands are taken for the color, if the circle has one, and for the radius. -/
theorem turns_circle (color : Option Expr) {radius : Expr} {parameter : Nat}
    (hradius : radius.isOmitted = false) {a : Arguments} {center : Point}
    (hstart : a.start = some center) (below : List Expr) :
    Turns src names (circle color.isSome v parameter) p p (.ok ())
      ⟨.empty, color.toList ++ radius :: below, a⟩
      ⟨.circle center radius (color.getD .omitted) (a.fromAngle.getD .omitted)
        (a.toAngle.getD .omitted) (a.aspect.getD .omitted), below, a⟩ := by
  refine turns_arguments.bind (turns_popOptional ((turns_pop radius).bind ?_))
  rw [hstart]
  cases radius with
  | omitted => cases hradius
  | _ => exact turns_put rfl

/-- A mark is no radius. -/
theorem turns_circle_omitted (color : Option Expr) {parameter : Nat} {a : Arguments} {center : Point}
    (hstart : a.start = some center) (below : List Expr) :
    Turns src names (circle color.isSome v parameter) p p (.error .brokenPromise)
      ⟨.empty, color.toList ++ .omitted :: below, a⟩ ⟨.empty, below, a⟩ := by
  refine turns_arguments.bind (turns_popOptional ((turns_pop .omitted).bind ?_))
  rw [hstart]
  exact turns_throw .brokenPromise

/-! ## The text of a circle -/

namespace Circle

/-- The texts of operands up to the last one that is there. -/
def upToLast : List (Option String) → List String
  | [] => []
  | text :: rest => if (text :: rest).all Option.isNone then [] else text.getD "" :: upToLast rest

/-- The texts that are shown: a color whose text is empty does not show alone. -/
def shownTexts (texts : List (Option String)) : List String :=
  if upToLast texts = [""] then [] else upToLast texts

/-- Operands, each of which has a text or is left out. -/
abbrev Shows (operands : List (Option Expr)) (texts : List (Option String)) : Prop :=
  List.Forall₂ (Option.Rel fun e text => e.render = .ok text) operands texts

theorem trim_cons {α : Type} (p : α → Bool) (x : α) (xs : List α) :
    ((x :: xs).reverse.dropWhile p).reverse =
      if (x :: xs).all p then [] else x :: (xs.reverse.dropWhile p).reverse := by
  rw [List.reverse_cons, List.dropWhile_append, List.all_cons]
  rcases hxs : xs.all p
  · have hne : (xs.reverse.dropWhile p).isEmpty = false := by
      rw [List.isEmpty_eq_false_iff, ne_eq, List.dropWhile_eq_nil_iff]
      simpa using hxs
    simp [hne]
  · have he : xs.reverse.dropWhile p = [] := by
      rw [List.dropWhile_eq_nil_iff]
      simpa using hxs
    rcases hx : p x <;> simp [he, hx]

theorem not_isOmitted_of_render {e : Expr} {text : String} (h : e.render = .ok text) :
    e.isOmitted = false := by
  cases e with
  | omitted => cases h
  | _ => rfl

theorem renderOptional_cons {e : Expr} {text : String} (h : e.render = .ok text) (rest : List Expr) :
    renderOptional (e :: rest) = (renderOptional rest).map (text :: ·) := by
  cases e with
  | omitted => cases h
  | _ =>
    rw [renderOptional, h]
    · rcases renderOptional rest with fault | texts <;> rfl
    · simp

theorem all_isOmitted {operands : List (Option Expr)} {texts : List (Option String)}
    (h : Shows operands texts) :
    (operands.map fun e => e.getD .omitted).all Expr.isOmitted = texts.all Option.isNone := by
  induction h with
  | nil => rfl
  | cons h _ ih =>
    rw [List.map_cons, List.all_cons, List.all_cons, ih]
    cases h with
    | none => rfl
    | some h =>
      rw [Option.getD_some, not_isOmitted_of_render h]
      rfl

/-- The operands up to the last one that is there have these texts. -/
theorem renderOptional_trim {operands : List (Option Expr)} {texts : List (Option String)}
    (h : Shows operands texts) :
    renderOptional
      ((operands.map fun e => e.getD .omitted).reverse.dropWhile Expr.isOmitted).reverse =
        .ok (upToLast texts) := by
  induction h with
  | nil => rfl
  | @cons operand text operands texts h hrest ih =>
    have hall : (operand.getD .omitted :: operands.map fun e => e.getD .omitted).all Expr.isOmitted =
        (text :: texts).all Option.isNone := all_isOmitted (.cons h hrest)
    rw [List.map_cons, trim_cons, hall, upToLast]
    split
    · rfl
    · cases h with
      | none =>
        rw [Option.getD_none, renderOptional, ih]
        rfl
      | some h =>
        rw [Option.getD_some, renderOptional_cons h, ih]
        rfl

theorem join_eq_empty {texts : List String} :
    Text.join ", " texts = "" ↔ texts = [] ∨ texts = [""] := by
  rcases texts with _ | ⟨text, _ | ⟨text', texts⟩⟩
  · simp [Text.join]
  · simp [Text.join_singleton]
  · constructor
    · intro h
      have hlength := congrArg String.length h
      have hcomma : ", ".length = 2 := rfl
      rw [Text.join_cons_cons, String.length_append, String.length_append, hcomma,
        String.length_empty] at hlength
      omega
    · rintro (h | h) <;> cases h

/-- Operands behind others show up to the last one that is there, each behind a comma. -/
theorem append_renderTail {operands : List (Option Expr)} {texts : List (Option String)}
    (h : Shows operands texts) (before last : String) :
    (renderTail (operands.map fun e => e.getD .omitted)).map (before ++ last ++ ·) =
      .ok (before ++ Text.join ", " (last :: shownTexts texts)) := by
  rw [renderTail, renderOptional_trim h]
  change Except.ok (before ++ last ++ if Text.join ", " (upToLast texts) == "" then "" else
    ", " ++ Text.join ", " (upToLast texts)) = _
  by_cases hempty : Text.join ", " (upToLast texts) = ""
  · have hshown : shownTexts texts = [] := by
      rcases join_eq_empty.mp hempty with hnil | hlone
      · rw [shownTexts, hnil]
        rfl
      · rw [shownTexts, if_pos hlone]
    rw [hempty, hshown, Text.join_singleton, if_pos (beq_self_eq_true ""), String.append_empty]
  · obtain ⟨hnil, hlone⟩ := not_or.mp (mt join_eq_empty.mpr hempty)
    obtain ⟨text, rest, hcons⟩ := List.exists_cons_of_ne_nil hnil
    rw [if_neg (by simpa using hempty), shownTexts, if_neg hlone, hcons, Text.join_cons_cons,
      String.append_assoc, String.append_assoc]

/-- The text of a circle: its operands up to the last one that is there, with commas between them. -/
theorem render_statementWith (c : Circle) {radius : Expr} {color : Option Expr}
    {centerText radiusText : String} {texts : List (Option String)}
    (hcenter : c.center.render = .ok centerText) (hradius : radius.render = .ok radiusText)
    (h : Shows [color, c.start, c.stop, c.aspect] texts) (column : Nat) :
    (c.statementWith radius color).render column =
      .ok ("CIRCLE " ++ Text.join ", " (centerText :: radiusText :: shownTexts texts)) := by
  have htail := append_renderTail h ("CIRCLE " ++ centerText ++ ", ") radiusText
  have hrender : (c.statementWith radius color).render column =
      c.center.render >>= fun center => radius.render >>= fun text =>
        (renderTail ([color, c.start, c.stop, c.aspect].map fun e => e.getD .omitted)).map
          ("CIRCLE " ++ center ++ ", " ++ text ++ ·) := rfl
  rw [Text.join_cons_cons, hrender, hcenter, hradius, ← String.append_assoc, ← String.append_assoc]
  exact htail

end Circle

/-! ## Circles on a line -/

theorem Circle.marks_eq_replicate (c : Circle) : c.marks = List.replicate c.marks.length .omitted := by
  obtain ⟨_, _, _, start, stop, aspect⟩ := c
  cases start <;> cases stop <;> cases aspect <;> rfl

theorem CircleAt.color_present {c : Circle} (h : CircleAt v src names p q c) {color : Expr}
    (hcolor : c.color = some color) : color.isOmitted = false := by
  cases h with
  | intro _ _ _ _ hmaybe =>
    rw [hcolor] at hmaybe
    cases hmaybe with
    | given _ hpresent => exact hpresent

theorem CircleAt.radius_present {c : Circle} (h : CircleAt v src names p q c) :
    c.radius.isOmitted = false := by
  cases h with
  | intro _ _ _ hpresent => exact hpresent

theorem lookup_circle (withColor : Bool) :
    table.lookup (if withColor then 0x00A0 else 0x009F) = some (circle withColor) := by
  cases withColor <;> rfl

/-- **Circles and the operands that are left out.** Let a new line have the instructions of a circle.
If the circle needs no mark, decoding succeeds, and the line has exactly this circle; its text shows
the operands up to the last one that is there, with nothing between the commas of one that is left
out. With one mark and a color, decoding succeeds too, but the circle has the color for its radius and
the mark for its color, and the radius is left on the stack. With any other marks, decoding fails at
the last instruction, and the line stays empty. -/
theorem circle_on_line {s : State} {pos indent : Nat} {label : Option Identifier} {c : Circle}
    (hline : LineAt v src (s.identifierAt src) pos p label indent)
    (h : CircleAt v src (s.identifierAt src) p q c) :
    (c.marks = [] → ∃ t l, (instructions v q).run src pos s = (.ok (), q, t) ∧ t.stack = [] ∧
      t.program.current.lines = l :: s.program.current.lines ∧
      l.statements = [c.statementWith c.radius c.color] ∧
      ∀ center radius texts, c.center.render = .ok center → c.radius.render = .ok radius →
        Circle.Shows [c.color, c.start, c.stop, c.aspect] texts →
        l.render = .ok (Line.margin label indent ++
          ("CIRCLE " ++ Text.join ", " (center :: radius :: Circle.shownTexts texts)))) ∧
    (∀ color, c.marks.length = 1 → c.color = some color →
      ∃ t l, (instructions v q).run src pos s = (.ok (), q, t) ∧ t.stack = [c.radius] ∧
        t.program.current.lines = l :: s.program.current.lines ∧
        l.statements = [c.statementWith color none]) ∧
    (c.marks.length = 2 ∨ c.marks ≠ [] ∧ c.color = none →
      ∃ t l, (instructions v q).run src pos s = (.error .brokenPromise, q, t) ∧
        t.program.current.lines = l :: s.program.current.lines ∧ l.statements = [.empty]) := by
  obtain ⟨p', parameter, rfl, hcode, hcarries⟩ := h.carries
  refine ⟨fun hmarks => ?_, fun color hmarks hcolor => ?_, fun hmarks => ?_⟩
  · rw [hmarks] at hcarries
    obtain ⟨t, hrun, hstack, hlines⟩ := (hcarries.trans (hcode.carries (lookup_circle _)
      (turns_circle c.color h.radius_present rfl []))).adds_line hline
    refine ⟨t, _, hrun, hstack, hlines, rfl, fun center radius texts hcenter hradius htexts => ?_⟩
    have htext := c.render_statementWith hcenter hradius htexts (Line.margin label indent).length
    exact (Line.render_setLast_start _ _ _).trans (congrArg (Except.map _) htext)
  · rw [c.marks_eq_replicate, hmarks, hcolor] at hcarries
    rw [hcolor] at hcode
    -- the mark takes the place of the color, and the color that of the radius
    obtain ⟨t, hrun, hstack, hlines⟩ := (hcarries.trans (hcode.carries (lookup_circle _)
      (turns_circle (some .omitted) (h.color_present hcolor) rfl [c.radius]))).adds_line hline
    exact ⟨t, _, hrun, hstack, hlines, rfl⟩
  · obtain ⟨color, below, hsome, hmarked⟩ : ∃ color below, c.color.isSome = Option.isSome color ∧
        c.marks ++ (c.color.toList ++ [c.radius]) = color.toList ++ .omitted :: below := by
      rcases hmarks with htwo | ⟨hne, hcolor⟩
      · rw [c.marks_eq_replicate, htwo]
        rcases c.color with _ | color
        · exact ⟨none, _, rfl, rfl⟩
        · exact ⟨some .omitted, _, rfl, rfl⟩
      · obtain ⟨n, hn⟩ := Nat.exists_eq_succ_of_ne_zero (mt List.length_eq_zero_iff.mp hne)
        rw [c.marks_eq_replicate, hn, hcolor]
        exact ⟨none, _, rfl, rfl⟩
    rw [hmarked] at hcarries
    rw [hsome] at hcode
    obtain ⟨t, hrun, hlines⟩ := hcarries.fails_on_line hline hcode (lookup_circle _)
      (turns_circle_omitted color rfl below) (by omega : p' < p' + 2)
    exact ⟨t, _, hrun, hlines, rfl⟩

/-- A line with a circle that has both angles and the ratio of the axes, but no color. -/
def angledCircle : Source :=
  lineFile [0x64, 0x05, 0x64, 0x05, 0x81, 0x00, 0x64, 0x09, 0x64, 0x0D, 0x80, 0x00, 0x64, 0x11, 0x7F,
    0x00, 0x64, 0x15, 0x7E, 0x00, 0x9F, 0x00]

theorem angledCircle_decoded :
    ∃ t l, (instructions .qb45 0x3A).run angledCircle 0x22 (.start .qb45) = (.ok (), 0x3A, t) ∧
      t.stack = [] ∧ t.program.current.lines = [l] ∧
      l.statements = [.circle ⟨.number 1, .number 1, false⟩ (.number 2) .omitted (.number 3)
        (.number 4) (.number 5)] ∧
      l.render = .ok "CIRCLE (1, 1), 2, , 3, 4, 5" := by
  have h : CircleAt .qb45 angledCircle ((State.start .qb45).identifierAt angledCircle) 0x24 0x3A
      ⟨⟨.number 1, .number 1, false⟩, .number 2, none, some (.number 3), some (.number 4),
        some (.number 5)⟩ :=
    .intro ((pushed_small (by decide) ⟨_, rfl⟩).append (pushed_small (by decide) ⟨_, rfl⟩))
      ⟨_, rfl, rfl⟩ (pushed_small (by decide) ⟨_, rfl⟩) rfl .missing
      (.given (pushed_small (by decide) ⟨_, rfl⟩) ⟨_, rfl, rfl⟩)
      (.given (pushed_small (by decide) ⟨_, rfl⟩) ⟨_, rfl, rfl⟩)
      (.given (pushed_small (by decide) ⟨_, rfl⟩) ⟨_, rfl, rfl⟩) ⟨_, rfl, rfl⟩
  obtain ⟨t, l, hrun, hstack, hlines, hstatements, htext⟩ :=
    (circle_on_line (.plain ⟨_, rfl, rfl⟩) h).1 rfl
  refine ⟨t, l, hrun, hstack, hlines, hstatements, ?_⟩
  exact htext "(1, 1)" "2" [none, some "3", some "4", some "5"] rfl rfl
    (.cons .none (.cons (.some rfl) (.cons (.some rfl) (.cons (.some rfl) .nil))))

/-- A line with a circle that has its last angle alone, and the mark of the first one. -/
def markedCircle : Source :=
  lineFile [0x64, 0x05, 0x64, 0x05, 0x81, 0x00, 0x64, 0x09, 0x72, 0x01, 0x64, 0x0D, 0x7F, 0x00, 0x9F,
    0x00]

/-- The mark stands in the place of the radius. -/
theorem markedCircle_fails :
    CircleAt .qb45 markedCircle ((State.start .qb45).identifierAt markedCircle) 0x24 0x34
      ⟨⟨.number 1, .number 1, false⟩, .number 2, none, none, some (.number 3), none⟩ ∧
    ((instructions .qb45 0x34).run markedCircle 0x22 (.start .qb45)).1 = .error .brokenPromise := by
  constructor
  · exact .intro ((pushed_small (by decide) ⟨_, rfl⟩).append (pushed_small (by decide) ⟨_, rfl⟩))
      ⟨_, rfl, rfl⟩ (pushed_small (by decide) ⟨_, rfl⟩) rfl .missing (.marked ⟨_, rfl, rfl⟩)
      (.given (pushed_small (by decide) ⟨_, rfl⟩) ⟨_, rfl, rfl⟩) .missing ⟨_, rfl, rfl⟩
  · iterate 8 rw [run_instructions_step (by decide) (by rfl)]
    rw [run_instructions_fault (by decide) (by rfl)]

end SavedBasic
