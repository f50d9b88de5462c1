import SavedBasic.Proofs.TwoRuns

/-!
# Operands under a name

Points, angles and the ratio of the axes do not travel on the stack: an instruction gives them under
a name, and the statement that they belong to takes them from there. No name may be given twice.

`uses` says which instruction gives and which takes what. The instructions that give an operand
differ in how they find it only (`perform_gives`). Those that take some draw one statement from them
and from operands that have no name (`perform_takes`), and the statement shows all operands that it
takes: with another one it is another statement.
-/

namespace SavedBasic

/-- The statements that take operands under a name. -/
def Statement.isDrawn : Statement → Bool
  | circle .. | getImage .. | putImage .. | line .. | paint .. | pset .. => true
  | _ => false

theorem Expr.eq_omitted_of_isOmitted {e : Expr} (h : e.isOmitted = true) : e = .omitted := by
  cases e <;> first | rfl | cases h

namespace Decode

/-- The names of operands. -/
inductive Argument where
  | start
  | stop
  | fromAngle
  | toAngle
  | aspect
deriving DecidableEq

/-- What stands under a name. -/
abbrev Argument.Value : Argument → Type
  | start | stop => Point
  | fromAngle | toAngle | aspect => Expr

namespace Arguments

/-- Whether something has been given under a name. -/
def isGiven (a : Arguments) : Argument → Bool
  | .start => a.start.isSome
  | .stop => a.stop.isSome
  | .fromAngle => a.fromAngle.isSome
  | .toAngle => a.toAngle.isSome
  | .aspect => a.aspect.isSome

/-- The operands with one more under a name. -/
def give (a : Arguments) : (x : Argument) → x.Value → Arguments
  | .start, p => { a with start := some p }
  | .stop, p => { a with stop := some p }
  | .fromAngle, e => { a with fromAngle := some e }
  | .toAngle, e => { a with toAngle := some e }
  | .aspect, e => { a with aspect := some e }

/-- What a statement shows of the operand under a name. Other operands than points are left out if
they have not been given. -/
def shown (a : Arguments) : Argument → Option Point ⊕ Expr
  | .start => .inl a.start
  | .stop => .inl a.stop
  | .fromAngle => .inr (a.fromAngle.getD .omitted)
  | .toAngle => .inr (a.toAngle.getD .omitted)
  | .aspect => .inr (a.aspect.getD .omitted)

/-- Whether a statement that takes the operand under a name shows anything of it. -/
def shows (a : Arguments) (x : Argument) : Bool :=
  match a.shown x with
  | .inl point => point.isSome
  | .inr e => !e.isOmitted

/-- The operands `a`, and under the names that these leave free those of `b`. -/
def merge (a b : Arguments) : Arguments where
  start := a.start.or b.start
  stop := a.stop.or b.stop
  fromAngle := a.fromAngle.or b.fromAngle
  toAngle := a.toAngle.or b.toAngle
  aspect := a.aspect.or b.aspect

/-- Nothing has been given in both. -/
def Apart (a b : Arguments) : Prop :=
  ∀ x, a.isGiven x = true → b.isGiven x = false

theorem none_merge (b : Arguments) : Arguments.none.merge b = b := rfl

theorem none_apart (b : Arguments) : Arguments.none.Apart b := by
  intro x hx
  cases x <;> cases hx

theorem isGiven_merge (a b : Arguments) (x : Argument) :
    (a.merge b).isGiven x = (a.isGiven x || b.isGiven x) := by
  cases x <;> exact Option.isSome_or

theorem give_merge (a b : Arguments) (x : Argument) (value : x.Value) :
    (a.give x value).merge b = (a.merge b).give x value := by
  cases x <;> rfl

theorem isGiven_give {a : Arguments} {x y : Argument} {value : x.Value}
    (h : (a.give x value).isGiven y = true) : y = x ∨ a.isGiven y = true := by
  cases x <;> cases y <;> first | exact .inl rfl | exact .inr h

theorem Apart.give {a b : Arguments} (h : a.Apart b) {x : Argument} (hx : b.isGiven x = false)
    (value : x.Value) : (a.give x value).Apart b := by
  intro y hy
  rcases isGiven_give hy with rfl | hold
  · exact hx
  · exact h y hold

/-- Where nothing of another operand shows, it makes no difference. -/
theorem shown_merge_of_not_shows {b : Arguments} {x : Argument} (h : b.shows x = false)
    (a : Arguments) : (a.merge b).shown x = a.shown x := by
  have hpoint : ∀ p q : Option Point, q.isSome = false → p.or q = p := by
    rintro p (_ | q) hq
    · exact Option.or_none
    · cases hq
  have hother : ∀ e f : Option Expr, (!(f.getD .omitted).isOmitted) = false →
      (e.or f).getD .omitted = e.getD .omitted := by
    rintro (_ | e) f hf
    · rw [Bool.not_eq_false'] at hf
      exact Expr.eq_omitted_of_isOmitted hf
    · rfl
  cases x with
  | start | stop => exact congrArg Sum.inl (hpoint _ _ h)
  | fromAngle | toAngle | aspect => exact congrArg Sum.inr (hother _ _ h)

/-- Where another operand shows and none has been given, it makes a difference. -/
theorem shown_merge_of_shows {a b : Arguments} {x : Argument} (hb : b.shows x = true)
    (ha : a.isGiven x = false) : (a.merge b).shown x ≠ a.shown x := by
  have hpoint : ∀ p q : Option Point, q.isSome = true → p.isSome = false → p.or q ≠ p := by
    rintro (_ | p) q hq hp heq
    · rw [Option.none_or] at heq
      rw [heq] at hq
      cases hq
    · cases hp
  have hother : ∀ e f : Option Expr, (!(f.getD .omitted).isOmitted) = true → e.isSome = false →
      (e.or f).getD .omitted ≠ e.getD .omitted := by
    rintro (_ | e) f hf he heq
    · rw [Option.none_or] at heq
      rw [heq] at hf
      cases hf
    · cases he
  cases x with
  | start | stop => exact fun heq => hpoint _ _ hb ha (Sum.inl.inj heq)
  | fromAngle | toAngle | aspect => exact fun heq => hother _ _ hb ha (Sum.inr.inj heq)

/-- An operand that shows has been given. -/
theorem isGiven_of_shows {a : Arguments} {x : Argument} (h : a.shows x = true) :
    a.isGiven x = true := by
  have hother : ∀ e : Option Expr, (!(e.getD .omitted).isOmitted) = true → e.isSome = true := by
    rintro (_ | e) he
    · cases he
    · rfl
  cases x with
  | start | stop => exact h
  | fromAngle | toAngle | aspect => exact hother _ h

end Arguments

/-! ## What instructions give and take -/

theorem congruent_arguments (src : Source) (a : Arguments) :
    Congruent src src fun s t => s = t ∧ s.arguments = a where
  names h := by rw [h.1]
  noting offset h := ⟨by rw [h.1], by rw [State.arguments_noting, h.2]⟩
  stack h := by rw [h.1]
  withStack stack h := ⟨by rw [h.1], h.2⟩
  last h := by rw [h.1]
  setLast st h := ⟨by rw [h.1], h.2⟩
  isOpen h := by rw [h.1]
  openOn way h _ := ⟨by rw [h.1], h.2⟩
  closeTop x h := ⟨by rw [h.1], by rw [← h.2, State.closeTop]; split <;> rfl⟩
  kind h := by rw [h.1]
  static h := by rw [h.1]
  withKind kind h := ⟨by rw [h.1], h.2⟩

/-- What has no effect leaves the operands under a name alone, also if it fails. -/
theorem Composed.arguments_eq {α : Type} {m : Decode α} (h : Composed none m) (src : Source)
    (pos : Nat) (s : State) : (m.run src pos s).2.2.arguments = s.arguments := by
  obtain ⟨r, n, s₁, s₂, hrun, -, -, hs₁⟩ :=
    @Composed.respects _ none src src _ m h (congruent_arguments src s.arguments)
      effectCongruent_none pos pos s s rfl ⟨rfl, rfl⟩
  rw [hrun]
  exact hs₁

theorem run_arguments (src : Source) (pos : Nat) (s : State) :
    arguments.run src pos s = (.ok s.arguments, pos, s) := rfl

theorem run_setArgument (isGiven : Arguments → Bool) (set : Arguments → Arguments) (src : Source)
    (pos : Nat) (s : State) :
    (setArgument isGiven set).run src pos s =
      if isGiven s.arguments then (.error .brokenPromise, pos, s)
      else (.ok (), pos, { s with arguments := set s.arguments }) := by
  rw [setArgument, run_bind_ok (run_arguments src pos s)]
  cases isGiven s.arguments <;> rfl

/-- It does not matter when the operands under a name are looked at. -/
theorem arguments_bind_comm {α β : Type} {m : Decode α} (h : Composed none m)
    (f : Arguments → α → Decode β) :
    (arguments >>= fun a => m >>= fun b => f a b) =
      m >>= fun b => arguments >>= fun a => f a b := by
  apply ext_run
  intro src pos s
  have hkeep := h.arguments_eq src pos s
  rw [run_bind_ok (run_arguments src pos s), run_bind, run_bind]
  rcases hrun : m.run src pos s with ⟨fault | b, pos', s'⟩
  · rfl
  · rw [hrun] at hkeep
    dsimp only at hkeep ⊢
    rw [run_bind_ok (run_arguments src pos' s'), hkeep]

/-- A statement is made from the operands under some names, and no others: it is determined by what
it shows of them, and determines it. -/
structure Takes (make : Arguments → Except Fault Statement) (names : List Argument) : Prop where
  drawn : ∀ {a st}, make a = .ok st → st.isDrawn = true
  congr : ∀ {a b}, (∀ x ∈ names, a.shown x = b.shown x) → make a = make b
  inj : ∀ {a b st}, make a = .ok st → make b = .ok st → ∀ x ∈ names, a.shown x = b.shown x

/-- An action draws a statement from the operands under some names, and from others. -/
def Draws (names : List Argument) (m : Decode Unit) : Prop :=
  ∃ (α : Type) (operands : Decode α) (make : α → Arguments → Except Fault Statement),
    Composed none operands ∧ (∀ operand, Takes (make operand) names) ∧
      m = do
        let operand ← operands
        let a ← arguments
        put (← given (make operand a))

/-- An action gives an operand under a name. -/
def Gives (x : Argument) (m : Decode Unit) : Prop :=
  ∃ operand : Decode x.Value, Composed none operand ∧
    m = operand >>= fun value => setArgument (fun a => a.isGiven x) fun a => a.give x value

end Decode

namespace Instruction

open Decode

/-- What an instruction does with operands under a name. -/
inductive Use where
  /-- it gives one -/
  | gives (x : Argument)
  /-- it takes some -/
  | takes (names : List Argument)

/-- An action makes a use of operands under a name. -/
def Use.Describes : Use → Decode Unit → Prop
  | .gives x, m => Gives x m
  | .takes names, m => Draws names m

/-- The opcodes that use operands under a name, and how. -/
def uses : List (Nat × Use) :=
  [(0x007E, .gives .aspect), (0x007F, .gives .toAngle), (0x0080, .gives .fromAngle),
   (0x0081, .gives .start), (0x0082, .gives .start), (0x0083, .gives .stop),
   (0x0084, .gives .stop),
   (0x009F, .takes [.start, .fromAngle, .toAngle, .aspect]),
   (0x00A0, .takes [.start, .fromAngle, .toAngle, .aspect]),
   (0x00B4, .takes [.start, .stop]), (0x00B5, .takes [.start]),
   (0x00BB, .takes [.start, .stop]), (0x00BC, .takes [.start, .stop]),
   (0x00BD, .takes [.start, .stop]), (0x00BE, .takes [.start, .stop]),
   (0x00D0, .takes [.start]), (0x00D1, .takes [.start]), (0x00D8, .takes [.start]),
   (0x00D9, .takes [.start]), (0x00DA, .takes [.start]), (0x00DB, .takes [.start])]

/-- What an operation does with operands under a name. -/
def Operation.use? : Operation → Option Use
  | .common code _ => uses.lookup code
  | _ => none

/-- Whether a use spares operands that were left: nothing is given under their names, and none is
taken that shows. -/
def Use.spares (a : Arguments) : Use → Bool
  | .gives x => !a.isGiven x
  | .takes names => names.all fun x => !a.shows x

/-- Whether an operation spares operands that were left. -/
def Operation.spares (op : Operation) (a : Arguments) : Bool :=
  op.use?.all (Use.spares a)

/-- Where nothing was left, there is nothing to spare. -/
theorem Operation.spares_none (op : Operation) : op.spares .none = true := by
  rw [Operation.spares]
  rcases op.use? with _ | ⟨x⟩ | ⟨names⟩
  · rfl
  · cases x <;> rfl
  · refine List.all_eq_true.mpr fun x _ => ?_
    cases x <;> rfl

/-! ### Statements that are drawn -/

theorem takes_start {f : Option Point → Statement} (hdrawn : ∀ p, (f p).isDrawn = true)
    (hinj : ∀ p q, f p = f q → p = q) : Takes (fun a => .ok (f a.start)) [.start] where
  drawn h := Except.ok.inj h ▸ hdrawn _
  congr h := by
    have hstart := Sum.inl.inj (h .start (List.mem_singleton_self _))
    rw [hstart]
  inj ha hb := by
    rw [List.forall_mem_singleton]
    exact congrArg Sum.inl (hinj _ _ (Except.ok.inj (ha.trans hb.symm)))

theorem takes_corners {f : Option Point → Option Point → Statement}
    (hdrawn : ∀ p q, (f p q).isDrawn = true)
    (hinj : ∀ p q p' q', f p q = f p' q' → p = p' ∧ q = q') :
    Takes (fun a => .ok (f a.start a.stop)) [.start, .stop] where
  drawn h := Except.ok.inj h ▸ hdrawn _ _
  congr h := by
    simp only [List.forall_mem_cons, List.not_mem_nil, false_implies, implies_true, and_true] at h
    rw [Sum.inl.inj h.1, Sum.inl.inj h.2]
  inj ha hb := by
    obtain ⟨hstart, hstop⟩ := hinj _ _ _ _ (Except.ok.inj (ha.trans hb.symm))
    simp only [List.forall_mem_cons, List.not_mem_nil, false_implies, implies_true, and_true]
    exact ⟨congrArg Sum.inl hstart, congrArg Sum.inl hstop⟩

/-- An operand from the stack that may be missing. -/
def optional (present : Bool) : Decode Expr :=
  if present then pop else pure .omitted

theorem composed_optional (present : Bool) : Composed none (optional present) := by
  cases present
  · exact .pure _
  · exact .pop

/-- The circle around a point with a radius and a color. -/
def makeCircle (operands : Expr × Expr) (a : Arguments) : Except Fault Statement :=
  match a.start, operands.2 with
  | none, _ => .error .brokenPromise
  | _, .omitted => .error .brokenPromise
  | some center, radius =>
    .ok (.circle center radius operands.1 (a.fromAngle.getD .omitted) (a.toAngle.getD .omitted)
      (a.aspect.getD .omitted))

theorem makeCircle_eq_ok {operands : Expr × Expr} {a : Arguments} {st : Statement}
    (h : makeCircle operands a = .ok st) :
    ∃ center, a.start = some center ∧
      st = .circle center operands.2 operands.1 (a.fromAngle.getD .omitted)
        (a.toAngle.getD .omitted) (a.aspect.getD .omitted) := by
  unfold makeCircle at h
  split at h
  · cases h
  · cases h
  · rename_i hstart _
    cases h
    exact ⟨_, hstart, rfl⟩

theorem takes_makeCircle (operands : Expr × Expr) :
    Takes (makeCircle operands) [.start, .fromAngle, .toAngle, .aspect] where
  drawn h := by
    obtain ⟨center, -, rfl⟩ := makeCircle_eq_ok h
    rfl
  congr h := by
    simp only [List.forall_mem_cons, List.not_mem_nil, false_implies, implies_true, and_true] at h
    obtain ⟨hstart, hfrom, hto, haspect⟩ := h
    rw [makeCircle, makeCircle, Sum.inl.inj hstart, Sum.inr.inj hfrom, Sum.inr.inj hto,
      Sum.inr.inj haspect]
  inj ha hb := by
    obtain ⟨center, hstart, rfl⟩ := makeCircle_eq_ok ha
    obtain ⟨center', hstart', heq⟩ := makeCircle_eq_ok hb
    obtain ⟨rfl, -, -, hfrom, hto, haspect⟩ := Statement.circle.inj heq
    simp only [List.forall_mem_cons, List.not_mem_nil, false_implies, implies_true, and_true]
    exact ⟨congrArg Sum.inl (hstart.trans hstart'.symm), congrArg Sum.inr hfrom,
      congrArg Sum.inr hto, congrArg Sum.inr haspect⟩

/-- The color and the radius of a circle. -/
def circleOperands (withColor : Bool) : Decode (Expr × Expr) := do
  let color ← optional withColor
  let radius ← pop
  return (color, radius)

theorem draws_circle (withColor : Bool) (v : Version) (p : Nat) :
    Draws [.start, .fromAngle, .toAngle, .aspect] (circle withColor v p) := by
  have hoperands : Composed none (circleOperands withColor) :=
    .bind (composed_optional withColor) fun _ => .bind .pop fun _ => .pure _
  have hform : circle withColor v p = arguments >>= fun a => circleOperands withColor >>= fun b =>
      given (makeCircle b a) >>= put := by
    have hmake : ∀ (a : Arguments) (color radius : Expr),
        given (makeCircle (color, radius) a) >>= put =
          match a.start, radius with
          | none, _ => throw .brokenPromise
          | _, .omitted => throw .brokenPromise
          | some center, radius =>
            put (.circle center radius color (a.fromAngle.getD .omitted) (a.toAngle.getD .omitted)
              (a.aspect.getD .omitted)) := by
      intro a color radius
      unfold makeCircle
      rcases a.start with _ | center
      · rfl
      · cases radius <;> rfl
    simp only [circleOperands, bind_assoc, pure_bind, hmake]
    cases withColor <;> rfl
  rw [hform, arguments_bind_comm hoperands]
  exact ⟨_, _, makeCircle, hoperands, takes_makeCircle, rfl⟩

/-- The color, the shape and the style of a line, of which the shape comes first. -/
def lineOperands (withColor withStyle : Bool) (shape : Nat) : Decode (Expr × String × Expr) := do
  let style ← optional withStyle
  let color ← optional withColor
  return (color, ← choose ["", "B", "BF"] shape, style)

theorem draws_drawLine (withColor withStyle : Bool) (v : Version) (p : Nat) :
    Draws [.start, .stop] (drawLine withColor withStyle v p) := by
  have hoperands : ∀ shape, Composed none (lineOperands withColor withStyle shape) := fun shape =>
    .bind (composed_optional withStyle) fun _ => .bind (composed_optional withColor) fun _ =>
      .bind (composed_choose _ _) fun _ => .pure _
  have hform : drawLine withColor withStyle v p = word >>= fun shape => arguments >>= fun a =>
      lineOperands withColor withStyle shape >>= fun b =>
        put (.line a.start a.stop b.1 b.2.1 b.2.2) := by
    simp only [lineOperands, bind_assoc, pure_bind]
    cases withColor <;> cases withStyle <;> rfl
  have htakes : ∀ b : Expr × String × Expr,
      Takes (fun a => .ok (.line a.start a.stop b.1 b.2.1 b.2.2)) [.start, .stop] := fun b =>
    takes_corners (fun _ _ => rfl) fun _ _ _ _ h =>
      ⟨(Statement.line.inj h).1, (Statement.line.inj h).2.1⟩
  refine ⟨_, word >>= lineOperands withColor withStyle, _, .bind .word hoperands, htakes, ?_⟩
  rw [hform, bind_assoc]
  congr 1
  funext shape
  exact arguments_bind_comm (hoperands shape) _

theorem draws_paint (count : Nat) (v : Version) (p : Nat) : Draws [.start] (paint count v p) := by
  refine ⟨_, popMany count, fun args a => .ok (.paint a.start (args.map Expr.unmarked)),
    .popMany count, fun args => ?_, arguments_bind_comm (.popMany count) _⟩
  exact takes_start (fun _ => rfl) fun _ _ h => (Statement.paint.inj h).1

theorem draws_setPoint (keyword : String) (withColor : Bool) (v : Version) (p : Nat) :
    Draws [.start] (setPoint keyword withColor v p) := by
  have hform : setPoint keyword withColor v p = arguments >>= fun a =>
      optional withColor >>= fun color => put (.pset keyword a.start color) := by
    cases withColor <;> rfl
  rw [hform, arguments_bind_comm (composed_optional withColor)]
  refine ⟨_, _, fun color a => .ok (.pset keyword a.start color), composed_optional withColor,
    fun color => ?_, rfl⟩
  exact takes_start (fun _ => rfl) fun _ _ h => (Statement.pset.inj h).2.1

/-- `GET` for pictures. -/
theorem draws_getImage :
    Draws [.start, .stop] (arguments >>= fun a => pop >>= fun array =>
      put (.getImage a.start a.stop array)) := by
  refine ⟨_, pop, fun array a => .ok (.getImage a.start a.stop array), .pop, fun array => ?_,
    arguments_bind_comm .pop _⟩
  exact takes_corners (fun _ _ => rfl) fun _ _ _ _ h =>
    ⟨(Statement.getImage.inj h).1, (Statement.getImage.inj h).2.1⟩

/-- The picture of a `PUT` and what becomes of the points that are there, the code of which comes
first. -/
def imageOperands (action : Nat) : Decode (Expr × Option String) := do
  let array ← pop
  if action = 0xFFFF then return (array, none)
  else return (array, ← some <$> choose imageActions action)

/-- `PUT` for pictures. -/
theorem draws_putImage {handler : Handler} (h : table.lookup 0x00B5 = some handler) (v : Version)
    (p : Nat) : Draws [.start] (handler v p) := by
  have hoperands : ∀ action, Composed none (imageOperands action) := fun action => by
    refine .bind .pop fun array => ?_
    split
    · exact .pure _
    · exact .bind (.map _ (composed_choose _ _)) fun _ => .pure _
  have hform : handler v p = word >>= fun action => arguments >>= fun a =>
      imageOperands action >>= fun b => put (.putImage a.start b.1 b.2) := by
    cases h
    simp only [always, imageOperands, bind_assoc]
    congr 1
    funext action
    congr 1
    funext a
    congr 1
    funext array
    split <;> simp only [bind_assoc, pure_bind]
  refine ⟨_, word >>= imageOperands, fun b a => .ok (.putImage a.start b.1 b.2),
    .bind .word hoperands, fun b => ?_, ?_⟩
  · exact takes_start (fun _ => rfl) fun _ _ h => (Statement.putImage.inj h).1
  · rw [hform, bind_assoc]
    congr 1
    funext action
    exact arguments_bind_comm (hoperands action) _

/-! ### The table -/

theorem gives_point (step : Bool) (v : Version) (p : Nat) : Gives .start (startPoint step v p) :=
  ⟨point step, composed_point step, rfl⟩

theorem gives_stopPoint (step : Bool) (v : Version) (p : Nat) : Gives .stop (stopPoint step v p) :=
  ⟨point step, composed_point step, rfl⟩

theorem describes_uses : ∀ entry ∈ uses, ∃ handler, table.lookup entry.1 = some handler ∧
    ∀ v p, entry.2.Describes (handler v p) := by
  simp only [uses, List.forall_mem_cons, List.not_mem_nil, false_implies, implies_true, and_true]
  exact ⟨⟨_, rfl, fun _ _ => ⟨pop, .pop, rfl⟩⟩, ⟨_, rfl, fun _ _ => ⟨pop, .pop, rfl⟩⟩,
    ⟨_, rfl, fun _ _ => ⟨pop, .pop, rfl⟩⟩, ⟨_, rfl, gives_point false⟩, ⟨_, rfl, gives_point true⟩,
    ⟨_, rfl, gives_stopPoint false⟩, ⟨_, rfl, gives_stopPoint true⟩,
    ⟨_, rfl, draws_circle false⟩, ⟨_, rfl, draws_circle true⟩,
    ⟨_, rfl, fun _ _ => draws_getImage⟩, ⟨_, rfl, draws_putImage rfl⟩,
    ⟨_, rfl, draws_drawLine false false⟩, ⟨_, rfl, draws_drawLine true false⟩,
    ⟨_, rfl, draws_drawLine false true⟩, ⟨_, rfl, draws_drawLine true true⟩,
    ⟨_, rfl, draws_paint 2⟩, ⟨_, rfl, draws_paint 3⟩,
    ⟨_, rfl, draws_setPoint "PRESET" false⟩, ⟨_, rfl, draws_setPoint "PRESET" true⟩,
    ⟨_, rfl, draws_setPoint "PSET" false⟩, ⟨_, rfl, draws_setPoint "PSET" true⟩⟩

/-- An instruction uses operands under a name as the table says. -/
theorem describes_perform {v : Version} {w : Nat} {use : Use}
    (h : (operation v w).use? = some use) : use.Describes (perform v w) := by
  unfold perform
  cases hop : operation v w with
  | common code p =>
    rw [hop, Operation.use?] at h
    obtain ⟨handler, hhandler, hdescribes⟩ := describes_uses _ (mem_of_lookup_eq_some h)
    dsimp only at hhandler ⊢
    rw [hhandler]
    exact hdescribes v p
  | dimension => rw [hop] at h; cases h
  | dimensionArray type => rw [hop] at h; cases h
  | undefined => rw [hop] at h; cases h

/-- The instructions with an effect on operands under a name are those of the table. -/
theorem exists_use {op : Operation} (h : op.effect? = some .arguments) :
    ∃ use, op.use? = some use := by
  have hall : ∀ entry ∈ effects, entry.2 = .arguments → (uses.lookup entry.1).isSome = true := by
    decide
  cases op with
  | common code p =>
    have hmem : (code, Effect.arguments) ∈ effects := mem_of_lookup_eq_some h
    exact Option.isSome_iff_exists.mp (hall _ hmem rfl)
  | dimension | dimensionArray type | undefined => cases h

end Instruction

end SavedBasic
