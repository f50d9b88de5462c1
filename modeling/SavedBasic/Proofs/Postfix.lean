import SavedBasic.Proofs.Emission

/-!
# Expressions in postfix order

An expression is written in postfix order: the instructions of its operands one after another, and
behind them the instruction that makes the expression from its operands. `Makes` lists what single
instructions make from which operands, and `Postfix` puts them together. From version 4.5 on,
performing what was written takes exactly the bytes that were written and pushes exactly the
expression, whatever lies below it on the stack; lines, operands under a name and open function
definitions stay as they were.

The induction is over the way in which a list of expressions is written. The instructions behind an
expression do not matter to it, so the statement is about any stretch of instructions that starts
with it.
-/

namespace SavedBasic

open Decode Instruction

/-! ## What single instructions make -/

/-- What an instruction makes from operands, given in the order in which they were pushed. -/
inductive Makes (v : Version) (names : Nat → Except Fault Identifier) :
    (code parameter : Nat) → List Assembly.Operand → List Expr → Expr → Prop where
  /-- a small integer, which fits into the instruction word -/
  | small {n : Nat} (h : n < 64) : Makes v names 0x0164 n [] [] (.number n)
  | number {n : Nat} (h : n < 65536) : Makes v names 0x0165 0 [.word n] [] (.number n)
  | long {n : Nat} (h : n < 0x100000000) :
    Makes v names 0x0166 0 [.dword n] [] (.integer .decimal n true)
  | hexadecimal {n : Nat} (h : n < 65536) :
    Makes v names 0x0167 0 [.word n] [] (.integer .hexadecimal n false)
  | longHexadecimal {n : Nat} (h : n < 0x100000000) :
    Makes v names 0x0168 0 [.dword n] [] (.integer .hexadecimal n true)
  | octal {n : Nat} (h : n < 65536) : Makes v names 0x0169 0 [.word n] [] (.integer .octal n false)
  | longOctal {n : Nat} (h : n < 0x100000000) :
    Makes v names 0x016A 0 [.dword n] [] (.integer .octal n true)
  | string {text : Bytes} (h : text.length < 65536) :
    Makes v names 0x016D 0 [.text text] [] (.string text)
  | var {type offset : Nat} {id : Identifier} (h : Named v names type offset id) :
    Makes v names 0x000B type [.word offset] [] (.var id)
  /-- an array element; a count with its highest bit set would mean the array as a whole -/
  | element {type offset : Nat} {id : Identifier} {args : List Expr}
    (h : Named v names type offset id) (hcount : args.length < 0x8000) :
    Makes v names 0x000E type [.word args.length, .word offset] args (.element id args)
  | field {type offset : Nat} {id : Identifier} {record : Expr} (h : Named v names type offset id) :
    Makes v names 0x0011 type [.word offset] [record] (.field record (.var id))
  /-- an element of a field, whose record lies above the arguments -/
  | fieldElement {type offset : Nat} {id : Identifier} {args : List Expr} {record : Expr}
    (h : Named v names type offset id) (hcount : args.length < 65536) :
    Makes v names 0x0013 type [.word args.length, .word offset] (args ++ [record])
      (.field record (.element id args))
  | unary {code : Nat} {operator : String} {operand : Expr}
    (h : (code, operator) ∈ unaryOperators) :
    Makes v names code 0 [] [operand] (.unary operator operand)
  | binary {code : Nat} {operator : String} {left right : Expr}
    (h : (code, operator) ∈ binaryOperators) :
    Makes v names code 0 [] [left, right] (.binary operator left right)
  | parenthesized {inner : Expr} : Makes v names 0x016E 0 [] [inner] (.parenthesized inner)
  | convert {type : Nat} {scalar : Scalar} {operand : Expr} (h : v.scalar type = .ok scalar)
    (hstring : scalar ≠ .string) : Makes v names 0x0108 type [] [operand] (.convert operand scalar)
  | call {code : Nat} {name : String} {args : List Expr} (h : (code, name, args.length) ∈ functions)
    (hlast : code ≤ v.lastOpcode) : Makes v names code 0 [] args (.call name args)
  /-- a function with a word behind its opcode that means nothing -/
  | callWithWord {code ignored : Nat} {name : String} {args : List Expr}
    (h : (code, name, args.length) ∈ functionsWithWord) (hignored : ignored < 65536) :
    Makes v names code 0 [.word ignored] args (.call name args)
  | builtin {code : Nat} {name : String} (h : (code, name) ∈ plainFunctions)
    (hlast : code ≤ v.lastOpcode) : Makes v names code 0 [] [] (.builtin name)

/-- Expressions are written in postfix order: each as its operands with its instruction behind them. -/
inductive Postfix (v : Version) (names : Nat → Except Fault Identifier) :
    List Expr → List Assembly.Instr → Prop where
  /-- no expressions -/
  | nil : Postfix v names [] []
  /-- an expression, and the others behind it -/
  | cons {args es : List Expr} {e : Expr} {code parameter : Nat} {operands : List Assembly.Operand}
    {before behind : List Assembly.Instr} (hargs : Postfix v names args before)
    (he : Makes v names code parameter operands args e) (rest : Postfix v names es behind) :
    Postfix v names (e :: es) (before ++ ⟨code, parameter, operands⟩ :: behind)

/-! ## Handlers that push -/

/-- An action reads the given bytes, takes the given operands from the stack and pushes an
expression. -/
def Pushes (names : Nat → Except Fault Identifier) (m : Decode Unit) (text : Bytes) (args : List Expr)
    (e : Expr) : Prop :=
  ∀ src pos s below, s.identifierAt src = names → src.Holds pos text →
    s.stack = args.reverse ++ below → ∃ symbols,
      m.run src pos s = (.ok (), pos + text.length, { s with stack := e :: below, symbols := symbols })

variable {v : Version} {names : Nat → Except Fault Identifier}

/-- The operands of an instruction are popped together, in the order in which they were pushed. -/
theorem run_popMany_operands {s : State} {args below : List Expr} (h : s.stack = args.reverse ++ below)
    (src : Source) (pos : Nat) :
    (popMany args.length).run src pos s = (.ok args, pos, { s with stack := below }) := by
  rw [run_popMany, h, List.take_left' (List.length_reverse), List.reverse_reverse,
    List.drop_left' (List.length_reverse)]

theorem run_pop_operand {s : State} {e : Expr} {below : List Expr} (h : s.stack = e :: below)
    (src : Source) (pos : Nat) : pop.run src pos s = (.ok e, pos, { s with stack := below }) := by
  rw [run_pop, h]

/-- A literal is read and pushed. -/
theorem pushes_literal {α : Type} {read : Decode α} {a : α} {text : Bytes} {make : α → Expr}
    (hread : ∀ src pos s, src.Holds pos text → read.run src pos s = (.ok a, pos + text.length, s)) :
    Pushes names (read >>= fun a => push (make a)) text [] (make a) := by
  intro src pos s below _ hsrc hstack
  refine ⟨s.symbols, ?_⟩
  rw [run_bind_ok (hread src pos s hsrc), run_push, hstack]
  rfl

theorem pushes_push (e : Expr) : Pushes names (push e) [] [] e := by
  intro src pos s below _ _ hstack
  refine ⟨s.symbols, ?_⟩
  rw [run_push, hstack]
  rfl

theorem pushes_wrap (make : Expr → Expr) (operand : Expr) (parameter : Nat) :
    Pushes names (wrap make v parameter) [] [operand] (make operand) := by
  intro src pos s below _ _ hstack
  refine ⟨s.symbols, ?_⟩
  rw [wrap, always, run_bind_ok (run_pop_operand hstack src pos), run_push]
  rfl

theorem pushes_binary (operator : String) (left right : Expr) (parameter : Nat) :
    Pushes names (binary operator v parameter) [] [left, right] (.binary operator left right) := by
  intro src pos s below _ _ hstack
  refine ⟨s.symbols, ?_⟩
  have hpair : (popMany 2).run src pos s = (.ok [left, right], pos, { s with stack := below }) :=
    run_popMany_operands hstack src pos
  have hpop : popTwo.run src pos s = (.ok (left, right), pos, { s with stack := below }) := by
    rw [popTwo, run_bind_ok hpair]
    rfl
  rw [binary, always, run_bind_ok hpop, run_push]
  rfl

theorem pushes_convert {type : Nat} {scalar : Scalar} (h : v.scalar type = .ok scalar)
    (hstring : scalar ≠ .string) (operand : Expr) :
    Pushes names (convert v type) [] [operand] (.convert operand scalar) := by
  intro src pos s below _ _ hstack
  refine ⟨s.symbols, ?_⟩
  have hpop : pop.run src pos s = (.ok operand, pos, { s with stack := below }) :=
    run_pop_operand hstack src pos
  have hscalar : (given (v.scalar type)).run src pos { s with stack := below } =
      (.ok scalar, pos, { s with stack := below }) := by rw [run_given, h]
  rw [convert, run_bind_ok hpop, run_bind_ok hscalar]
  dsimp only
  rw [if_neg hstring, run_push]
  rfl

theorem pushes_function (name : String) (args : List Expr) :
    Pushes names (function name args.length) [] args (.call name args) := by
  intro src pos s below _ _ hstack
  refine ⟨s.symbols, ?_⟩
  rw [function, run_bind_ok (run_popMany_operands hstack src pos), run_push]
  rfl

/-- A word that means nothing is read behind what an action has done. -/
theorem pushes_thenWord {m : Decode Unit} {args : List Expr} {e : Expr} {ignored : Nat}
    (hm : Pushes names m [] args e) (hignored : ignored < 65536) :
    Pushes names (thenWord m) (Bytes.u16 ignored) args e := by
  intro src pos s below hnames hsrc hstack
  obtain ⟨symbols, hrun⟩ := hm src pos s below hnames (Source.holds_nil src pos) hstack
  refine ⟨symbols, ?_⟩
  rw [List.length_nil, Nat.add_zero] at hrun
  rw [thenWord, run_bind_ok hrun, skipWords, run_bind_ok (run_word_holds hignored hsrc _)]
  rfl

/-! ## Names -/

/-- A state that differs from one with a name noted in its operands only. -/
theorem noting_withStack (src : Source) (s : State) (offset : Nat) (stack : List Expr) :
    { s.noting src offset with stack := stack } =
      { s with stack := stack, symbols := (s.noting src offset).symbols } := by
  rw [State.noting_eq]

theorem pushes_variable {type offset : Nat} {id : Identifier} (h : Named v names type offset id) :
    Pushes names (identifierOf v type >>= fun id => push (.var id)) (Bytes.u16 offset) []
      (.var id) := by
  intro src pos s below hnames hsrc hstack
  subst hnames
  refine ⟨(s.noting src offset).symbols, ?_⟩
  rw [run_bind_ok (h.run_identifierOf hsrc), run_push, State.stack_noting, hstack, ← noting_withStack]
  rfl

theorem pushes_field {type offset : Nat} {id : Identifier} (h : Named v names type offset id)
    (record : Expr) :
    Pushes names (identifierOf v type >>= fun id => pop >>= fun record =>
      push (.field record (.var id))) (Bytes.u16 offset) [record] (.field record (.var id)) := by
  intro src pos s below hnames hsrc hstack
  subst hnames
  refine ⟨(s.noting src offset).symbols, ?_⟩
  rw [run_bind_ok (h.run_identifierOf hsrc),
    run_bind_ok (run_pop_operand ((s.stack_noting src offset).trans hstack) src _), run_push,
    ← noting_withStack]
  rfl

theorem pushes_element {type offset : Nat} {id : Identifier} {args : List Expr}
    (h : Named v names type offset id) (hcount : args.length < 0x8000) :
    Pushes names (element v type) (Bytes.u16 args.length ++ Bytes.u16 offset) args
      (.element id args) := by
  intro src pos s below hnames hsrc hstack
  subst hnames
  have hwidth : (Bytes.u16 args.length).length = 2 := Bytes.length_ofIntLE 2 _
  rw [Source.holds_append, hwidth] at hsrc
  have hbit : args.length.testBit 15 = false := Nat.testBit_lt_two_pow hcount
  refine ⟨(s.noting src offset).symbols, ?_⟩
  rw [element, run_bind_ok (run_word_holds (by omega) hsrc.1 s),
    run_bind_ok (h.run_identifierOf hsrc.2), hbit, if_neg (by decide),
    run_bind_ok (run_popMany_operands ((s.stack_noting src offset).trans hstack) src _), run_push,
    ← noting_withStack, List.length_append, hwidth]
  rfl

theorem pushes_fieldElement {type offset : Nat} {id : Identifier} {args : List Expr}
    (h : Named v names type offset id) (hcount : args.length < 65536) (record : Expr) :
    Pushes names (word >>= fun count => identifierOf v type >>= fun id => pop >>= fun record =>
      popMany count >>= fun args => push (.field record (.element id args)))
      (Bytes.u16 args.length ++ Bytes.u16 offset) (args ++ [record])
      (.field record (.element id args)) := by
  intro src pos s below hnames hsrc hstack
  subst hnames
  have hwidth : (Bytes.u16 args.length).length = 2 := Bytes.length_ofIntLE 2 _
  rw [Source.holds_append, hwidth] at hsrc
  rw [List.reverse_append, List.reverse_singleton, List.append_assoc, List.singleton_append] at hstack
  refine ⟨(s.noting src offset).symbols, ?_⟩
  rw [run_bind_ok (run_word_holds hcount hsrc.1 s), run_bind_ok (h.run_identifierOf hsrc.2),
    run_bind_ok (run_pop_operand ((s.stack_noting src offset).trans hstack) src _),
    run_bind_ok (run_popMany_operands rfl src _), run_push, List.length_append, hwidth]
  exact congrArg (fun t => (Except.ok (), _, t)) (noting_withStack src s offset _)

/-! ## Every instruction of an expression does what it makes -/

theorem lookup_operators {code : Nat} {handler : Handler} (h : (code, handler) ∈ operators) :
    table.lookup code = some handler := by
  apply lookup_table
  simp only [table, List.mem_append, h, or_true, true_or]

theorem lookup_builtins {code : Nat} {handler : Handler} (h : (code, handler) ∈ builtins) :
    table.lookup code = some handler := by
  apply lookup_table
  simp only [table, List.mem_append, h, or_true]

theorem lookup_unary {code : Nat} {operator : String} (h : (code, operator) ∈ unaryOperators) :
    table.lookup code = some (wrap (.unary operator)) := by
  apply lookup_operators
  simp only [operators, List.mem_append]
  exact .inl (.inr (List.mem_map.mpr ⟨_, h, rfl⟩))

theorem lookup_binary {code : Nat} {operator : String} (h : (code, operator) ∈ binaryOperators) :
    table.lookup code = some (binary operator) := by
  apply lookup_operators
  simp only [operators, List.mem_append]
  exact .inl (.inl (List.mem_map.mpr ⟨_, h, rfl⟩))

theorem lookup_function {code count : Nat} {name : String} (h : (code, name, count) ∈ functions) :
    table.lookup code = some (always (function name count)) := by
  apply lookup_builtins
  have hmem : ∃ c n k, (c, n, k) ∈ functions ∧
      (c, always (function n k)) = (code, always (function name count)) := ⟨_, _, _, h, rfl⟩
  simp only [builtins, List.mem_append, List.mem_map, Prod.exists, hmem, true_or]

theorem lookup_functionWithWord {code count : Nat} {name : String}
    (h : (code, name, count) ∈ functionsWithWord) :
    table.lookup code = some (always (thenWord (function name count))) := by
  apply lookup_builtins
  have hmem : ∃ c n k, (c, n, k) ∈ functionsWithWord ∧
      (c, always (thenWord (function n k))) = (code, always (thenWord (function name count))) :=
    ⟨_, _, _, h, rfl⟩
  simp only [builtins, List.mem_append, List.mem_map, Prod.exists, hmem, true_or, or_true]

theorem lookup_plainFunction {code : Nat} {name : String} (h : (code, name) ∈ plainFunctions) :
    table.lookup code = some (always (push (.builtin name))) := by
  apply lookup_builtins
  have hmem : ∃ c n, (c, n) ∈ plainFunctions ∧
      (c, always (push (.builtin n))) = (code, always (push (.builtin name))) := ⟨_, _, h, rfl⟩
  simp only [builtins, List.mem_append, List.mem_map, Prod.exists, hmem, true_or, or_true]

theorem operandBytes_singleton (o : Assembly.Operand) : Assembly.operandBytes [o] = o.bytes :=
  List.append_nil _

theorem operandBytes_pair (o o' : Assembly.Operand) :
    Assembly.operandBytes [o, o'] = o.bytes ++ o'.bytes :=
  congrArg (o.bytes ++ ·) (List.append_nil _)

theorem run_word_literal {n : Nat} (h : n < 65536) (src : Source) (pos : Nat) (s : State)
    (hsrc : src.Holds pos (Bytes.u16 n)) :
    word.run src pos s = (.ok n, pos + (Bytes.u16 n).length, s) := by
  rw [run_word_holds h hsrc, Bytes.u16, Bytes.length_ofIntLE]

theorem run_dword_literal {n : Nat} (h : n < 0x100000000) (src : Source) (pos : Nat) (s : State)
    (hsrc : src.Holds pos (Bytes.u32 n)) :
    dword.run src pos s = (.ok n, pos + (Bytes.u32 n).length, s) := by
  rw [run_dword_holds h hsrc, Bytes.u32, Bytes.length_ofIntLE]

/-- The handler of an instruction makes what the instruction makes. -/
theorem Makes.handled {code parameter : Nat} {operands : List Assembly.Operand} {args : List Expr}
    {e : Expr} (h : Makes v names code parameter operands args e) :
    ∃ handler, table.lookup code = some handler ∧
      Pushes names (handler v parameter) (Assembly.operandBytes operands) args e := by
  cases h with
  | small _ => exact ⟨_, rfl, pushes_push _⟩
  | number h =>
    rw [operandBytes_singleton]
    exact ⟨_, rfl, pushes_literal (run_word_literal h)⟩
  | long h =>
    rw [operandBytes_singleton]
    exact ⟨_, rfl, pushes_literal (run_dword_literal h)⟩
  | hexadecimal h =>
    rw [operandBytes_singleton]
    exact ⟨_, rfl, pushes_literal (run_word_literal h)⟩
  | longHexadecimal h =>
    rw [operandBytes_singleton]
    exact ⟨_, rfl, pushes_literal (run_dword_literal h)⟩
  | octal h =>
    rw [operandBytes_singleton]
    exact ⟨_, rfl, pushes_literal (run_word_literal h)⟩
  | longOctal h =>
    rw [operandBytes_singleton]
    exact ⟨_, rfl, pushes_literal (run_dword_literal h)⟩
  | string h =>
    rw [operandBytes_singleton]
    exact ⟨_, rfl, pushes_literal fun src pos s hsrc => run_packed_holds h hsrc s⟩
  | var h =>
    rw [operandBytes_singleton]
    exact ⟨_, rfl, pushes_variable h⟩
  | element h hcount =>
    rw [operandBytes_pair]
    exact ⟨_, rfl, pushes_element h hcount⟩
  | field h =>
    rw [operandBytes_singleton]
    exact ⟨_, rfl, pushes_field h _⟩
  | fieldElement h hcount =>
    rw [operandBytes_pair]
    exact ⟨_, rfl, pushes_fieldElement h hcount _⟩
  | unary h => exact ⟨_, lookup_unary h, pushes_wrap _ _ _⟩
  | binary h => exact ⟨_, lookup_binary h, pushes_binary _ _ _ _⟩
  | parenthesized => exact ⟨_, rfl, pushes_wrap (v := v) .parenthesized _ 0⟩
  | convert h hstring => exact ⟨_, rfl, pushes_convert h hstring _⟩
  | call h _ => exact ⟨_, lookup_function h, pushes_function _ _⟩
  | callWithWord h hignored =>
    rw [operandBytes_singleton]
    exact ⟨_, lookup_functionWithWord h, pushes_thenWord (pushes_function _ _) hignored⟩
  | builtin h _ => exact ⟨_, lookup_plainFunction h, pushes_push _⟩

theorem lastOpcode_le (hv : v ≠ .qb40) : 0x017D ≤ v.lastOpcode := by
  cases v <;> first | exact absurd rfl hv | decide

/-- Every instruction of an expression is available. -/
theorem Makes.le_lastOpcode (hv : v ≠ .qb40) {code parameter : Nat}
    {operands : List Assembly.Operand} {args : List Expr} {e : Expr}
    (h : Makes v names code parameter operands args e) : code ≤ v.lastOpcode := by
  have hlast := lastOpcode_le hv
  have hunary : ∀ entry ∈ unaryOperators, entry.1 ≤ 0x017D := by decide
  have hbinary : ∀ entry ∈ binaryOperators, entry.1 ≤ 0x017D := by decide
  have hword : ∀ entry ∈ functionsWithWord, entry.1 ≤ 0x017D := by decide
  cases h with
  | unary h => exact Nat.le_trans (hunary _ h) hlast
  | binary h => exact Nat.le_trans (hbinary _ h) hlast
  | callWithWord h _ => exact Nat.le_trans (hword _ h) hlast
  | call _ hcode => exact hcode
  | builtin _ hcode => exact hcode
  | _ => omega

theorem Makes.parameter_lt {code parameter : Nat} {operands : List Assembly.Operand}
    {args : List Expr} {e : Expr} (h : Makes v names code parameter operands args e) :
    parameter < 64 := by
  cases h with
  | small h => exact h
  | var h => exact h.type_lt
  | element h _ => exact h.type_lt
  | field h => exact h.type_lt
  | fieldElement h _ => exact h.type_lt
  | convert h _ => exact (scalar_ok h).2
  | _ => decide

theorem Makes.isName_eq_false {code parameter : Nat} {operands : List Assembly.Operand}
    {args : List Expr} {e : Expr} (h : Makes v names code parameter operands args e) :
    ∀ o ∈ operands, o.isName = false := by
  cases h <;> simp [Assembly.Operand.isName]

/-- Where an instruction of an expression was written, performing it takes exactly its bytes and
makes what it makes. -/
theorem Makes.run_step (hv : v ≠ .qb40) {code parameter : Nat} {operands : List Assembly.Operand}
    {args below : List Expr} {e : Expr} (h : Makes v names code parameter operands args e)
    {src : Source} {pos : Nat} {s : State} (hnames : s.identifierAt src = names)
    (hsrc : src.Holds pos (Assembly.Instr.bytes ⟨code, parameter, operands⟩))
    (hstack : s.stack = args.reverse ++ below) :
    ∃ symbols, (step v).run src pos s =
      (.ok (), pos + (Assembly.Instr.bytes ⟨code, parameter, operands⟩).length,
        { s with stack := e :: below, symbols := symbols }) := by
  obtain ⟨handler, hlookup, hpushes⟩ := h.handled
  have hlast := h.le_lastOpcode hv
  have hcode : code < 1024 := by
    have : v.lastOpcode < 1024 := by cases v <;> decide
    omega
  obtain ⟨symbols, hrun⟩ := hpushes src (pos + 2) s below hnames (holds_operands hsrc) hstack
  refine ⟨symbols, ?_⟩
  have hwidth : (Bytes.u16 (Assembly.instructionWord code parameter)).length = 2 :=
    Bytes.length_ofIntLE 2 _
  rw [run_step_written hv hlookup hcode hlast h.parameter_lt hsrc, hrun, Assembly.Instr.bytes,
    List.length_append, hwidth, Nat.add_assoc]

/-! ## Whole expressions -/

/-- No instruction of an expression has an operand that is written through the identifier table. -/
theorem Postfix.isName_eq_false {es : List Expr} {code : List Assembly.Instr}
    (h : Postfix v names es code) : ∀ i ∈ code, ∀ o ∈ i.operands, o.isName = false := by
  induction h with
  | nil => exact fun i hi => absurd hi List.not_mem_nil
  | cons _ he _ ihargs ihrest =>
    intro i hi
    rcases List.mem_append.mp hi with hbefore | hi
    · exact ihargs i hbefore
    · rcases List.mem_cons.mp hi with rfl | hbehind
      · exact he.isName_eq_false
      · exact ihrest i hbehind

/-- What was written for expressions is performed before anything behind it, and pushes them. -/
theorem Postfix.run_instructions (hv : v ≠ .qb40) {es : List Expr} {code : List Assembly.Instr}
    (h : Postfix v names es code) {src : Source} {pos fin : Nat} {s : State}
    (hnames : s.identifierAt src = names) (hsrc : src.Holds pos (Assembly.codeBytes code))
    (hfin : pos + (Assembly.codeBytes code).length ≤ fin) :
    ∃ s', (instructions v fin).run src pos s =
        (instructions v fin).run src (pos + (Assembly.codeBytes code).length) s' ∧
      s' = { s with stack := es.reverse ++ s.stack, symbols := s'.symbols } ∧
      s'.identifierAt src = names := by
  induction h generalizing pos s with
  | nil => exact ⟨s, rfl, rfl, hnames⟩
  | @cons args es e code parameter operands before behind hargs he hrest ihargs ihrest =>
    rw [Assembly.codeBytes_append, Assembly.codeBytes_cons] at hsrc hfin ⊢
    rw [Source.holds_append, Source.holds_append] at hsrc
    rw [List.length_append, List.length_append] at hfin ⊢
    obtain ⟨hbefore, hinstr, hbehind⟩ := hsrc
    obtain ⟨s₁, hrun₁, hs₁, hnames₁⟩ := ihargs hnames hbefore (by omega)
    -- the operands lie on the stack, and the instruction makes the expression from them
    have hstack : s₁.stack = args.reverse ++ s.stack := by rw [hs₁]
    obtain ⟨symbols, hstep⟩ := he.run_step hv hnames₁ hinstr hstack
    have hchanges := changes_step v src (pos + (Assembly.codeBytes before).length) s₁
    rw [hstep] at hchanges
    have hnames₂ := (identifierAt_congr hchanges.nameAt).trans hnames₁
    obtain ⟨s₃, hrun₃, hs₃, hnames₃⟩ := ihrest hnames₂ hbehind (by omega)
    have hlt : pos + (Assembly.codeBytes before).length < fin := by
      have := lt_pos_of_run_step hstep
      omega
    refine ⟨s₃, ?_, ?_, hnames₃⟩
    · rw [hrun₁, run_instructions_of_lt hlt, run_bind_ok hstep, hrun₃, Nat.add_assoc, Nat.add_assoc]
    · rw [hs₃, hs₁, List.reverse_cons, List.append_assoc]
      rfl

/-- **Expressions are rebuilt exactly.** From version 4.5 on, an expression is always written,
whatever is in the identifier table. Wherever its bytes stand in a file whose table has its names,
and from every state, performing them takes exactly these bytes and pushes exactly the expression.
Nothing else changes, but for names that have been looked up; they stay what they were. -/
theorem instructions_push_expression (hv : v.atLeast .qb45) {e : Expr} {code : List Assembly.Instr}
    (h : Postfix v names [e] code) :
    ∃ bytes, (∀ area, Assembly.write code area = .ok (bytes, area)) ∧
      ∀ (src : Source) (pos : Nat) (s : State), s.identifierAt src = names → src.Holds pos bytes →
        ∃ s', (instructions v (pos + bytes.length)).run src pos s = (.ok (), pos + bytes.length, s') ∧
          s' = { s with stack := e :: s.stack, symbols := s'.symbols } ∧
          s'.identifierAt src = names := by
  have hv' : v ≠ .qb40 := by
    rintro rfl
    exact absurd hv (by decide)
  refine ⟨Assembly.codeBytes code, Assembly.write_eq h.isName_eq_false,
    fun src pos s hnames hsrc => ?_⟩
  obtain ⟨s', hrun, hs', hnames'⟩ := h.run_instructions hv' hnames hsrc (Nat.le_refl _)
  rw [run_instructions_of_le (Nat.le_refl _)] at hrun
  exact ⟨s', hrun, hs', hnames'⟩

/-- The bytes of `-(A%(1) + LEN(A))`, where `A` is the first name of the identifier table. -/
def negatedSumBytes : Bytes :=
  [0x64, 0x05, 0x0E, 0x04, 0x01, 0x00, 0x00, 0x00, 0x0B, 0x00, 0x00, 0x00, 0x2D, 0x01, 0x00, 0x00,
   0x00, 0x01, 0x6E, 0x01, 0x78, 0x01]

/-- A file with these bytes right behind an identifier table of one name. -/
def negatedSumFile : Source :=
  .ofBytes (List.replicate 0x1C 0 ++ Key.namedEntry [0x41] ++ negatedSumBytes)

/-- The name `A`. -/
def nameA : Identifier :=
  { name := .bytes [0x41], isNumber := false, suffix := none }

/-- The expression `-(A%(1) + LEN(A))`. -/
def negatedSum : Expr :=
  .unary "-" (.parenthesized (.binary "+" (.element (nameA.withSuffix .integer) [.number 1])
    (.call "LEN" [.var nameA])))

/-- It is written as these bytes, and they push it. -/
theorem instructions_push_negatedSum :
    Version.atLeast .qb45 .qb45 ∧
    ∃ code, Postfix .qb45 ((State.start .qb45).identifierAt negatedSumFile) [negatedSum] code ∧
      Assembly.write code {} = .ok (negatedSumBytes, {}) ∧
      ∃ s', (instructions .qb45 0x38).run negatedSumFile 0x22 (.start .qb45) = (.ok (), 0x38, s') ∧
        s'.stack = [negatedSum] := by
  have hA : (State.start .qb45).identifierAt negatedSumFile 0 = .ok nameA := rfl
  have hminus : (0x0178, "-") ∈ unaryOperators := by decide
  have hplus : (0x0100, "+") ∈ binaryOperators := by decide
  have hlen : (0x012D, "LEN", [Expr.var nameA].length) ∈ functionsWithWord := by decide
  have hinteger : Version.scalar .qb45 (1 : Nat) = .ok .integer := rfl
  have hignored : 0 < 65536 := by decide
  have hcode : ∃ code,
      Postfix .qb45 ((State.start .qb45).identifierAt negatedSumFile) [negatedSum] code ∧
        Assembly.write code {} = .ok (negatedSumBytes, {}) :=
    ⟨_, .cons (.cons (.cons
      (.cons (.cons .nil (.small (by decide)) .nil)
        (.element (.suffixed (by decide) hinteger hA) (by decide))
        (.cons (.cons .nil (.var (.plain (by decide) rfl hA)) .nil)
          (.callWithWord hlen hignored) .nil))
      (.binary hplus) .nil) .parenthesized .nil) (.unary hminus) .nil, rfl⟩
  obtain ⟨code, hpostfix, hwrite⟩ := hcode
  obtain ⟨bytes, hbytes, hrun⟩ := instructions_push_expression (by decide) hpostfix
  have heq : bytes = negatedSumBytes := by
    have := (hbytes {}).symm.trans hwrite
    cases this
    rfl
  subst heq
  obtain ⟨s', hrun', hs', -⟩ := hrun negatedSumFile 0x22 (.start .qb45) rfl ⟨[], rfl⟩
  exact ⟨by decide, code, hpostfix, hwrite, s', hrun', by rw [hs']; rfl⟩

end SavedBasic
