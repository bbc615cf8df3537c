import MonkeySyntax.Parsing.Run

/-! Everything that a parser can be asked to read, as one type of phrases indexed by the form of the
tree they give, and every rule in terms of the states its parts reach. The parts are arbitrary: an
equation of this module speaks of one rule and opens no other. -/
namespace MonkeySyntax

inductive Form where
  | name | expression | statement
  | list (item : Form)

@[reducible] def Form.Tree : Form → Type
  | name => String
  | expression => Expr
  | statement => Stmt
  | list item => List item.Tree

/-- What is listed between parentheses, separated by commas. -/
inductive Items : Form → Type where
  | parameters : Items .name
  | arguments : Items .expression

inductive Phrase : Form → Type where
  | start (rule : StartRule) : Phrase .expression
  | expression (floor : Precedence) : Phrase .expression
  | continuation (floor : Precedence) (left : Expr) : Phrase .expression
  | extend (left : Expr) (rule : ContinuationRule) : Phrase .expression
  | items {item : Form} (items : Items item) : Phrase (.list item)
  | enclosed {item : Form} (items : Items item) : Phrase (.list item)
  | block : Phrase (.list .statement)
  | statements (extent : Extent) : Phrase (.list .statement)
  | statement : Phrase .statement
  | statementBy (rule : StatementRule) : Phrase .statement

def Parts.items (parts : Parts) : {item : Form} → Items item → Parse (List item.Tree)
  | _, .parameters => parts.parameters
  | _, .arguments => parts.arguments

def Parts.parse (parts : Parts) : {form : Form} → Phrase form → Parse form.Tree
  | _, .start rule => parts.start rule
  | _, .expression floor => parts.expression floor
  | _, .continuation floor left => parts.continuation floor left
  | _, .extend left rule => parts.extend left rule
  | _, .items items => parts.items items
  | _, .enclosed items => parenthesized (parts.items items)
  | _, .block => parts.block
  | _, .statements extent => parts.statements extent
  | _, .statement => parts.statement
  | _, .statementBy rule => parts.runStatement rule

/-- What the table says of the kind, by default an expression. -/
def Grammar.statementRule (grammar : Grammar) (kind : Kind) : StatementRule :=
  (grammar.statement kind).getD .expression

namespace Parse

variable {value : α} {before after : Parser} {step : Parse α}

theorem bind_eq_built {next : α → Parse β} {value : β} :
    (step >>= next) before = .built value after ↔
      ∃ first middle, step before = .built first middle ∧
        next first middle = .built value after := by
  rw [bind_apply]
  constructor
  · intro run
    split at run
    · exact ⟨_, _, ‹_›, run⟩
    · contradiction
    · contradiction
  · rintro ⟨first, middle, run, rest⟩
    rw [run]
    exact rest

theorem pure_eq_built {given : α} :
    (pure given : Parse α) before = .built value after ↔ given = value ∧ before = after := by
  rw [pure_apply, Outcome.built.injEq]

theorem read_bind (view : Parser → α) (next : α → Parse β) (parser : Parser) :
    (read view >>= next) parser = next (view parser) parser := rfl

theorem update_bind (change : Parser → Parser) (next : Unit → Parse β) (parser : Parser) :
    (update change >>= next) parser = next () (change parser) := rfl

theorem advance_bind (next : Unit → Parse β) (parser : Parser) :
    (advance >>= next) parser = next () parser.advance := rfl

theorem expect_eq_built {kind : Kind} {value : Unit} :
    expect kind before = .built value after ↔
      before.ahead.kind = kind ∧ before.advance = after := by
  by_cases met : before.ahead.kind = kind
  · simp [expect_of_eq met, met]
  · simp [expect_of_ne met, met]

theorem expect_bind_eq_built {kind : Kind} {next : Unit → Parse β} {value : β} :
    (expect kind >>= next) before = .built value after ↔
      before.ahead.kind = kind ∧ next () before.advance = .built value after := by
  simp only [bind_eq_built, expect_eq_built]
  constructor
  · rintro ⟨_, _, ⟨met, rfl⟩, rest⟩
    exact ⟨met, rest⟩
  · rintro ⟨met, rest⟩
    exact ⟨(), _, ⟨met, rfl⟩, rest⟩

theorem fail_ne_built {fault : Fault} : (fail fault : Parse α) before ≠ .built value after := by
  simp [fail, update, abandon, bind_apply]

/-- The state behind a token of the kind, if one is ahead. -/
def skipped (kind : Kind) (parser : Parser) : Parser :=
  if parser.ahead.kind = kind then parser.advance else parser

theorem skip_apply (kind : Kind) (parser : Parser) :
    skip kind parser = .built () (skipped kind parser) := by
  simp only [skip, aheadKind, read_bind, skipped]
  split <;> rfl

theorem skip_bind (kind : Kind) (next : Unit → Parse β) (parser : Parser) :
    (skip kind >>= next) parser = next () (skipped kind parser) :=
  bind_of_built (skip_apply kind parser) next

theorem attempt_bind_eq_built {next : Option α → Parse β} {value : β} :
    (attempt step >>= next) before = .built value after ↔
      (∃ tree middle, step before = .built tree middle ∧
        next (some tree) middle = .built value after) ∨
      ∃ middle, step before = .abandoned middle ∧ next none middle = .built value after := by
  simp only [bind_apply, attempt]
  cases run : step before with
  | built tree middle => simp only [Outcome.built.injEq, reduceCtorEq]; grind
  | abandoned middle => simp
  | unfinished => simp

theorem ensuring_skip_eq_built {kind : Kind} :
    ensuring (skip kind) step before = .built value after ↔
      ∃ middle, step before = .built value middle ∧ skipped kind middle = after := by
  simp only [ensuring, attempt_bind_eq_built, skip_bind, pure_eq_built]
  simp only [abandon, reduceCtorEq, and_false, exists_false, or_false]
  grind

/-- The step runs to its end, and a token of the kind behind it is passed. -/
theorem ensuring_skip_apply (kind : Kind) (step : Parse α) (parser : Parser) :
    ensuring (skip kind) step parser = (step parser).after (skipped kind) := by
  rw [ensuring, bind_apply, attempt]
  cases step parser with
  | built value middle => exact skip_bind kind _ middle
  | abandoned middle => exact skip_bind kind _ middle
  | unfinished => rfl

theorem traced_eq_built {label : String} :
    traced label step before = .built value after ↔
      ∃ final, step (before.enter label) = .built value final ∧ final.leave label = after := by
  rw [traced]
  cases step (before.enter label) with
  | built value final => simp only [Outcome.after_built, Outcome.built.injEq]; grind
  | abandoned final => simp
  | unfinished => simp [Outcome.after]

theorem nested_eq_built :
    nested step before = .built value after ↔
      before.depth < before.options.maxDepth ∧
        ∃ final, step before.deepen = .built value final ∧ final.surface = after := by
  by_cases room : before.depth < before.options.maxDepth
  · rw [nested_of_lt room]
    cases step before.deepen with
    | built value final => simp only [Outcome.after_built, Outcome.built.injEq]; grind
    | abandoned final => simp
    | unfinished => simp [Outcome.after]
  · have deep : before.options.maxDepth < before.depth + 1 := by omega
    simp [nested, room, deep, fail, update, abandon, bind_apply]

end Parse

namespace Parser

/-- The state inside an expression that begins here. -/
def opened (parser : Parser) : Parser := (parser.enter "parse_expression").deepen

/-- The state behind an expression that ends here. -/
def closed (parser : Parser) : Parser := parser.surface.leave "parse_expression"

/-- The state behind an expression that would have been deeper than allowed. -/
def refused (parser : Parser) : Parser :=
  ((parser.enter "parse_expression").report (.tooDeep parser.options.maxDepth)).leave
    "parse_expression"

end Parser

namespace Parts

open Parse

variable {parts : Parts} {before after : Parser}

section Expressions

variable {left value : Expr} {floor : Precedence}

theorem identifier_eq_built :
    identifier before = .built value after ↔
      .identifier before.current.literal = value ∧ before = after :=
  pure_eq_built

theorem integer_eq_built :
    integer before = .built value after ↔
      ∃ number,
        Text.numeralBelow? integerBound before.current.literal.toList = some number ∧
        .integer number before.current.literal = value ∧
        (before.enter "parse_integer_literal").leave "parse_integer_literal" = after := by
  simp only [integer, traced_eq_built, currentLiteral, read_bind]
  have literal : (before.enter "parse_integer_literal").current = before.current := rfl
  cases number : Text.numeralBelow? integerBound before.current.literal.toList with
  | none => simp [literal, number, fail_ne_built]
  | some number =>
    simp only [literal, number, pure_eq_built, Option.some.injEq]
    grind

theorem boolean_eq_built :
    boolean before = .built value after ↔
      .boolean (before.current.kind = .trueWord) = value ∧ before = after :=
  pure_eq_built

theorem unary_eq_built :
    parts.unary before = .built value after ↔
      ∃ operand final,
        parts.expression .unary (before.enter "parse_prefix_expression").advance =
          .built operand final ∧
        .unary before.current.literal operand = value ∧
        final.leave "parse_prefix_expression" = after := by
  have literal : (before.enter "parse_prefix_expression").current = before.current := rfl
  simp only [unary, traced_eq_built, currentLiteral, read_bind, advance_bind, literal,
    bind_eq_built, pure_eq_built]
  grind

theorem grouped_eq_built :
    parts.grouped before = .built value after ↔
      ∃ final, parts.expression .lowest before.advance = .built value final ∧
        final.ahead.kind = .rparen ∧ final.advance = after := by
  simp only [grouped, advance_bind, bind_eq_built, expect_eq_built, pure_eq_built]
  grind

theorem block_eq_built {statements : List Stmt} :
    parts.block before = .built statements after ↔
      parts.statements .block before.advance = .built statements after := by
  simp only [block, advance_bind]

theorem conditional_eq_built :
    parts.conditional before = .built value after ↔
      before.ahead.kind = .lparen ∧
      ∃ condition close consequence final,
        parts.expression .lowest before.advance.advance = .built condition close ∧
        close.ahead.kind = .rparen ∧ close.advance.ahead.kind = .lbrace ∧
        parts.block close.advance.advance = .built consequence final ∧
        ((final.ahead.kind ≠ .elseWord ∧ .conditional condition consequence none = value ∧
            final = after) ∨
          final.ahead.kind = .elseWord ∧ final.advance.ahead.kind = .lbrace ∧
            ∃ alternative, parts.block final.advance.advance = .built alternative after ∧
              .conditional condition consequence (some alternative) = value) := by
  simp only [conditional, expect_bind_eq_built, advance_bind]
  refine and_congr_right fun _ => ?_
  constructor
  · intro run
    obtain ⟨condition, close, first, run⟩ := bind_eq_built.mp run
    obtain ⟨closed, run⟩ := expect_bind_eq_built.mp run
    obtain ⟨opened, run⟩ := expect_bind_eq_built.mp run
    obtain ⟨consequence, final, second, run⟩ := bind_eq_built.mp run
    refine ⟨condition, close, consequence, final, first, closed, opened, second, ?_⟩
    simp only [aheadKind, read_bind] at run
    split at run
    · rename_i more
      obtain ⟨braced, run⟩ := expect_bind_eq_built.mp run
      obtain ⟨alternative, _, third, run⟩ := bind_eq_built.mp run
      obtain ⟨rfl, rfl⟩ := pure_eq_built.mp run
      exact .inr ⟨more, braced, alternative, third, rfl⟩
    · exact .inl ⟨‹_›, pure_eq_built.mp run⟩
  · rintro ⟨condition, close, consequence, final, first, closed, opened, second, last⟩
    refine bind_eq_built.mpr ⟨condition, close, first, expect_bind_eq_built.mpr ⟨closed, ?_⟩⟩
    refine expect_bind_eq_built.mpr ⟨opened, bind_eq_built.mpr ⟨consequence, final, second, ?_⟩⟩
    simp only [aheadKind, read_bind]
    rcases last with ⟨none, rfl, rfl⟩ | ⟨more, braced, alternative, third, rfl⟩
    · rw [if_neg none]
      rfl
    · rw [if_pos more]
      refine expect_bind_eq_built.mpr ⟨braced, bind_eq_built.mpr ⟨alternative, after, third, rfl⟩⟩

theorem function_eq_built :
    parts.function before = .built value after ↔
      before.ahead.kind = .lparen ∧
      ∃ parameters middle body,
        parenthesized parts.parameters before.advance = .built parameters middle ∧
        middle.ahead.kind = .lbrace ∧ parts.block middle.advance = .built body after ∧
        .function parameters body = value := by
  rw [function, expect_bind_eq_built]
  simp only [↓expect_bind_eq_built, bind_eq_built, pure_eq_built]
  grind

theorem binary_eq_built :
    parts.binary left before = .built value after ↔
      ∃ right final,
        parts.expression before.currentPrecedence (before.enter "parse_infix_expression").advance =
          .built right final ∧
        .binary left before.current.literal right = value ∧
        final.leave "parse_infix_expression" = after := by
  have literal : (before.enter "parse_infix_expression").current = before.current := rfl
  have strength : (before.enter "parse_infix_expression").currentPrecedence =
      before.currentPrecedence := rfl
  simp only [binary, traced_eq_built, currentLiteral, read_bind, advance_bind, literal, strength,
    bind_eq_built, pure_eq_built]
  grind

theorem call_eq_built :
    parts.call left before = .built value after ↔
      ∃ list, parenthesized parts.arguments before = .built list after ∧
        .call left list = value := by
  simp only [call, bind_eq_built, pure_eq_built]
  grind

theorem expressionAbove_eq_built :
    parts.expressionAbove floor before = .built value after ↔
      before.depth < before.options.maxDepth ∧
      ∃ rule left middle final, before.grammar.start before.current.kind = some rule ∧
        parts.start rule (before.enter "parse_expression").deepen = .built left middle ∧
        parts.continuation floor left middle = .built value final ∧
        final.surface.leave "parse_expression" = after := by
  have frame : (before.enter "parse_expression").depth = before.depth ∧
      (before.enter "parse_expression").options = before.options := ⟨rfl, rfl⟩
  have view : (before.enter "parse_expression").deepen.grammar.start
      (before.enter "parse_expression").deepen.current.kind =
        before.grammar.start before.current.kind := rfl
  simp only [expressionAbove, traced_eq_built, nested_eq_built, bind_eq_built, startHere,
    read_bind, frame, view]
  cases before.grammar.start before.current.kind with
  | none => simp [currentKind, read_bind, fail_ne_built]
  | some rule => simp only [Option.some.injEq]; grind

theorem expressionAbove_of_lt (room : before.depth < before.options.maxDepth) :
    parts.expressionAbove floor before =
      ((parts.startHere >>= parts.continuation floor) before.opened).after Parser.closed := by
  have inside : (before.enter "parse_expression").depth <
      (before.enter "parse_expression").options.maxDepth := room
  rw [expressionAbove, traced, nested_of_lt inside]
  change Outcome.after _ (((parts.startHere >>= parts.continuation floor) before.opened).after _) =
    _
  cases (parts.startHere >>= parts.continuation floor) before.opened <;> rfl

theorem expressionAbove_of_le (deep : before.options.maxDepth ≤ before.depth) :
    parts.expressionAbove floor before = .abandoned before.refused := by
  have inside : (before.enter "parse_expression").options.maxDepth <
      (before.enter "parse_expression").depth + 1 := Nat.lt_succ_of_le deep
  simp only [expressionAbove, traced, nested, if_pos inside]
  rfl

theorem continueAbove_eq_built :
    parts.continueAbove floor left before = .built value after ↔
      (before.grammar.tighter? floor before.ahead.kind = none ∧ left = value ∧ before = after) ∨
      ∃ rule extended middle, before.grammar.tighter? floor before.ahead.kind = some rule ∧
        parts.extend left rule before.advance = .built extended middle ∧
        parts.continuation floor extended middle = .built value after := by
  simp only [continueAbove, read_bind]
  cases before.grammar.tighter? floor before.ahead.kind with
  | none => simp
  | some rule => simp only [advance_bind, bind_eq_built, Option.some.injEq]; grind

end Expressions

section Lists

variable {α : Type} {items : Parse (List α)} {list : List α}

theorem parenthesized_eq_built :
    parenthesized items before = .built list after ↔
      (before.ahead.kind = .rparen ∧ [] = list ∧ before.advance = after) ∨
      before.ahead.kind ≠ .rparen ∧ ∃ final, items before = .built list final ∧
        final.ahead.kind = .rparen ∧ final.advance = after := by
  simp only [parenthesized, aheadKind, read_bind]
  by_cases closed : before.ahead.kind = .rparen
  · simp [closed, advance_bind]
  · simp only [if_neg closed, bind_eq_built, expect_eq_built, pure_eq_built]
    grind

theorem parameterList_eq_built {names : List String} :
    parts.parameterList before = .built names after ↔
      before.ahead.kind = .ident ∧
      ((before.advance.ahead.kind ≠ .comma ∧ [before.advance.current.literal] = names ∧
          before.advance = after) ∨
        before.advance.ahead.kind = .comma ∧
          ∃ rest, parts.parameters before.advance.advance = .built rest after ∧
            before.advance.current.literal :: rest = names) := by
  simp only [parameterList, expect_bind_eq_built, currentLiteral, aheadKind, read_bind]
  refine and_congr_right fun _ => ?_
  by_cases more : before.advance.ahead.kind = .comma
  · simp only [more, if_true, advance_bind, bind_eq_built, pure_eq_built]
    grind
  · simp [more]

theorem argumentList_eq_built {list : List Expr} :
    parts.argumentList before = .built list after ↔
      ∃ argument middle, parts.expression .lowest before.advance = .built argument middle ∧
        ((middle.ahead.kind ≠ .comma ∧ [argument] = list ∧ middle = after) ∨
          middle.ahead.kind = .comma ∧
            ∃ rest, parts.arguments middle.advance = .built rest after ∧
              argument :: rest = list) := by
  rw [argumentList, advance_bind, bind_eq_built]
  refine exists_congr fun argument => exists_congr fun middle => and_congr_right fun _ => ?_
  simp only [aheadKind, read_bind]
  by_cases more : middle.ahead.kind = .comma
  · simp only [more, if_true, advance_bind, bind_eq_built, pure_eq_built]
    grind
  · simp [more]

end Lists

section Statements

variable {value : Stmt}

theorem bindingStatement_eq_built :
    parts.bindingStatement before = .built value after ↔
      before.ahead.kind = .ident ∧ before.advance.ahead.kind = .assign ∧
      ∃ bound final,
        parts.expression .lowest before.advance.advance.advance = .built bound final ∧
        .binding before.advance.current.literal bound = value ∧
        skipped .semicolon final = after := by
  rw [bindingStatement, expect_bind_eq_built, currentLiteral, read_bind, expect_bind_eq_built,
    advance_bind]
  simp only [bind_eq_built, skip_bind, pure_eq_built]

theorem returnStatement_eq_built :
    parts.returnStatement before = .built value after ↔
      (endsReturn before.ahead.kind = true ∧ .returning none = value ∧
        skipped .semicolon before = after) ∨
      endsReturn before.ahead.kind = false ∧
        ∃ given final, parts.expression .lowest before.advance = .built given final ∧
          .returning (some given) = value ∧ skipped .semicolon final = after := by
  simp only [returnStatement, aheadKind, read_bind]
  cases endsReturn before.ahead.kind with
  | true =>
    simp only [if_true, skip_bind, pure_eq_built, true_and, reduceCtorEq, false_and, or_false]
  | false =>
    simp only [Bool.false_eq_true, if_false, advance_bind, bind_eq_built, skip_bind, pure_eq_built,
      false_and, true_and, false_or]

theorem expressionStatement_eq_built :
    parts.expressionStatement before = .built value after ↔
      ∃ given final,
        parts.expression .lowest (before.enter "parse_expression_statement") =
          .built given final ∧
        .expression given = value ∧
        (skipped .semicolon final).leave "parse_expression_statement" = after := by
  simp only [expressionStatement, traced_eq_built, bind_eq_built, ensuring_skip_eq_built,
    pure_eq_built]
  grind

theorem statementHere_apply (parser : Parser) :
    parts.statementHere parser =
      parts.runStatement (parser.grammar.statementRule parser.current.kind) parser := by
  simp only [statementHere, read_bind, Grammar.statementRule]
  cases parser.grammar.statement parser.current.kind <;> rfl

theorem statementList_eq_built {extent : Extent} {list : List Stmt} :
    parts.statementList extent before = .built list after ↔
      (extent.endsAt before.current.kind = true ∧ [] = list ∧ before = after) ∨
      extent.endsAt before.current.kind = false ∧
        ((∃ statement middle rest, parts.statement before = .built statement middle ∧
            parts.statements extent middle.advance = .built rest after ∧
            statement :: rest = list) ∨
          ∃ middle, parts.statement before = .abandoned middle ∧
            parts.statements extent middle.drop.advance = .built list after) := by
  simp only [statementList, currentKind, read_bind]
  cases extent.endsAt before.current.kind with
  | true => simp
  | false =>
    simp only [Bool.false_eq_true, if_false, false_and, true_and, false_or]
    rw [attempt_bind_eq_built]
    simp only [update_bind, advance_bind, bind_eq_built, pure_eq_built]
    grind

end Statements

end Parts

end MonkeySyntax
