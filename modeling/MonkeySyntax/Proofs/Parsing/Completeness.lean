import MonkeySyntax.Proofs.Parsing.Reads

/-! Every reading is what the rules do: on a parser that offers its terminals and has its room, the
phrase is built with the reading's tree, stops where the reading stops and records nothing. Each
lemma is one rule; the bound on the recursion is met because every rule that runs another one at the
same place comes later in a fixed order, and four steps are allowed for each terminal. -/
namespace MonkeySyntax

namespace Parser

variable {parser : Parser}

theorem following_of_ready {first : Terminal} {input : List Terminal}
    (ready : parser.current.kind ≠ .eof) (here : parser.remainingTerminals = first :: input) :
    parser.current.terminal = first ∧ parser.followingTerminals = input := by
  rw [remainingTerminals_of_ne ready] at here
  exact List.cons.inj here

theorem followingTerminals_skipped (parser : Parser) :
    (Parse.skipped .semicolon parser).followingTerminals =
      passSemicolon parser.followingTerminals := by
  rw [Parse.skipped]
  split
  · next met =>
    rw [followingTerminals_of_kind met (by decide)]
    simp [passSemicolon, met]
  · next other =>
    cases list : parser.followingTerminals with
    | nil => rfl
    | cons first rest =>
      have kind := headKind_followingTerminals parser
      rw [list, headKind_cons] at kind
      simp [passSemicolon, kind, other]

theorem diagnostics_skipped (kind : Kind) (parser : Parser) :
    (Parse.skipped kind parser).diagnostics = parser.diagnostics := by
  rw [Parse.skipped]
  split <;> rfl

end Parser

/-- The phrase is built from the input, quietly, wherever a parser offers it. -/
def Yields (bound : Nat) (grammar : Grammar) (room : Nat) (phrase : Phrase form)
    (input : List Terminal) (value : form.Tree) (rest : List Terminal) : Prop :=
  ∀ before : Parser, before.Poised grammar room → phrase.Ready before →
    phrase.input before = input →
    ∃ after, (Parts.within bound).parse phrase before = .built value after ∧
      after.followingTerminals = rest ∧ after.diagnostics = before.diagnostics

namespace Yields

open MonkeySyntax.Parser Parts

variable {bound room : Nat} {grammar : Grammar} {first opening close brace comma : Terminal}
  {input middle rest : List Terminal} {floor : Precedence} {left value : Expr}

theorem identifier : Yields bound grammar room (.start .identifier) (first :: rest)
    (.identifier first.literal) rest := by
  intro before poised ready here
  obtain ⟨rfl, ahead⟩ := following_of_ready ready here
  exact ⟨before, identifier_eq_built.mpr ⟨rfl, rfl⟩, ahead, rfl⟩

theorem integer {number : Nat}
    (fits : Text.numeralBelow? integerBound first.literal.toList = some number) :
    Yields bound grammar room (.start .integer) (first :: rest)
      (.integer number first.literal) rest := by
  intro before poised ready here
  obtain ⟨rfl, ahead⟩ := following_of_ready ready here
  exact ⟨_, integer_eq_built.mpr ⟨number, fits, rfl, rfl⟩, ahead, rfl⟩

theorem boolean : Yields bound grammar room (.start .boolean) (first :: rest)
    (.boolean (first.kind = .trueWord)) rest := by
  intro before poised ready here
  obtain ⟨rfl, ahead⟩ := following_of_ready ready here
  exact ⟨before, boolean_eq_built.mpr ⟨rfl, rfl⟩, ahead, rfl⟩

theorem unary (operand : Yields bound grammar room (.expression .unary) input value rest) :
    Yields bound grammar room (.start .unary) (first :: input)
      (.unary first.literal value) rest := by
  intro before poised ready here
  obtain ⟨rfl, ahead⟩ := following_of_ready ready here
  obtain ⟨final, run, left, quiet⟩ :=
    operand (before.enter "parse_prefix_expression").advance (poised.enter _).advance trivial
      ((remainingTerminals_advance _).trans ahead)
  exact ⟨_, unary_eq_built.mpr ⟨value, final, run, rfl, rfl⟩, left, quiet⟩

theorem grouped
    (inner : Yields bound grammar room (.expression .lowest) input value (close :: rest))
    (closed : close.kind = .rparen) :
    Yields bound grammar room (.start .grouped) (first :: input) value rest := by
  intro before poised ready here
  obtain ⟨rfl, ahead⟩ := following_of_ready ready here
  obtain ⟨final, run, left, quiet⟩ :=
    inner before.advance poised.advance trivial ((remainingTerminals_advance _).trans ahead)
  obtain ⟨met, after⟩ := advance_onto left closed (by decide)
  exact ⟨final.advance, grouped_eq_built.mpr ⟨final, run, met, rfl⟩, after, quiet⟩

theorem conditional {consequence : List Stmt} (opened : opening.kind = .lparen)
    (condition : Yields bound grammar room (.expression .lowest) input value
      (close :: brace :: middle))
    (closed : close.kind = .rparen) (braced : brace.kind = .lbrace)
    (block : Yields bound grammar room .block middle consequence rest)
    (last : headKind rest ≠ .elseWord) :
    Yields bound grammar room (.start .conditional) (first :: opening :: input)
      (.conditional value consequence none) rest := by
  intro before poised ready here
  obtain ⟨rfl, ahead⟩ := following_of_ready ready here
  obtain ⟨open', ahead⟩ := advance_onto ahead opened (by decide)
  obtain ⟨tested, run, left, quiet⟩ := condition before.advance.advance poised.advance.advance
    trivial ((remainingTerminals_advance _).trans ahead)
  have there := poised.advance.advance.built run
  obtain ⟨close', left⟩ := advance_onto left closed (by decide)
  obtain ⟨brace', left⟩ := advance_onto left braced (by decide)
  obtain ⟨final, body, left, quiet'⟩ := block tested.advance.advance there.advance.advance
    trivial left
  rw [← left, headKind_followingTerminals] at last
  exact ⟨final, conditional_eq_built.mpr ⟨open', value, tested, consequence, final, run, close',
    brace', body, .inl ⟨last, rfl, rfl⟩⟩, left, quiet'.trans quiet⟩

theorem alternative {consequence other : List Stmt} {word brace' : Terminal}
    {last : List Terminal} (opened : opening.kind = .lparen)
    (condition : Yields bound grammar room (.expression .lowest) input value
      (close :: brace :: middle))
    (closed : close.kind = .rparen) (braced : brace.kind = .lbrace)
    (block : Yields bound grammar room .block middle consequence (word :: brace' :: last))
    (more : word.kind = .elseWord) (braced' : brace'.kind = .lbrace)
    (block' : Yields bound grammar room .block last other rest) :
    Yields bound grammar room (.start .conditional) (first :: opening :: input)
      (.conditional value consequence (some other)) rest := by
  intro before poised ready here
  obtain ⟨rfl, ahead⟩ := following_of_ready ready here
  obtain ⟨open', ahead⟩ := advance_onto ahead opened (by decide)
  obtain ⟨tested, run, left, quiet⟩ := condition before.advance.advance poised.advance.advance
    trivial ((remainingTerminals_advance _).trans ahead)
  have there := poised.advance.advance.built run
  obtain ⟨close', left⟩ := advance_onto left closed (by decide)
  obtain ⟨first', left⟩ := advance_onto left braced (by decide)
  obtain ⟨between, body, left, quiet'⟩ := block tested.advance.advance there.advance.advance
    trivial left
  have there := there.advance.advance.built body
  obtain ⟨word', left⟩ := advance_onto left more (by decide)
  obtain ⟨second', left⟩ := advance_onto left braced' (by decide)
  obtain ⟨final, body', left, quiet''⟩ := block' between.advance.advance there.advance.advance
    trivial left
  exact ⟨final, conditional_eq_built.mpr ⟨open', value, tested, consequence, between, run, close',
    first', body, .inr ⟨word', second', other, body', rfl⟩⟩, left,
    quiet''.trans (quiet'.trans quiet)⟩

theorem function {parameters : List String} {body : List Stmt} (opened : opening.kind = .lparen)
    (names : Yields bound grammar room (.enclosed .parameters) input parameters (brace :: middle))
    (braced : brace.kind = .lbrace) (block : Yields bound grammar room .block middle body rest) :
    Yields bound grammar room (.start .function) (first :: opening :: input)
      (.function parameters body) rest := by
  intro before poised ready here
  obtain ⟨rfl, ahead⟩ := following_of_ready ready here
  obtain ⟨open', ahead⟩ := advance_onto ahead opened (by decide)
  obtain ⟨listed, run, left, quiet⟩ := names before.advance poised.advance trivial ahead
  have there := poised.advance.built run
  obtain ⟨brace', left⟩ := advance_onto left braced (by decide)
  obtain ⟨final, run', left, quiet'⟩ := block listed.advance there.advance trivial left
  exact ⟨final, function_eq_built.mpr ⟨open', parameters, listed, body, run, brace', run', rfl⟩,
    left, quiet'.trans quiet⟩

theorem binary
    (right : Yields bound grammar room (.expression (grammar.precedence first.kind)) input value
      rest) :
    Yields bound grammar room (.extend left .binary) (first :: input)
      (.binary left first.literal value) rest := by
  intro before poised ready here
  obtain ⟨rfl, ahead⟩ := following_of_ready ready here
  have strength : before.currentPrecedence = grammar.precedence before.current.kind := by
    rw [currentPrecedence, poised.grammar]
  obtain ⟨final, run, left, quiet⟩ :=
    right (before.enter "parse_infix_expression").advance (poised.enter _).advance trivial
      ((remainingTerminals_advance _).trans ahead)
  exact ⟨_, binary_eq_built.mpr ⟨value, final, strength ▸ run, rfl, rfl⟩, left, quiet⟩

theorem call {list : List Expr}
    (arguments : Yields bound grammar room (.enclosed .arguments) input list rest) :
    Yields bound grammar room (.extend left .call) (first :: input) (.call left list) rest := by
  intro before poised ready here
  obtain ⟨rfl, ahead⟩ := following_of_ready ready here
  obtain ⟨final, run, left, quiet⟩ := arguments before poised trivial ahead
  exact ⟨final, call_eq_built.mpr ⟨list, run, rfl⟩, left, quiet⟩

theorem expression {rule : StartRule} (grounded : grammar.Grounded)
    (begun : grammar.start first.kind = some rule)
    (start : Yields bound grammar room (.start rule) (first :: input) left middle)
    (tail : Yields bound grammar room (.continuation floor left) middle value rest) :
    Yields (bound + 1) grammar (room + 1) (.expression floor) (first :: input) value rest := by
  intro before poised _ here
  obtain ⟨deep, inside⟩ := (poised.enter "parse_expression").deepen
  have kind : before.current.kind = first.kind := by
    rw [← headKind_remainingTerminals]
    exact congrArg headKind here
  have ready : before.current.kind ≠ .eof := grounded.ne_eof_of_start (kind ▸ begun)
  obtain ⟨between, run, ahead, quiet⟩ := start _ inside ready here
  obtain ⟨final, run', left, quiet'⟩ := tail between (inside.built run) trivial ahead
  refine ⟨_, expressionAbove_eq_built.mpr ⟨deep, rule, _, between, final, ?_, run, run', rfl⟩,
    left, quiet'.trans quiet⟩
  rw [poised.grammar, kind, begun]

theorem stop (ends : grammar.tighter? floor (headKind rest) = none) :
    Yields (bound + 1) grammar room (.continuation floor left) rest left rest := by
  intro before poised _ here
  have kind : before.ahead.kind = headKind rest := by
    rw [← here]
    exact (headKind_followingTerminals before).symm
  refine ⟨before, continueAbove_eq_built.mpr (.inl ⟨?_, rfl, rfl⟩), here, rfl⟩
  rw [poised.grammar, kind, ends]

theorem extend {rule : ContinuationRule} {extended : Expr} (grounded : grammar.Grounded)
    (goes : grammar.tighter? floor first.kind = some rule)
    (step : Yields bound grammar room (.extend left rule) (first :: input) extended middle)
    (tail : Yields bound grammar room (.continuation floor extended) middle value rest) :
    Yields (bound + 1) grammar room (.continuation floor left) (first :: input) value rest := by
  intro before poised _ here
  have more : first.kind ≠ .eof := grounded.ne_eof_of_tighter goes
  obtain ⟨kind, _⟩ := advance_onto here rfl more
  obtain ⟨between, run, ahead, quiet⟩ := step before.advance poised.advance
    (kind ▸ more : before.ahead.kind ≠ .eof) ((remainingTerminals_advance _).trans here)
  obtain ⟨final, run', left, quiet'⟩ :=
    tail between (poised.advance.built run) trivial ahead
  refine ⟨final, continueAbove_eq_built.mpr (.inr ⟨rule, extended, between, ?_, run, run'⟩), left,
    quiet'.trans quiet⟩
  rw [poised.grammar, kind, goes]

section Lists

variable {item : Form} {items : Items item} {list : List item.Tree}

theorem empty (closed : close.kind = .rparen) :
    Yields bound grammar room (.enclosed items) (close :: rest) [] rest := by
  intro before poised _ here
  obtain ⟨close', left⟩ := advance_onto here closed (by decide)
  exact ⟨before.advance, parenthesized_eq_built.mpr (.inl ⟨close', rfl, rfl⟩), left, rfl⟩

theorem full (some : headKind input ≠ .rparen)
    (inside : Yields bound grammar room (.items items) input list (close :: rest))
    (closed : close.kind = .rparen) :
    Yields bound grammar room (.enclosed items) input list rest := by
  intro before poised _ here
  rw [← here] at some
  obtain ⟨final, run, left, quiet⟩ := inside before poised trivial here
  obtain ⟨close', left⟩ := advance_onto left closed (by decide)
  have more : before.ahead.kind ≠ .rparen := by
    rwa [← headKind_followingTerminals]
  exact ⟨final.advance, parenthesized_eq_built.mpr (.inr ⟨more, final, run, close', rfl⟩), left,
    quiet⟩

end Lists

theorem lastParameter (named : first.kind = .ident) (last : headKind rest ≠ .comma) :
    Yields (bound + 1) grammar room (.items .parameters) (first :: rest) [first.literal] rest := by
  intro before poised _ here
  obtain ⟨same, _⟩ := advance_of_cons here (by rw [named]; decide)
  obtain ⟨name, left⟩ := advance_onto here named (by decide)
  rw [← left, headKind_followingTerminals] at last
  have literal : before.advance.current.literal = first.literal := congrArg Terminal.literal same
  exact ⟨before.advance, parameterList_eq_built.mpr ⟨name, .inl ⟨last, by rw [literal], rfl⟩⟩,
    left, rfl⟩

theorem parameter {names : List String} (named : first.kind = .ident) (more : comma.kind = .comma)
    (others : Yields bound grammar room (.items .parameters) input names rest) :
    Yields (bound + 1) grammar room (.items .parameters) (first :: comma :: input)
      (first.literal :: names) rest := by
  intro before poised _ here
  obtain ⟨same, _⟩ := advance_of_cons here (by rw [named]; decide)
  obtain ⟨name, left⟩ := advance_onto here named (by decide)
  have literal : before.advance.current.literal = first.literal := congrArg Terminal.literal same
  obtain ⟨comma', left⟩ := advance_onto left more (by decide)
  obtain ⟨final, run, left, quiet⟩ := others _ poised.advance.advance trivial left
  exact ⟨final, parameterList_eq_built.mpr ⟨name, .inr ⟨comma', names, run, by rw [literal]⟩⟩,
    left, quiet⟩

theorem lastArgument (argument : Yields bound grammar room (.expression .lowest) input value rest)
    (last : headKind rest ≠ .comma) :
    Yields (bound + 1) grammar room (.items .arguments) input [value] rest := by
  intro before poised _ here
  obtain ⟨final, run, left, quiet⟩ := argument before.advance poised.advance trivial
    ((remainingTerminals_advance _).trans here)
  rw [← left, headKind_followingTerminals] at last
  exact ⟨final, argumentList_eq_built.mpr ⟨value, final, run, .inl ⟨last, rfl, rfl⟩⟩, left, quiet⟩

theorem argument {list : List Expr}
    (argument : Yields bound grammar room (.expression .lowest) input value (comma :: middle))
    (more : comma.kind = .comma)
    (others : Yields bound grammar room (.items .arguments) middle list rest) :
    Yields (bound + 1) grammar room (.items .arguments) input (value :: list) rest := by
  intro before poised _ here
  obtain ⟨between, run, left, quiet⟩ := argument before.advance poised.advance trivial
    ((remainingTerminals_advance _).trans here)
  have there := poised.advance.built run
  obtain ⟨comma', left⟩ := advance_onto left more (by decide)
  obtain ⟨final, run', left, quiet'⟩ := others between.advance there.advance trivial left
  exact ⟨final, argumentList_eq_built.mpr ⟨value, between, run, .inr ⟨comma', list, run', rfl⟩⟩,
    left, quiet'.trans quiet⟩

section Statements

variable {single : Stmt} {list : List Stmt} {extent : Extent}

theorem block (inside : Yields bound grammar room (.statements .block) input list rest) :
    Yields bound grammar room .block input list rest := by
  intro before poised _ here
  obtain ⟨final, run, left, quiet⟩ := inside before.advance poised.advance trivial
    ((remainingTerminals_advance _).trans here)
  exact ⟨final, block_eq_built.mpr run, left, quiet⟩

theorem binding {name sign : Terminal} (named : name.kind = .ident) (signed : sign.kind = .assign)
    (bound' : Yields bound grammar room (.expression .lowest) input value middle)
    (passed : passSemicolon middle = rest) :
    Yields bound grammar room (.statementBy .binding) (first :: name :: sign :: input)
      (.binding name.literal value) rest := by
  intro before poised ready here
  obtain ⟨rfl, ahead⟩ := following_of_ready ready here
  obtain ⟨same, _⟩ := advance_of_cons ahead (by rw [named]; decide)
  have literal : before.advance.current.literal = name.literal := congrArg Terminal.literal same
  obtain ⟨name', ahead⟩ := advance_onto ahead named (by decide)
  obtain ⟨sign', ahead⟩ := advance_onto ahead signed (by decide)
  obtain ⟨final, run, left, quiet⟩ := bound' _ poised.advance.advance.advance trivial
    ((remainingTerminals_advance _).trans ahead)
  refine ⟨_, bindingStatement_eq_built.mpr ⟨name', sign', value, final, run, by rw [literal], rfl⟩,
    ?_, (diagnostics_skipped _ _).trans quiet⟩
  rw [followingTerminals_skipped, left, passed]

theorem bareReturn (ends : endsReturn (headKind input) = true)
    (passed : passSemicolon input = rest) :
    Yields bound grammar room (.statementBy .returning) (first :: input) (.returning none)
      rest := by
  intro before poised ready here
  obtain ⟨rfl, ahead⟩ := following_of_ready ready here
  rw [← ahead, headKind_followingTerminals] at ends
  refine ⟨_, returnStatement_eq_built.mpr (.inl ⟨ends, rfl, rfl⟩), ?_, diagnostics_skipped _ _⟩
  rw [followingTerminals_skipped, ahead, passed]

theorem returning (goes : endsReturn (headKind input) = false)
    (given : Yields bound grammar room (.expression .lowest) input value middle)
    (passed : passSemicolon middle = rest) :
    Yields bound grammar room (.statementBy .returning) (first :: input)
      (.returning (some value)) rest := by
  intro before poised ready here
  obtain ⟨rfl, ahead⟩ := following_of_ready ready here
  rw [← ahead, headKind_followingTerminals] at goes
  obtain ⟨final, run, left, quiet⟩ := given before.advance poised.advance trivial
    ((remainingTerminals_advance _).trans ahead)
  refine ⟨_, returnStatement_eq_built.mpr (.inr ⟨goes, value, final, run, rfl, rfl⟩), ?_,
    (diagnostics_skipped _ _).trans quiet⟩
  rw [followingTerminals_skipped, left, passed]

theorem expressionStatement
    (given : Yields bound grammar room (.expression .lowest) input value middle)
    (passed : passSemicolon middle = rest) :
    Yields bound grammar room (.statementBy .expression) input (.expression value) rest := by
  intro before poised _ here
  obtain ⟨final, run, left, quiet⟩ := given _ (poised.enter "parse_expression_statement") trivial
    here
  refine ⟨_, expressionStatement_eq_built.mpr ⟨value, final, run, rfl, rfl⟩, ?_,
    (diagnostics_skipped _ _).trans quiet⟩
  exact (followingTerminals_skipped final).trans (left ▸ passed)

theorem statement (more : headKind input ≠ .eof)
    (ruled : Yields bound grammar room
      (.statementBy (grammar.statementRule (headKind input))) input single rest) :
    Yields (bound + 1) grammar room .statement input single rest := by
  intro before poised _ here
  have kind : before.current.kind = headKind input := by
    rw [← here]
    exact (headKind_remainingTerminals before).symm
  obtain ⟨final, run, left, quiet⟩ := ruled before poised (kind ▸ more : before.current.kind ≠ .eof)
    here
  refine ⟨final, ?_, left, quiet⟩
  change (within bound).statementHere before = _
  rw [statementHere_apply, poised.grammar, kind]
  exact run

theorem finish (ended : first.kind = .eof) :
    Yields (bound + 1) grammar room (.statements extent) [first] [] [first] := by
  intro before poised _ here
  have kind : before.current.kind = .eof := by
    rw [← headKind_remainingTerminals]
    exact (congrArg headKind here).trans ended
  have ends : extent.endsAt before.current.kind = true := by
    rw [kind]
    cases extent <;> rfl
  refine ⟨before, statementList_eq_built.mpr (.inl ⟨ends, rfl, rfl⟩), ?_, rfl⟩
  rw [followingTerminals, following_of_current poised.settled kind, ← here]
  simp [Phrase.input, remainingTerminals, remaining, kind]

theorem closing (braced : close.kind = .rbrace) :
    Yields (bound + 1) grammar room (.statements .block) (close :: rest) [] rest := by
  intro before poised _ here
  have kind : before.current.kind = .rbrace := by
    rw [← headKind_remainingTerminals]
    exact (congrArg headKind here).trans braced
  obtain ⟨_, left⟩ := current_of_cons here (by rw [braced]; decide)
  have ends : Extent.block.endsAt before.current.kind = true := by
    rw [kind]
    rfl
  exact ⟨before, statementList_eq_built.mpr (.inl ⟨ends, rfl, rfl⟩), left, rfl⟩

theorem next (goes : extent.endsAt (headKind input) = false)
    (one : Yields bound grammar room .statement input single middle)
    (others : Yields bound grammar room (.statements extent) middle list rest) :
    Yields (bound + 1) grammar room (.statements extent) input (single :: list) rest := by
  intro before poised _ here
  have kind : before.current.kind = headKind input := by
    rw [← here]
    exact (headKind_remainingTerminals before).symm
  obtain ⟨between, run, left, quiet⟩ := one before poised trivial here
  obtain ⟨final, run', left, quiet'⟩ := others between.advance (poised.built run).advance trivial
    ((remainingTerminals_advance _).trans left)
  exact ⟨final, statementList_eq_built.mpr (.inr ⟨kind ▸ goes, .inl ⟨single, between, list, run,
    run', rfl⟩⟩), left, quiet'.trans quiet⟩

end Statements

end Yields

/-- Ranks the phrases that may run one another without passing a terminal. -/
def Phrase.rank : Phrase form → Nat
  | .start _ | .extend _ _ => 0
  | .continuation _ _ => 1
  | .expression _ | .statementBy _ => 2
  | .statement => 3
  | .items _ | .enclosed _ | .block | .statements _ => 4

section

variable {grammar : Grammar} {room : Nat} {input rest : List Terminal}

theorem Reads.expression_head {floor : Precedence} {value : Expr} (grounded : grammar.Grounded)
    (reads : Reads grammar room (.expression floor) input value rest) :
    headKind input ≠ .eof := by
  cases reads with
  | expression begun => exact grounded.ne_eof_of_start begun

theorem Reads.statement_head {value : Stmt} (grounded : grammar.Grounded)
    (reads : Reads grammar room (.statementBy (grammar.statementRule (headKind input))) input value
      rest) : headKind input ≠ .eof := by
  intro ended
  have rule : grammar.statementRule (headKind input) = .expression := by
    rw [Grammar.statementRule, ended, grounded.statement]
    rfl
  rw [rule] at reads
  cases reads with
  | expressionStatement given => exact given.expression_head grounded ended

/-- A bound of four for each terminal, and two more, is enough for any phrase. -/
theorem Reads.yields {phrase : Phrase form} {value : form.Tree} (grounded : grammar.Grounded)
    (reads : Reads grammar room phrase input value rest) {bound : Nat}
    (enough : 4 * input.length + phrase.rank ≤ bound + 2) :
    Yields bound grammar room phrase input value rest := by
  induction reads generalizing bound with
  | identifier => exact .identifier
  | integer fits => exact .integer fits
  | boolean => exact .boolean
  | unary _ ih =>
    simp only [Phrase.rank, List.length_cons] at enough ih
    exact .unary (ih (by omega))
  | grouped _ closed ih =>
    simp only [Phrase.rank, List.length_cons] at enough ih
    exact .grouped (ih (by omega)) closed
  | conditional opened tested closed braced _ last ih ih' =>
    have shorter := tested.length_le
    simp only [Phrase.rank, Phrase.least, List.length_cons] at enough ih ih' shorter
    exact .conditional opened (ih (by omega)) closed braced (ih' (by omega)) last
  | alternative opened tested closed braced body more braced' _ ih ih' ih'' =>
    have shorter := tested.length_le
    have shorter' := body.length_le
    simp only [Phrase.rank, Phrase.least, List.length_cons] at enough ih ih' ih'' shorter shorter'
    exact .alternative opened (ih (by omega)) closed braced (ih' (by omega)) more braced'
      (ih'' (by omega))
  | function opened names braced _ ih ih' =>
    have shorter := names.length_le
    simp only [Phrase.rank, Phrase.least, List.length_cons] at enough ih ih' shorter
    exact .function opened (ih (by omega)) braced (ih' (by omega))
  | binary _ ih =>
    simp only [Phrase.rank, List.length_cons] at enough ih
    exact .binary (ih (by omega))
  | call _ ih =>
    simp only [Phrase.rank, List.length_cons] at enough ih
    exact .call (ih (by omega))
  | expression begun start _ ih ih' =>
    have shorter := start.length_le
    simp only [Phrase.rank, Phrase.least, List.length_cons] at enough ih ih' shorter
    obtain ⟨bound, rfl⟩ : ∃ n, bound = n + 1 := ⟨bound - 1, by omega⟩
    exact .expression grounded begun (ih (by omega)) (ih' (by omega))
  | @stop floor _ _ left ends =>
    -- Only a list of no terminals would leave no bound, and no parser offers one.
    intro before poised ready here
    have some := (Phrase.continuation floor left).input_length_pos before
    rw [here] at some
    simp only [Phrase.rank] at enough
    obtain ⟨bound, rfl⟩ : ∃ n, bound = n + 1 := ⟨bound - 1, by omega⟩
    exact Yields.stop ends before poised ready here
  | extend goes step _ ih ih' =>
    have shorter := step.length_le
    simp only [Phrase.rank, Phrase.least, List.length_cons] at enough ih ih' shorter
    obtain ⟨bound, rfl⟩ : ∃ n, bound = n + 1 := ⟨bound - 1, by omega⟩
    exact .extend grounded goes (ih (by omega)) (ih' (by omega))
  | empty closed => exact .empty closed
  | full some _ closed ih => exact .full some (ih enough) closed
  | lastParameter named last =>
    simp only [Phrase.rank, List.length_cons] at enough
    obtain ⟨bound, rfl⟩ : ∃ n, bound = n + 1 := ⟨bound - 1, by omega⟩
    exact .lastParameter named last
  | parameter named more _ ih =>
    simp only [Phrase.rank, List.length_cons] at enough ih
    obtain ⟨bound, rfl⟩ : ∃ n, bound = n + 1 := ⟨bound - 1, by omega⟩
    exact .parameter named more (ih (by omega))
  | lastArgument _ last ih =>
    simp only [Phrase.rank] at enough ih
    obtain ⟨bound, rfl⟩ : ∃ n, bound = n + 1 := ⟨bound - 1, by omega⟩
    exact .lastArgument (ih (by omega)) last
  | argument single more _ ih ih' =>
    have shorter := single.length_le
    simp only [Phrase.rank, Phrase.least, List.length_cons] at enough ih ih' shorter
    obtain ⟨bound, rfl⟩ : ∃ n, bound = n + 1 := ⟨bound - 1, by omega⟩
    exact .argument (ih (by omega)) more (ih' (by omega))
  | block _ ih => exact .block (ih enough)
  | binding named signed _ passed ih =>
    simp only [Phrase.rank, List.length_cons] at enough ih
    exact .binding named signed (ih (by omega)) passed
  | bareReturn ends passed => exact .bareReturn ends passed
  | returning goes _ passed ih =>
    simp only [Phrase.rank, List.length_cons] at enough ih
    exact .returning goes (ih (by omega)) passed
  | expressionStatement _ passed ih => exact .expressionStatement (ih enough) passed
  | statement ruled ih =>
    simp only [Phrase.rank] at enough ih
    obtain ⟨bound, rfl⟩ : ∃ n, bound = n + 1 := ⟨bound - 1, by omega⟩
    exact .statement (ruled.statement_head grounded) (ih (by omega))
  | finish ended =>
    simp only [Phrase.rank, List.length_cons] at enough
    obtain ⟨bound, rfl⟩ : ∃ n, bound = n + 1 := ⟨bound - 1, by omega⟩
    exact .finish ended
  | close braced =>
    simp only [Phrase.rank, List.length_cons] at enough
    obtain ⟨bound, rfl⟩ : ∃ n, bound = n + 1 := ⟨bound - 1, by omega⟩
    exact .closing braced
  | next goes one _ ih ih' =>
    have shorter := one.length_le
    simp only [Phrase.rank, Phrase.least] at enough ih ih' shorter
    obtain ⟨bound, rfl⟩ : ∃ n, bound = n + 1 := ⟨bound - 1, by omega⟩
    exact .next goes (ih (by omega)) (ih' (by omega))

end

end MonkeySyntax
