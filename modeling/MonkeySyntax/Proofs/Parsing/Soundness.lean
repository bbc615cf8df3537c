import MonkeySyntax.Proofs.Parsing.Completeness

/-! Every quiet run is a reading. A run that records no diagnostic has given up nowhere, since
giving up appends one, so each of its parts was built and was quiet too. Together with completeness
a text is read without a fault exactly when its terminals have a reading. -/
namespace MonkeySyntax

open MonkeySyntax.Parser Parts Parse

theorem Parts.appendsOnly_of_built {bound : Nat} {before after : Parser} (phrase : Phrase form)
    {value : form.Tree} (run : (Parts.within bound).parse phrase before = .built value after) :
    before.AppendsOnly after := (Parts.neverSilent_within bound phrase).built run

/-- Each quiet run of the phrase from such a state is a reading. -/
def Reflects (bound : Nat) (grammar : Grammar) (room : Nat) (phrase : Phrase form) : Prop :=
  ∀ ⦃before after : Parser⦄ ⦃value : form.Tree⦄, before.Poised grammar room →
    phrase.Ready before → (Parts.within bound).parse phrase before = .built value after →
    after.diagnostics.size ≤ before.diagnostics.size →
    Reads grammar room phrase (phrase.input before) value after.followingTerminals

/-- The phrases that recur are reflected, so every rule over them is. -/
structure Reflecting (bound : Nat) (grammar : Grammar) : Prop where
  expression (room : Nat) (floor : Precedence) : Reflects bound grammar room (.expression floor)
  continuation (room : Nat) (floor : Precedence) (left : Expr) :
    Reflects bound grammar room (.continuation floor left)
  items {item : Form} (room : Nat) (items : Items item) : Reflects bound grammar room (.items items)
  statement (room : Nat) : Reflects bound grammar room .statement
  statements (room : Nat) (extent : Extent) : Reflects bound grammar room (.statements extent)

namespace Reflecting

variable {bound room : Nat} {grammar : Grammar} (h : Reflecting bound grammar)
include h

theorem block : Reflects bound grammar room .block := by
  intro before after list poised _ run quiet
  have inside := h.statements room .block poised.advance trivial (block_eq_built.mp run) quiet
  rw [Phrase.input, remainingTerminals_advance] at inside
  exact .block inside

theorem enclosed {item : Form} (items : Items item) :
    Reflects bound grammar room (.enclosed items) := by
  intro before after list poised _ ran quiet
  rw [Phrase.input]
  rcases parenthesized_eq_built.mp ran with ⟨close, rfl, rfl⟩ | ⟨some, final, run, close, rfl⟩
  · rw [followingTerminals_of_kind close (by decide)]
    exact .empty close
  · have inside := h.items room items poised trivial run quiet
    rw [followingTerminals_of_kind close (by decide)] at inside
    exact .full (by rwa [headKind_followingTerminals]) inside close

theorem unary : Reflects bound grammar room (.start .unary) := by
  intro before after value poised ready ran quiet
  obtain ⟨operand, final, run, rfl, rfl⟩ := unary_eq_built.mp ran
  have inside := h.expression room .unary (poised.enter "parse_prefix_expression").advance trivial
    run quiet
  rw [Phrase.input, remainingTerminals_advance] at inside
  rw [Phrase.input, remainingTerminals_of_ne ready]
  exact .unary inside

theorem grouped : Reflects bound grammar room (.start .grouped) := by
  intro before after value poised ready ran quiet
  obtain ⟨final, run, close, rfl⟩ := grouped_eq_built.mp ran
  have inside := h.expression room .lowest poised.advance trivial run quiet
  rw [Phrase.input, remainingTerminals_advance,
    followingTerminals_of_kind close (by decide)] at inside
  rw [Phrase.input, remainingTerminals_of_ne ready]
  exact .grouped inside close

theorem conditional : Reflects bound grammar room (.start .conditional) := by
  intro before after value poised ready ran quiet
  obtain ⟨opened, condition, tested, consequence, final, run, close, brace, body, last⟩ :=
    conditional_eq_built.mp ran
  have first := appendsOnly_of_built (.expression .lowest) run
  have second := appendsOnly_of_built .block body
  have there := poised.advance.advance.kept first
  have tested_le : before.diagnostics.size ≤ tested.diagnostics.size := first.size_le
  have body_le : tested.diagnostics.size ≤ final.diagnostics.size := second.size_le
  have last_le : final.diagnostics.size ≤ after.diagnostics.size := by
    rcases last with ⟨_, _, rfl⟩ | ⟨_, _, _, other, _⟩
    · exact Nat.le_refl _
    · exact (appendsOnly_of_built .block other).size_le
  have test := h.expression room .lowest poised.advance.advance trivial run
    (Nat.le_trans (Nat.le_trans body_le last_le) quiet)
  have inside := h.block there.advance.advance trivial body
    (Nat.le_trans last_le (Nat.le_trans quiet tested_le))
  rw [Phrase.input, remainingTerminals_advance,
    followingTerminals_of_kind close (by decide),
    followingTerminals_of_kind brace (by decide)] at test
  rw [Phrase.input, remainingTerminals_of_ne ready,
    followingTerminals_of_kind opened (by decide)]
  rcases last with ⟨none, rfl, rfl⟩ | ⟨word, brace', other, body', rfl⟩
  · exact .conditional opened test close brace inside (by rwa [headKind_followingTerminals])
  · have inside' := h.block (there.advance.advance.kept second).advance.advance trivial body'
      (Nat.le_trans quiet (Nat.le_trans tested_le body_le))
    rw [followingTerminals_of_kind word (by decide),
      followingTerminals_of_kind brace' (by decide)] at inside
    exact .alternative opened test close brace inside word brace' inside'

theorem function : Reflects bound grammar room (.start .function) := by
  intro before after value poised ready ran quiet
  obtain ⟨opened, parameters, listed, body, run, brace, block, rfl⟩ := function_eq_built.mp ran
  have first := appendsOnly_of_built (.enclosed .parameters) run
  have second := appendsOnly_of_built .block block
  have first_le : before.diagnostics.size ≤ listed.diagnostics.size := first.size_le
  have second_le : listed.diagnostics.size ≤ after.diagnostics.size := second.size_le
  have names := h.enclosed .parameters poised.advance trivial run (Nat.le_trans second_le quiet)
  have inside := h.block (poised.advance.kept first).advance trivial block
    (Nat.le_trans quiet first_le)
  rw [followingTerminals_of_kind brace (by decide)] at names
  rw [Phrase.input, remainingTerminals_of_ne ready,
    followingTerminals_of_kind opened (by decide)]
  exact .function opened names brace inside

theorem start (rule : StartRule) : Reflects bound grammar room (.start rule) := by
  cases rule with
  | identifier =>
    intro before after value poised ready ran quiet
    obtain ⟨rfl, rfl⟩ := identifier_eq_built.mp ran
    rw [Phrase.input, remainingTerminals_of_ne ready]
    exact .identifier
  | integer =>
    intro before after value poised ready ran quiet
    obtain ⟨number, fits, rfl, rfl⟩ := integer_eq_built.mp ran
    rw [Phrase.input, remainingTerminals_of_ne ready]
    exact .integer fits
  | boolean =>
    intro before after value poised ready ran quiet
    obtain ⟨rfl, rfl⟩ := boolean_eq_built.mp ran
    rw [Phrase.input, remainingTerminals_of_ne ready]
    exact .boolean
  | unary => exact h.unary
  | grouped => exact h.grouped
  | conditional => exact h.conditional
  | function => exact h.function

theorem extend (left : Expr) (rule : ContinuationRule) :
    Reflects bound grammar room (.extend left rule) := by
  intro before after value poised ready ran quiet
  rw [Phrase.input, remainingTerminals_of_ne ready]
  cases rule with
  | binary =>
    obtain ⟨right, final, run, rfl, rfl⟩ := binary_eq_built.mp ran
    have strength : before.currentPrecedence = grammar.precedence before.current.kind := by
      rw [currentPrecedence, poised.grammar]
    rw [strength] at run
    have inside := h.expression room (grammar.precedence before.current.kind)
      (poised.enter "parse_infix_expression").advance trivial run quiet
    rw [Phrase.input, remainingTerminals_advance] at inside
    exact .binary inside
  | call =>
    obtain ⟨list, run, rfl⟩ := call_eq_built.mp ran
    exact .call (h.enclosed .arguments poised trivial run quiet)

theorem expressionStatement {before after : Parser} {value : Stmt}
    (poised : before.Poised grammar room)
    (ran : (Parts.within bound).expressionStatement before = .built value after)
    (quiet : after.diagnostics.size ≤ before.diagnostics.size) :
    Reads grammar room (.statementBy .expression) before.remainingTerminals value
      after.followingTerminals := by
  obtain ⟨given, final, run, rfl, rfl⟩ := expressionStatement_eq_built.mp ran
  have same : ((skipped .semicolon final).leave "parse_expression_statement").diagnostics =
      final.diagnostics := diagnostics_skipped _ _
  rw [same] at quiet
  have inside := h.expression room .lowest (poised.enter "parse_expression_statement") trivial run
    quiet
  exact .expressionStatement inside (followingTerminals_skipped final).symm

theorem statementBy (rule : StatementRule) (direct : rule ≠ .any) :
    Reflects bound grammar room (.statementBy rule) := by
  intro before after value poised ready ran quiet
  cases rule with
  | any => exact absurd rfl direct
  | binding =>
    obtain ⟨name, sign, bound', final, run, rfl, rfl⟩ := bindingStatement_eq_built.mp ran
    rw [diagnostics_skipped] at quiet
    have inside := h.expression room .lowest poised.advance.advance.advance trivial run quiet
    rw [Phrase.input, remainingTerminals_advance] at inside
    rw [Phrase.input, remainingTerminals_of_ne ready,
      followingTerminals_of_kind name (by decide),
      followingTerminals_of_kind sign (by decide)]
    exact .binding name sign inside (followingTerminals_skipped final).symm
  | returning =>
    rw [Phrase.input, remainingTerminals_of_ne ready]
    rcases returnStatement_eq_built.mp ran with
      ⟨ends, rfl, rfl⟩ | ⟨goes, given, final, run, rfl, rfl⟩
    · exact .bareReturn (by rwa [headKind_followingTerminals])
        (followingTerminals_skipped before).symm
    · rw [diagnostics_skipped] at quiet
      have inside := h.expression room .lowest poised.advance trivial run quiet
      rw [Phrase.input, remainingTerminals_advance] at inside
      exact .returning (by rwa [headKind_followingTerminals]) inside
        (followingTerminals_skipped final).symm
  | expression => exact h.expressionStatement poised ran quiet

theorem expressionAbove (grounded : grammar.Grounded) (floor : Precedence) :
    Reflects (bound + 1) grammar room (.expression floor) := by
  intro before after value poised _ ran quiet
  obtain ⟨deep, rule, left, middle, final, begun, run, run', rfl⟩ :=
    expressionAbove_eq_built.mp ran
  obtain ⟨room, rfl⟩ : ∃ n, room = n + 1 := by
    have left := poised.room
    rw [Parser.room] at left
    exact ⟨room - 1, by omega⟩
  have ready : before.current.kind ≠ .eof := grounded.ne_eof_of_start (poised.grammar ▸ begun)
  obtain ⟨_, inside⟩ := (poised.enter "parse_expression").deepen
  have first := appendsOnly_of_built (.start rule) run
  have second := appendsOnly_of_built (.continuation floor left) run'
  have first_le : before.diagnostics.size ≤ middle.diagnostics.size := first.size_le
  have start := h.start rule inside ready run (Nat.le_trans second.size_le quiet)
  have tail := h.continuation room floor left (inside.kept first) trivial run'
    (Nat.le_trans quiet first_le)
  have here : (before.enter "parse_expression").deepen.remainingTerminals =
      before.current.terminal :: before.followingTerminals := remainingTerminals_of_ne ready
  rw [Phrase.input, here] at start
  rw [Phrase.input, remainingTerminals_of_ne ready]
  rw [poised.grammar] at begun
  exact .expression begun start tail

theorem continueAbove (grounded : grammar.Grounded) (floor : Precedence) (left : Expr) :
    Reflects (bound + 1) grammar room (.continuation floor left) := by
  intro before after value poised _ ran quiet
  rw [Phrase.input]
  obtain ⟨ends, rfl, rfl⟩ | ⟨rule, extended, middle, goes, run, run'⟩ :=
    continueAbove_eq_built.mp ran
  · rw [poised.grammar, ← headKind_followingTerminals] at ends
    exact .stop ends
  · rw [poised.grammar] at goes
    have more : before.ahead.kind ≠ .eof := grounded.ne_eof_of_tighter goes
    have first := appendsOnly_of_built (.extend left rule) run
    have second := appendsOnly_of_built (.continuation floor extended) run'
    have first_le : before.diagnostics.size ≤ middle.diagnostics.size := first.size_le
    have step := h.extend left rule poised.advance more run (Nat.le_trans second.size_le quiet)
    have tail := h.continuation room floor extended (poised.advance.kept first) trivial run'
      (Nat.le_trans quiet first_le)
    rw [Phrase.input, remainingTerminals_advance, followingTerminals_of_ne more] at step
    rw [followingTerminals_of_ne more]
    exact .extend goes step tail

theorem parameterList : Reflects (bound + 1) grammar room (.items .parameters) := by
  intro before after names poised _ ran quiet
  obtain ⟨name, ⟨last, rfl, rfl⟩ | ⟨comma, rest, run, rfl⟩⟩ := parameterList_eq_built.mp ran
  · rw [Phrase.input, followingTerminals_of_kind name (by decide)]
    exact .lastParameter name (by rwa [headKind_followingTerminals])
  · have others := h.items room .parameters poised.advance.advance trivial run quiet
    rw [Phrase.input, followingTerminals_of_kind name (by decide),
      followingTerminals_of_kind comma (by decide)]
    exact .parameter name comma others

theorem argumentList : Reflects (bound + 1) grammar room (.items .arguments) := by
  intro before after list poised _ ran quiet
  obtain ⟨argument, middle, run, last⟩ := argumentList_eq_built.mp ran
  have first := appendsOnly_of_built (.expression .lowest) run
  have first_le : before.diagnostics.size ≤ middle.diagnostics.size := first.size_le
  rw [Phrase.input, ← remainingTerminals_advance]
  rcases last with ⟨none, rfl, rfl⟩ | ⟨comma, rest, run', rfl⟩
  · have single := h.expression room .lowest poised.advance trivial run quiet
    exact .lastArgument single (by rwa [headKind_followingTerminals])
  · have second := appendsOnly_of_built (.items .arguments) run'
    have single := h.expression room .lowest poised.advance trivial run
      (Nat.le_trans second.size_le quiet)
    have others := h.items room .arguments (poised.advance.kept first).advance trivial run'
      (Nat.le_trans quiet first_le)
    rw [followingTerminals_of_kind comma (by decide)] at single
    exact .argument single comma others

theorem statementHere (grounded : grammar.Grounded) :
    Reflects (bound + 1) grammar room .statement := by
  intro before after value poised _ ran quiet
  have run : (Parts.within bound).statementHere before = .built value after := ran
  rw [statementHere_apply, poised.grammar] at run
  by_cases ended : before.current.kind = .eof
  · -- At the end of the input the rule is the default, whose expression cannot begin there.
    rw [ended, Grammar.statementRule, grounded.statement] at run
    cases h.expressionStatement poised run quiet with
    | expressionStatement given =>
      have head := given.expression_head grounded
      rw [headKind_remainingTerminals] at head
      exact absurd ended head
  · have direct := grounded.statementRule_ne_any before.current.kind
    have inside := h.statementBy _ direct poised ended run quiet
    rw [← headKind_remainingTerminals] at inside
    exact .statement inside

theorem statementList (extent : Extent) :
    Reflects (bound + 1) grammar room (.statements extent) := by
  intro before after list poised _ ran quiet
  rw [Phrase.input]
  rcases statementList_eq_built.mp ran with ⟨ends, rfl, rfl⟩ | ⟨goes, one⟩
  · by_cases ended : before.current.kind = .eof
    · have single : before.remainingTerminals = [before.current.terminal] := by
        simp [remainingTerminals, remaining, ended]
      rw [followingTerminals, following_of_current poised.settled ended, single]
      exact .finish ended
    · rw [remainingTerminals_of_ne ended]
      cases extent with
      | program =>
        cases kind : before.current.kind <;> simp_all [Extent.endsAt]
      | block =>
        have braced : before.current.kind = .rbrace := by
          cases kind : before.current.kind <;> simp_all [Extent.endsAt]
        exact .close braced
  · rw [← headKind_remainingTerminals] at goes
    rcases one with ⟨statement, middle, rest, run, run', rfl⟩ | ⟨middle, run, run'⟩
    · have first := appendsOnly_of_built .statement run
      have second := appendsOnly_of_built (.statements extent) run'
      have first_le : before.diagnostics.size ≤ middle.diagnostics.size := first.size_le
      have single := h.statement room poised trivial run (Nat.le_trans second.size_le quiet)
      have others := h.statements room extent (poised.kept first).advance trivial run'
        (Nat.le_trans quiet first_le)
      rw [Phrase.input, remainingTerminals_advance] at others
      exact .next goes single others
    · have given := (Parts.neverSilent_within bound .statement).abandoned run
      have kept : middle.diagnostics.size ≤ after.diagnostics.size :=
        (appendsOnly_of_built (.statements extent) run').size_le
      exact absurd (Nat.lt_of_lt_of_le given.2 (Nat.le_trans kept quiet)) (Nat.lt_irrefl _)

end Reflecting

theorem reflecting {grammar : Grammar} (grounded : grammar.Grounded) (bound : Nat) :
    Reflecting bound grammar := by
  induction bound with
  | zero =>
    refine ⟨?_, ?_, ?_, ?_, ?_⟩
    · intro _ _ _ _ _ _ _ ran
      cases ran
    · intro _ _ _ _ _ _ _ _ ran
      cases ran
    · intro _ _ items _ _ _ _ _ ran
      cases items <;> cases ran
    · intro _ _ _ _ _ _ ran
      cases ran
    · intro _ _ _ _ _ _ _ ran
      cases ran
  | succ bound ih =>
    refine ⟨fun _ => ih.expressionAbove grounded, fun _ => ih.continueAbove grounded, ?_,
      fun _ => ih.statementHere grounded, fun _ => ih.statementList⟩
    intro item room items
    cases items with
    | parameters => exact ih.parameterList
    | arguments => exact ih.argumentList

/-- A whole text is read by its list of terminals: quietly, exactly when the list has a reading. -/
theorem readsProgram_iff {grammar : Grammar} (grounded : grammar.Grounded) {parser : Parser}
    (regular : parser.grammar = grammar) (settled : parser.Settled)
    (program : Program) :
    (∃ after, parser.readProgram = .built program after ∧
      after.diagnostics.size = parser.diagnostics.size) ↔
    ∃ rest, Reads grammar parser.room (.statements .program) parser.remainingTerminals program
      rest := by
  have poised : parser.Poised grammar parser.room := ⟨regular, rfl, settled⟩
  constructor
  · rintro ⟨after, run, quiet⟩
    exact ⟨_, (reflecting grounded _).statements _ .program poised trivial run (Nat.le_of_eq quiet)⟩
  · rintro ⟨rest, reads⟩
    have enough : 4 * parser.remainingTerminals.length + 4 ≤ parser.bound + 2 := by
      have few := parser.remainingTerminals_length_le
      simp only [Parser.bound]
      omega
    obtain ⟨after, run, _, quiet⟩ := reads.yields grounded enough parser poised trivial rfl
    exact ⟨after, run, by rw [quiet]⟩

section Standard

open Grammar (standard)

theorem Parser.remainingTerminals_start (options : Options) (cursor : Cursor) :
    (start options cursor).remainingTerminals = cursor.terminals := by
  rw [remainingTerminals, remaining_start, Cursor.terminals]

/-- From the beginning of a text, by any grammar. -/
theorem quiet_iff_reads {grammar : Grammar} (grounded : grammar.Grounded) (options : Options)
    (cursor : Cursor) (program : Program) :
    (∃ after,
      ({ Parser.start options cursor with grammar := grammar } : Parser).readProgram =
          .built program after ∧ after.diagnostics = #[]) ↔
    ∃ rest,
      Reads grammar options.maxDepth (.statements .program) cursor.terminals program rest := by
  have none (after : Parser) : after.diagnostics = #[] ↔
      after.diagnostics.size = (Parser.start options cursor).diagnostics.size :=
    Array.size_eq_zero_iff.symm
  have regular : ({ Parser.start options cursor with grammar := grammar } : Parser).grammar =
      grammar := rfl
  have settled := Parser.settled_start options cursor
  simp only [none]
  rw [← Parser.remainingTerminals_start options cursor]
  exact readsProgram_iff grounded regular ⟨settled.current, settled.ahead⟩ program

theorem readText_of_reads {options : Options} {file text : String} {program : Program}
    {rest : List Terminal}
    (reads : Reads standard options.maxDepth (.statements .program)
      (Cursor.ofText file text).terminals program rest) :
    (readText options file text).program = program ∧
      (readText options file text).diagnostics = [] := by
  obtain ⟨after, run, quiet⟩ : ∃ after, (Parser.start options (.ofText file text)).readProgram =
      .built program after ∧ after.diagnostics = #[] :=
    (quiet_iff_reads Grammar.grounded_standard options _ program).mpr ⟨rest, reads⟩
  rw [readText, run]
  exact ⟨rfl, congrArg Array.toList quiet⟩

end Standard

end MonkeySyntax
