import MonkeySyntax.Proofs.Parsing.Braces
import MonkeySyntax.Proofs.Parsing.Extension
import MonkeySyntax.Proofs.Parsing.Restart
import MonkeySyntax.Proofs.Parsing.Soundness

/-! Programs one behind the other. A program that is read without a fault, ends with a semicolon and
closes its braces is over with that semicolon: no statement of it is open there, so none looks
further. Hence it is read the same whatever follows, and what follows is read as by itself. -/
namespace MonkeySyntax

open MonkeySyntax.Parser Parse

theorem Tight.prepend {front used : List Terminal} (some : used ≠ []) (tight : Tight used) :
    Tight (front ++ used) := by
  intro last here
  rw [List.getLast?_append, List.getLast?_eq_some_getLast some, Option.some_or] at here
  exact tight last (by rw [List.getLast?_eq_some_getLast some, here])

/-- Braces are closed, and a semicolon comes last before the end of the input. -/
structure Concluded (terminals : List Terminal) : Prop where
  balanced : braces terminals = 0
  semicolon : ∃ before last ended, terminals = before ++ [last] ++ [ended] ∧
    last.kind = .semicolon ∧ ended.kind = .eof

namespace Concluded

variable {used rest : List Terminal}

theorem suffix (concluded : Concluded (used ++ rest)) (balanced : braces used = 0)
    (more : headKind rest ≠ .eof) : Concluded rest := by
  obtain ⟨whole, before, last, ended, split, semicolon, eof⟩ := concluded
  rw [braces_append, balanced, Int.zero_add] at whole
  refine ⟨whole, ?_⟩
  rcases rest.eq_nil_or_concat with rfl | ⟨inner, final, rfl⟩
  · exact absurd rfl more
  rw [List.concat_eq_append, ← List.append_assoc] at split
  obtain ⟨left, same⟩ := List.append_inj' split rfl
  cases same
  rcases inner.eq_nil_or_concat with rfl | ⟨inner, final, rfl⟩
  · exact absurd eof more
  rw [List.concat_eq_append, ← List.append_assoc] at left
  obtain ⟨_, same⟩ := List.append_inj' left rfl
  cases same
  exact ⟨inner, last, ended, by simp, semicolon, eof⟩

theorem not_tight {ended : Terminal} (concluded : Concluded (used ++ [ended])) : ¬ Tight used := by
  obtain ⟨_, before, last, _, split, semicolon, _⟩ := concluded
  obtain ⟨rfl, _⟩ := List.append_inj' split rfl
  exact fun tight => tight last (by simp) semicolon

end Concluded

section

variable {behind : Cursor} {p q : Parser} (alike : Extends behind p q)
include alike

theorem Parser.Extends.onto (more : p.ahead.kind ≠ .eof) :
    q.ahead = p.ahead ∧ Extends behind p.advance q.advance := by
  rcases alike.ahead with ended | ⟨same, _, onward⟩
  · exact absurd ended.kind more
  · exact ⟨same, onward⟩

theorem Parser.Extends.skipped (semicolon : p.ahead.kind = .semicolon) :
    q.ahead = p.ahead ∧ Extends behind (skipped .semicolon p) (skipped .semicolon q) := by
  obtain ⟨same, onward⟩ := alike.onto (by rw [semicolon]; decide)
  rw [Parse.skipped, Parse.skipped, same, if_pos semicolon, if_pos semicolon]
  exact ⟨rfl, onward⟩

theorem Parser.Extends.grammar : q.grammar = p.grammar := by rw [alike.same]

end

section

variable {behind : Cursor} {one other after : Parser} {bound : Nat}

open Grammar (standard)

/-- Of a step that is built with something still ahead, the other run builds the same. -/
theorem Parse.Forks.built {step : Parse α} {stage : Stage} {value : α}
    (forks : step.Forks (.extending behind) stage) (alike : Extends behind one other)
    (run : step one = .built value after) (more : after.ahead.kind ≠ .eof) :
    ∃ after', step other = .built value after' ∧ Extends behind after after' := by
  rcases forks.both alike with same | ⟨i, clear, _⟩
  · rw [run] at same
    generalize step other = outcome at same
    cases same with
    | built alike => exact ⟨_, rfl, alike⟩
  · rw [run] at clear
    exact absurd clear.kind more

/-- No expression is built at the end of the input. -/
theorem current_of_expression {value : Expr} (regular : one.grammar = standard)
    (settled : one.Settled)
    (run : (Parts.within bound).expression .lowest one = .built value after)
    (quiet : after.diagnostics.size ≤ one.diagnostics.size) : one.current.kind ≠ .eof := by
  have poised : one.Poised standard one.room := ⟨regular, rfl, settled⟩
  have reads := (reflecting Grammar.grounded_standard bound).expression one.room .lowest poised
    trivial run quiet
  have head := reads.expression_head Grammar.grounded_standard
  rwa [Phrase.input, headKind_remainingTerminals] at head

/-- An expression inside a concluded statement stops at the semicolon of the statement. -/
theorem Concluded.semicolon_ahead {front : List Terminal} {value : Expr}
    (concluded : Concluded (front ++ one.remainingTerminals)) (plain : braces front = 0)
    (regular : one.grammar = standard) (settled : one.Settled)
    (run : (Parts.within bound).expression .lowest one = .built value after)
    (quiet : after.diagnostics.size ≤ one.diagnostics.size)
    (ended : (skipped .semicolon after).ahead.kind = .eof) : after.ahead.kind = .semicolon := by
  have poised : one.Poised standard one.room := ⟨regular, rfl, settled⟩
  have reads := (reflecting Grammar.grounded_standard bound).expression one.room .lowest poised
    trivial run quiet
  have takes := reads.takes trivial
  have some := reads.length_le
  rw [Phrase.input] at takes some
  by_contra other
  rw [skipped, if_neg other] at ended
  have rest : after.followingTerminals = [after.ahead.terminal] := by
    simp [followingTerminals, following, ended]
  rw [rest] at takes some
  cases takes with
  | closed used split balanced tight =>
    have some : used ≠ [] := by
      rintro rfl
      rw [split] at some
      simp [Phrase.least] at some
    rw [split, ← List.append_assoc] at concluded
    exact concluded.not_tight ((tight trivial).prepend some)
  | cut used split _ unclosed =>
    have balanced := concluded.balanced
    have eof : after.ahead.terminal.kind.brace = 0 := by
      rw [Token.kind_terminal, ended]
      rfl
    rw [split] at balanced
    simp only [braces_append, braces_cons, braces_nil, plain, eof, Phrase.due] at balanced unclosed
    omega

/-- The other run stops there too. -/
theorem Concluded.expression {front : List Terminal} {value : Expr}
    (concluded : Concluded (front ++ one.remainingTerminals)) (plain : braces front = 0)
    (regular : one.grammar = standard) (alike : Extends behind one other)
    (run : (Parts.within bound).expression .lowest one = .built value after)
    (quiet : after.diagnostics.size ≤ one.diagnostics.size)
    (ended : (skipped .semicolon after).ahead.kind = .eof) :
    ∃ after', (Parts.within bound).expression .lowest other = .built value after' ∧
      Extends behind (skipped .semicolon after) (skipped .semicolon after') := by
  have semicolon := concluded.semicolon_ahead plain regular alike.settled run quiet ended
  have more : after.ahead.kind ≠ .eof := by
    rw [semicolon]
    decide
  have forks := (Parse.Forks.extending behind bound).expression .lowest
  obtain ⟨after', run', alike'⟩ := forks.built alike run more
  exact ⟨after', run', (alike'.skipped semicolon).2⟩

section Last

variable {value : Stmt} (concluded : Concluded one.remainingTerminals)
  (regular : one.grammar = standard) (alike : Extends behind one other)
  (quiet : after.diagnostics.size ≤ one.diagnostics.size) (ended : after.ahead.kind = .eof)
include concluded regular alike quiet ended

theorem Concluded.binding (plain : one.current.kind.Plain)
    (run : (Parts.within bound).bindingStatement one = .built value after) :
    ∃ after', (Parts.within bound).bindingStatement other = .built value after' ∧
      Extends behind after after' := by
  obtain ⟨name, sign, given, final, inside, rfl, rfl⟩ := Parts.bindingStatement_eq_built.mp run
  rw [diagnostics_skipped] at quiet
  have named : one.ahead.kind ≠ .eof := by
    rw [name]
    decide
  have signed : one.advance.ahead.kind ≠ .eof := by
    rw [sign]
    decide
  have settled := alike.settled.advance.advance.advance
  have begun : one.advance.advance.advance.current.kind ≠ .eof :=
    current_of_expression regular settled inside quiet
  obtain ⟨name_eq, onto⟩ := alike.onto named
  obtain ⟨sign_eq, onto'⟩ := onto.onto signed
  obtain ⟨_, onto''⟩ := onto'.onto begun
  have split : one.remainingTerminals =
      [one.current.terminal, one.ahead.terminal, one.advance.ahead.terminal] ++
        one.advance.advance.advance.remainingTerminals := by
    rw [remainingTerminals_of_ne alike.proper, followingTerminals_of_ne named,
      followingTerminals_of_ne signed, remainingTerminals_advance]
    rfl
  have front : braces [one.current.terminal, one.ahead.terminal, one.advance.ahead.terminal] =
      0 := by
    simp only [braces_cons, braces_nil, Token.kind_terminal, plain.1, name, sign]
    rfl
  rw [split] at concluded
  obtain ⟨final', inside', alike'⟩ :=
    concluded.expression front regular onto'' inside quiet ended
  refine ⟨_, Parts.bindingStatement_eq_built.mpr
    ⟨name_eq ▸ name, sign_eq ▸ sign, given, final', inside', ?_, rfl⟩, alike'⟩
  rw [onto.current]

theorem Concluded.returning (plain : one.current.kind.Plain)
    (run : (Parts.within bound).returnStatement one = .built value after) :
    ∃ after', (Parts.within bound).returnStatement other = .built value after' ∧
      Extends behind after after' := by
  rcases Parts.returnStatement_eq_built.mp run with
    ⟨bare, rfl, rfl⟩ | ⟨goes, given, final, inside, rfl, rfl⟩
  · by_cases semicolon : one.ahead.kind = .semicolon
    · obtain ⟨same, onto⟩ := alike.skipped semicolon
      exact ⟨_, Parts.returnStatement_eq_built.mpr (.inl ⟨same ▸ bare, rfl, rfl⟩), onto⟩
    · rw [skipped, if_neg semicolon] at ended
      have rest : one.remainingTerminals = [one.current.terminal] ++ [one.ahead.terminal] := by
        simp [remainingTerminals_of_ne alike.proper, followingTerminals, following, ended]
      have tight : Tight [one.current.terminal] := by
        intro last here
        cases here
        exact plain.2
      rw [rest] at concluded
      exact absurd tight concluded.not_tight
  · have more : one.ahead.kind ≠ .eof := by
      intro eof
      rw [eof] at goes
      cases goes
    rw [diagnostics_skipped] at quiet
    obtain ⟨same, onto⟩ := alike.onto more
    have split : one.remainingTerminals =
        [one.current.terminal] ++ one.advance.remainingTerminals := by
      rw [remainingTerminals_of_ne alike.proper, remainingTerminals_advance]
      rfl
    have front : braces [one.current.terminal] = 0 := by simp [plain.1]
    rw [split] at concluded
    obtain ⟨final', inside', alike'⟩ := concluded.expression front regular onto inside quiet ended
    exact ⟨_, Parts.returnStatement_eq_built.mpr
      (.inr ⟨same ▸ goes, given, final', inside', rfl, rfl⟩), alike'⟩

theorem Concluded.expressionStatement
    (run : (Parts.within bound).expressionStatement one = .built value after) :
    ∃ after', (Parts.within bound).expressionStatement other = .built value after' ∧
      Extends behind after after' := by
  obtain ⟨given, final, inside, rfl, rfl⟩ := Parts.expressionStatement_eq_built.mp run
  have same : ((skipped .semicolon final).leave "parse_expression_statement").diagnostics =
      final.diagnostics := diagnostics_skipped _ _
  rw [same] at quiet
  have concluded : Concluded
      ([] ++ (one.enter "parse_expression_statement").remainingTerminals) := concluded
  obtain ⟨final', inside', alike'⟩ := concluded.expression rfl regular
    (alike.enter "parse_expression_statement") inside quiet ended
  exact ⟨_, Parts.expressionStatement_eq_built.mpr ⟨given, final', inside', rfl, rfl⟩,
    alike'.leave _⟩

theorem Concluded.statementHere
    (run : (Parts.within bound).statementHere one = .built value after) :
    ∃ after', (Parts.within bound).statementHere other = .built value after' ∧
      Extends behind after after' := by
  rw [Parts.statementHere_apply, regular] at run
  rw [Parts.statementHere_apply, alike.grammar, alike.current, regular]
  have suits := Phrase.suits_statementBy one.current.kind
  have direct := Grammar.grounded_standard.statementRule_ne_any one.current.kind
  generalize standard.statementRule one.current.kind = rule at run suits direct ⊢
  cases rule with
  | any => exact absurd rfl direct
  | binding => exact concluded.binding regular alike quiet ended suits run
  | returning => exact concluded.returning regular alike quiet ended suits run
  | expression => exact concluded.expressionStatement regular alike quiet ended run

end Last

/-- A statement of a concluded program is read the same whatever follows the program. -/
theorem Concluded.statement {value : Stmt} (concluded : Concluded one.remainingTerminals)
    (regular : one.grammar = standard) (alike : Extends behind one other)
    (run : (Parts.within bound).statement one = .built value after)
    (quiet : after.diagnostics.size ≤ one.diagnostics.size) :
    ∃ after', (Parts.within bound).statement other = .built value after' ∧
      Extends behind after after' := by
  by_cases ended : after.ahead.kind = .eof
  · cases bound with
    | zero => cases run
    | succ bound => exact concluded.statementHere regular alike quiet ended run
  · exact (Parse.Forks.extending behind bound).statement.built alike run ended

/-- So is what is left of the program behind it. -/
theorem Concluded.following {value : Stmt} (concluded : Concluded one.remainingTerminals)
    (regular : one.grammar = standard) (settled : one.Settled)
    (run : (Parts.within bound).statement one = .built value after)
    (quiet : after.diagnostics.size ≤ one.diagnostics.size) (more : after.ahead.kind ≠ .eof) :
    Concluded after.advance.remainingTerminals := by
  have poised : one.Poised standard one.room := ⟨regular, rfl, settled⟩
  have reads := (reflecting Grammar.grounded_standard bound).statement one.room poised trivial run
    quiet
  have head : headKind after.followingTerminals ≠ .eof := by rwa [headKind_followingTerminals]
  rw [remainingTerminals_advance]
  cases reads.takes trivial with
  | closed used split balanced =>
    rw [Phrase.input] at split
    rw [split] at concluded
    exact concluded.suffix (by simpa [Phrase.due] using balanced) head
  | cut _ _ eof => exact absurd eof head

/-- A quiet run of the loop builds its first statement quietly, and then the others. -/
theorem readProgram_of_quiet {program : Program} (regular : one.grammar = standard)
    (settled : one.Settled) (more : one.current.kind ≠ .eof)
    (run : one.readProgram = .built program after)
    (quiet : after.diagnostics.size ≤ one.diagnostics.size) :
    ∃ statement middle rest, one.run (·.statement) = .built statement middle ∧
      middle.advance.readProgram = .built rest after ∧ program = statement :: rest ∧
      middle.diagnostics.size ≤ one.diagnostics.size ∧
      after.diagnostics.size ≤ middle.diagnostics.size := by
  have grounded : one.grammar.Grounded := regular ▸ Grammar.grounded_standard
  rcases (readProgram_eq_built grounded settled).mp run with ⟨ended, _⟩ | ⟨_, first | dropped⟩
  · exact absurd ended more
  · obtain ⟨statement, middle, rest, first, others, rfl⟩ := first
    have kept := (Parts.appendsOnly_of_built .statement first).size_le
    have later := (Parts.appendsOnly_of_built (.statements .program) others).size_le
    exact ⟨statement, middle, rest, first, others, rfl, Nat.le_trans later quiet,
      Nat.le_trans quiet kept⟩
  · obtain ⟨middle, first, others⟩ := dropped
    have given := ((Parts.neverSilent_within one.bound .statement).abandoned first).2
    have later := (Parts.appendsOnly_of_built (.statements .program) others).size_le
    exact absurd (Nat.lt_of_lt_of_le given (Nat.le_trans later quiet)) (Nat.lt_irrefl _)

/-- The loop on the longer text comes to where the program ends, with the same behind it. -/
theorem Concluded.readProgram {start final : Parser} {list program : Program}
    (concluded : Concluded one.remainingTerminals) (regular : one.grammar = standard)
    (alike : Extends behind one other) (settled : start.Settled)
    (moment : start.Moment list other) (run : one.readProgram = .built program final)
    (quiet : final.diagnostics.size ≤ one.diagnostics.size) :
    ∃ last last', Extends behind last last' ∧ last.ahead.kind = .eof ∧ final = last.advance ∧
      start.Moment (list ++ program) last'.advance := by
  induction program generalizing one other list with
  | nil =>
    obtain ⟨_, _, _, _, _, none, _⟩ :=
      readProgram_of_quiet regular alike.settled alike.proper run quiet
    cases none
  | cons statement rest ih =>
    obtain ⟨_, after, _, first, others, same, quiet, quiet'⟩ :=
      readProgram_of_quiet regular alike.settled alike.proper run quiet
    cases same
    have grounded : one.grammar.Grounded := regular ▸ Grammar.grounded_standard
    have grounded' : other.grammar.Grounded := alike.grammar ▸ grounded
    have settled' : other.Settled := (moment.kept keeps_appendsOnly).settled settled
    have regular' : after.grammar = standard :=
      (Parts.appendsOnly_of_built .statement first).grammar.trans regular
    -- Both statements are compared under a bound that suffices for either text.
    let bound := 4 * one.remaining.length + 4 * other.remaining.length + 2
    have eq : (Parts.within bound).statement one = one.run (·.statement) :=
      statement_eq_run grounded alike.settled (by omega)
    have eq' : (Parts.within bound).statement other = other.run (·.statement) :=
      statement_eq_run grounded' settled' (by omega)
    rw [← eq] at first
    obtain ⟨after', first', alike'⟩ := concluded.statement regular alike first quiet
    have proper : other.current.kind ≠ .eof := alike.current ▸ alike.proper
    have moment' := moment.built proper (eq' ▸ first')
    by_cases ended : after.ahead.kind = .eof
    · have grounded'' : after.advance.grammar.Grounded := regular' ▸ Grammar.grounded_standard
      rcases (readProgram_eq_built grounded'' alike'.settled.advance).mp others with
        ⟨_, rfl, rfl⟩ | ⟨more, _⟩
      · exact ⟨after, after', alike', ended, rfl, moment'⟩
      · exact absurd ended more
    · have rest := concluded.following regular alike.settled first quiet ended
      rw [List.append_cons]
      exact ih rest regular' (alike'.onto ended).2 moment' others quiet'

end

section

variable {behind : Cursor} {last last' : Parser}

/-- Where the shorter text ends, the window of the longer one opens on what follows. -/
theorem Parser.Extends.window_advance (alike : Extends behind last last')
    (ended : last.ahead.kind = .eof) : last'.advance.window = behind.window := by
  obtain ⟨short, long, extends', ahead, _, rfl⟩ := alike.next
  change long.window = behind.window
  rw [ahead] at ended
  rcases extends'.next with ⟨_, _, blank⟩ | ⟨proper, _⟩
  · obtain ⟨rfl, named, stop, _⟩ := extends'
    rw [Cursor.window, Cursor.next_blanks_append blank, named, stop]
    rfl
  · exact absurd ended proper

theorem Cursor.seam_eq_shift (file text more : String) :
    Cursor.seam file text more = (Cursor.ofText file more).shift text.toList.length := by
  rw [Cursor.seam, Cursor.ofText, Cursor.shift, Nat.zero_add]

theorem Parser.Extends.continues {options : Options} {file text more : String} {list : Program}
    (alike : Extends (.seam file text more) last last') (ended : last.ahead.kind = .eof)
    (moment : (start options (.ofText file (text ++ more))).Moment list last'.advance) :
    last'.advance.Continues text.toList.length last.diagnostics.toList last.trace.log.toList
      (start options (.ofText file more)) := by
  have kept := moment.kept keeps_appendsOnly
  have moves := moment.kept keeps_movesForward
  refine ⟨?_, kept.grammar, kept.options, kept.depth, ⟨moves.enabled, moves.level, ?_⟩, ?_⟩
  · rw [alike.window_advance ended, Cursor.seam_eq_shift, Cursor.window_shift]
    rfl
  · rw [alike.same]
    exact (List.append_nil _).symm
  · rw [alike.same]
    exact (List.append_nil _).symm

end

section

variable {options : Options} {file text more : String} {list : Program} {parser : Parser}
  {count : Nat} {earlier : List Diagnostic} {lines : List String}

/-- From a moment at which a run goes on as it would on another text. -/
theorem Parser.Moment.readText (moment : (start options (.ofText file text)).Moment list parser)
    (related : parser.Continues count earlier lines (start options (.ofText file more))) :
    (readText options file text).program = list ++ (readText options file more).program ∧
      (readText options file text).diagnostics =
        earlier ++ (readText options file more).diagnostics.map (·.shift count) ∧
      (readText options file text).trace = lines ++ (readText options file more).trace := by
  have settled := settled_start options (.ofText file text)
  have kept := moment.kept keeps_appendsOnly
  have grounded : parser.grammar.Grounded := kept.grammar ▸ Grammar.grounded_standard
  obtain ⟨program, after, run, _⟩ := readProgram_finishes grounded (kept.settled settled)
  have whole := moment.readProgram Grammar.grounded_standard settled run
  let fresh := start options (.ofText file more)
  have cursor : parser.cursor = fresh.cursor.shift count := congrArg Window.cursor related.window
  have same : parser.bound = fresh.bound := by
    rw [Parser.bound, Parser.bound, cursor, related.options]
    rfl
  have follows := simulation_continues.within (Nat.le_of_eq same) (.statements .program)
    parser fresh related
  change Outcome.Follows _ parser.readProgram fresh.readProgram at follows
  rw [run] at follows
  generalize fresh_run : fresh.readProgram = outcome at follows
  cases follows with
  | built ends =>
    rw [readText_of_built whole, readText_of_built fresh_run]
    exact ⟨rfl, ends.diagnostics, ends.trace.log⟩

end

section

variable {file text : String} {before : List Token} {last ended : Token}
  (tokens : (Cursor.ofText file text).tokens = before ++ [last, ended])
include tokens

theorem Cursor.next_of_tokens : (ofText file text).next.1.kind ≠ .eof := by
  intro none
  have length := congrArg List.length tokens
  rw [tokens_eq, if_pos none] at length
  simp at length

theorem Seam.of_tokens (semicolon : last.kind = .semicolon) (after : List Char) :
    Seam text.toList after := by
  have scanned : scan text.toList = (before ++ [last]).map Token.terminal ++ [ended.terminal] :=
    calc scan text.toList = (Cursor.ofText file text).terminals :=
          (Cursor.terminals_eq_scan (.ofText file text)).symm
      _ = _ := by
          rw [Cursor.terminals, tokens]
          simp
  have final : (lex text.toList).getLast? = some last.terminal := by
    rw [lex, scanned]
    simp
  exact .of_semicolon final semicolon

theorem Concluded.of_tokens (semicolon : last.kind = .semicolon)
    (balanced : (Cursor.ofText file text).tokens.countP (·.kind = .lbrace) =
      (Cursor.ofText file text).tokens.countP (·.kind = .rbrace)) :
    Concluded (Cursor.ofText file text).terminals where
  balanced := by
    rw [Cursor.braces_terminals, balanced, Int.sub_self]
  semicolon := by
    obtain ⟨others, same, _⟩ := (Tokenization.of_cursor file text).ended
    have final := congrArg List.getLast? same
    rw [tokens] at final
    simp only [List.getLast?_append, List.getLast?_cons_cons, List.getLast?_singleton,
      Option.some_or, Option.some.injEq] at final
    refine ⟨before.map Token.terminal, last.terminal, ended.terminal, ?_, semicolon, ?_⟩
    · rw [Cursor.terminals, tokens]
      simp
    · rw [final]
      rfl

end

/-- A program that is read without a fault, ends with a semicolon and closes its braces can be
followed by any text: both are read as they are read by themselves, and what is recorded of the
text that follows is recorded at offsets counted from the end of the program. -/
theorem readText_append (options : Options) (file text more : String) {before : List Token}
    {last ended : Token} (quiet : (readText options file text).diagnostics = [])
    (tokens : (Cursor.ofText file text).tokens = before ++ [last, ended])
    (semicolon : last.kind = .semicolon)
    (balanced : (Cursor.ofText file text).tokens.countP (·.kind = .lbrace) =
      (Cursor.ofText file text).tokens.countP (·.kind = .rbrace)) :
    (readText options file (text ++ more)).program =
        (readText options file text).program ++ (readText options file more).program ∧
      (readText options file (text ++ more)).diagnostics =
        (readText options file more).diagnostics.map (·.shift text.length) ∧
      (readText options file (text ++ more)).trace =
        (readText options file text).trace ++ (readText options file more).trace := by
  let one := start options (.ofText file text)
  let other := start options (.ofText file (text ++ more))
  have settled := settled_start options (.ofText file text)
  obtain ⟨program, final, run, _⟩ := readProgram_finishes Grammar.grounded_standard settled
  have alone := readText_of_built run
  have silent : final.diagnostics.toList = [] := by
    rw [alone] at quiet
    exact quiet
  have concluded : Concluded one.remainingTerminals := by
    rw [remainingTerminals_start]
    exact .of_tokens tokens semicolon balanced
  have alike : Extends (.seam file text more) one other :=
    extends_start (.of_tokens tokens semicolon _) (Cursor.next_of_tokens tokens)
  have few : final.diagnostics.size ≤ one.diagnostics.size := by
    rw [← Array.length_toList, silent]
    exact Nat.zero_le _
  obtain ⟨stop, stop', alike', eof, rfl, moment⟩ := concluded.readProgram rfl alike
    (settled_start options _) .first run few
  obtain ⟨programs, diagnostics, traces⟩ := moment.readText (alike'.continues eof moment)
  have none : stop.diagnostics.toList = [] := silent
  rw [none, List.nil_append] at diagnostics
  rw [alone, programs, diagnostics, traces, String.length_toList]
  exact ⟨rfl, rfl, rfl⟩

set_option maxRecDepth 20000 in
/-- A function whose body closes, and a binding behind it that is given up at its second token. -/
theorem readText_append_faulty :
    (readText ⟨true, 4⟩ "f" ("fn(x) \x7b x \x7d;" ++ "let 1")).program =
        [.expression (.function ["x"] [.expression (.identifier "x")])] ++
          [.expression (.integer 1 "1")] ∧
      (readText ⟨true, 4⟩ "f" ("fn(x) \x7b x \x7d;" ++ "let 1")).diagnostics =
        [⟨.unexpected .ident .int, "f", 16⟩] ∧
      (readText ⟨true, 4⟩ "f" ("fn(x) \x7b x \x7d;" ++ "let 1")).trace =
        (readText ⟨true, 4⟩ "f" "fn(x) \x7b x \x7d;").trace ++
          (readText ⟨true, 4⟩ "f" "let 1").trace := by
  have tokens : (Cursor.ofText "f" "fn(x) \x7b x \x7d;").tokens =
      (Cursor.ofText "f" "fn(x) \x7b x \x7d;").tokens.take 7 ++
        [⟨.semicolon, ";", "f", 11, 12⟩, ⟨.eof, "", "f", 12, 12⟩] := by decide
  exact readText_append ⟨true, 4⟩ "f" "fn(x) \x7b x \x7d;" "let 1" rfl tokens rfl (by decide)

end MonkeySyntax
