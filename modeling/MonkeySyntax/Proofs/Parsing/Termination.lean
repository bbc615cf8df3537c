import MonkeySyntax.Proofs.Parsing.TokenAssertions
import MonkeySyntax.Proofs.Parsing.StepRelations
import MonkeySyntax.Proofs.Parsing.Reads
import MonkeySyntax.Proofs.Parsing.Simulation

/-! Every run finishes, by any grammar without a rule at the end of the input. Of the phrases that
run one another at the same place each comes later in a fixed order, and otherwise a token has been
passed; so four steps for each token left are enough. The bound that a parser takes is greater, and
no run depends on it, since equal parsers run alike under all bounds that are enough. -/
namespace MonkeySyntax

namespace Parser

section

variable {parser : Parser}

theorem length_following_advance (more : parser.ahead.kind ≠ .eof) :
    parser.following.length = parser.advance.following.length + 1 := by
  rw [following_of_ne more, List.length_cons]

theorem length_following_advance_le (settled : parser.Settled) :
    parser.advance.following.length ≤ parser.following.length := by
  by_cases ended : parser.ahead.kind = .eof
  · have again := settled.ahead ended
    simp [following, advance, again, ended]
  · rw [length_following_advance ended]
    exact Nat.le_succ _

theorem length_remaining (more : parser.current.kind ≠ .eof) :
    parser.remaining.length = parser.following.length + 1 := by
  rw [remaining, if_neg more, List.length_cons]

theorem length_following_le_remaining (settled : parser.Settled) :
    parser.following.length ≤ parser.remaining.length := by
  by_cases ended : parser.current.kind = .eof
  · simp [following_of_current settled ended, remaining, ended]
  · rw [length_remaining ended]
    exact Nat.le_succ _

end

/-- To a settled window with no more tokens behind its current one. -/
def Descends (before after : Parser) : Prop :=
  before.Settled → after.Settled ∧ after.following.length ≤ before.following.length

theorem keeps_descends : KeptBySteps Descends where
  refl _ settled := ⟨settled, Nat.le_refl _⟩
  trans h k settled :=
    have first := h settled
    have second := k first.1
    ⟨second.1, Nat.le_trans second.2 first.2⟩
  advance _ settled := ⟨settled.advance, length_following_advance_le settled⟩
  drop _ settled := ⟨settled.frame rfl, Nat.le_refl _⟩
  reportAt _ _ _ settled := ⟨settled.frame rfl, Nat.le_refl _⟩
  traced _ _ _ h settled :=
    have inside := h (settled.frame rfl)
    ⟨inside.1.frame rfl, inside.2⟩
  nested h settled :=
    have inside := h (settled.frame rfl)
    ⟨inside.1.frame rfl, inside.2⟩

/-- At most a number of tokens are left in a list that the parser's window begins. -/
structure Left (grammar : Grammar) (count : Nat) (tokens : List Token) (parser : Parser) :
    Prop where
  grammar : parser.grammar = grammar
  settled : parser.Settled
  few : tokens.length ≤ count

end Parser

open MonkeySyntax.Parser Parse Parts

/-- Counts the tokens from the next one to be taken up. -/
def TokenAssertions.counting (grammar : Grammar) (count : Nat) : TokenAssertions where
  reached parser := parser.Left grammar count parser.remaining
  clear parser := parser.Left grammar count parser.following
  lost parser := parser.Left grammar count parser.following
  reached_frame _ h _ := ⟨h.grammar, h.settled.frame rfl, h.few⟩
  clear_frame _ h _ := ⟨h.grammar, h.settled.frame rfl, h.few⟩
  lost_frame _ h _ := ⟨h.grammar, h.settled.frame rfl, h.few⟩
  take h _ := ⟨h.grammar, h.settled, Nat.le_trans (length_following_le_remaining h.settled) h.few⟩
  advance h := ⟨h.grammar, h.settled.advance, by rw [remaining_advance]; exact h.few⟩
  report h _ :=
    have few := Nat.le_trans (length_following_le_remaining h.settled) h.few
    ⟨h.grammar, h.settled.frame rfl, few⟩
  unexpected h _ := ⟨h.grammar, h.settled.frame rfl, h.few⟩
  skip h _ := ⟨h.grammar, h.settled.advance,
    Nat.le_trans (length_following_advance_le h.settled) h.few⟩
  recover h := ⟨h.grammar, h.settled.advance.frame rfl, by
    rw [remaining_advance]; exact h.few⟩

open TokenAssertions (counting)

section

variable {grammar : Grammar} {count : Nat} {parser : Parser}

/-- A token taken up is no longer left. -/
theorem TokenAssertions.counting_take (reached : (counting grammar count).reached parser)
    (more : parser.current.kind ≠ .eof) :
    ∃ less, count = less + 1 ∧ (counting grammar less).clear parser := by
  have few := reached.few
  rw [length_remaining more] at few
  exact ⟨count - 1, by omega, reached.grammar, reached.settled, by omega⟩

theorem TokenAssertions.counting_advance (clear : (counting grammar count).clear parser)
    (more : parser.ahead.kind ≠ .eof) :
    ∃ less, count = less + 1 ∧ (counting grammar less).clear parser.advance := by
  have few := clear.few
  rw [length_following_advance more] at few
  exact ⟨count - 1, by omega, clear.grammar, clear.settled.advance, by omega⟩

theorem Outcome.Meets.more {outcome : Outcome α}
    (meets : outcome.Meets (fun _ => (counting grammar count).clear) (counting grammar count).lost
      False) :
    outcome.Meets (fun _ => (counting grammar (count + 1)).clear)
      (counting grammar (count + 1)).lost False :=
  meets.imp (fun _ _ h => ⟨h.grammar, h.settled, Nat.le_succ_of_le h.few⟩)
    fun _ h => ⟨h.grammar, h.settled, Nat.le_succ_of_le h.few⟩

end

/-- The recurring phrases finish under the bound, as far as it suffices for the tokens left. -/
structure Finishing (grammar : Grammar) (bound : Nat) : Prop where
  expression {count : Nat} (floor : Precedence) : 4 * count + 1 ≤ bound →
    Upholds (counting grammar count) False (counting grammar count).reached
      ((Parts.within bound).expression floor)
  continuation {count : Nat} (floor : Precedence) (left : Expr) : 4 * count + 1 ≤ bound →
    Upholds (counting grammar count) False (counting grammar count).clear
      ((Parts.within bound).continuation floor left)
  parameters {count : Nat} : 4 * count + 2 ≤ bound →
    Upholds (counting grammar count) False (counting grammar count).clear
      (Parts.within bound).parameters
  arguments {count : Nat} : 4 * count + 2 ≤ bound →
    Upholds (counting grammar count) False (counting grammar count).clear
      (Parts.within bound).arguments
  statement {count : Nat} : 4 * count + 2 ≤ bound →
    Upholds (counting grammar count) False (counting grammar count).reached
      (Parts.within bound).statement
  statements {count : Nat} (extent : Extent) : 4 * count + 3 ≤ bound →
    Upholds (counting grammar count) False (counting grammar count).reached
      ((Parts.within bound).statements extent)

namespace Finishing

variable {grammar : Grammar} {bound count : Nat} (h : Finishing grammar bound)
include h

theorem uphold (count : Nat) (enough : 4 * count + 3 ≤ bound) :
    (Parts.within bound).Uphold (counting grammar count) False where
  expression floor := h.expression floor (by omega)
  continuation floor left := h.continuation floor left (by omega)
  parameters := h.parameters (by omega)
  arguments := h.arguments (by omega)
  statement := h.statement (by omega)
  statements extent := h.statements extent enough

theorem expressionAbove (grounded : grammar.Grounded) (floor : Precedence)
    (enough : 4 * count ≤ bound) :
    Upholds (counting grammar count) False (counting grammar count).reached
      ((Parts.within bound).expressionAbove floor) := by
  refine .traced_reached _ (.nested fun before reached => ?_)
  rw [meets_bind, startHere, read_bind]
  cases found : before.grammar.start before.current.kind with
  | none => exact (counting grammar count).report reached (.noStart found)
  | some rule =>
    have more : before.current.kind ≠ .eof := grounded.ne_eof_of_start (reached.grammar ▸ found)
    obtain ⟨less, rfl, clear⟩ := TokenAssertions.counting_take reached more
    have inside := h.uphold less (by omega)
    have begun : (counting grammar less).begun rule before :=
      ⟨clear, found, fun _ _ => ⟨clear.grammar, clear.settled.frame rfl, clear.few⟩⟩
    exact meets_bind.mp ((inside.start rule).bind (inside.continuation floor) before begun).more

theorem continueAbove (grounded : grammar.Grounded) (floor : Precedence) (left : Expr)
    (enough : 4 * count ≤ bound) :
    Upholds (counting grammar count) False (counting grammar count).clear
      ((Parts.within bound).continueAbove floor left) := by
  intro before clear
  rw [Parts.continueAbove, read_bind]
  cases found : before.grammar.tighter? floor before.ahead.kind with
  | none => exact clear
  | some rule =>
    have more : before.ahead.kind ≠ .eof := grounded.ne_eof_of_tighter (clear.grammar ▸ found)
    obtain ⟨less, rfl, onto⟩ := TokenAssertions.counting_advance clear more
    have inside := h.uphold less (by omega)
    exact ((inside.extend left rule).bind (inside.continuation floor) _ onto).more

theorem parameterList (enough : 4 * count + 1 ≤ bound) :
    Upholds (counting grammar count) False (counting grammar count).clear
      (Parts.within bound).parameterList := by
  intro before clear
  refine meets_expect_bind.mpr ⟨fun met => ?_, (counting grammar count).unexpected clear⟩
  have more : before.ahead.kind ≠ .eof := by rw [met]; decide
  obtain ⟨less, rfl, onto⟩ := TokenAssertions.counting_advance clear more
  have rest := (h.uphold less (by omega)).parameters.bind fun names =>
    .pure (before.advance.current.literal :: names)
  exact (Upholds.ahead (by decide) rest (.pure _) before.advance onto).more

theorem argumentList (enough : 4 * count + 1 ≤ bound) :
    Upholds (counting grammar count) False (counting grammar count).clear
      (Parts.within bound).argumentList := by
  refine .onward (.bind (h.expression .lowest (by omega)) fun argument middle clear => ?_)
  rw [aheadKind, read_bind]
  split
  · next met =>
    have more : middle.ahead.kind ≠ .eof := by rw [met]; decide
    obtain ⟨less, rfl, onto⟩ := TokenAssertions.counting_advance clear more
    have rest := (h.uphold less (by omega)).arguments.bind fun list =>
      .pure (argument :: list)
    exact (rest middle.advance onto).more
  · exact clear

theorem statementHere (grounded : grammar.Grounded) (enough : 4 * count + 1 ≤ bound) :
    Upholds (counting grammar count) False (counting grammar count).reached
      (Parts.within bound).statementHere := by
  intro before reached
  have default := Uphold.expressionStatement (h.expression .lowest enough) before reached
  rw [Parts.statementHere, read_bind]
  cases found : before.grammar.statement before.current.kind with
  | none => exact default
  | some rule =>
    rw [reached.grammar] at found
    have more : before.current.kind ≠ .eof := grounded.ne_eof_of_statement found
    obtain ⟨less, rfl, clear⟩ := TokenAssertions.counting_take reached more
    have inside := h.uphold less (by omega)
    cases rule with
    | any => exact absurd found (grounded.direct _)
    | binding => exact (inside.bindingStatement before clear).more
    | returning => exact (inside.returnStatement before clear).more
    | expression => exact default

theorem statementList (extent : Extent) (enough : 4 * count + 2 ≤ bound) :
    Upholds (counting grammar count) False (counting grammar count).reached
      ((Parts.within bound).statementList extent) := by
  intro before reached
  rw [Parts.statementList, currentKind, read_bind]
  split
  · next ended =>
    exact (counting grammar count).take reached (.inl (extent.ne_illegal_of_endsAt ended))
  · next goes =>
    have more : before.current.kind ≠ .eof := fun ended => goes (ended ▸ extent.endsAt_eof)
    obtain ⟨less, rfl, clear⟩ := TokenAssertions.counting_take reached more
    have inside := h.uphold less (by omega)
    -- That a statement passes a token is not known of its end, but no phrase goes back.
    have statement := (h.statement (by omega) before reached).and
      (keeps_within keeps_descends bound .statement before)
    rw [meets_bind, meets_attempt]
    refine statement.imp (fun value after ends => ?_) fun after ends => ?_
    · have few := Nat.le_trans (ends.2 reached.settled).2 clear.few
      have onto := (counting grammar less).advance ⟨ends.1.grammar, ends.1.settled, few⟩
      have rest := (inside.statements extent).bind fun list => .pure (value :: list)
      exact (rest after.advance onto).more
    · have few := Nat.le_trans (ends.2 reached.settled).2 clear.few
      have onto := (counting grammar less).recover ⟨ends.1.grammar, ends.1.settled, few⟩
      exact (inside.statements extent after.drop.advance onto).more

end Finishing

theorem finishing {grammar : Grammar} (grounded : grammar.Grounded) (bound : Nat) :
    Finishing grammar bound := by
  induction bound with
  | zero =>
    exact ⟨fun _ _ => by omega, fun _ _ _ => by omega, fun _ => by omega, fun _ => by omega,
      fun _ => by omega, fun _ _ => by omega⟩
  | succ bound h =>
    exact ⟨fun floor _ => h.expressionAbove grounded floor (by omega),
      fun floor left _ => h.continueAbove grounded floor left (by omega),
      fun _ => h.parameterList (by omega), fun _ => h.argumentList (by omega),
      fun _ => h.statementHere grounded (by omega),
      fun extent _ => h.statementList extent (by omega)⟩

theorem Extent.endsAt_program_iff {kind : Kind} : Extent.program.endsAt kind ↔ kind = .eof := by
  cases kind <;> simp [Extent.endsAt]

/-- A sequence of statements is never given up, and is built as far as its end. -/
theorem Parts.statements_end (bound : Nat) (extent : Extent) (before : Parser) :
    ((Parts.within bound).statements extent before).Meets
      (fun _ after => extent.endsAt after.current.kind) (fun _ => False) True := by
  induction bound generalizing before with
  | zero => trivial
  | succ bound ih =>
    change ((Parts.within bound).statementList extent before).Meets _ _ _
    rw [statementList, currentKind, read_bind]
    split
    · next ended => exact ended
    · rw [meets_bind, meets_attempt]
      cases (Parts.within bound).statement before with
      | built value middle =>
        have rest : (((Parts.within bound).statements extent >>= fun list =>
            (pure (value :: list) : Parse (List Stmt))) middle.advance).Meets
            (fun _ after => extent.endsAt after.current.kind) (fun _ => False) True :=
          meets_bind.mpr (ih middle.advance)
        exact rest
      | abandoned middle => exact ih middle.drop.advance
      | unfinished => trivial

namespace Parser

variable {grammar : Grammar} {parser : Parser}

theorem enough_le_bound (parser : Parser) : 4 * parser.remaining.length + 3 ≤ parser.bound := by
  have few := parser.remainingTerminals_length_le
  rw [remainingTerminals, List.length_map] at few
  simp only [bound]
  omega

theorem statement_finishes {bound : Nat} (grounded : parser.grammar.Grounded)
    (settled : parser.Settled) (enough : 4 * parser.remaining.length + 2 ≤ bound) :
    (Parts.within bound).statement parser ≠ .unfinished := by
  intro run
  have ends := (finishing grounded bound).statement enough parser ⟨rfl, settled, Nat.le_refl _⟩
  rwa [run] at ends

theorem statements_finish {bound : Nat} (grounded : parser.grammar.Grounded)
    (settled : parser.Settled) (extent : Extent)
    (enough : 4 * parser.remaining.length + 3 ≤ bound) :
    ∃ list after, (Parts.within bound).statements extent parser = .built list after ∧
      extent.endsAt after.current.kind := by
  have ends :=
    (finishing grounded bound).statements extent enough parser ⟨rfl, settled, Nat.le_refl _⟩
  have ended := Parts.statements_end bound extent parser
  cases run : (Parts.within bound).statements extent parser with
  | built list after =>
    rw [run] at ended
    exact ⟨list, after, rfl, ended⟩
  | abandoned after =>
    rw [run] at ended
    exact ended.elim
  | unfinished =>
    rw [run] at ends
    exact ends.elim

theorem readProgram_finishes (grounded : parser.grammar.Grounded) (settled : parser.Settled) :
    ∃ program after, parser.readProgram = .built program after ∧ after.current.kind = .eof := by
  obtain ⟨program, after, run, ended⟩ :=
    statements_finish grounded settled .program parser.enough_le_bound
  exact ⟨program, after, run, Extent.endsAt_program_iff.mp ended⟩

/-- A start rule finishes even on a token that the table does not give it. -/
theorem start_ne_unfinished {parts : Parts} {d : TokenAssertions} (h : parts.Uphold d False)
    (clear : d.clear parser) (rule : StartRule) : parts.start rule parser ≠ .unfinished := by
  have c := d.closedUnderForms False
  have finishes {step : Parse Expr} (upholds : Upholds d False d.clear step) :
      step parser ≠ .unfinished := by
    intro ran
    have meets := upholds parser clear
    rwa [ran] at meets
  cases rule with
  | identifier => intro ran; cases ran
  | integer =>
    change Parts.integer parser ≠ .unfinished
    rw [Parts.integer, Parse.traced, currentLiteral, read_bind]
    cases Text.numeralBelow? integerBound _ with
    | none => intro ran; cases ran
    | some value => intro ran; cases ran
  | boolean => intro ran; cases ran
  | unary => exact finishes (c.unary h)
  | grouped => exact finishes (c.grouped h)
  | conditional => exact finishes (c.conditional h)
  | function => exact finishes (c.function h)

theorem run_ne_unfinished (grounded : parser.grammar.Grounded) (settled : parser.Settled)
    (phrase : Phrase form) : parser.run (·.parse phrase) ≠ .unfinished := by
  let d := counting parser.grammar parser.remaining.length
  have h : (Parts.within parser.bound).Uphold d False :=
    (finishing grounded parser.bound).uphold _ parser.enough_le_bound
  have reached : d.reached parser := ⟨rfl, settled, Nat.le_refl _⟩
  have clear : d.clear parser := ⟨rfl, settled, length_following_le_remaining settled⟩
  have finishes (asserts : d.asserts phrase.stage parser) :
      parser.run (·.parse phrase) ≠ .unfinished := by
    intro ran
    have meets : (parser.run (·.parse phrase)).Meets (fun _ => d.clear) d.lost False :=
      (d.closedUnderForms False).parse h phrase parser asserts
    rwa [ran] at meets
  cases phrase with
  | start rule => exact start_ne_unfinished h clear rule
  | expression | statements | statement => exact finishes reached
  | continuation | extend | items | enclosed | block => exact finishes clear
  | statementBy rule =>
    cases rule with
    | any | expression => exact finishes reached
    | binding | returning => exact finishes clear

end Parser

theorem readText_of_built {options : Options} {file text : String} {program : Program}
    {after : Parser}
    (run : (Parser.start options (.ofText file text)).readProgram = .built program after) :
    readText options file text = after.parsed program := by
  simp only [readText, run]

end MonkeySyntax
