import MonkeySyntax.Proofs.Language.Derivation
import MonkeySyntax.Proofs.Parsing.Loop
import MonkeySyntax.Proofs.Source.Renaming

/-! Two texts that are alike but for the names in them, read side by side. The runs see tokens of
one index and of one kind; literals are looked at only where they are numerals, and are else put
into the tree as they are. So both runs go the same way, whatever the names and wherever the tokens
stand: one tree is the other one renamed, and both find the same faults at the same tokens. -/
namespace MonkeySyntax

/-- The same fault, found in either text at the start of the token with one index. -/
def Diagnostic.Alike (here there : Cursor) (one other : Diagnostic) : Prop :=
  ∃ (fault : Fault) (index : Nat) (token token' : Token),
    here.tokens[index]? = some token ∧ there.tokens[index]? = some token' ∧
      one = ⟨fault, token.span.file, token.span.start⟩ ∧
      other = ⟨fault, token'.span.file, token'.span.start⟩

/-- Two parsers that have come equally far. -/
structure Parser.Paired (r : String → String) (here there : Cursor) (one other : Parser) :
    Prop where
  renames : here.Renames r there
  place : ∃ index, one.window = (here.past index).window ∧ other.window = (there.past index).window
  grammar : one.grammar = .standard ∧ other.grammar = .standard
  depth : other.depth = one.depth
  options : other.options = one.options
  trace : other.trace = one.trace
  diagnostics : List.Forall₂ (Diagnostic.Alike here there) one.diagnostics.toList
    other.diagnostics.toList

/-- Both runs come to the same end, equally far, and the second builds what becomes of the value
that the first builds. -/
inductive Outcome.Tracks (S : Parser → Parser → Prop) (f : α → β) : Outcome α → Outcome β → Prop
  | built {value : α} {one other : Parser} : S one other →
      Tracks S f (.built value one) (.built (f value) other)
  | abandoned {one other : Parser} : S one other → Tracks S f (.abandoned one) (.abandoned other)
  | unfinished : Tracks S f .unfinished .unfinished

def Parse.Tracks (r : String → String) (here there : Cursor) (f : α → β) (step : Parse α)
    (step' : Parse β) : Prop :=
  ∀ ⦃one other : Parser⦄, one.Paired r here there other →
    (step one).Tracks (Parser.Paired r here there) f (step' other)

variable {r : String → String} {here there : Cursor} {one other : Parser}

namespace Parser.Paired

theorem seen (paired : one.Paired r here there other) :
    ∃ index, one.current = here.tokenAt index ∧ other.current = there.tokenAt index ∧
      one.ahead = here.tokenAt (index + 1) ∧ other.ahead = there.tokenAt (index + 1) := by
  obtain ⟨index, one_at, other_at⟩ := paired.place
  rw [Cursor.window_past] at one_at other_at
  exact ⟨index, congrArg Window.current one_at, congrArg Window.current other_at,
    congrArg Window.ahead one_at, congrArg Window.ahead other_at⟩

theorem current (paired : one.Paired r here there other) : one.current.Alike r other.current := by
  obtain ⟨index, one_at, other_at, -⟩ := paired.seen
  rw [one_at, other_at]
  exact paired.renames.alike index

theorem aheadKind (paired : one.Paired r here there other) : other.ahead.kind = one.ahead.kind := by
  obtain ⟨index, -, -, one_at, other_at⟩ := paired.seen
  rw [one_at, other_at]
  exact (paired.renames.alike (index + 1)).kind

theorem symbol (paired : one.Paired r here there other)
    (symbol : ∃ entry ∈ symbols, entry.2 = one.current.kind) :
    other.current.literal = one.current.literal := by
  obtain ⟨index, one_at, other_at, -⟩ := paired.seen
  rw [one_at] at symbol
  rw [one_at, other_at]
  exact paired.renames.symbol index symbol

theorem advance (paired : one.Paired r here there other) :
    one.advance.Paired r here there other.advance :=
  { paired with
    place := by
      obtain ⟨index, one_at, other_at⟩ := paired.place
      refine ⟨index + 1, ?_, ?_⟩
      · rw [window_advance, one_at, Cursor.advance_window, ← Cursor.past_succ]
      · rw [window_advance, other_at, Cursor.advance_window, ← Cursor.past_succ] }

theorem drop (paired : one.Paired r here there other) : one.drop.Paired r here there other.drop :=
  { paired with }

theorem enter (label : String) (paired : one.Paired r here there other) :
    (one.enter label).Paired r here there (other.enter label) :=
  { paired with trace := congrArg (Trace.enter label) paired.trace }

theorem leave (label : String) (paired : one.Paired r here there other) :
    (one.leave label).Paired r here there (other.leave label) :=
  { paired with trace := congrArg (Trace.leave label) paired.trace }

theorem deepen (paired : one.Paired r here there other) :
    one.deepen.Paired r here there other.deepen :=
  { paired with depth := congrArg (· + 1) paired.depth }

theorem surface (paired : one.Paired r here there other) :
    one.surface.Paired r here there other.surface :=
  { paired with depth := congrArg (· - 1) paired.depth }

/-- A fault recorded on both sides at tokens of one index. -/
theorem reportAt (fault : Fault) (paired : one.Paired r here there other) (index : Nat) :
    (one.reportAt (here.tokenAt index) fault).Paired r here there
      (other.reportAt (there.tokenAt index) fault) :=
  { paired with
    diagnostics := by
      have at_here := here.exists_getElem?_tokenAt index
      have at_there := there.exists_getElem?_tokenAt index
      rw [paired.renames.count] at at_there
      rw [toList_reportAt, toList_reportAt]
      exact List.rel_append paired.diagnostics
        (.cons ⟨fault, _, _, _, at_here, at_there, rfl, rfl⟩ .nil) }

theorem reportCurrent (fault : Fault) (paired : one.Paired r here there other) :
    (one.report fault).Paired r here there (other.report fault) := by
  obtain ⟨index, one_at, other_at, -⟩ := paired.seen
  rw [report, report, one_at, other_at]
  exact paired.reportAt fault index

theorem reportAhead (fault : Fault) (paired : one.Paired r here there other) :
    (one.reportAt one.ahead fault).Paired r here there (other.reportAt other.ahead fault) := by
  obtain ⟨index, -, -, one_at, other_at⟩ := paired.seen
  rw [one_at, other_at]
  exact paired.reportAt fault (index + 1)

theorem skipped (kind : Kind) (paired : one.Paired r here there other) :
    (Parse.skipped kind one).Paired r here there (Parse.skipped kind other) := by
  rw [Parse.skipped, Parse.skipped, paired.aheadKind]
  split
  · exact paired.advance
  · exact paired

theorem start (renames : here.Renames r there) (options : Options) :
    (start options here).Paired r here there (start options there) where
  renames := renames
  place := ⟨0, rfl, rfl⟩
  grammar := ⟨rfl, rfl⟩
  depth := rfl
  options := rfl
  trace := rfl
  diagnostics := .nil

end Parser.Paired

theorem Outcome.Tracks.after {S T : Parser → Parser → Prop} {f : α → β} {change : Parser → Parser}
    {outcome : Outcome α} {outcome' : Outcome β} (tracks : outcome.Tracks S f outcome')
    (keeps : ∀ {one other}, S one other → T (change one) (change other)) :
    (outcome.after change).Tracks T f (outcome'.after change) := by
  cases tracks with
  | built paired => exact .built (keeps paired)
  | abandoned paired => exact .abandoned (keeps paired)
  | unfinished => exact .unfinished

theorem Outcome.Tracks.bind {f : α → β} {g : γ → δ} {step : Parse α} {step' : Parse β}
    {next : α → Parse γ} {next' : β → Parse δ}
    (first : (step one).Tracks (Parser.Paired r here there) f (step' other))
    (rest : ∀ value, (next value).Tracks r here there g (next' (f value))) :
    ((step >>= next) one).Tracks (Parser.Paired r here there) g ((step' >>= next') other) := by
  rw [Parse.bind_apply, Parse.bind_apply]
  generalize step one = outcome, step' other = outcome' at first
  cases first with
  | built paired => exact rest _ paired
  | abandoned paired => exact .abandoned paired
  | unfinished => exact .unfinished

namespace Parse.Tracks

variable {f : α → β} {g : γ → δ} {step : Parse α} {step' : Parse β}

theorem pure (f : α → β) (value : α) :
    (Pure.pure value : Parse α).Tracks r here there f (Pure.pure (f value)) :=
  fun _ _ paired => .built paired

theorem bind {next : α → Parse γ} {next' : β → Parse δ} (first : step.Tracks r here there f step')
    (rest : ∀ value, (next value).Tracks r here there g (next' (f value))) :
    (step >>= next).Tracks r here there g (step' >>= next') :=
  fun _ _ paired => (first paired).bind rest

theorem advance : Parse.advance.Tracks r here there id Parse.advance :=
  fun _ _ paired => .built paired.advance

theorem drop : (update Parser.drop).Tracks r here there id (update Parser.drop) :=
  fun _ _ paired => .built paired.drop

theorem fail (f : α → β) (fault : Fault) :
    (Parse.fail fault : Parse α).Tracks r here there f (Parse.fail fault) :=
  fun _ _ paired => .abandoned (paired.reportCurrent fault)

theorem expect (kind : Kind) : (Parse.expect kind).Tracks r here there id (Parse.expect kind) := by
  intro one other paired
  by_cases met : one.ahead.kind = kind
  · rw [expect_of_eq met, expect_of_eq (paired.aheadKind.trans met)]
    exact .built paired.advance
  · rw [expect_of_ne met, expect_of_ne (paired.aheadKind ▸ met), paired.aheadKind]
    exact .abandoned (paired.reportAhead _)

/-- A name is read from the token that was expected. -/
theorem name {next : String → Parse γ} {next' : String → Parse δ}
    (rest : ∀ name, (next name).Tracks r here there g (next' (r name))) :
    (Parse.expect .ident >>= fun _ => currentLiteral >>= next).Tracks r here there g
      (Parse.expect .ident >>= fun _ => currentLiteral >>= next') := by
  intro one other paired
  by_cases met : one.ahead.kind = .ident
  · rw [bind_of_built (expect_of_eq met), bind_of_built (expect_of_eq (paired.aheadKind.trans met)),
      currentLiteral, read_bind, read_bind, paired.advance.current.name met]
    exact rest _ paired.advance
  · rw [bind_of_abandoned (expect_of_ne met),
      bind_of_abandoned (expect_of_ne (paired.aheadKind ▸ met)), paired.aheadKind]
    exact .abandoned (paired.reportAhead _)

theorem look {next : Kind → Parse γ} {next' : Kind → Parse δ}
    (rest : ∀ kind, (next kind).Tracks r here there g (next' kind)) :
    (aheadKind >>= next).Tracks r here there g (aheadKind >>= next') := by
  intro one other paired
  rw [aheadKind, read_bind, read_bind, paired.aheadKind]
  exact rest _ paired

theorem standing {next : Kind → Parse γ} {next' : Kind → Parse δ}
    (rest : ∀ kind, (next kind).Tracks r here there g (next' kind)) :
    (currentKind >>= next).Tracks r here there g (currentKind >>= next') := by
  intro one other paired
  rw [currentKind, read_bind, read_bind, paired.current.kind]
  exact rest _ paired

theorem attempt (inside : step.Tracks r here there f step') :
    step.attempt.Tracks r here there (Option.map f) step'.attempt := by
  intro one other paired
  have inside := inside paired
  rw [Parse.attempt, Parse.attempt]
  generalize step one = outcome, step' other = outcome' at inside
  cases inside with
  | built paired => exact .built paired
  | abandoned paired => exact .built paired
  | unfinished => exact .unfinished

theorem branch {condition : Prop} [Decidable condition] {yes no : Parse α} {yes' no' : Parse β}
    (left : yes.Tracks r here there f yes') (right : no.Tracks r here there f no') :
    (if condition then yes else no).Tracks r here there f (if condition then yes' else no') := by
  split
  · exact left
  · exact right

theorem skip (kind : Kind) : (Parse.skip kind).Tracks r here there id (Parse.skip kind) :=
  .look fun _ => .branch .advance (.pure id ())

theorem closing (kind : Kind) (inside : step.Tracks r here there f step') :
    (ensuring (Parse.skip kind) step).Tracks r here there f (ensuring (Parse.skip kind) step') := by
  intro one other paired
  rw [ensuring_skip_apply, ensuring_skip_apply]
  exact (inside paired).after fun paired => paired.skipped kind

theorem traced (label : String) (inside : step.Tracks r here there f step') :
    (Parse.traced label step).Tracks r here there f (Parse.traced label step') :=
  fun _ _ paired => (inside (paired.enter label)).after fun paired => paired.leave label

theorem nested (inside : step.Tracks r here there f step') :
    step.nested.Tracks r here there f step'.nested := by
  intro one other paired
  simp only [Parse.nested, paired.depth, paired.options]
  refine Outcome.Tracks.after ?_ Parser.Paired.surface
  split
  · exact fail f _ paired.deepen
  · exact inside paired.deepen

end Parse.Tracks

namespace Grammar

theorem symbol_of_start {kind : Kind} (found : standard.start kind = some .unary) :
    ∃ entry ∈ symbols, entry.2 = kind := by
  cases kind <;> first | decide | cases found

theorem symbol_of_tighter {kind : Kind} {floor : Precedence} {rule : ContinuationRule}
    (found : standard.tighter? floor kind = some rule) : ∃ entry ∈ symbols, entry.2 = kind := by
  cases kind <;> first | decide | cases found

end Grammar

/-- The recurring phrases build renamed trees from renamed texts. -/
structure Parts.Tracked (r : String → String) (here there : Cursor) (parts : Parts) : Prop where
  expression (floor : Precedence) : (parts.expression floor).Tracks r here there (Expr.rename r)
    (parts.expression floor)
  continuation (floor : Precedence) (left : Expr) :
    (parts.continuation floor left).Tracks r here there (Expr.rename r)
      (parts.continuation floor (left.rename r))
  parameters : parts.parameters.Tracks r here there (List.map r) parts.parameters
  arguments : parts.arguments.Tracks r here there (renameArguments r) parts.arguments
  statement : parts.statement.Tracks r here there (Stmt.rename r) parts.statement
  statements (extent : Extent) : (parts.statements extent).Tracks r here there (renameBlock r)
    (parts.statements extent)

namespace Parts.Tracked

open Parse

variable {parts : Parts} (h : parts.Tracked r here there)
include h

theorem block : parts.block.Tracks r here there (renameBlock r) parts.block :=
  .bind .advance fun _ => h.statements .block

theorem unary (paired : one.Paired r here there other)
    (found : Grammar.standard.start one.current.kind = some .unary) :
    (parts.unary one).Tracks (Parser.Paired r here there) (Expr.rename r) (parts.unary other) := by
  have inside := paired.enter "parse_prefix_expression"
  have sign := inside.symbol (Grammar.symbol_of_start found)
  refine Outcome.Tracks.after ?_ (Parser.Paired.leave _)
  rw [currentLiteral, read_bind, read_bind, sign]
  exact (Tracks.advance inside).bind fun _ => .bind (h.expression .unary) fun operand =>
    .pure _ (Expr.unary _ operand)

theorem grouped : parts.grouped.Tracks r here there (Expr.rename r) parts.grouped :=
  .bind .advance fun _ => .bind (h.expression .lowest) fun inner =>
    .bind (.expect _) fun _ => .pure _ inner

theorem conditional : parts.conditional.Tracks r here there (Expr.rename r) parts.conditional := by
  refine .bind (.expect _) fun _ => .bind .advance fun _ => ?_
  refine .bind (h.expression .lowest) fun condition => .bind (.expect _) fun _ => ?_
  refine .bind (.expect _) fun _ => .bind h.block fun consequence => .look fun _ => .branch ?_ ?_
  · refine .bind .advance fun _ => .bind (.expect _) fun _ => .bind h.block fun alternative => ?_
    exact .pure _ (Expr.conditional condition consequence (some alternative))
  · exact .pure _ (Expr.conditional condition consequence none)

omit h in
theorem parenthesized {items : Parse (List α)} {items' : Parse (List β)}
    (each : List α → List β) (nil : each [] = []) (inside : items.Tracks r here there each items') :
    (Parts.parenthesized items).Tracks r here there each (Parts.parenthesized items') := by
  refine .look fun _ => .branch (.bind .advance fun _ => ?_) ?_
  · exact nil ▸ .pure each []
  · exact .bind inside fun list => .bind (.expect _) fun _ => .pure each list

theorem function : parts.function.Tracks r here there (Expr.rename r) parts.function := by
  have names := parenthesized (List.map r) rfl h.parameters
  refine .bind (.expect _) fun _ => .bind names fun parameters => ?_
  exact .bind (.expect _) fun _ => .bind h.block fun body => .pure _ (Expr.function parameters body)

theorem start (paired : one.Paired r here there other) {rule : StartRule}
    (found : Grammar.standard.start one.current.kind = some rule) :
    (parts.start rule one).Tracks (Parser.Paired r here there) (Expr.rename r)
      (parts.start rule other) := by
  cases rule with
  | identifier =>
    have name := paired.current.name (Grammar.opens_of_start found)
    change Outcome.Tracks _ _ _ (.built (Expr.identifier other.current.literal) other)
    rw [name]
    exact .built paired
  | integer =>
    have inside := paired.enter "parse_integer_literal"
    have literal := inside.current.number (Grammar.opens_of_start found)
    refine Outcome.Tracks.after ?_ (Parser.Paired.leave _)
    rw [currentLiteral, read_bind, read_bind, literal]
    cases Text.numeralBelow? integerBound _ with
    | none => exact .abandoned (inside.reportCurrent _)
    | some number => exact .built inside
  | boolean =>
    change Outcome.Tracks _ _ _
      (.built (Expr.boolean (other.current.kind = .trueWord)) other)
    rw [paired.current.kind]
    exact .built paired
  | unary => exact h.unary paired found
  | grouped => exact h.grouped paired
  | conditional => exact h.conditional paired
  | function => exact h.function paired

theorem binary (paired : one.Paired r here there other)
    (symbol : ∃ entry ∈ symbols, entry.2 = one.current.kind) (left : Expr) :
    (parts.binary left one).Tracks (Parser.Paired r here there) (Expr.rename r)
      (parts.binary (left.rename r) other) := by
  have inside := paired.enter "parse_infix_expression"
  have sign := inside.symbol symbol
  have strength : (other.enter "parse_infix_expression").currentPrecedence =
      (one.enter "parse_infix_expression").currentPrecedence := by
    rw [Parser.currentPrecedence, Parser.currentPrecedence, inside.grammar.1, inside.grammar.2,
      inside.current.kind]
  refine Outcome.Tracks.after ?_ (Parser.Paired.leave _)
  rw [currentLiteral, read_bind, read_bind, read_bind, read_bind, sign, strength]
  exact (Tracks.advance inside).bind fun _ => .bind (h.expression _) fun right =>
    .pure _ (Expr.binary left _ right)

theorem extend (paired : one.Paired r here there other)
    (symbol : ∃ entry ∈ symbols, entry.2 = one.current.kind) (left : Expr)
    (rule : ContinuationRule) :
    (parts.extend left rule one).Tracks (Parser.Paired r here there) (Expr.rename r)
      (parts.extend (left.rename r) rule other) := by
  cases rule with
  | binary => exact h.binary paired symbol left
  | call =>
    have list := parenthesized (renameArguments r) rfl h.arguments
    exact (list paired).bind fun arguments => .pure _ (Expr.call left arguments)

theorem startHere : parts.startHere.Tracks r here there (Expr.rename r) parts.startHere := by
  intro one other paired
  rw [Parts.startHere, read_bind, read_bind, paired.grammar.1, paired.grammar.2,
    paired.current.kind]
  cases found : Grammar.standard.start one.current.kind with
  | none => exact Parse.Tracks.standing (fun kind => .fail (Expr.rename r) (.noStart kind)) paired
  | some rule => exact h.start paired found

theorem expressionAbove (floor : Precedence) :
    (parts.expressionAbove floor).Tracks r here there (Expr.rename r)
      (parts.expressionAbove floor) :=
  .traced _ (.nested (.bind h.startHere fun left => h.continuation floor left))

theorem continueAbove (floor : Precedence) (left : Expr) :
    (parts.continueAbove floor left).Tracks r here there (Expr.rename r)
      (parts.continueAbove floor (left.rename r)) := by
  intro one other paired
  rw [Parts.continueAbove, Parts.continueAbove, read_bind, read_bind, paired.grammar.1,
    paired.grammar.2, paired.aheadKind]
  cases found : Grammar.standard.tighter? floor one.ahead.kind with
  | none => exact .built paired
  | some rule =>
    have extended := h.extend paired.advance (Grammar.symbol_of_tighter found) left rule
    exact extended.bind (h.continuation floor)

theorem parameterList :
    parts.parameterList.Tracks r here there (List.map r) parts.parameterList := by
  refine .name fun name => .look fun _ => .branch (.bind .advance fun _ => ?_) (.pure _ [name])
  exact .bind h.parameters fun names => .pure _ (name :: names)

theorem argumentList :
    parts.argumentList.Tracks r here there (renameArguments r) parts.argumentList := by
  refine .bind .advance fun _ => .bind (h.expression .lowest) fun argument => .look fun _ => ?_
  refine .branch (.bind .advance fun _ => ?_) (.pure _ [argument])
  exact .bind h.arguments fun list => .pure _ (argument :: list)

theorem bindingStatement :
    parts.bindingStatement.Tracks r here there (Stmt.rename r) parts.bindingStatement := by
  refine .name fun name => .bind (.expect _) fun _ => .bind .advance fun _ => ?_
  refine .bind (h.expression .lowest) fun value => .bind (.skip _) fun _ => ?_
  exact .pure _ (Stmt.binding name value)

theorem returnStatement :
    parts.returnStatement.Tracks r here there (Stmt.rename r) parts.returnStatement := by
  refine .look fun _ => .branch ?_ ?_
  · exact .bind (.skip _) fun _ => .pure _ (Stmt.returning none)
  · refine .bind .advance fun _ => .bind (h.expression .lowest) fun value => ?_
    exact .bind (.skip _) fun _ => .pure _ (Stmt.returning (some value))

theorem expressionStatement :
    parts.expressionStatement.Tracks r here there (Stmt.rename r) parts.expressionStatement :=
  .traced _ (.bind (.closing _ (h.expression .lowest)) fun value =>
    .pure _ (Stmt.expression value))

theorem statementHere :
    parts.statementHere.Tracks r here there (Stmt.rename r) parts.statementHere := by
  intro one other paired
  rw [statementHere_apply, statementHere_apply, paired.grammar.1, paired.grammar.2,
    paired.current.kind]
  cases Grammar.standard.statementRule one.current.kind with
  | any => exact h.statement paired
  | binding => exact h.bindingStatement paired
  | returning => exact h.returnStatement paired
  | expression => exact h.expressionStatement paired

theorem statementList (extent : Extent) :
    (parts.statementList extent).Tracks r here there (renameBlock r)
      (parts.statementList extent) := by
  refine .standing fun _ => .branch (.pure _ []) (.bind (.attempt h.statement) fun found => ?_)
  cases found with
  | none => exact .bind .drop fun _ => .bind .advance fun _ => h.statements extent
  | some statement =>
    exact .bind .advance fun _ => .bind (h.statements extent) fun list =>
      .pure _ (statement :: list)

end Parts.Tracked

theorem Parts.tracked_within (r : String → String) (here there : Cursor) (bound : Nat) :
    (within bound).Tracked r here there := by
  induction bound with
  | zero =>
    exact ⟨fun _ _ _ _ => .unfinished, fun _ _ _ _ _ => .unfinished, fun _ _ _ => .unfinished,
      fun _ _ _ => .unfinished, fun _ _ _ => .unfinished, fun _ _ _ _ => .unfinished⟩
  | succ bound h =>
    exact ⟨h.expressionAbove, h.continueAbove, h.parameterList, h.argumentList, h.statementHere,
      h.statementList⟩

/-- A renamed text, however it is laid out, is read as the renamed program, with the same faults at
the same tokens and the same trace. -/
theorem readText_rename {r : String → String} {file file' text text' : String} (options : Options)
    (alike : List.Forall₂ (Token.Alike r) (Cursor.ofText file text).tokens
      (Cursor.ofText file' text').tokens) :
    let one := readText options file text
    let other := readText options file' text'
    other.program = one.program.map (Stmt.rename r) ∧
      List.Forall₂ (Diagnostic.Alike (.ofText file text) (.ofText file' text')) one.diagnostics
        other.diagnostics ∧
      other.trace = one.trace ∧ (r = id → other.program = one.program) := by
  let here := Cursor.ofText file text
  let there := Cursor.ofText file' text'
  have renames : here.Renames r there := Cursor.renames_of_alike alike
  let bound := 4 * here.tokens.length + 3
  have tracks := (Parts.tracked_within r here there bound).statements .program
    (Parser.Paired.start renames options)
  have enough : 4 * there.tokens.length + 3 ≤ bound := by rw [renames.count]
  rw [Parser.statements_start options (Nat.le_refl _), Parser.statements_start options enough]
    at tracks
  obtain ⟨program, after, run, -⟩ := Parser.readProgram_finishes Grammar.grounded_standard
    (Parser.settled_start options here)
  rw [run] at tracks
  generalize run' : (Parser.start options there).readProgram = outcome at tracks
  cases tracks with
  | built paired =>
    have read := readText_of_built run
    have read' := readText_of_built run'
    simp only [read, read', Parser.parsed, renameBlock_eq_map, paired.trace, true_and]
    refine ⟨paired.diagnostics, fun same => ?_⟩
    rw [← renameBlock_eq_map, same, renameBlock_id]

/-- Gives one name another spelling. -/
def xToCount (name : String) : String := if name = "x" then "count" else name

set_option maxRecDepth 20000 in
/-- Two layouts, with the faults in other places and another illegal character. -/
theorem readText_rename_layout :
    List.Forall₂ (Token.Alike xToCount) (Cursor.ofText "f" "let x 1; x@;").tokens
        (Cursor.ofText "g" "let count\n\t1 ;count $;").tokens ∧
      (readText {} "g" "let count\n\t1 ;count $;").program =
        (readText {} "f" "let x 1; x@;").program.map (Stmt.rename xToCount) ∧
      List.Forall₂
        (Diagnostic.Alike (.ofText "f" "let x 1; x@;") (.ofText "g" "let count\n\t1 ;count $;"))
        (readText {} "f" "let x 1; x@;").diagnostics
        (readText {} "g" "let count\n\t1 ;count $;").diagnostics ∧
      (readText {} "f" "let x 1; x@;").diagnostics.map Diagnostic.offset = [6, 10] ∧
      (readText {} "g" "let count\n\t1 ;count $;").diagnostics.map Diagnostic.offset =
        [11, 20] := by
  have alike : List.Forall₂ (Token.Alike xToCount) (Cursor.ofText "f" "let x 1; x@;").tokens
      (Cursor.ofText "g" "let count\n\t1 ;count $;").tokens := by
    decide +kernel
  have both := readText_rename {} alike
  exact ⟨alike, both.1, both.2.1, rfl, rfl⟩

end MonkeySyntax
