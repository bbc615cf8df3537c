import MonkeySyntax.Proofs.Parsing.Loop

/-! Two runs that may part. From parsers that are alike one step makes two runs, and they go on
alike for as long as they see the same. Where they do not, they part: from then on either run is
known by assertions of its own, which the other has no influence on. A token ahead is the only
thing on which alike parsers may differ, and the depth allowed where an expression begins. -/
namespace MonkeySyntax

open MonkeySyntax.Parser Parse

namespace Parser

/-- Both runs see the same token ahead and stay alike whatever they do about it. -/
structure Abreast (alike : Parser → Parser → Prop) (one other : Parser) : Prop where
  ahead : one.ahead.terminal = other.ahead.terminal
  advance : alike one.advance other.advance
  report (fault : Fault) :
    alike (one.reportAt one.ahead fault) (other.reportAt other.ahead fault)

/-- These diagnostics and trace lines were recorded first. -/
structure Records (diagnostics : List Diagnostic) (lines : List String) (parser : Parser) :
    Prop where
  diagnostics : diagnostics <+: parser.diagnostics.toList
  lines : lines <+: parser.trace.lines

theorem Records.reportAt {diagnostics : List Diagnostic} {lines : List String} {parser : Parser}
    (h : parser.Records diagnostics lines) (token : Token) (fault : Fault) :
    (parser.reportAt token fault).Records diagnostics lines :=
  ⟨h.diagnostics.trans ⟨_, Array.toList_push.symm⟩, h.lines⟩

end Parser

namespace TokenAssertions

/-- What has been recorded stays recorded. -/
def recording (diagnostics : List Diagnostic) (lines : List String) : TokenAssertions where
  reached := Parser.Records diagnostics lines
  clear := Parser.Records diagnostics lines
  lost := Parser.Records diagnostics lines
  reached_frame _ h grows := ⟨h.diagnostics, h.lines.trans grows⟩
  clear_frame _ h grows := ⟨h.diagnostics, h.lines.trans grows⟩
  lost_frame _ h grows := ⟨h.diagnostics, h.lines.trans grows⟩
  take h _ := h
  advance h := ⟨h.diagnostics, h.lines⟩
  report h _ := h.reportAt _ _
  unexpected h _ := h.reportAt _ _
  skip h _ := ⟨h.diagnostics, h.lines⟩
  recover h := ⟨h.diagnostics, h.lines⟩

end TokenAssertions

/-- The current token is done with, whether or not the phrase goes on. -/
def TokenAssertions.Done (d : TokenAssertions) (parser : Parser) : Prop :=
  d.clear parser ∧ d.lost parser

structure Fork {ι : Type} (left right : ι → TokenAssertions) where
  alike : Parser → Parser → Prop
  terminal {one other : Parser} : alike one other → one.current.terminal = other.current.terminal
  grammar {one other : Parser} : alike one other → one.grammar = other.grammar
  drop {one other : Parser} : alike one other → alike one.drop other.drop
  report {one other : Parser} (fault : Fault) : alike one other →
    alike (one.report fault) (other.report fault)
  enter {one other : Parser} {label : String} : label ≠ "parse_expression" → alike one other →
    alike (one.enter label) (other.enter label)
  leave {one other : Parser} {label : String} : label ≠ "parse_expression" → alike one other →
    alike (one.leave label) (other.leave label)
  ahead {one other : Parser} : alike one other →
    one.Abreast alike other ∨ ∃ i, (left i).Done one ∧ (right i).Done other

section

variable {ι : Type} {left right : ι → TokenAssertions} {f : Fork left right} {one other : Parser}
  {stage : Stage} {step : Parse α} {parts : Parts}

/-- Both runs come to the same end in parsers that are alike, or they have parted. -/
def Outcome.Forks (f : Fork left right) (outcome outcome' : Outcome α) : Prop :=
  outcome.Follows f.alike outcome' ∨
    ∃ i, outcome.Meets (fun _ => (left i).clear) (left i).lost True ∧
      outcome'.Meets (fun _ => (right i).clear) (right i).lost True

/-- From parsers that are alike the step forks, and after a parting it upholds the assertions of
either run. -/
structure Parse.Forks (f : Fork left right) (stage : Stage) (step : Parse α) : Prop where
  left (i : ι) : Upholds (left i) True ((left i).asserts stage) step
  right (i : ι) : Upholds (right i) True ((right i).asserts stage) step
  both {one other : Parser} : f.alike one other → (step one).Forks f (step other)

namespace Parse.Forks

/-- Where a step depends on the token ahead, only runs abreast of one another need be compared. -/
theorem of_abreast (first : ∀ i, Upholds (left i) True (left i).clear step)
    (second : ∀ i, Upholds (right i) True (right i).clear step)
    (abreast : ∀ {one other}, f.alike one other → one.Abreast f.alike other →
      (step one).Forks f (step other)) : step.Forks f .clear where
  left := first
  right := second
  both {one other} related := by
    rcases f.ahead related with same | ⟨i, done, done'⟩
    · exact abreast related same
    · exact .inr ⟨i, first i one done.1, second i other done'.1⟩

theorem pure (value : α) : (pure value : Parse α).Forks f .clear where
  left _ := .pure value
  right _ := .pure value
  both related := .inl (.built related)

theorem bind {next : α → Parse β} (first : step.Forks f stage)
    (rest : ∀ value, (next value).Forks f .clear) : (step >>= next).Forks f stage where
  left i := (first.left i).bind fun value => (rest value).left i
  right i := (first.right i).bind fun value => (rest value).right i
  both {one other} related := by
    rcases first.both related with same | ⟨i, here, there⟩
    · generalize ran : step one = outcome, ran' : step other = outcome' at same
      cases same with
      | built alike =>
        rw [bind_of_built ran, bind_of_built ran']
        exact (rest _).both alike
      | abandoned alike =>
        rw [bind_of_abandoned ran, bind_of_abandoned ran']
        exact .inl (.abandoned alike)
      | unfinished =>
        rw [bind_apply, ran]
        exact .inl .unfinished
    · refine .inr ⟨i, meets_bind.mpr ?_, meets_bind.mpr ?_⟩
      · exact here.imp (fun value after => (rest value).left i after) fun _ => id
      · exact there.imp (fun value after => (rest value).right i after) fun _ => id

theorem onward {next : Unit → Parse β} (rest : (next ()).Forks f .reached) :
    (advance >>= next).Forks f .clear :=
  of_abreast (fun i => .onward (rest.left i)) (fun i => .onward (rest.right i))
    fun _ abreast => rest.both abreast.advance

theorem look {next : Kind → Parse β} (rest : ∀ kind, (next kind).Forks f .clear) :
    (aheadKind >>= next).Forks f .clear := by
  refine of_abreast (fun i => .look fun kind => (rest kind).left i)
    (fun i => .look fun kind => (rest kind).right i) fun {one other} related abreast => ?_
  have same : one.ahead.kind = other.ahead.kind := congrArg Terminal.kind abreast.ahead
  rw [aheadKind, read_bind, read_bind, same]
  exact (rest _).both related

theorem pass {kind : Kind} {yes : Unit → Parse β} {no : Parse β} (known : kind ≠ .illegal)
    (passed : (yes ()).Forks f .clear) (stays : no.Forks f .clear) :
    (aheadKind >>= fun here => if here = kind then advance >>= yes else no).Forks f .clear := by
  refine of_abreast (fun i => .ahead known (passed.left i) (stays.left i))
    (fun i => .ahead known (passed.right i) (stays.right i)) fun {one other} related abreast => ?_
  have same : one.ahead.kind = other.ahead.kind := congrArg Terminal.kind abreast.ahead
  rw [aheadKind, read_bind, read_bind, same]
  split
  · exact passed.both abreast.advance
  · exact stays.both related

theorem expect {kind : Kind} (known : kind ≠ .illegal) : (expect kind).Forks f .clear := by
  refine of_abreast (fun _ => .expect known) (fun _ => .expect known)
    fun {one other} related abreast => ?_
  have same : one.ahead.kind = other.ahead.kind := congrArg Terminal.kind abreast.ahead
  by_cases met : one.ahead.kind = kind
  · rw [expect_of_eq met, expect_of_eq (same ▸ met)]
    exact .inl (.built abreast.advance)
  · rw [expect_of_ne met, expect_of_ne (same ▸ met), same]
    exact .inl (.abandoned (abreast.report _))

theorem traced {label : String} (other_label : label ≠ "parse_expression")
    (inside : step.Forks f stage) : (traced label step).Forks f stage where
  left i := (inside.left i).traced label fun parser =>
    TokenAssertions.asserts_enter stage parser label
  right i := (inside.right i).traced label fun parser =>
    TokenAssertions.asserts_enter stage parser label
  both {one other} related := by
    rcases inside.both (f.enter other_label related) with same | ⟨i, here, there⟩
    · exact .inl (same.after (f.leave other_label))
    · exact .inr ⟨i, TokenAssertions.ends_traced here, TokenAssertions.ends_traced there⟩

/-- A semicolon ahead is passed, or the runs part over it. -/
theorem skipped (related : f.alike one other) :
    f.alike (skipped .semicolon one) (skipped .semicolon other) ∨
      ∃ i, (left i).Done (Parse.skipped .semicolon one) ∧
        (right i).Done (Parse.skipped .semicolon other) := by
  rcases f.ahead related with abreast | ⟨i, done, done'⟩
  · have same : one.ahead.kind = other.ahead.kind := congrArg Terminal.kind abreast.ahead
    rw [Parse.skipped, Parse.skipped, same]
    split
    · exact .inl abreast.advance
    · exact .inl related
  · exact .inr ⟨i, ⟨TokenAssertions.clear_skipped done.1, TokenAssertions.lost_skipped done.2⟩,
      ⟨TokenAssertions.clear_skipped done'.1, TokenAssertions.lost_skipped done'.2⟩⟩

theorem closing (inside : step.Forks f .reached) :
    (ensuring (skip .semicolon) step).Forks f .reached where
  left i := .ensuring (inside.left i)
  right i := .ensuring (inside.right i)
  both {one other} related := by
    rcases inside.both related with same | ⟨i, here, there⟩
    · rw [ensuring_skip_apply, ensuring_skip_apply]
      generalize step one = outcome, step other = outcome' at same
      cases same with
      | built alike =>
        rcases skipped alike with alike | ⟨i, done, done'⟩
        · exact .inl (.built alike)
        · exact .inr ⟨i, done.1, done'.1⟩
      | abandoned alike =>
        rcases skipped alike with alike | ⟨i, done, done'⟩
        · exact .inl (.abandoned alike)
        · exact .inr ⟨i, done.2, done'.2⟩
      | unfinished => exact .inl .unfinished
    · exact .inr ⟨i, TokenAssertions.ends_ensuring here, TokenAssertions.ends_ensuring there⟩

theorem integer : Parts.integer.Forks f (.begun .integer) where
  left _ := TokenAssertions.upholds_integer
  right _ := TokenAssertions.upholds_integer
  both {one other} related := by
    have label : "parse_integer_literal" ≠ "parse_expression" := by decide
    have entered := f.enter label related
    have same := congrArg Terminal.literal (f.terminal entered)
    simp only [Token.literal_terminal] at same
    refine .inl (Outcome.Follows.after ?_ (f.leave label))
    rw [currentLiteral, read_bind, read_bind, same]
    cases Text.numeralBelow? integerBound (other.enter _).current.literal.toList with
    | some number => exact .built entered
    | none => exact .abandoned (f.report _ entered)

theorem continueAbove {floor : Precedence} {value : Expr}
    (extend : ∀ rule, (parts.extend value rule).Forks f .clear)
    (rest : ∀ extended, (parts.continuation floor extended).Forks f .clear) :
    (parts.continueAbove floor value).Forks f .clear := by
  refine of_abreast
    (fun i => TokenAssertions.upholds_continueAbove (fun rule => (extend rule).left i)
      fun extended => (rest extended).left i)
    (fun i => TokenAssertions.upholds_continueAbove (fun rule => (extend rule).right i)
      fun extended => (rest extended).right i) fun {one other} related abreast => ?_
  have same : one.ahead.kind = other.ahead.kind := congrArg Terminal.kind abreast.ahead
  rw [Parts.continueAbove, read_bind, read_bind, f.grammar related, same]
  cases other.grammar.tighter? floor other.ahead.kind with
  | none => exact .inl (.built related)
  | some rule => exact ((extend rule).bind rest).both abreast.advance

theorem statementHere (any : parts.statement.Forks f .reached)
    (expression : parts.expressionStatement.Forks f .reached)
    (binding : parts.bindingStatement.Forks f .clear)
    (returning : parts.returnStatement.Forks f .clear) :
    parts.statementHere.Forks f .reached where
  left i := TokenAssertions.upholds_statementHere (any.left i) (expression.left i) (binding.left i)
    (returning.left i)
  right i := TokenAssertions.upholds_statementHere (any.right i) (expression.right i)
    (binding.right i) (returning.right i)
  both {one other} related := by
    have same : one.current.kind = other.current.kind := congrArg Terminal.kind (f.terminal related)
    rw [Parts.statementHere_apply, Parts.statementHere_apply, f.grammar related, same]
    cases other.grammar.statementRule other.current.kind with
    | any => exact any.both related
    | binding => exact binding.both related
    | returning => exact returning.both related
    | expression => exact expression.both related

theorem statementList {extent : Extent} (statement : parts.statement.Forks f .reached)
    (rest : (parts.statements extent).Forks f .reached) :
    (parts.statementList extent).Forks f .reached where
  left i := TokenAssertions.upholds_statementList (statement.left i) (rest.left i)
  right i := TokenAssertions.upholds_statementList (statement.right i) (rest.right i)
  both {one other} related := by
    have same : one.current.kind = other.current.kind := congrArg Terminal.kind (f.terminal related)
    by_cases goes : extent.endsAt other.current.kind
    · rw [Parts.statementList, currentKind, read_bind, read_bind, same, if_pos goes]
      exact .inl (.built related)
    · rcases statement.both related with alike | ⟨i, here, there⟩
      · rw [Parts.statementList, currentKind, read_bind, read_bind, same, if_neg goes, bind_apply,
          bind_apply, attempt, attempt]
        generalize parts.statement one = outcome, parts.statement other = outcome' at alike
        cases alike with
        | @built value _ _ alike =>
          have more : (advance >>= fun _ => parts.statements extent >>= fun list =>
              (Pure.pure (value :: list) : Parse (List Stmt))).Forks f .clear :=
            onward (rest.bind fun list => pure (value :: list))
          exact more.both alike
        | abandoned alike =>
          have more : (advance >>= fun _ => parts.statements extent).Forks f .clear := onward rest
          exact more.both (f.drop alike)
        | unfinished => exact .inl .unfinished
      · exact .inr ⟨i, TokenAssertions.ends_statementList (same ▸ goes) (rest.left i) here,
          TokenAssertions.ends_statementList goes (rest.right i) there⟩

theorem closedUnderForms (f : Fork left right) :
    ClosedUnderForms fun stage step => step.Forks f stage where
  pure := pure
  bind := bind
  begun {_ rule _} clear :=
    ⟨fun i parser begun => clear.left i parser begun.1,
      fun i parser begun => clear.right i parser begun.1, clear.both⟩
  view see next rest :=
    ⟨fun i => .look fun value => (rest value).left i,
      fun i => .look fun value => (rest value).right i, fun {one other} related => by
        rw [read_bind, read_bind, f.terminal related, f.grammar related]
        exact (rest _).both related⟩
  onward := onward
  look := look
  pass := pass
  expect := expect
  traced := traced
  closing := closing
  integer := integer
  continuation _ _ := continueAbove
  statement := statementHere
  statements _ := statementList

theorem startHere (start : ∀ rule, (parts.start rule).Forks f (.begun rule)) :
    parts.startHere.Forks f .reached where
  left i := TokenAssertions.upholds_startHere fun rule => (start rule).left i
  right i := TokenAssertions.upholds_startHere fun rule => (start rule).right i
  both {one other} related := by
    have same : one.current.kind = other.current.kind := congrArg Terminal.kind (f.terminal related)
    rw [Parts.startHere, read_bind, read_bind, f.grammar related, same]
    cases other.grammar.start other.current.kind with
    | none =>
      change Outcome.Forks f ((currentKind >>= fun kind => fail (.noStart kind)) one)
        ((currentKind >>= fun kind => fail (.noStart kind)) other)
      rw [currentKind, read_bind, read_bind, same]
      exact .inl (.abandoned (f.report _ related))
    | some rule => exact (start rule).both related

end Parse.Forks

/-- How the runs go on where an expression begins: inside it, in parsers that are alike for the
inner fork, or both are refused, or only the first one is and they part. -/
structure Fork.Opens (outer inner : Fork left right) : Prop where
  opened {one other : Parser} : outer.alike one other → one.depth < one.options.maxDepth →
    other.depth < other.options.maxDepth ∧ inner.alike one.opened other.opened
  closed {one other : Parser} : inner.alike one other → outer.alike one.closed other.closed
  refused {one other : Parser} : outer.alike one other → one.options.maxDepth ≤ one.depth →
    (other.options.maxDepth ≤ other.depth ∧ outer.alike one.refused other.refused) ∨
      other.depth < other.options.maxDepth ∧
        ∃ i, (left i).lost one.refused ∧ (right i).reached other.opened

namespace Parse.Forks

theorem expressionAbove {inner : Fork left right} (opens : f.Opens inner) {floor : Precedence}
    (start : ∀ rule, (parts.start rule).Forks inner (.begun rule))
    (rest : ∀ value, (parts.continuation floor value).Forks inner .clear) :
    (parts.expressionAbove floor).Forks f .reached where
  left i := TokenAssertions.upholds_expressionAbove (fun rule => (start rule).left i)
    fun value => (rest value).left i
  right i := TokenAssertions.upholds_expressionAbove (fun rule => (start rule).right i)
    fun value => (rest value).right i
  both {one other} related := by
    by_cases room : one.depth < one.options.maxDepth
    · obtain ⟨room', alike⟩ := opens.opened related room
      rw [Parts.expressionAbove_of_lt room, Parts.expressionAbove_of_lt room']
      rcases ((startHere start).bind rest).both alike with same | ⟨i, here, there⟩
      · exact .inl (same.after opens.closed)
      · exact .inr ⟨i, TokenAssertions.ends_closed here, TokenAssertions.ends_closed there⟩
    · have deep := Nat.le_of_not_lt room
      rw [Parts.expressionAbove_of_le deep]
      rcases opens.refused related deep with ⟨deep', alike⟩ | ⟨room, i, lost, reached⟩
      · rw [Parts.expressionAbove_of_le deep']
        exact .inl (.abandoned alike)
      · rw [Parts.expressionAbove_of_lt room]
        have inside := ((startHere start).bind rest).right i other.opened reached
        exact .inr ⟨i, lost, TokenAssertions.ends_closed inside⟩

/-- One fork for each depth. The bound on the recursion may limit the depths at which it is known
that runs fork. -/
theorem within (fork : Nat → Fork left right) (room : Nat → Nat → Prop)
    (less : ∀ {bound depth}, room (bound + 1) depth → room bound depth)
    (opens : ∀ {bound depth}, room (bound + 1) depth →
      room bound (depth + 1) ∧ (fork depth).Opens (fork (depth + 1))) (bound : Nat) :
    (Parts.within bound).AllSatisfy fun stage step =>
      ∀ depth, room bound depth → step.Forks (fork depth) stage := by
  have c (bound : Nat) : ClosedUnderForms fun stage step =>
      ∀ depth, room bound depth → step.Forks (fork depth) stage :=
    .every fun depth => .every fun _ => closedUnderForms (fork depth)
  refine ClosedUnderForms.within c
    (fun stage depth _ => ⟨fun _ _ _ => trivial, fun _ _ _ => trivial, fun _ => .inl .unfinished⟩)
    (fun inside depth far => inside depth (less far))
    (fun {bound parts} h floor depth far => ?_) bound
  obtain ⟨near, opens⟩ := opens far
  exact expressionAbove opens (fun rule => (c bound).start h rule (depth + 1) near)
    fun value => h.continuation floor value (depth + 1) near

/-- What two texts are read as when the runs on them fork: the final states are alike and the
programs the same, or either state is known by the assertions of its run. -/
theorem readText {options options' : Options} {file text text' : String} {bound : Nat}
    (forks : ((Parts.within bound).statements .program).Forks f .reached)
    (alike : f.alike (start options (.ofText file text)) (start options' (.ofText file text')))
    (enough : 4 * (Cursor.ofText file text).tokens.length + 3 ≤ bound)
    (enough' : 4 * (Cursor.ofText file text').tokens.length + 3 ≤ bound) :
    (∃ program after after', f.alike after after' ∧
      readText options file text = after.parsed program ∧
      readText options' file text' = after'.parsed program) ∨
    ∃ i program program' after after', (left i).clear after ∧ (right i).clear after' ∧
      readText options file text = after.parsed program ∧
      readText options' file text' = after'.parsed program' := by
  have both := forks.both alike
  rw [statements_start options enough, statements_start options' enough'] at both
  obtain ⟨program, after, run, _⟩ :=
    readProgram_finishes Grammar.grounded_standard (settled_start options (.ofText file text))
  obtain ⟨program', after', run', _⟩ :=
    readProgram_finishes Grammar.grounded_standard (settled_start options' (.ofText file text'))
  rw [run, run'] at both
  rcases both with same | ⟨i, clear, clear'⟩
  · cases same with
    | built alike =>
      exact .inl ⟨program, after, after', alike, readText_of_built run, readText_of_built run'⟩
  · exact .inr ⟨i, program, program', after, after', clear, clear', readText_of_built run,
      readText_of_built run'⟩

end Parse.Forks

end

end MonkeySyntax
