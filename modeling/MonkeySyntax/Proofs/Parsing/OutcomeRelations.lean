import MonkeySyntax.Proofs.Parsing.Contract
import MonkeySyntax.Proofs.Parsing.RuleInduction

/-! A pair of relations from the state before a phrase to the state behind it, one for a phrase that
is built and one for a phrase that is given up. Expressions have clauses of their own, since they
alone are counted by depth. A pair that every primitive step keeps holds of every phrase. -/
namespace MonkeySyntax

structure Parser.OutcomeRelations (built lost : Parser → Parser → Prop) : Prop where
  refl (parser : Parser) : built parser parser
  trans {first second third : Parser} : built first second → built second third →
    built first third
  lose {first second third : Parser} : built first second → lost second third → lost first third
  advance (parser : Parser) : built parser parser.advance
  reportAt (token : Token) (fault : Fault) (parser : Parser) :
    lost parser (parser.reportAt token fault)
  /-- A semicolon is passed behind a phrase that was given up. -/
  skip {before after : Parser} : lost before after → lost before after.advance
  /-- A statement that was given up is left out of its sequence. -/
  drop {before after : Parser} : lost before after → built before after.drop
  traced {label : String} {before after : Parser} : label ≠ "parse_expression" →
    built (before.enter label) after → built before (after.leave label)
  traced_lost {label : String} {before after : Parser} : label ≠ "parse_expression" →
    lost (before.enter label) after → lost before (after.leave label)
  expression {before after : Parser} : before.depth < before.options.maxDepth →
    built before.opened after → built before after.closed
  expression_lost {before after : Parser} : before.depth < before.options.maxDepth →
    lost before.opened after → lost before after.closed
  refused {before : Parser} : before.options.maxDepth ≤ before.depth → lost before before.refused

/-- Wherever the step ends, the state there is related to the one it began in. -/
def Parse.Relates (built lost : Parser → Parser → Prop) (step : Parse α) : Prop :=
  ∀ before, (step before).Meets (fun _ => built before) (lost before) True

namespace Parser.OutcomeRelations

open Parse

variable {built lost : Parser → Parser → Prop} (r : OutcomeRelations built lost)
include r

theorem bind {step : Parse α} {next : α → Parse β} (first : step.Relates built lost)
    (rest : ∀ value, (next value).Relates built lost) : (step >>= next).Relates built lost :=
  fun before => meets_bind.mpr <| (first before).imp
    (fun value middle here =>
      (rest value middle).imp (fun _ _ => r.trans here) fun _ => r.lose here)
    fun _ => id

theorem enclosed {step : Parse α} {label : String} (other : label ≠ "parse_expression")
    (inside : step.Relates built lost) : (Parse.traced label step).Relates built lost :=
  fun before => meets_traced.mpr <| (inside (before.enter label)).imp
    (fun _ _ => r.traced other) fun _ => r.traced_lost other

theorem integer : Parts.integer.Relates built lost := by
  refine r.enclosed (by decide) fun before => ?_
  rw [currentLiteral, read_bind]
  cases Text.numeralBelow? integerBound before.current.literal.toList with
  | some number => exact r.refl before
  | none => exact r.reportAt before.current _ before

theorem closing {step : Parse α} (inside : step.Relates built lost) :
    (ensuring (Parse.skip .semicolon) step).Relates built lost := by
  intro before
  rw [ensuring_skip_apply]
  have meets := inside before
  generalize step before = outcome at meets
  cases outcome with
  | built value after =>
    change built before (skipped .semicolon after)
    rw [skipped]
    split
    · exact r.trans meets (r.advance after)
    · exact meets
  | abandoned after =>
    change lost before (skipped .semicolon after)
    rw [skipped]
    split
    · exact r.skip meets
    · exact meets
  | unfinished => exact meets

variable {parts : Parts}

theorem startHere (start : ∀ rule, (parts.start rule).Relates built lost) :
    parts.startHere.Relates built lost := by
  intro before
  rw [Parts.startHere, read_bind]
  cases before.grammar.start before.current.kind with
  | none => exact r.reportAt before.current _ before
  | some rule => exact start rule before

theorem expressionAbove {floor : Precedence} (start : ∀ rule, (parts.start rule).Relates built lost)
    (rest : ∀ left, (parts.continuation floor left).Relates built lost) :
    (parts.expressionAbove floor).Relates built lost := by
  intro before
  by_cases room : before.depth < before.options.maxDepth
  · rw [Parts.expressionAbove_of_lt room]
    have meets := r.bind (r.startHere start) rest before.opened
    generalize (parts.startHere >>= parts.continuation floor) before.opened = outcome at meets
    cases outcome with
    | built value after => exact r.expression room meets
    | abandoned after => exact r.expression_lost room meets
    | unfinished => exact meets
  · have deep := Nat.le_of_not_lt room
    rw [Parts.expressionAbove_of_le deep]
    exact r.refused deep

theorem continueAbove {floor : Precedence} {left : Expr}
    (extend : ∀ rule, (parts.extend left rule).Relates built lost)
    (rest : ∀ extended, (parts.continuation floor extended).Relates built lost) :
    (parts.continueAbove floor left).Relates built lost := by
  intro before
  rw [Parts.continueAbove, read_bind]
  cases before.grammar.tighter? floor before.ahead.kind with
  | none => exact r.refl before
  | some rule =>
    exact (r.bind (extend rule) rest before.advance).imp
      (fun _ _ => r.trans (r.advance before)) fun _ => r.lose (r.advance before)

omit r in
theorem statementHere (any : parts.statement.Relates built lost)
    (expression : parts.expressionStatement.Relates built lost)
    (binding : parts.bindingStatement.Relates built lost)
    (returning : parts.returnStatement.Relates built lost) :
    parts.statementHere.Relates built lost := by
  intro before
  rw [Parts.statementHere_apply]
  cases before.grammar.statementRule before.current.kind with
  | any => exact any before
  | binding => exact binding before
  | returning => exact returning before
  | expression => exact expression before

theorem statementList {extent : Extent} (statement : parts.statement.Relates built lost)
    (rest : (parts.statements extent).Relates built lost) :
    (parts.statementList extent).Relates built lost := by
  intro before
  rw [Parts.statementList, currentKind, read_bind]
  split
  · exact r.refl before
  · rw [meets_bind, meets_attempt]
    have onward {first last : Parser} (here : built before first)
        (there : built first.advance last) : built before last :=
      r.trans (r.trans here (r.advance first)) there
    have onward_lost {first last : Parser} (here : built before first)
        (there : lost first.advance last) : lost before last :=
      r.lose (r.trans here (r.advance first)) there
    refine (statement before).imp (fun statement after here => ?_) fun after here => ?_
    · have more : (parts.statements extent >>= fun list =>
          (pure (statement :: list) : Parse (List Stmt))).Relates built lost :=
        r.bind rest fun _ => r.refl
      exact (more after.advance).imp (fun _ _ => onward here) fun _ => onward_lost here
    · exact (rest after.drop.advance).imp (fun _ _ => onward (r.drop here))
        fun _ => onward_lost (r.drop here)

theorem closedUnderForms : ClosedUnderForms fun _ step => step.Relates built lost where
  pure _ := r.refl
  bind := r.bind
  begun := id
  view _ _ rest before := rest _ before
  onward rest before := (rest before.advance).imp (fun _ _ => r.trans (r.advance before))
    fun _ => r.lose (r.advance before)
  look rest before := rest _ before
  pass {_ kind _ _} _ yes no before := by
    rw [aheadKind, read_bind]
    split
    · exact (yes before.advance).imp (fun _ _ => r.trans (r.advance before))
        fun _ => r.lose (r.advance before)
    · exact no before
  expect _ before := meets_expect.mpr
    ⟨fun _ => r.advance before, fun _ => r.reportAt before.ahead _ before⟩
  traced := r.enclosed
  closing := r.closing
  integer := r.integer
  continuation _ _ := r.continueAbove
  statement := statementHere
  statements _ := r.statementList

theorem within (bound : Nat) :
    (Parts.within bound).AllSatisfy fun _ step => step.Relates built lost :=
  ClosedUnderForms.within (fun _ => r.closedUnderForms) (fun _ _ => trivial) id
    (fun h _ => r.expressionAbove (r.closedUnderForms.start h) (h.continuation _)) bound

/-- However far the rules are let run, each phrase is related by its outcome. -/
theorem parse (bound : Nat) (phrase : Phrase form) :
    ((Parts.within bound).parse phrase).Relates built lost :=
  r.closedUnderForms.parse (r.within bound) phrase

end Parser.OutcomeRelations

end MonkeySyntax
