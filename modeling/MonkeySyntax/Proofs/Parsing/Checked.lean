import MonkeySyntax.Proofs.Parsing.AppendOnlyDiagnostics
import MonkeySyntax.Proofs.Parsing.Registration
import MonkeySyntax.Proofs.Parsing.Simulation

/-! The rules of a parser that checks itself. It keeps the strengths of the operators and their
rules in two tables, and it is cut off where an operator is strong enough but has no rule, or where
a level of depth is taken back that is not there. Wherever the rules themselves finish, the checked
ones come to the same end: no check ever fails. -/
namespace MonkeySyntax

/-- Takes a level back; where there is none, the run has no outcome. -/
def Outcome.surfaced : Outcome α → Outcome α
  | .built value after => if after.depth = 0 then .unfinished else .built value after.surface
  | .abandoned after => if after.depth = 0 then .unfinished else .abandoned after.surface
  | .unfinished => .unfinished

theorem Outcome.surfaced_eq_after {outcome : Outcome α}
    (deep : outcome.Meets (fun _ after => after.depth ≠ 0) (fun after => after.depth ≠ 0) True) :
    outcome.surfaced = outcome.after Parser.surface := by
  cases outcome with
  | built value after => exact if_neg deep
  | abandoned after => exact if_neg deep
  | unfinished => rfl

def Parse.nestedStrictly (step : Parse α) : Parse α := fun parser =>
  let limit := parser.options.maxDepth
  (if limit < parser.depth + 1 then fail (.tooDeep limit) parser.deepen
    else step parser.deepen).surfaced

/-- A step that gives back the levels it takes is nested strictly or not, all the same. -/
theorem Parse.nestedStrictly_eq {step : Parse α} (speaks : step.NeverSilent) :
    nestedStrictly step = nested step := by
  funext parser
  refine Outcome.surfaced_eq_after ?_
  split
  · exact Nat.succ_ne_zero parser.depth
  · have inside := speaks parser.deepen
    have deep {after : Parser} (appended : parser.deepen.AppendsOnly after) : after.depth ≠ 0 := by
      rw [appended.depth]
      exact Nat.succ_ne_zero parser.depth
    generalize step parser.deepen = outcome at inside
    cases outcome with
    | built value after => exact deep inside
    | abandoned after => exact deep inside.1
    | unfinished => trivial

/-- The tables stay what they are while rules run. -/
def Tables.Shared (tables : Tables) (one other : Parser) : Prop :=
  one = other ∧ tables.Describe one.grammar

theorem Tables.simulation_shared (tables : Tables) : Parser.Simulation tables.Shared where
  current h := by rw [h.1]
  ahead h := by rw [h.1]
  grammar h := by rw [h.1]
  depth h := by rw [h.1]
  limit h := by rw [h.1]
  advance h := ⟨by rw [h.1], h.2⟩
  drop h := ⟨by rw [h.1], h.2⟩
  reportCurrent _ h := ⟨by rw [h.1], h.2⟩
  reportAhead _ h := ⟨by rw [h.1], h.2⟩
  enter _ h := ⟨by rw [h.1], h.2⟩
  leave _ h := ⟨by rw [h.1], h.2⟩
  deepen h := ⟨by rw [h.1], h.2⟩
  surface h := ⟨by rw [h.1], h.2⟩

theorem Outcome.Follows.surfaced {tables : Tables} {outcome outcome' : Outcome α}
    (follows : outcome.Follows tables.Shared outcome') :
    outcome.surfaced.Follows tables.Shared outcome'.surfaced := by
  cases follows with
  | @built value one other shared =>
    obtain ⟨rfl, describe⟩ := shared
    simp only [Outcome.surfaced]
    split
    · exact .unfinished
    · exact .built ⟨rfl, describe⟩
  | @abandoned one other shared =>
    obtain ⟨rfl, describe⟩ := shared
    simp only [Outcome.surfaced]
    split
    · exact .unfinished
    · exact .abandoned ⟨rfl, describe⟩
  | unfinished => exact .unfinished

namespace Parts

open Parse

/-- The rules over these parts, as the parts one step further on. -/
def next (parts : Parts) : Parts where
  expression := parts.expressionAbove
  continuation := parts.continueAbove
  parameters := parts.parameterList
  arguments := parts.argumentList
  statement := parts.statementHere
  statements := parts.statementList

def expressionStrictly (parts : Parts) (floor : Precedence) : Parse Expr :=
  traced "parse_expression" <| nestedStrictly do
    parts.continuation floor (← parts.startHere)

def continueBy (parts : Parts) (tables : Tables) (floor : Precedence) (left : Expr) :
    Parse Expr := do
  match tables.turn floor (← aheadKind) with
  | .stop => return left
  | .extend rule =>
    advance
    parts.continuation floor (← parts.extend left rule)
  | .missing => Parse.unfinished

def checked (tables : Tables) : Nat → Parts
  | 0 => within 0
  | bound + 1 => { (checked tables bound).next with
      expression := (checked tables bound).expressionStrictly
      continuation := (checked tables bound).continueBy tables }

theorem startHere_related {R : {α : Type} → Parse α → Parse α → Prop} (c : Congruence R)
    {parts parts' : Parts} (h : parts.Related R parts') : R parts.startHere parts'.startHere := by
  refine c.bind (c.view fun current _ grammar => grammar.start current.kind) fun found => ?_
  cases found with
  | none => exact c.bind c.currentKind fun _ => c.fail _
  | some rule => exact c.start h rule

variable {tables : Tables} {bound : Nat} {parts : Parts}

theorem neverSilent_inside (bound : Nat) (floor : Precedence) :
    ((within bound).startHere >>= (within bound).continuation floor).NeverSilent :=
  have parts := neverSilent_congruence.within (Nat.le_refl bound)
  neverSilent_bind (startHere_related neverSilent_congruence parts)
    fun left => neverSilent_within bound (.continuation floor left)

theorem follows_expression
    (h : (within bound).Related (fun step step' => step.Follows tables.Shared step') parts)
    (floor : Precedence) :
    ((within bound).expressionAbove floor).Follows tables.Shared
      (parts.expressionStrictly floor) := by
  have c := tables.simulation_shared.congruence
  rw [expressionAbove, ← nestedStrictly_eq (neverSilent_inside bound floor)]
  refine c.traced _ ?_
  rintro parser _ ⟨rfl, describe⟩
  refine Outcome.Follows.surfaced ?_
  split
  · exact c.fail _ _ _ ⟨rfl, describe⟩
  · exact c.bind (startHere_related c h) (h.continuation floor) _ _ ⟨rfl, describe⟩

theorem follows_continuation
    (h : (within bound).Related (fun step step' => step.Follows tables.Shared step') parts)
    (floor : Precedence) (left : Expr) :
    ((within bound).continueAbove floor left).Follows tables.Shared
      (parts.continueBy tables floor left) := by
  have c := tables.simulation_shared.congruence
  rintro parser _ ⟨rfl, describe⟩
  rw [continueAbove, continueBy, read_bind, aheadKind, read_bind, describe.turn_eq]
  cases parser.grammar.tighter? floor parser.ahead.kind with
  | none => exact .built ⟨rfl, describe⟩
  | some rule =>
    exact (c.bind c.advance fun _ => c.bind (c.extend h left rule) fun tree =>
      h.continuation floor tree) parser parser ⟨rfl, describe⟩

theorem follows_checked (tables : Tables) (bound : Nat) :
    (within bound).Related (fun step step' => step.Follows tables.Shared step')
      (checked tables bound) := by
  have c := tables.simulation_shared.congruence
  induction bound with
  | zero => exact c.within (Nat.le_refl 0)
  | succ bound h =>
    exact ⟨follows_expression h, follows_continuation h, c.parameterList h, c.argumentList h,
      c.statementHere h, c.statementList h⟩

end Parts

end MonkeySyntax
