import MonkeySyntax.Proofs.Parsing.Driving

/-! The floor of an expression decides only where the loop over its operators stops. From one state,
two runs under different floors do the same until the higher floor stops the first of them; the
second goes on with what the first has built as the left end of all that it builds. So nothing that
is given up under a higher floor is built under a lower one. -/
namespace MonkeySyntax

namespace Grammar

variable {grammar : Grammar} {kind : Kind} {floor other : Precedence}

theorem stops_iff :
    grammar.tighter? floor kind = none ↔ kind = .semicolon ∨ grammar.precedence kind ≤ floor := by
  rw [tighter?, precedence]
  cases grammar.continuation kind with
  | none => exact iff_of_true rfl (.inr (Nat.zero_le _))
  | some entry =>
    obtain ⟨strength, rule⟩ := entry
    have weak : ¬ floor < strength ↔ strength ≤ floor := Nat.not_lt
    simp only [ite_eq_right_iff, reduceCtorEq, imp_false, not_and, ne_eq, weak, Option.map_some,
      Option.getD_some]
    exact Decidable.or_iff_not_imp_left.symm

/-- What continues an expression above a floor also does above a lower one. -/
theorem tighter?_of_le {rule : ContinuationRule} (le : floor ≤ other)
    (found : grammar.tighter? other kind = some rule) :
    grammar.tighter? floor kind = some rule := by
  rw [tighter?] at found ⊢
  cases entry : grammar.continuation kind with
  | none => simp [entry] at found
  | some pair =>
    simp only [entry, Option.ite_none_right_eq_some] at found ⊢
    exact ⟨⟨found.1.1, Nat.lt_of_le_of_lt le found.1.2⟩, found.2⟩

end Grammar

/-- The operand is the whole tree, or stands at its left end. -/
inductive Expr.AtLeft (operand : Expr) : Expr → Prop
  | whole : AtLeft operand operand
  | left {left right : Expr} {operator : String} : AtLeft operand left →
      AtLeft operand (.binary left operator right)
  | callee {callee : Expr} {arguments : List Expr} : AtLeft operand callee →
      AtLeft operand (.call callee arguments)

theorem Expr.AtLeft.trans {first second third : Expr} (h : first.AtLeft second)
    (k : second.AtLeft third) : first.AtLeft third := by
  induction k with
  | whole => exact h
  | left _ ih => exact .left ih
  | callee _ ih => exact .callee ih

namespace Parser

/-- Further on among the tokens, with more diagnostics recorded. -/
structure Further (before after : Parser) : Prop where
  window : ∃ count, after.window = Window.advance^[count] before.window
  diagnostics : before.diagnostics.toList <+: after.diagnostics.toList

end Parser

namespace Outcome

/-- The first run is over, built or given up, before the second or together with it. What the first
has built stands at the left end of what the second builds. -/
inductive Sooner : Outcome Expr → Outcome Expr → Prop
  | built {operand : Expr} {middle : Parser} {outcome : Outcome Expr} :
      outcome.Meets (fun tree after => operand.AtLeft tree ∧ middle.Further after) (fun _ => True)
        True → Sooner (.built operand middle) outcome
  | abandoned {after : Parser} : Sooner (.abandoned after) (.abandoned after)
  | unfinished : Sooner .unfinished .unfinished

theorem Sooner.after_closed {outcome outcome' : Outcome Expr} (sooner : outcome.Sooner outcome') :
    (outcome.after Parser.closed).Sooner (outcome'.after Parser.closed) := by
  cases sooner with
  | abandoned => exact .abandoned
  | unfinished => exact .unfinished
  | built meets =>
    refine .built ?_
    cases outcome' with
    | built tree after => exact ⟨meets.1, meets.2.window, meets.2.diagnostics⟩
    | abandoned after => trivial
    | unfinished => trivial

end Outcome

/-- Two runs that have begun with one step. -/
theorem Parse.sooner_bind {step : Parse α} {next next' : α → Parse Expr} {parser : Parser}
    (rest : ∀ value middle, (next value middle).Sooner (next' value middle)) :
    ((step >>= next) parser).Sooner ((step >>= next') parser) := by
  rw [bind_apply, bind_apply]
  cases step parser with
  | built value middle => exact rest value middle
  | abandoned middle => exact .abandoned
  | unfinished => exact .unfinished

namespace Parts

open Parse MonkeySyntax.Parser

variable {bound : Nat} {floor other : Precedence} {left value : Expr} {before after : Parser}

/-- An operator or a call is put above what it continues. -/
theorem atLeft_of_extend {parts : Parts} {rule : ContinuationRule}
    (run : parts.extend left rule before = .built value after) : left.AtLeft value := by
  cases rule with
  | binary =>
    obtain ⟨right, final, _, rfl, _⟩ := binary_eq_built.mp run
    exact .left .whole
  | call =>
    obtain ⟨list, _, rfl⟩ := call_eq_built.mp run
    exact .callee .whole

/-- The loop builds upon the left operand, and stops only at a token that the floor keeps out. -/
theorem continuation_built
    (run : (within bound).continuation floor left before = .built value after) :
    left.AtLeft value ∧ after.grammar.tighter? floor after.ahead.kind = none := by
  induction bound generalizing left before with
  | zero => cases run
  | succ bound ih =>
    rcases continueAbove_eq_built.mp run with
      ⟨stops, rfl, rfl⟩ | ⟨rule, extended, middle, _, step, rest⟩
    · exact ⟨.whole, stops⟩
    · obtain ⟨above, stops⟩ := ih rest
      exact ⟨(atLeft_of_extend step).trans above, stops⟩

theorem further_of_built (phrase : Phrase .expression)
    (run : (within bound).parse phrase before = .built value after) : before.Further after := by
  have proceeds := keeps_within keeps_proceeds bound phrase before
  rw [run] at proceeds
  exact ⟨proceeds.window, proceeds.diagnostics⟩

theorem continuation_sooner (le : floor ≤ other) (bound : Nat) (left : Expr) (parser : Parser) :
    ((within bound).continuation other left parser).Sooner
      ((within bound).continuation floor left parser) := by
  induction bound generalizing left parser with
  | zero => exact .unfinished
  | succ bound ih =>
    cases found : parser.grammar.tighter? other parser.ahead.kind with
    | none =>
      -- The higher floor stops here, whatever becomes of the run under the lower one.
      have stops : (within (bound + 1)).continuation other left parser = .built left parser :=
        continueAbove_eq_built.mpr (.inl ⟨found, rfl, rfl⟩)
      rw [stops]
      refine .built ?_
      cases run : (within (bound + 1)).continuation floor left parser with
      | built value after =>
        have further := further_of_built (.continuation floor left) run
        exact ⟨(continuation_built run).1, further⟩
      | abandoned after => trivial
      | unfinished => trivial
    | some rule =>
      have found' := Grammar.tighter?_of_le le found
      change ((within bound).continueAbove other left parser).Sooner
        ((within bound).continueAbove floor left parser)
      rw [continueAbove, continueAbove, read_bind, read_bind, found, found']
      exact sooner_bind fun _ _ => sooner_bind ih

theorem expression_sooner (le : floor ≤ other) (bound : Nat) (parser : Parser) :
    ((within bound).expression other parser).Sooner ((within bound).expression floor parser) := by
  cases bound with
  | zero => exact .unfinished
  | succ bound =>
    change ((within bound).expressionAbove other parser).Sooner
      ((within bound).expressionAbove floor parser)
    by_cases room : parser.depth < parser.options.maxDepth
    · rw [expressionAbove_of_lt room, expressionAbove_of_lt room]
      exact .after_closed (sooner_bind (continuation_sooner le bound))
    · have deep := Nat.le_of_not_lt room
      rw [expressionAbove_of_le deep, expressionAbove_of_le deep]
      exact .abandoned

theorem expression_stops
    (run : (within bound).expression floor before = .built value after) :
    after.ahead.kind = .semicolon ∨ after.aheadPrecedence ≤ floor := by
  cases bound with
  | zero => cases run
  | succ bound =>
    obtain ⟨_, _, _, _, final, _, _, loop, rfl⟩ := expressionAbove_eq_built.mp run
    exact Grammar.stops_iff.mp (continuation_built loop).2

end Parts

namespace Parser

variable {parser middle after : Parser} {floor other : Precedence} {tree operand : Expr}

theorem performs_expression_none :
    parser.Performs (.expression floor) (.expression none) after ↔
      ∃ bound, (Parts.within bound).expression floor parser = .abandoned after := by
  refine exists_congr fun bound => ?_
  change answer .expression ((Parts.within bound).expression floor parser) = _ ↔ _
  cases (Parts.within bound).expression floor parser <;> simp [answer]

theorem performs_expression_some :
    parser.Performs (.expression floor) (.expression (some tree)) after ↔
      ∃ bound, (Parts.within bound).expression floor parser = .built tree after := by
  refine exists_congr fun bound => ?_
  change answer .expression ((Parts.within bound).expression floor parser) = _ ↔ _
  cases (Parts.within bound).expression floor parser <;> simp [answer]

/-- Where an operand stops. What is given up above a higher floor is given up above a lower one, in
the same state. When a tree is built above the lower floor, the higher one cuts off an operand at
its left end, among the same tokens and with the first of the same diagnostics; and a token behind
the tree that could continue it binds no more tightly than the floor, or is a semicolon. -/
theorem expression_floor (le : floor ≤ other) (parser : Parser) :
    (∀ after, parser.Performs (.expression other) (.expression none) after →
      parser.Performs (.expression floor) (.expression none) after) ∧
    (∀ tree after, parser.Performs (.expression floor) (.expression (some tree)) after →
      ∃ operand middle, parser.Performs (.expression other) (.expression (some operand)) middle ∧
        operand.AtLeft tree ∧ parser.Further middle ∧ middle.Further after) ∧
    ∀ tree after, parser.Performs (.expression floor) (.expression (some tree)) after →
      after.ahead.kind = .semicolon ∨ after.aheadPrecedence ≤ floor := by
  simp only [performs_expression_none, performs_expression_some]
  refine ⟨?_, ?_, ?_⟩
  · rintro after ⟨bound, run⟩
    have sooner := Parts.expression_sooner le bound parser
    rw [run] at sooner
    generalize ran : (Parts.within bound).expression floor parser = outcome at sooner
    cases sooner
    exact ⟨bound, ran⟩
  · rintro tree after ⟨bound, run⟩
    have sooner := Parts.expression_sooner le bound parser
    rw [run] at sooner
    generalize ran : (Parts.within bound).expression other parser = outcome at sooner
    cases sooner with
    | @built operand middle _ meets =>
      exact ⟨operand, middle, ⟨bound, ran⟩, meets.1, Parts.further_of_built (.expression other) ran,
        meets.2⟩
  · rintro tree after ⟨bound, run⟩
    exact Parts.expression_stops run

set_option maxRecDepth 20000 in
/-- A product is cut off from a sum, with the fault that was found in a block inside it; and where a
product is given up, the sum is. -/
theorem expression_floor_sum :
    Precedence.lowest ≤ .sum ∧
    (∃ after operand middle,
      (start {} (.ofText "f" "g(fn() \x7b ) \x7d) * b + c;")).Performs (.expression .lowest)
        (.expression (some (.binary operand "+" (.identifier "c")))) after ∧
      (start {} (.ofText "f" "g(fn() \x7b ) \x7d) * b + c;")).Performs (.expression .sum)
        (.expression (some operand)) middle ∧
      middle.Further after ∧ middle.diagnostics.size = 1 ∧ after.ahead.kind = .semicolon) ∧
    ∃ after,
      (start {} (.ofText "f" "a * ) + c")).Performs (.expression .sum) (.expression none) after ∧
      (start {} (.ofText "f" "a * ) + c")).Performs (.expression .lowest) (.expression none)
        after := by
  have le : Precedence.lowest ≤ .sum := by decide
  let product : Expr :=
    .binary (.call (.identifier "g") [.function [] []]) "*" (.identifier "b")
  have whole : (start {} (.ofText "f" "g(fn() \x7b ) \x7d) * b + c;")).Performs
      (.expression .lowest) (.expression (some (.binary product "+" (.identifier "c")))) _ :=
    performs_of_perform rfl
  have part : (start {} (.ofText "f" "g(fn() \x7b ) \x7d) * b + c;")).Performs
      (.expression .sum) (.expression (some product)) _ := performs_of_perform rfl
  have lost : (start {} (.ofText "f" "a * ) + c")).Performs (.expression .sum)
      (.expression none) _ := performs_of_perform rfl
  obtain ⟨operand, middle, run, _, _, further⟩ := (expression_floor le _).2.1 _ _ whole
  cases part.unique run
  exact ⟨le, ⟨_, _, _, whole, part, further, rfl, rfl⟩, _, lost, (expression_floor le _).1 _ lost⟩

end Parser

end MonkeySyntax
