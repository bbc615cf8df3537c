import MonkeySyntax.Proofs.Parsing.Contract
import MonkeySyntax.Proofs.Parsing.RuleInduction

/-! Assertions that follow the parser from token to token: one of a parser whose current token has
still to be taken up, one when that token is done with, and one when a phrase has been given up,
with what leads from one to another at each primitive step. Every rule upholds such assertions when
its parts do: no rule passes a token that it has not looked at, and after a fault nothing but a
semicolon is passed before a sequence of statements goes on. -/
namespace MonkeySyntax

namespace Trace

def lines (trace : Trace) : List String := trace.log.toList

theorem lines_enter (trace : Trace) (label : String) :
    trace.lines <+: (trace.enter label).lines := by
  rw [enter]
  split
  · exact ⟨_, Array.toList_push.symm⟩
  · exact List.prefix_refl _

theorem lines_leave (trace : Trace) (label : String) :
    trace.lines <+: (trace.leave label).lines := by
  rw [leave]
  split
  · exact ⟨_, Array.toList_push.symm⟩
  · exact List.prefix_refl _

end Trace

namespace Parser

/-- The faults that are found at the current token. -/
inductive Finds (parser : Parser) : Fault → Prop
  | noStart : parser.grammar.start parser.current.kind = none →
      Finds parser (.noStart parser.current.kind)
  | integerRange : parser.grammar.start parser.current.kind = some .integer →
      Text.numeralBelow? integerBound parser.current.literal.toList = none →
      Finds parser (.integerRange parser.current.literal)
  | tooDeep : Finds parser (.tooDeep parser.options.maxDepth)

/-- A rule can take the current token up. -/
def Known (parser : Parser) : Prop :=
  parser.current.kind ≠ .illegal ∨ (parser.grammar.start parser.current.kind).isSome ∨
    (parser.grammar.continuation parser.current.kind).isSome ∨
    (parser.grammar.statement parser.current.kind).isSome

theorem known_advance {floor : Precedence} {rule : ContinuationRule} (parser : Parser)
    (found : parser.grammar.tighter? floor parser.ahead.kind = some rule) :
    parser.advance.Known := by
  refine .inr (.inr (.inl ?_))
  change (parser.grammar.continuation parser.ahead.kind).isSome
  rw [Grammar.tighter?] at found
  cases entry : parser.grammar.continuation parser.ahead.kind with
  | none => simp [entry] at found
  | some pair => rfl

end Parser

theorem Extent.ne_illegal_of_endsAt {kind : Kind} (extent : Extent) (ends : extent.endsAt kind) :
    kind ≠ .illegal := by
  rintro rfl
  cases extent <;> cases ends

theorem Extent.endsAt_eof (extent : Extent) : extent.endsAt .eof = true := by cases extent <;> rfl

structure TokenAssertions where
  /-- The current token has still to be taken up. -/
  reached : Parser → Prop
  /-- The current token is done with, and the one ahead has not been looked at. -/
  clear : Parser → Prop
  /-- A phrase has been given up. -/
  lost : Parser → Prop
  reached_frame {parser : Parser} {trace : Trace} (depth : Nat) : reached parser →
    parser.trace.lines <+: trace.lines → reached { parser with trace := trace, depth := depth }
  clear_frame {parser : Parser} {trace : Trace} (depth : Nat) : clear parser →
    parser.trace.lines <+: trace.lines → clear { parser with trace := trace, depth := depth }
  lost_frame {parser : Parser} {trace : Trace} (depth : Nat) : lost parser →
    parser.trace.lines <+: trace.lines → lost { parser with trace := trace, depth := depth }
  take {parser : Parser} : reached parser → parser.Known → clear parser
  advance {parser : Parser} : clear parser → reached parser.advance
  report {parser : Parser} {fault : Fault} : reached parser → parser.Finds fault →
    lost (parser.report fault)
  unexpected {parser : Parser} {kind : Kind} : clear parser → parser.ahead.kind ≠ kind →
    lost (parser.reportAt parser.ahead (.unexpected kind parser.ahead.kind))
  skip {parser : Parser} : lost parser → parser.ahead.kind = .semicolon → lost parser.advance
  recover {parser : Parser} : lost parser → reached parser.drop.advance

/-- From such a state the step ends with the current token done with, or is lost. -/
def Parse.Upholds (d : TokenAssertions) (cut : Prop) (start : Parser → Prop) (step : Parse α) :
    Prop :=
  ∀ before, start before → (step before).Meets (fun _ => d.clear) d.lost cut

namespace TokenAssertions

variable (d : TokenAssertions)

/-- A start rule runs on a token that the table has given it, and may still find fault with it. -/
def begun (rule : StartRule) (parser : Parser) : Prop :=
  d.clear parser ∧ parser.grammar.start parser.current.kind = some rule ∧
    ∀ fault, parser.Finds fault → d.lost (parser.report fault)

def asserts : Stage → Parser → Prop
  | .reached => d.reached
  | .begun rule => d.begun rule
  | .clear => d.clear

variable {d : TokenAssertions} {parser : Parser} {kind : Kind} {rule : StartRule}

theorem onto (clear : d.clear parser) (here : parser.ahead.kind = kind) (known : kind ≠ .illegal) :
    d.clear parser.advance := d.take (d.advance clear) (.inl (here ▸ known))

theorem begun_of_reached (reached : d.reached parser)
    (rule_eq : parser.grammar.start parser.current.kind = some rule) : d.begun rule parser :=
  have known : parser.Known := .inr (.inl (Option.isSome_of_eq_some rule_eq))
  ⟨d.take reached known, rule_eq, fun _ => d.report reached⟩

theorem clear_skipped (clear : d.clear parser) : d.clear (Parse.skipped .semicolon parser) := by
  rw [Parse.skipped]
  split
  · next met => exact d.onto clear met (by decide)
  · exact clear

theorem lost_skipped (lost : d.lost parser) : d.lost (Parse.skipped .semicolon parser) := by
  rw [Parse.skipped]
  split
  · next met => exact d.skip lost met
  · exact lost

section

open Parse

variable {cut : Prop} {step : Parse α} {label : String}

theorem ends_traced
    (ends : (step (parser.enter label)).Meets (fun _ => d.clear) d.lost cut) :
    (traced label step parser).Meets (fun _ => d.clear) d.lost cut :=
  meets_traced.mpr <| ends.imp
    (fun _ after clear => d.clear_frame after.depth clear (after.trace.lines_leave label))
    fun after lost => d.lost_frame after.depth lost (after.trace.lines_leave label)

theorem ends_ensuring (ends : (step parser).Meets (fun _ => d.clear) d.lost cut) :
    (ensuring (Parse.skip .semicolon) step parser).Meets (fun _ => d.clear) d.lost cut :=
  meets_ensuring.mpr <| ends.imp
    (fun _ after clear => by
      rw [skip_apply]
      exact clear_skipped clear)
    fun after lost => by
      rw [skip_apply]
      exact lost_skipped lost

theorem ends_closed {outcome : Outcome α}
    (ends : outcome.Meets (fun _ => d.clear) d.lost cut) :
    (outcome.after Parser.closed).Meets (fun _ => d.clear) d.lost cut := by
  cases outcome with
  | built value after =>
    have surfaced : d.clear after.surface := d.clear_frame _ ends (List.prefix_refl _)
    exact d.clear_frame _ surfaced (after.trace.lines_leave "parse_expression")
  | abandoned after =>
    have surfaced : d.lost after.surface := d.lost_frame _ ends (List.prefix_refl _)
    exact d.lost_frame _ surfaced (after.trace.lines_leave "parse_expression")
  | unfinished => exact ends

end

end TokenAssertions

namespace Parse.Upholds

variable {d : TokenAssertions} {cut : Prop} {start : Parser → Prop} {step : Parse α} {kind : Kind}

theorem pure (value : α) : Upholds d cut d.clear (pure value) := fun _ clear => clear

theorem bind {next : α → Parse β} (first : Upholds d cut start step)
    (rest : ∀ value, Upholds d cut d.clear (next value)) : Upholds d cut start (step >>= next) :=
  fun before at_ => meets_bind.mpr <|
    (first before at_).imp (fun value after => rest value after) fun _ => id

theorem look {view : Parser → α} {next : α → Parse β}
    (rest : ∀ value, Upholds d cut start (next value)) : Upholds d cut start (read view >>= next) :=
  fun before => rest (view before) before

theorem onward {next : Unit → Parse β} (rest : Upholds d cut d.reached (next ())) :
    Upholds d cut d.clear (advance >>= next) :=
  fun before clear => rest before.advance (d.advance clear)

theorem expect (known : kind ≠ .illegal) : Upholds d cut d.clear (expect kind) :=
  fun _ clear => meets_expect.mpr ⟨fun met => d.onto clear met known, d.unexpected clear⟩

theorem ahead {yes : Unit → Parse α} {no : Parse α} (known : kind ≠ .illegal)
    (left : Upholds d cut d.clear (yes ())) (right : Upholds d cut d.clear no) :
    Upholds d cut d.clear
      (aheadKind >>= fun here => if here = kind then advance >>= yes else no) := by
  intro before clear
  simp only [aheadKind, read_bind]
  split
  · next met => exact left before.advance (d.onto clear met known)
  · exact right before clear

theorem traced (label : String) (enter : ∀ parser, start parser → start (parser.enter label))
    (inside : Upholds d cut start step) : Upholds d cut start (traced label step) :=
  fun before at_ => TokenAssertions.ends_traced (inside _ (enter before at_))

theorem traced_reached (label : String) (inside : Upholds d cut d.reached step) :
    Upholds d cut d.reached (Parse.traced label step) :=
  inside.traced label fun parser reached =>
    d.reached_frame parser.depth reached (parser.trace.lines_enter label)

theorem nested (inside : Upholds d cut d.reached step) : Upholds d cut d.reached (nested step) :=
  fun before reached => meets_nested.mpr
    ⟨fun _ => (inside _ (d.reached_frame (before.depth + 1) reached (List.prefix_refl _))).imp
        (fun _ after clear => d.clear_frame (after.depth - 1) clear (List.prefix_refl _))
        fun after lost => d.lost_frame (after.depth - 1) lost (List.prefix_refl _),
      fun _ => d.report reached .tooDeep⟩

/-- The semicolon is passed whatever became of the step. -/
theorem ensuring (inside : Upholds d cut start step) :
    Upholds d cut start (ensuring (skip .semicolon) step) :=
  fun before at_ => TokenAssertions.ends_ensuring (inside before at_)

end Parse.Upholds

/-- The recurring phrases uphold the assertions. -/
abbrev Parts.Uphold (d : TokenAssertions) (cut : Prop) (parts : Parts) : Prop :=
  parts.AllSatisfy fun stage step => Parse.Upholds d cut (d.asserts stage) step

namespace TokenAssertions

open Parse

variable {d : TokenAssertions} {cut : Prop} {parts : Parts}

theorem asserts_enter (stage : Stage) (parser : Parser) (label : String)
    (at_ : d.asserts stage parser) : d.asserts stage (parser.enter label) := by
  have grows := parser.trace.lines_enter label
  cases stage with
  | reached => exact d.reached_frame parser.depth at_ grows
  | clear => exact d.clear_frame parser.depth at_ grows
  | begun rule =>
    obtain ⟨clear, found, report⟩ := at_
    refine ⟨d.clear_frame parser.depth clear grows, found, fun fault finds => ?_⟩
    have found' : parser.Finds fault := by
      cases finds with
      | noStart none => exact .noStart none
      | integerRange rule large => exact .integerRange rule large
      | tooDeep => exact .tooDeep
    exact d.lost_frame parser.depth (report fault found') grows

theorem upholds_integer : Upholds d cut (d.begun .integer) Parts.integer := by
  refine .traced _ (fun parser => asserts_enter (.begun .integer) parser _) ?_
  intro before ⟨clear, rule, report⟩
  rw [currentLiteral, read_bind]
  cases found : Text.numeralBelow? integerBound before.current.literal.toList with
  | some number => exact clear
  | none => exact report _ (.integerRange rule found)

theorem upholds_continueAbove {floor : Precedence} {left : Expr}
    (extend : ∀ rule, Upholds d cut d.clear (parts.extend left rule))
    (rest : ∀ extended, Upholds d cut d.clear (parts.continuation floor extended)) :
    Upholds d cut d.clear (parts.continueAbove floor left) := by
  intro before clear
  rw [Parts.continueAbove, read_bind]
  cases found : before.grammar.tighter? floor before.ahead.kind with
  | none => exact clear
  | some rule =>
    have onto := d.take (d.advance clear) (before.known_advance found)
    exact (extend rule).bind rest before.advance onto

theorem upholds_statementHere (any : Upholds d cut d.reached parts.statement)
    (expression : Upholds d cut d.reached parts.expressionStatement)
    (binding : Upholds d cut d.clear parts.bindingStatement)
    (returning : Upholds d cut d.clear parts.returnStatement) :
    Upholds d cut d.reached parts.statementHere := by
  intro before reached
  rw [Parts.statementHere, read_bind]
  cases found : before.grammar.statement before.current.kind with
  | none => exact expression before reached
  | some rule =>
    have clear := d.take reached (.inr (.inr (.inr (Option.isSome_of_eq_some found))))
    cases rule with
    | any => exact any before reached
    | binding => exact binding before clear
    | returning => exact returning before clear
    | expression => exact expression before reached

theorem ends_statementList {extent : Extent} {before : Parser}
    (goes : ¬ extent.endsAt before.current.kind)
    (rest : Upholds d cut d.reached (parts.statements extent))
    (ends : (parts.statement before).Meets (fun _ => d.clear) d.lost cut) :
    (parts.statementList extent before).Meets (fun _ => d.clear) d.lost cut := by
  rw [Parts.statementList, currentKind, read_bind, if_neg goes, meets_bind, meets_attempt]
  refine ends.imp (fun statement after clear => ?_) fun after lost => ?_
  · have more := rest.bind fun list => .pure (statement :: list)
    exact more after.advance (d.advance clear)
  · exact rest after.drop.advance (d.recover lost)

theorem upholds_statementList {extent : Extent}
    (statement : Upholds d cut d.reached parts.statement)
    (rest : Upholds d cut d.reached (parts.statements extent)) :
    Upholds d cut d.reached (parts.statementList extent) := by
  intro before reached
  by_cases ended : extent.endsAt before.current.kind
  · rw [Parts.statementList, currentKind, read_bind, if_pos ended]
    exact d.take reached (.inl (extent.ne_illegal_of_endsAt ended))
  · exact ends_statementList ended rest (statement before reached)

theorem upholds_startHere (start : ∀ rule, Upholds d cut (d.begun rule) (parts.start rule)) :
    Upholds d cut d.reached parts.startHere := by
  intro before reached
  rw [Parts.startHere, read_bind]
  cases found : before.grammar.start before.current.kind with
  | none => exact d.report reached (.noStart found)
  | some rule => exact start rule before (d.begun_of_reached reached found)

theorem upholds_expressionAbove {floor : Precedence}
    (start : ∀ rule, Upholds d cut (d.begun rule) (parts.start rule))
    (rest : ∀ left, Upholds d cut d.clear (parts.continuation floor left)) :
    Upholds d cut d.reached (parts.expressionAbove floor) :=
  .traced_reached _ (.nested (.bind (upholds_startHere start) rest))

/-- No rule passes a token unseen, whatever its parts are. -/
theorem closedUnderForms (d : TokenAssertions) (cut : Prop) :
    ClosedUnderForms fun stage step => Upholds d cut (d.asserts stage) step where
  pure := .pure
  bind := .bind
  begun clear before at_ := clear before at_.1
  view _ _ := .look
  onward := .onward
  look := .look
  pass := .ahead
  expect := .expect
  traced _ inside := inside.traced _ fun parser => asserts_enter _ parser _
  closing := .ensuring
  integer := upholds_integer
  continuation _ _ := upholds_continueAbove
  statement := upholds_statementHere
  statements _ := upholds_statementList

end TokenAssertions

namespace Parts.Uphold

open Parse

variable {d : TokenAssertions} {cut : Prop} {parts : Parts} (h : parts.Uphold d cut)
include h

theorem start (rule : StartRule) : Upholds d cut (d.begun rule) (parts.start rule) :=
  (d.closedUnderForms cut).start h rule

theorem extend (left : Expr) (rule : ContinuationRule) :
    Upholds d cut d.clear (parts.extend left rule) := (d.closedUnderForms cut).extend h left rule

theorem bindingStatement : Upholds d cut d.clear parts.bindingStatement :=
  (d.closedUnderForms cut).bindingStatement h

theorem returnStatement : Upholds d cut d.clear parts.returnStatement :=
  (d.closedUnderForms cut).returnStatement h

omit h in
theorem expressionStatement (inside : Upholds d cut d.reached (parts.expression .lowest)) :
    Upholds d cut d.reached parts.expressionStatement :=
  .traced_reached _ (.bind (.ensuring inside) fun _ => .pure _)

omit h in
theorem within (d : TokenAssertions) (bound : Nat) : (Parts.within bound).Uphold d True :=
  ClosedUnderForms.within (fun _ => d.closedUnderForms True) (fun _ _ _ => trivial) id
    (fun h _ => TokenAssertions.upholds_expressionAbove ((d.closedUnderForms True).start h)
      (h.continuation _)) bound

end Parts.Uphold

end MonkeySyntax
