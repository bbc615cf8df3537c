import MonkeySyntax.Proofs.Parsing.Phrase
import MonkeySyntax.Proofs.Parsing.Window

/-! What holds of every rule because it holds of the primitive steps. A relation between steps may
speak of one run or compare two; when the combinators preserve it, it relates each rule over related
parts, and so each phrase at one bound to the same phrase at any greater bound. -/
namespace MonkeySyntax

structure Parse.Congruence (R : {α : Type} → Parse α → Parse α → Prop) : Prop where
  unfinished {α : Type} (step : Parse α) : R Parse.unfinished step
  pure {α : Type} (value : α) : R (pure value) (pure value)
  bind {α β : Type} {step step' : Parse α} {next next' : α → Parse β} : R step step' →
    (∀ value, R (next value) (next' value)) → R (step >>= next) (step' >>= next')
  /-- A step may look at the terminals in its window and at its grammar, and at nothing else. -/
  view {α : Type} (see : Terminal → Terminal → Grammar → α) :
    R (Parse.read fun parser => see parser.current.terminal parser.ahead.terminal parser.grammar)
      (Parse.read fun parser => see parser.current.terminal parser.ahead.terminal parser.grammar)
  advance : R Parse.advance Parse.advance
  drop : R (Parse.update Parser.drop) (Parse.update Parser.drop)
  fail {α : Type} (fault : Fault) : R (Parse.fail fault : Parse α) (Parse.fail fault)
  expect (kind : Kind) : R (Parse.expect kind) (Parse.expect kind)
  attempt {α : Type} {step step' : Parse α} : R step step' → R step.attempt step'.attempt
  ensuring {α : Type} {last last' : Parse Unit} {step step' : Parse α} : R last last' →
    R step step' → R (Parse.ensuring last step) (Parse.ensuring last' step')
  traced {α : Type} (label : String) {step step' : Parse α} :
    R step step' → R (Parse.traced label step) (Parse.traced label step')
  nested {α : Type} {step step' : Parse α} : R step step' → R step.nested step'.nested

structure Parts.Related (R : {α : Type} → Parse α → Parse α → Prop) (parts parts' : Parts) :
    Prop where
  expression (floor : Precedence) : R (parts.expression floor) (parts'.expression floor)
  continuation (floor : Precedence) (left : Expr) :
    R (parts.continuation floor left) (parts'.continuation floor left)
  parameters : R parts.parameters parts'.parameters
  arguments : R parts.arguments parts'.arguments
  statement : R parts.statement parts'.statement
  statements (extent : Extent) : R (parts.statements extent) (parts'.statements extent)

namespace Parse.Congruence

variable {R : {α : Type} → Parse α → Parse α → Prop} {parts parts' : Parts}

theorem branch {condition : Prop} [Decidable condition] {yes yes' no no' : Parse α}
    (left : R yes yes') (right : R no no') :
    R (if condition then yes else no) (if condition then yes' else no') := by
  split
  · exact left
  · exact right

section

variable (c : Congruence R)
include c

theorem currentKind : R Parse.currentKind Parse.currentKind :=
  c.view fun current _ _ => current.kind

theorem currentLiteral : R Parse.currentLiteral Parse.currentLiteral :=
  c.view fun current _ _ => current.literal

theorem aheadKind : R Parse.aheadKind Parse.aheadKind := c.view fun _ ahead _ => ahead.kind

theorem skip (kind : Kind) : R (Parse.skip kind) (Parse.skip kind) :=
  c.bind c.aheadKind fun _ => branch c.advance (c.pure ())

theorem identifier : R Parts.identifier Parts.identifier :=
  c.bind c.currentLiteral fun _ => c.pure _

theorem integer : R Parts.integer Parts.integer := by
  refine c.traced _ (c.bind c.currentLiteral fun literal => ?_)
  cases Text.numeralBelow? integerBound literal.toList with
  | none => exact c.fail _
  | some number => exact c.pure _

theorem boolean : R Parts.boolean Parts.boolean := c.bind c.currentKind fun _ => c.pure _

theorem parenthesized {items items' : Parse (List α)} (h : R items items') :
    R (Parts.parenthesized items) (Parts.parenthesized items') := by
  refine c.bind c.aheadKind fun _ => branch ?_ ?_
  · exact c.bind c.advance fun _ => c.pure []
  · exact c.bind h fun list => c.bind (c.expect _) fun _ => c.pure list

end

section

variable (c : Congruence R) (h : parts.Related R parts')
include c h

theorem block : R parts.block parts'.block := c.bind c.advance fun _ => h.statements _

theorem unary : R parts.unary parts'.unary := by
  refine c.traced _ (c.bind c.currentLiteral fun _ => c.bind c.advance fun _ => ?_)
  exact c.bind (h.expression _) fun _ => c.pure _

theorem grouped : R parts.grouped parts'.grouped := by
  refine c.bind c.advance fun _ => c.bind (h.expression _) fun inner => ?_
  exact c.bind (c.expect _) fun _ => c.pure inner

theorem conditional : R parts.conditional parts'.conditional := by
  refine c.bind (c.expect _) fun _ => c.bind c.advance fun _ => ?_
  refine c.bind (h.expression _) fun _ => c.bind (c.expect _) fun _ => ?_
  refine c.bind (c.expect _) fun _ => c.bind (c.block h) fun _ => ?_
  refine c.bind c.aheadKind fun _ => branch ?_ (c.pure _)
  refine c.bind c.advance fun _ => c.bind (c.expect _) fun _ => ?_
  exact c.bind (c.block h) fun _ => c.pure _

theorem function : R parts.function parts'.function := by
  refine c.bind (c.expect _) fun _ => c.bind (c.parenthesized h.parameters) fun _ => ?_
  exact c.bind (c.expect _) fun _ => c.bind (c.block h) fun _ => c.pure _

theorem start (rule : StartRule) : R (parts.start rule) (parts'.start rule) := by
  cases rule with
  | identifier => exact c.identifier
  | integer => exact c.integer
  | boolean => exact c.boolean
  | unary => exact c.unary h
  | grouped => exact c.grouped h
  | conditional => exact c.conditional h
  | function => exact c.function h

theorem extend (left : Expr) (rule : ContinuationRule) :
    R (parts.extend left rule) (parts'.extend left rule) := by
  cases rule with
  | binary =>
    refine c.traced _ (c.bind c.currentLiteral fun _ => ?_)
    refine c.bind (c.view fun current _ grammar => grammar.precedence current.kind) fun _ => ?_
    exact c.bind c.advance fun _ => c.bind (h.expression _) fun _ => c.pure _
  | call => exact c.bind (c.parenthesized h.arguments) fun _ => c.pure _

theorem expressionAbove (floor : Precedence) :
    R (parts.expressionAbove floor) (parts'.expressionAbove floor) := by
  refine c.traced _ (c.nested (c.bind ?_ fun left => h.continuation floor left))
  refine c.bind (c.view fun current _ grammar => grammar.start current.kind) fun found => ?_
  cases found with
  | none => exact c.bind c.currentKind fun _ => c.fail _
  | some rule => exact c.start h rule

theorem continueAbove (floor : Precedence) (left : Expr) :
    R (parts.continueAbove floor left) (parts'.continueAbove floor left) := by
  refine c.bind (c.view fun _ ahead grammar => grammar.tighter? floor ahead.kind) fun found => ?_
  cases found with
  | none => exact c.pure left
  | some rule =>
    exact c.bind c.advance fun _ => c.bind (c.extend h left rule) fun _ => h.continuation _ _

theorem parameterList : R parts.parameterList parts'.parameterList := by
  refine c.bind (c.expect _) fun _ => c.bind c.currentLiteral fun _ => ?_
  refine c.bind c.aheadKind fun _ => branch ?_ (c.pure _)
  exact c.bind c.advance fun _ => c.bind h.parameters fun _ => c.pure _

theorem argumentList : R parts.argumentList parts'.argumentList := by
  refine c.bind c.advance fun _ => c.bind (h.expression _) fun _ => ?_
  refine c.bind c.aheadKind fun _ => branch ?_ (c.pure _)
  exact c.bind c.advance fun _ => c.bind h.arguments fun _ => c.pure _

theorem bindingStatement : R parts.bindingStatement parts'.bindingStatement := by
  refine c.bind (c.expect _) fun _ => c.bind c.currentLiteral fun _ => ?_
  refine c.bind (c.expect _) fun _ => c.bind c.advance fun _ => ?_
  exact c.bind (h.expression _) fun _ => c.bind (c.skip _) fun _ => c.pure _

theorem returnStatement : R parts.returnStatement parts'.returnStatement := by
  refine c.bind c.aheadKind fun _ => branch ?_ ?_
  · exact c.bind (c.skip _) fun _ => c.pure _
  · refine c.bind c.advance fun _ => c.bind (h.expression _) fun _ => ?_
    exact c.bind (c.skip _) fun _ => c.pure _

theorem expressionStatement : R parts.expressionStatement parts'.expressionStatement := by
  refine c.traced _ (c.bind ?_ fun _ => c.pure _)
  exact c.ensuring (c.skip _) (h.expression _)

theorem runStatement (rule : StatementRule) :
    R (parts.runStatement rule) (parts'.runStatement rule) := by
  cases rule with
  | any => exact h.statement
  | binding => exact c.bindingStatement h
  | returning => exact c.returnStatement h
  | expression => exact c.expressionStatement h

theorem statementHere : R parts.statementHere parts'.statementHere := by
  refine c.bind (c.view fun current _ grammar => grammar.statement current.kind) fun found => ?_
  cases found with
  | none => exact c.expressionStatement h
  | some rule => exact c.runStatement h rule

theorem statementList (extent : Extent) :
    R (parts.statementList extent) (parts'.statementList extent) := by
  refine c.bind c.currentKind fun _ => branch (c.pure []) (c.bind (c.attempt h.statement) ?_)
  intro found
  cases found with
  | none => exact c.bind c.drop fun _ => c.bind c.advance fun _ => h.statements extent
  | some statement =>
    exact c.bind c.advance fun _ => c.bind (h.statements extent) fun _ => c.pure _

omit c in
theorem items (items : Items item) : R (parts.items items) (parts'.items items) := by
  cases items with
  | parameters => exact h.parameters
  | arguments => exact h.arguments

theorem parse (phrase : Phrase form) : R (parts.parse phrase) (parts'.parse phrase) := by
  cases phrase with
  | start rule => exact c.start h rule
  | expression floor => exact h.expression floor
  | continuation floor left => exact h.continuation floor left
  | extend left rule => exact c.extend h left rule
  | items list => exact items h list
  | enclosed list => exact c.parenthesized (items h list)
  | block => exact c.block h
  | statements extent => exact h.statements extent
  | statement => exact h.statement
  | statementBy rule => exact c.runStatement h rule

end

theorem within (c : Congruence R) {bound bound' : Nat} (le : bound ≤ bound') :
    (Parts.within bound).Related R (Parts.within bound') := by
  induction bound generalizing bound' with
  | zero =>
    exact ⟨fun _ => c.unfinished _, fun _ _ => c.unfinished _, c.unfinished _, c.unfinished _,
      c.unfinished _, fun _ => c.unfinished _⟩
  | succ bound ih =>
    obtain ⟨bound', rfl⟩ : ∃ n, bound' = n + 1 := ⟨bound' - 1, by omega⟩
    have h := ih (Nat.le_of_succ_le_succ le)
    exact ⟨c.expressionAbove h, c.continueAbove h, c.parameterList h, c.argumentList h,
      c.statementHere h, c.statementList h⟩

end Parse.Congruence

end MonkeySyntax
