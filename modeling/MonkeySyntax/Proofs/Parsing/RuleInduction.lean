import MonkeySyntax.Proofs.Parsing.Phrase
import MonkeySyntax.Proofs.Parsing.Window

/-! What a property of steps has to provide to hold of every rule. A property speaks of steps that
start at a stage, that is, with the current token taken up or not; a step that builds something ends
with its token done with. The rules are put together from a few forms only, so a property that these
forms keep is kept by each rule over parts that have it, and from bound to bound by all phrases. -/
namespace MonkeySyntax

/-- How far the current token has got. -/
inductive Stage where
  /-- It has still to be taken up. -/
  | reached
  /-- The table has given it a start rule, which may still find fault with it. -/
  | begun (rule : StartRule)
  /-- It is done with, and the one ahead has not been looked at. -/
  | clear

/-- The forms that rules are made of keep the property. An expression is left out, since only there
the depth changes. -/
structure Parse.ClosedUnderForms (R : {α : Type} → Stage → Parse α → Prop) : Prop where
  pure {α : Type} (value : α) : R .clear (pure value)
  bind {α β : Type} {stage : Stage} {step : Parse α} {next : α → Parse β} : R stage step →
    (∀ value, R .clear (next value)) → R stage (step >>= next)
  begun {α : Type} {rule : StartRule} {step : Parse α} : R .clear step → R (.begun rule) step
  view {α β : Type} {stage : Stage} (see : Terminal → Grammar → α) {next : α → Parse β} :
    (∀ value, R stage (next value)) →
    R stage (Parse.read (fun parser => see parser.current.terminal parser.grammar) >>= next)
  onward {β : Type} {next : Unit → Parse β} : R .reached (next ()) →
    R .clear (Parse.advance >>= next)
  look {β : Type} {next : Kind → Parse β} : (∀ kind, R .clear (next kind)) →
    R .clear (Parse.aheadKind >>= next)
  pass {β : Type} {kind : Kind} {yes : Unit → Parse β} {no : Parse β} : kind ≠ .illegal →
    R .clear (yes ()) → R .clear no →
    R .clear (Parse.aheadKind >>= fun here => if here = kind then Parse.advance >>= yes else no)
  expect {kind : Kind} : kind ≠ .illegal → R .clear (Parse.expect kind)
  traced {α : Type} {stage : Stage} {label : String} {step : Parse α} :
    label ≠ "parse_expression" → R stage step → R stage (Parse.traced label step)
  closing {α : Type} {step : Parse α} : R .reached step →
    R .reached (Parse.ensuring (Parse.skip .semicolon) step)
  integer : R (.begun .integer) Parts.integer
  continuation {parts : Parts} (floor : Precedence) (left : Expr) :
    (∀ rule, R .clear (parts.extend left rule)) →
    (∀ extended, R .clear (parts.continuation floor extended)) →
    R .clear (parts.continueAbove floor left)
  statement {parts : Parts} : R .reached parts.statement → R .reached parts.expressionStatement →
    R .clear parts.bindingStatement → R .clear parts.returnStatement →
    R .reached parts.statementHere
  statements {parts : Parts} (extent : Extent) : R .reached parts.statement →
    R .reached (parts.statements extent) → R .reached (parts.statementList extent)

structure Parts.AllSatisfy (R : {α : Type} → Stage → Parse α → Prop) (parts : Parts) : Prop where
  expression (floor : Precedence) : R .reached (parts.expression floor)
  continuation (floor : Precedence) (left : Expr) : R .clear (parts.continuation floor left)
  parameters : R .clear parts.parameters
  arguments : R .clear parts.arguments
  statement : R .reached parts.statement
  statements (extent : Extent) : R .reached (parts.statements extent)

theorem Parts.AllSatisfy.imp {R S : {α : Type} → Stage → Parse α → Prop} {parts : Parts}
    (under : parts.AllSatisfy R)
    (weaken : ∀ {α : Type} {stage : Stage} {step : Parse α}, R stage step → S stage step) :
    parts.AllSatisfy S :=
  ⟨fun floor => weaken (under.expression floor),
    fun floor left => weaken (under.continuation floor left), weaken under.parameters,
    weaken under.arguments, weaken under.statement, fun extent => weaken (under.statements extent)⟩

/-- The stage at which the phrase takes the parser over. -/
def Phrase.stage : {form : Form} → Phrase form → Stage
  | _, .start rule => .begun rule
  | _, .expression _ | _, .statements _ | _, .statement => .reached
  | _, .statementBy .any | _, .statementBy .expression => .reached
  | _, .continuation _ _ | _, .extend _ _ | _, .items _ | _, .enclosed _ | _, .block => .clear
  | _, .statementBy .binding | _, .statementBy .returning => .clear

namespace Parse.ClosedUnderForms

/-- Properties that the forms keep one by one are kept all at once. -/
theorem every {ι : Sort u} {R : ι → {α : Type} → Stage → Parse α → Prop}
    (c : ∀ i, ClosedUnderForms (R i)) : ClosedUnderForms fun stage step => ∀ i, R i stage step where
  pure value i := (c i).pure value
  bind first rest i := (c i).bind (first i) fun value => rest value i
  begun clear i := (c i).begun (clear i)
  view see _ rest i := (c i).view see fun value => rest value i
  onward rest i := (c i).onward (rest i)
  look rest i := (c i).look fun kind => rest kind i
  pass known yes no i := (c i).pass known (yes i) (no i)
  expect known i := (c i).expect known
  traced other inside i := (c i).traced other (inside i)
  closing inside i := (c i).closing (inside i)
  integer i := (c i).integer
  continuation floor left extend rest i :=
    (c i).continuation floor left (fun rule => extend rule i) fun extended => rest extended i
  statement any expression binding returning i :=
    (c i).statement (any i) (expression i) (binding i) (returning i)
  statements extent statement rest i := (c i).statements extent (statement i) (rest i)

variable {R : {α : Type} → Stage → Parse α → Prop} {parts : Parts}

section

variable (c : ClosedUnderForms R)
include c

theorem literal {stage : Stage} {next : String → Parse α} (rest : ∀ text, R stage (next text)) :
    R stage (currentLiteral >>= next) := c.view (fun token _ => token.literal) rest

theorem skip : R .clear (Parse.skip .semicolon) := by
  have known : Kind.semicolon ≠ .illegal := by decide
  exact c.pass known (c.pure ()) (c.pure ())

theorem parenthesized {items : Parse (List α)} (h : R .clear items) :
    R .clear (Parts.parenthesized items) := by
  refine c.pass (by decide) (c.pure []) (c.bind h fun list => ?_)
  exact c.bind (c.expect (by decide)) fun _ => c.pure list

end

section

variable (c : ClosedUnderForms R) (h : parts.AllSatisfy R)
include c h

theorem block : R .clear parts.block := c.onward (h.statements .block)

theorem unary : R .clear parts.unary := by
  refine c.traced (by decide) (c.literal fun _ => c.onward ?_)
  exact c.bind (h.expression _) fun _ => c.pure _

theorem grouped : R .clear parts.grouped := by
  refine c.onward (c.bind (h.expression _) fun inner => ?_)
  exact c.bind (c.expect (by decide)) fun _ => c.pure inner

theorem conditional : R .clear parts.conditional := by
  refine c.bind (c.expect (by decide)) fun _ => c.onward (c.bind (h.expression _) fun _ => ?_)
  refine c.bind (c.expect (by decide)) fun _ => c.bind (c.expect (by decide)) fun _ => ?_
  refine c.bind (c.block h) fun _ => c.pass (by decide) ?_ (c.pure _)
  exact c.bind (c.expect (by decide)) fun _ => c.bind (c.block h) fun _ => c.pure _

theorem function : R .clear parts.function := by
  refine c.bind (c.expect (by decide)) fun _ => c.bind (c.parenthesized h.parameters) fun _ => ?_
  exact c.bind (c.expect (by decide)) fun _ => c.bind (c.block h) fun _ => c.pure _

theorem start (rule : StartRule) : R (.begun rule) (parts.start rule) := by
  cases rule with
  | identifier => exact c.begun (c.literal fun _ => c.pure _)
  | integer => exact c.integer
  | boolean => exact c.begun (c.view (fun token _ => token.kind) fun _ => c.pure _)
  | unary => exact c.begun (c.unary h)
  | grouped => exact c.begun (c.grouped h)
  | conditional => exact c.begun (c.conditional h)
  | function => exact c.begun (c.function h)

theorem extend (left : Expr) (rule : ContinuationRule) : R .clear (parts.extend left rule) := by
  cases rule with
  | binary =>
    refine c.traced (by decide) (c.literal fun _ => ?_)
    refine c.view (fun token grammar => grammar.precedence token.kind) fun _ => c.onward ?_
    exact c.bind (h.expression _) fun _ => c.pure _
  | call => exact c.bind (c.parenthesized h.arguments) fun _ => c.pure _

theorem continueAbove (floor : Precedence) (left : Expr) :
    R .clear (parts.continueAbove floor left) :=
  c.continuation floor left (c.extend h left) (h.continuation floor)

theorem parameterList : R .clear parts.parameterList := by
  refine c.bind (c.expect (by decide)) fun _ => c.literal fun _ => ?_
  exact c.pass (by decide) (c.bind h.parameters fun _ => c.pure _) (c.pure _)

theorem argumentList : R .clear parts.argumentList := by
  refine c.onward (c.bind (h.expression _) fun _ => ?_)
  exact c.pass (by decide) (c.bind h.arguments fun _ => c.pure _) (c.pure _)

theorem bindingStatement : R .clear parts.bindingStatement := by
  refine c.bind (c.expect (by decide)) fun _ => c.literal fun _ => ?_
  refine c.bind (c.expect (by decide)) fun _ => c.onward (c.bind (h.expression _) fun _ => ?_)
  exact c.bind c.skip fun _ => c.pure _

theorem returnStatement : R .clear parts.returnStatement := by
  refine c.look fun kind => ?_
  split
  · exact c.bind c.skip fun _ => c.pure _
  · exact c.onward (c.bind (h.expression _) fun _ => c.bind c.skip fun _ => c.pure _)

theorem expressionStatement : R .reached parts.expressionStatement :=
  c.traced (by decide) (c.bind (c.closing (h.expression _)) fun _ => c.pure _)

theorem statementHere : R .reached parts.statementHere :=
  c.statement h.statement (c.expressionStatement h) (c.bindingStatement h) (c.returnStatement h)

theorem statementList (extent : Extent) : R .reached (parts.statementList extent) :=
  c.statements extent h.statement (h.statements extent)

omit c in
theorem items {item : Form} (items : Items item) : R .clear (parts.items items) := by
  cases items with
  | parameters => exact h.parameters
  | arguments => exact h.arguments

theorem parse (phrase : Phrase form) : R phrase.stage (parts.parse phrase) := by
  cases phrase with
  | start rule => exact c.start h rule
  | expression floor => exact h.expression floor
  | continuation floor left => exact h.continuation floor left
  | extend left rule => exact c.extend h left rule
  | items list => exact items h list
  | enclosed list => exact c.parenthesized (items h list)
  | block => exact c.block h
  | statements extent => exact h.statements extent
  | statement => exact h.statement
  | statementBy rule =>
    cases rule with
    | any => exact h.statement
    | binding => exact c.bindingStatement h
    | returning => exact c.returnStatement h
    | expression => exact c.expressionStatement h

end

/-- From one bound to the next. A property may weaken with the bound; expressions have to be shown
to have it one bound further on, all other rules have it at the same bound. -/
theorem within {R : Nat → {α : Type} → Stage → Parse α → Prop}
    (c : ∀ bound, ClosedUnderForms (R bound))
    (unfinished : ∀ {α : Type} (stage : Stage), R 0 stage (Parse.unfinished : Parse α))
    (more : ∀ {α : Type} {bound : Nat} {stage : Stage} {step : Parse α}, R bound stage step →
      R (bound + 1) stage step)
    (expression : ∀ {bound : Nat} {parts : Parts}, parts.AllSatisfy (R bound) → ∀ floor,
      R (bound + 1) .reached (parts.expressionAbove floor))
    (bound : Nat) : (Parts.within bound).AllSatisfy (R bound) := by
  induction bound with
  | zero =>
    exact ⟨fun _ => unfinished _, fun _ _ => unfinished _, unfinished _, unfinished _,
      unfinished _, fun _ => unfinished _⟩
  | succ bound h =>
    have c := c bound
    exact ⟨expression h, fun floor left => more (c.continueAbove h floor left),
      more (c.parameterList h), more (c.argumentList h), more (c.statementHere h),
      fun extent => more (c.statementList h extent)⟩

end Parse.ClosedUnderForms

end MonkeySyntax
