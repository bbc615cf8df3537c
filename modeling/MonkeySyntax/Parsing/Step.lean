import MonkeySyntax.Parsing.State

/-! Steps of a parser. A step builds a value, or abandons what it was building; in both cases the
parser goes on from the state reached. A step may also be left unfinished when the bound on its
recursion is used up; then it says nothing at all. -/
namespace MonkeySyntax

inductive Outcome (α : Type) where
  | built (value : α) (parser : Parser)
  | abandoned (parser : Parser)
  | unfinished

namespace Outcome

/-- Changes the state reached, whatever became of the value. -/
def after (change : Parser → Parser) : Outcome α → Outcome α
  | built value parser => built value (change parser)
  | abandoned parser => abandoned (change parser)
  | unfinished => unfinished

@[simp] theorem after_built (change : Parser → Parser) (value : α) (parser : Parser) :
    (built value parser).after change = built value (change parser) := rfl

@[simp] theorem after_abandoned (change : Parser → Parser) (parser : Parser) :
    (abandoned parser : Outcome α).after change = abandoned (change parser) := rfl

end Outcome

def Parse (α : Type) : Type := Parser → Outcome α

namespace Parse

instance : Monad Parse where
  pure value := fun parser => .built value parser
  bind step next := fun parser =>
    match step parser with
    | .built value after => next value after
    | .abandoned after => .abandoned after
    | .unfinished => .unfinished

@[simp] theorem pure_apply (value : α) (parser : Parser) :
    (pure value : Parse α) parser = .built value parser := rfl

theorem bind_apply (step : Parse α) (next : α → Parse β) (parser : Parser) :
    (step >>= next) parser =
      match step parser with
      | .built value after => next value after
      | .abandoned after => .abandoned after
      | .unfinished => .unfinished := rfl

theorem bind_of_built {step : Parse α} {parser after : Parser} {value : α}
    (h : step parser = .built value after) (next : α → Parse β) :
    (step >>= next) parser = next value after := by
  simp only [bind_apply, h]

theorem bind_of_abandoned {step : Parse α} {parser after : Parser}
    (h : step parser = .abandoned after) (next : α → Parse β) :
    (step >>= next) parser = .abandoned after := by
  simp only [bind_apply, h]

instance : LawfulMonad Parse :=
  .mk' _ (fun step => funext fun parser => by
      change (step >>= pure) parser = _
      rw [bind_apply]
      cases step parser <;> rfl)
    (fun _ _ => rfl)
    (fun step next last => funext fun parser => by
      simp only [bind_apply]
      cases step parser <;> rfl)

def unfinished : Parse α := fun _ => .unfinished

def abandon : Parse α := fun parser => .abandoned parser

def read (view : Parser → α) : Parse α := fun parser => .built (view parser) parser

def update (change : Parser → Parser) : Parse Unit := fun parser => .built () (change parser)

def advance : Parse Unit := update Parser.advance

def currentKind : Parse Kind := read (·.current.kind)

def currentLiteral : Parse String := read (·.current.literal)

def aheadKind : Parse Kind := read (·.ahead.kind)

/-- Records a fault at the current token and gives up. -/
def fail (fault : Fault) : Parse α := do
  update (·.report fault)
  abandon

def expect (kind : Kind) : Parse Unit := fun parser =>
  match parser.expect kind with
  | (true, after) => .built () after
  | (false, after) => .abandoned after

theorem expect_of_eq {kind : Kind} {parser : Parser} (h : parser.ahead.kind = kind) :
    expect kind parser = .built () parser.advance := by
  simp [expect, Parser.expect, h]

theorem expect_of_ne {kind : Kind} {parser : Parser} (h : parser.ahead.kind ≠ kind) :
    expect kind parser =
      .abandoned (parser.reportAt parser.ahead (.unexpected kind parser.ahead.kind)) := by
  simp [expect, Parser.expect, h]

/-- Passes a token of the kind if one is ahead. -/
def skip (kind : Kind) : Parse Unit := do
  if (← aheadKind) = kind then advance

/-- The value built, if one was. -/
def attempt (step : Parse α) : Parse (Option α) := fun parser =>
  match step parser with
  | .built value after => .built (some value) after
  | .abandoned after => .built none after
  | .unfinished => .unfinished

/-- A step and then another, which runs whatever became of the first. -/
def ensuring (last : Parse Unit) (step : Parse α) : Parse α := do
  let value? ← attempt step
  last
  match value? with
  | some value => return value
  | none => abandon

/-- Brackets a step in the trace. -/
def traced (label : String) (step : Parse α) : Parse α := fun parser =>
  (step (parser.enter label)).after (·.leave label)

/-- Runs a step one level deeper, unless that is deeper than allowed. -/
def nested (step : Parse α) : Parse α := fun parser =>
  let limit := parser.options.maxDepth
  (if limit < parser.depth + 1 then fail (.tooDeep limit) parser.deepen
    else step parser.deepen).after Parser.surface

theorem nested_of_lt {step : Parse α} {parser : Parser}
    (h : parser.depth < parser.options.maxDepth) :
    nested step parser = (step parser.deepen).after Parser.surface := by
  simp only [nested, if_neg (Nat.not_lt.2 (Nat.succ_le_of_lt h))]

end Parse

end MonkeySyntax
