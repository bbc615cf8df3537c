import MonkeySyntax.Parsing.Rules
import MonkeySyntax.Text.Decimal

/-! A source printer. It brackets every operator application and writes everything else as it is
usually written; unlike the tree itself, a printed tree is a text of the language only when its
names, numbers and operators are. -/
namespace MonkeySyntax

open Text

def reserved : List String := ["fn", "let", "true", "false", "if", "else", "return"]

def prefixOperators : List String := ["!", "-"]

def binaryOperators : List String := ["+", "-", "*", "/", "<", ">", "==", "!="]

def IsName (text : String) : Prop :=
  text ≠ "" ∧ (∀ c ∈ text.toList, isLetter c) ∧ text ∉ reserved

def IsNumber (value : Int) (literal : String) : Prop :=
  isNumeral literal.toList ∧ value = decimalValue literal.toList ∧
    decimalValue literal.toList < integerBound

instance (text : String) : Decidable (IsName text) :=
  inferInstanceAs (Decidable (_ ∧ _ ∧ _))

instance (value : Int) (literal : String) : Decidable (IsNumber value literal) :=
  inferInstanceAs (Decidable (_ ∧ _ ∧ _))

mutual

def Expr.WellFormed : Expr → Prop
  | .identifier name => IsName name
  | .integer value literal => IsNumber value literal
  | .boolean _ => True
  | .unary operator operand => operator ∈ prefixOperators ∧ operand.WellFormed
  | .binary left operator right =>
    left.WellFormed ∧ operator ∈ binaryOperators ∧ right.WellFormed
  | .conditional condition consequence none => condition.WellFormed ∧ wellFormedBlock consequence
  | .conditional condition consequence (some alternative) =>
    condition.WellFormed ∧ wellFormedBlock consequence ∧ wellFormedBlock alternative
  | .function parameters body => (∀ name ∈ parameters, IsName name) ∧ wellFormedBlock body
  | .call callee arguments => callee.WellFormed ∧ wellFormedArguments arguments
termination_by structural expr => expr

def Stmt.WellFormed : Stmt → Prop
  | .binding name value => IsName name ∧ value.WellFormed
  | .returning none => True
  | .returning (some value) => value.WellFormed
  | .expression value => value.WellFormed
  | .block _ => False
termination_by structural stmt => stmt

def wellFormedBlock : List Stmt → Prop
  | [] => True
  | stmt :: rest => stmt.WellFormed ∧ wellFormedBlock rest
termination_by structural list => list

def wellFormedArguments : List Expr → Prop
  | [] => True
  | expr :: rest => expr.WellFormed ∧ wellFormedArguments rest
termination_by structural list => list

end

def blockSource (statements : List String) : String :=
  "\x7b " ++ " ".intercalate statements ++ " \x7d"

mutual

@[simp] def Expr.source : Expr → String
  | .identifier name => name
  | .integer _ literal => literal
  | .boolean value => if value then "true" else "false"
  | .unary operator operand => "(" ++ operator ++ operand.source ++ ")"
  | .binary left operator right =>
    "(" ++ left.source ++ (" " ++ operator ++ " ") ++ right.source ++ ")"
  | .conditional condition consequence none =>
    "if (" ++ condition.source ++ ") " ++ blockSource (sourceLines consequence)
  | .conditional condition consequence (some alternative) =>
    "if (" ++ condition.source ++ ") " ++ blockSource (sourceLines consequence) ++ " else " ++
      blockSource (sourceLines alternative)
  | .function parameters body =>
    "fn(" ++ ", ".intercalate parameters ++ ") " ++ blockSource (sourceLines body)
  | .call callee arguments =>
    callee.source ++ "(" ++ ", ".intercalate (sourceItems arguments) ++ ")"
termination_by structural expr => expr

@[simp] def Stmt.source : Stmt → String
  | .binding name value => "let " ++ name ++ " = " ++ value.source ++ ";"
  | .returning none => "return;"
  | .returning (some value) => "return " ++ value.source ++ ";"
  | .expression value => value.source ++ ";"
  | .block statements => blockSource (sourceLines statements)
termination_by structural stmt => stmt

@[simp] def sourceLines : List Stmt → List String
  | [] => []
  | stmt :: rest => stmt.source :: sourceLines rest
termination_by structural list => list

@[simp] def sourceItems : List Expr → List String
  | [] => []
  | expr :: rest => expr.source :: sourceItems rest
termination_by structural list => list

end

def Program.source (program : Program) : String := " ".intercalate (sourceLines program)

mutual

/-- Expressions one inside the other, blocks between them included. -/
@[simp] def Expr.height : Expr → Nat
  | .identifier _ | .integer _ _ | .boolean _ => 0
  | .unary _ operand => operand.height + 1
  | .binary left _ right => max left.height right.height + 1
  | .conditional condition consequence none => max condition.height (heightBlock consequence) + 1
  | .conditional condition consequence (some alternative) =>
    max condition.height (max (heightBlock consequence) (heightBlock alternative)) + 1
  | .function _ body => heightBlock body + 1
  | .call callee arguments => max callee.height (heightArguments arguments) + 1
termination_by structural expr => expr

@[simp] def Stmt.height : Stmt → Nat
  | .binding _ value => value.height
  | .returning none => 0
  | .returning (some value) => value.height
  | .expression value => value.height
  | .block statements => heightBlock statements
termination_by structural stmt => stmt

@[simp] def heightBlock : List Stmt → Nat
  | [] => 0
  | stmt :: rest => max stmt.height (heightBlock rest)
termination_by structural list => list

@[simp] def heightArguments : List Expr → Nat
  | [] => 0
  | expr :: rest => max expr.height (heightArguments rest)
termination_by structural list => list

end

end MonkeySyntax
