import MonkeySyntax.Tree.Basic

/-! The outline of a tree: one entry for each node, parents before children, with its depth and all
that the node holds apart from its children. -/
namespace MonkeySyntax

inductive Label where
  | identifier (name : String)
  | integer (value : Int) (literal : String)
  | boolean (value : Bool)
  | unary (operator : String)
  | binary (operator : String)
  | conditional (hasAlternative : Bool)
  | function (parameters : List String)
  | call (arguments : Nat)
  | binding (name : String)
  | returning (hasValue : Bool)
  | expression
  | block (statements : Nat)
  deriving DecidableEq

structure Entry where
  depth : Nat
  label : Label
  deriving DecidableEq

mutual

def Expr.outline (depth : Nat) : Expr → List Entry
  | .identifier name => [⟨depth, .identifier name⟩]
  | .integer value literal => [⟨depth, .integer value literal⟩]
  | .boolean value => [⟨depth, .boolean value⟩]
  | .unary operator operand => ⟨depth, .unary operator⟩ :: operand.outline (depth + 1)
  | .binary left operator right =>
    ⟨depth, .binary operator⟩ :: (left.outline (depth + 1) ++ right.outline (depth + 1))
  | .conditional condition consequence none =>
    ⟨depth, .conditional false⟩ :: (condition.outline (depth + 1) ++
      ⟨depth + 1, .block consequence.length⟩ :: outlineAll (depth + 2) consequence)
  | .conditional condition consequence (some alternative) =>
    ⟨depth, .conditional true⟩ :: (condition.outline (depth + 1) ++
      ⟨depth + 1, .block consequence.length⟩ :: outlineAll (depth + 2) consequence ++
      ⟨depth + 1, .block alternative.length⟩ :: outlineAll (depth + 2) alternative)
  | .function parameters body =>
    ⟨depth, .function parameters⟩ ::
      ⟨depth + 1, .block body.length⟩ :: outlineAll (depth + 2) body
  | .call callee arguments =>
    ⟨depth, .call arguments.length⟩ ::
      (callee.outline (depth + 1) ++ outlineEach (depth + 1) arguments)

def Stmt.outline (depth : Nat) : Stmt → List Entry
  | .binding name value => ⟨depth, .binding name⟩ :: value.outline (depth + 1)
  | .returning none => [⟨depth, .returning false⟩]
  | .returning (some value) => ⟨depth, .returning true⟩ :: value.outline (depth + 1)
  | .expression value => ⟨depth, .expression⟩ :: value.outline (depth + 1)
  | .block statements => ⟨depth, .block statements.length⟩ :: outlineAll (depth + 1) statements

def outlineAll (depth : Nat) : List Stmt → List Entry
  | [] => []
  | statement :: rest => statement.outline depth ++ outlineAll depth rest

def outlineEach (depth : Nat) : List Expr → List Entry
  | [] => []
  | expression :: rest => expression.outline depth ++ outlineEach depth rest

end

end MonkeySyntax
