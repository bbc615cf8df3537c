import MonkeySyntax.Tree.Basic

/-! Canonical text of a tree: every operation stands in parentheses, statements follow one another
without separators, and a block is written without its braces. -/
namespace MonkeySyntax

mutual

def Expr.render : Expr → String
  | .identifier name => name
  | .integer _ literal => literal
  | .boolean value => if value then "true" else "false"
  | .unary operator operand => "(" ++ operator ++ operand.render ++ ")"
  | .binary left operator right =>
    "(" ++ left.render ++ " " ++ operator ++ " " ++ right.render ++ ")"
  | .conditional condition consequence none =>
    "if " ++ condition.render ++ " " ++ renderAll consequence
  | .conditional condition consequence (some alternative) =>
    "if " ++ condition.render ++ " " ++ renderAll consequence ++ " else " ++ renderAll alternative
  | .function parameters body =>
    "fn(" ++ String.intercalate ", " parameters ++ ") " ++ renderAll body
  | .call callee arguments =>
    callee.render ++ "(" ++ String.intercalate ", " (renderEach arguments) ++ ")"

def Stmt.render : Stmt → String
  | .binding name value => "let " ++ name ++ " = " ++ value.render ++ ";"
  | .returning none => "return;"
  | .returning (some value) => "return " ++ value.render ++ ";"
  | .expression value => value.render
  | .block statements => renderAll statements

def renderAll : List Stmt → String
  | [] => ""
  | statement :: rest => statement.render ++ renderAll rest

def renderEach : List Expr → List String
  | [] => []
  | expression :: rest => expression.render :: renderEach rest

end
end MonkeySyntax
