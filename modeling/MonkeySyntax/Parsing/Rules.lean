import MonkeySyntax.Parsing.Step
import MonkeySyntax.Text.Decimal
import MonkeySyntax.Tree.Basic

/-! What each rule reads, given how its parts are read. A rule starts with the current token on its
first token and leaves it on its last. The parts are arbitrary, so nothing here recurses. -/
namespace MonkeySyntax

/-- The end of a sequence of statements. -/
inductive Extent where
  | program | block
  deriving DecidableEq

def Extent.endsAt : Extent → Kind → Bool
  | _, .eof => true
  | .block, .rbrace => true
  | _, _ => false

structure Parts where
  /-- An expression whose operators all bind more tightly than the floor. -/
  expression (floor : Precedence) : Parse Expr
  /-- The rest of an expression whose beginning has been read. -/
  continuation (floor : Precedence) (left : Expr) : Parse Expr
  /-- One name or more, separated by commas, ahead of the current token. -/
  parameters : Parse (List String)
  /-- One expression or more, separated by commas, ahead of the current token. -/
  arguments : Parse (List Expr)
  statement : Parse Stmt
  statements (extent : Extent) : Parse (List Stmt)

/-- One more than the greatest value of an integer. -/
def integerBound : Nat := 9223372036854775808

namespace Parts

open Parse

variable (parts : Parts)

/-- The statements between braces; the current token is passed unseen. -/
def block : Parse Block := do
  advance
  parts.statements .block

def identifier : Parse Expr := return .identifier (← currentLiteral)

def integer : Parse Expr := traced "parse_integer_literal" do
  let literal ← currentLiteral
  match Text.numeralBelow? integerBound literal.toList with
  | some value => return .integer value literal
  | none => fail (.integerRange literal)

def boolean : Parse Expr := return .boolean ((← currentKind) = .trueWord)

def unary : Parse Expr := traced "parse_prefix_expression" do
  let operator ← currentLiteral
  advance
  return .unary operator (← parts.expression .unary)

def grouped : Parse Expr := do
  advance
  let inner ← parts.expression .lowest
  expect .rparen
  return inner

def conditional : Parse Expr := do
  expect .lparen
  advance
  let condition ← parts.expression .lowest
  expect .rparen
  expect .lbrace
  let consequence ← parts.block
  if (← aheadKind) = .elseWord then
    advance
    expect .lbrace
    return .conditional condition consequence (some (← parts.block))
  else
    return .conditional condition consequence none

/-- What stands between parentheses, with the current token on the opening one. -/
def parenthesized (items : Parse (List α)) : Parse (List α) := do
  if (← aheadKind) = .rparen then
    advance
    return []
  else
    let list ← items
    expect .rparen
    return list

def function : Parse Expr := do
  expect .lparen
  let parameters ← parenthesized parts.parameters
  expect .lbrace
  return .function parameters (← parts.block)

def start : StartRule → Parse Expr
  | .identifier => identifier
  | .integer => integer
  | .boolean => boolean
  | .unary => parts.unary
  | .grouped => parts.grouped
  | .conditional => parts.conditional
  | .function => parts.function

def binary (left : Expr) : Parse Expr := traced "parse_infix_expression" do
  let operator ← currentLiteral
  let strength ← read Parser.currentPrecedence
  advance
  return .binary left operator (← parts.expression strength)

def call (callee : Expr) : Parse Expr :=
  return .call callee (← parenthesized parts.arguments)

def extend (left : Expr) : ContinuationRule → Parse Expr
  | .binary => parts.binary left
  | .call => parts.call left

/-- The expression that the current token starts, if it starts one. -/
def startHere : Parse Expr := do
  match ← read fun parser => parser.grammar.start parser.current.kind with
  | some rule => parts.start rule
  | none => fail (.noStart (← currentKind))

def expressionAbove (floor : Precedence) : Parse Expr :=
  traced "parse_expression" <| nested do
    parts.continuation floor (← parts.startHere)

def continueAbove (floor : Precedence) (left : Expr) : Parse Expr := do
  match ← read fun parser => parser.grammar.tighter? floor parser.ahead.kind with
  | none => return left
  | some rule =>
    advance
    parts.continuation floor (← parts.extend left rule)

def parameterList : Parse (List String) := do
  expect .ident
  let name ← currentLiteral
  if (← aheadKind) = .comma then
    advance
    return name :: (← parts.parameters)
  else
    return [name]

def argumentList : Parse (List Expr) := do
  advance
  let argument ← parts.expression .lowest
  if (← aheadKind) = .comma then
    advance
    return argument :: (← parts.arguments)
  else
    return [argument]

def bindingStatement : Parse Stmt := do
  expect .ident
  let name ← currentLiteral
  expect .assign
  advance
  let value ← parts.expression .lowest
  skip .semicolon
  return .binding name value

/-- The tokens that may follow a return without a value. -/
def endsReturn : Kind → Bool
  | .semicolon | .rbrace | .eof => true
  | _ => false

def returnStatement : Parse Stmt := do
  if endsReturn (← aheadKind) then
    skip .semicolon
    return .returning none
  else
    advance
    let value ← parts.expression .lowest
    skip .semicolon
    return .returning (some value)

/-- The semicolon is passed even when the expression was given up. -/
def expressionStatement : Parse Stmt := traced "parse_expression_statement" do
  return .expression (← ensuring (skip .semicolon) (parts.expression .lowest))

def runStatement : StatementRule → Parse Stmt
  | .any => parts.statement
  | .binding => parts.bindingStatement
  | .returning => parts.returnStatement
  | .expression => parts.expressionStatement

/-- The statement that the table gives for the current token, by default an expression. -/
def statementHere : Parse Stmt := do
  match ← read fun parser => parser.grammar.statement parser.current.kind with
  | some rule => parts.runStatement rule
  | none => parts.expressionStatement

/-- A statement given up is left out; one token is passed after each, so the sequence goes on. -/
def statementList (extent : Extent) : Parse (List Stmt) := do
  if extent.endsAt (← currentKind) then
    return []
  else
    match ← attempt parts.statement with
    | some statement =>
      advance
      return statement :: (← parts.statements extent)
    | none =>
      update Parser.drop
      advance
      parts.statements extent

end Parts

end MonkeySyntax
