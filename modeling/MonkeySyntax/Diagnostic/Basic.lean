import MonkeySyntax.Token.Kind

/-! What can be wrong with a text, where, and in which words it is said. An offset is that of a
token and, like it, stands for a word of 32 bits. -/
namespace MonkeySyntax

inductive Fault where
  /-- The token starts no expression. -/
  | noStart (kind : Kind)
  /-- Another token had to follow. -/
  | unexpected (expected actual : Kind)
  /-- The numeral's value is out of range. -/
  | integerRange (literal : String)
  /-- Expressions are nested more deeply than allowed. -/
  | tooDeep (limit : Nat)
  deriving DecidableEq

namespace Fault

def name : Fault → String
  | noStart _ => "NoPrefixParseFn"
  | unexpected _ _ => "UnexpectedPeek"
  | integerRange _ => "IntegerParseError"
  | tooDeep _ => "NestingTooDeep"

def message : Fault → String
  | noStart kind => "no prefix parse function for " ++ kind.name
  | unexpected expected actual =>
    "expected next token to be " ++ expected.name ++ ", got " ++ actual.name ++ " instead"
  | integerRange literal => "could not parse " ++ literal ++ " as integer"
  | tooDeep limit => "expression nesting exceeds maximum depth of " ++ toString limit

def tip? : Fault → Option String
  | noStart .illegal => some "Unrecognised character in the source"
  | noStart kind => some ("An expression cannot start with " ++ kind.name)
  | unexpected expected actual => some ("Expected " ++ expected.name ++ ", found " ++ actual.name)
  | integerRange literal =>
    some ("Invalid integer: \x60" ++ literal ++ "\x60, is it above the integer limit?")
  | tooDeep _ => none

end Fault

structure Diagnostic where
  fault : Fault
  file : String
  offset : Nat
  deriving DecidableEq

end MonkeySyntax
