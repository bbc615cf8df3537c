import MonkeySyntax.Token.Kind

/-! Tokens: a kind, the text they were read from, and where it stands. Offsets count characters.
They are natural numbers that stand for words of 32 bits: a text is taken to have fewer than 2 ^ 32
characters, and no offset of its tokens or diagnostics is beyond its end. -/
namespace MonkeySyntax

structure Span where
  file : String
  start : Nat
  stop : Nat
  deriving DecidableEq

structure Token where
  kind : Kind
  literal : String
  span : Span
  deriving DecidableEq

namespace Token

def display (token : Token) : String :=
  "Token \x7b\nkind: " ++ token.kind.name ++ ",\nliteral: " ++ token.literal ++ "\x7d"

/-- Only the kinds with more than one spelling show theirs. -/
def line (token : Token) : String :=
  match token.kind with
  | .ident | .int | .illegal => token.kind.name ++ " (" ++ token.literal ++ ")"
  | _ => token.kind.name ++ " ()"

end Token

end MonkeySyntax
