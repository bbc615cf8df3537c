import MonkeySyntax.Parsing.Precedence
import MonkeySyntax.Token.Kind

/-! Grammars as tables of rules. A start rule reads an expression from its first token, a
continuation rule extends a finished expression by what follows it, and a statement rule reads a
statement. A kind that continues expressions has its rule and its precedence in one entry, so
neither stands without the other. -/
namespace MonkeySyntax

inductive StartRule where
  | identifier | integer | boolean | unary | grouped | conditional | function
  deriving DecidableEq

inductive ContinuationRule where
  | binary | call
  deriving DecidableEq

inductive StatementRule where
  /-- Whatever the table says of the current token. -/
  | any
  | binding | returning | expression
  deriving DecidableEq

structure Grammar where
  start : Kind → Option StartRule
  continuation : Kind → Option (Precedence × ContinuationRule)
  statement : Kind → Option StatementRule

namespace Grammar

def standard : Grammar where
  start
    | .ident => some .identifier
    | .int => some .integer
    | .trueWord | .falseWord => some .boolean
    | .bang | .minus => some .unary
    | .lparen => some .grouped
    | .ifWord => some .conditional
    | .function => some .function
    | _ => none
  continuation
    | .eq | .notEq => some (.equals, .binary)
    | .lt | .gt => some (.lessGreater, .binary)
    | .plus | .minus => some (.sum, .binary)
    | .slash | .asterisk => some (.product, .binary)
    | .lparen => some (.call, .call)
    | _ => none
  statement
    | .letWord => some .binding
    | .returnWord => some .returning
    | _ => none

instance : Inhabited Grammar := ⟨standard⟩

def precedence (grammar : Grammar) (kind : Kind) : Precedence :=
  ((grammar.continuation kind).map Prod.fst).getD .lowest

/-- The rule for a kind that binds more tightly than the floor. A semicolon never continues. -/
def tighter? (grammar : Grammar) (floor : Precedence) (kind : Kind) : Option ContinuationRule :=
  match grammar.continuation kind with
  | none => none
  | some (strength, rule) => if kind ≠ .semicolon ∧ floor < strength then some rule else none

def setStart (kind : Kind) (rule : StartRule) (grammar : Grammar) : Grammar :=
  { grammar with start := fun k => if k = kind then some rule else grammar.start k }

def setContinuation (kind : Kind) (precedence : Precedence) (rule : ContinuationRule)
    (grammar : Grammar) : Grammar :=
  { grammar with
    continuation := fun k => if k = kind then some (precedence, rule) else grammar.continuation k }

def setStatement (kind : Kind) (rule : StatementRule) (grammar : Grammar) : Grammar :=
  { grammar with statement := fun k => if k = kind then some rule else grammar.statement k }

end Grammar

end MonkeySyntax
