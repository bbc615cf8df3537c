import MonkeySyntax.Parsing.Run
import MonkeySyntax.Tree.Equality

/-! Driving a parser by hand: rules may be run one at a time on whatever token is current, and
the grammar may be changed on the way. -/
namespace MonkeySyntax.Parser

inductive Command where
  | advance
  | expect (kind : Kind)
  | report (fault : Fault)
  | program
  | block
  | expression (floor : Precedence)
  | start (rule : StartRule)
  | extend (left : Expr) (rule : ContinuationRule)
  | statement (rule : StatementRule)
  | setStart (kind : Kind) (rule : StartRule)
  | setContinuation (kind : Kind) (precedence : Precedence) (rule : ContinuationRule)
  | setStatement (kind : Kind) (rule : StatementRule)

inductive Reply where
  | done
  | accepted (met : Bool)
  | program (statements : Program)
  | block (statements : Block)
  | expression (value : Option Expr)
  | statement (value : Option Stmt)
  deriving DecidableEq

/-- The reply and the state after a step that keeps its value, or says that it has none. -/
def answer (reply : Option α → Reply) : Outcome α → Option (Reply × Parser)
  | .built value parser => some (reply (some value), parser)
  | .abandoned parser => some (reply none, parser)
  | .unfinished => none

def regulate (change : Grammar → Grammar) (parser : Parser) : Parser :=
  { parser with grammar := change parser.grammar }

/-- Nothing, if the rules run in a circle. -/
def perform (parser : Parser) : Command → Option (Reply × Parser)
  | .advance => some (.done, parser.advance)
  | .expect kind => some (.accepted (parser.expect kind).1, (parser.expect kind).2)
  | .report fault => some (.done, parser.report fault)
  | .program => answer (.program <| ·.getD []) parser.readProgram
  | .block => answer (.block <| ·.getD []) (parser.run (·.block))
  | .expression floor => answer .expression (parser.run (·.expression floor))
  | .start rule => answer .expression (parser.run (·.start rule))
  | .extend left rule => answer .expression (parser.run (·.extend left rule))
  | .statement rule => answer .statement (parser.run (·.runStatement rule))
  | .setStart kind rule => some (.done, parser.regulate (.setStart kind rule))
  | .setContinuation kind precedence rule =>
    some (.done, parser.regulate (.setContinuation kind precedence rule))
  | .setStatement kind rule => some (.done, parser.regulate (.setStatement kind rule))

end MonkeySyntax.Parser
