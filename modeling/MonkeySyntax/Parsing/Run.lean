import MonkeySyntax.Parsing.Rules

/-! Running the rules on one another. The recursion is bounded by a number of steps computed from
the characters that remain and the depth allowed; a grammar whose rules read no token in a cycle
can use up any bound, and then the run is unfinished. -/
namespace MonkeySyntax

/-- The rules as parts of one another, to a bounded depth of recursion. -/
def Parts.within : Nat → Parts
  | 0 =>
    { expression := fun _ => Parse.unfinished
      continuation := fun _ _ => Parse.unfinished
      parameters := Parse.unfinished
      arguments := Parse.unfinished
      statement := Parse.unfinished
      statements := fun _ => Parse.unfinished }
  | bound + 1 =>
    { expression := fun floor parser => (within bound).expressionAbove floor parser
      continuation := fun floor left parser => (within bound).continueAbove floor left parser
      parameters := fun parser => (within bound).parameterList parser
      arguments := fun parser => (within bound).argumentList parser
      statement := fun parser => (within bound).statementHere parser
      statements := fun extent parser => (within bound).statementList extent parser }

namespace Parser

def bound (parser : Parser) : Nat :=
  4 * (parser.cursor.rest.length + parser.options.maxDepth) + 16

/-- Runs a step on the rules. -/
def run (step : Parts → Parse α) (parser : Parser) : Outcome α :=
  step (Parts.within parser.bound) parser

def readProgram : Parser → Outcome Program := run (·.statements .program)

end Parser

/-- What reading a text leaves behind. -/
structure Parsed where
  program : Program
  diagnostics : List Diagnostic
  trace : List String

def Parser.parsed (program : Program) (parser : Parser) : Parsed :=
  ⟨program, parser.diagnostics.toList, parser.trace.log.toList⟩

/-- Reads a whole text by the standard grammar. -/
def readText (options : Options) (file text : String) : Parsed :=
  let parser := Parser.start options (.ofText file text)
  match parser.readProgram with
  | .built program after => after.parsed program
  | .abandoned after => after.parsed []
  | .unfinished => parser.parsed []

end MonkeySyntax
