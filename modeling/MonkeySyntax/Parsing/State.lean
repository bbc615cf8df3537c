import MonkeySyntax.Diagnostic.Basic
import MonkeySyntax.Parsing.Grammar
import MonkeySyntax.Parsing.Trace
import MonkeySyntax.Token.Cursor

/-! The state of a parser: a window of two tokens on the text, the grammar in force, and what has
been recorded so far. Faults never stop a parser; they are recorded where they arise. -/
namespace MonkeySyntax

structure Options where
  trace : Bool := false
  maxDepth : Nat := 256
  deriving DecidableEq

structure Parser where
  cursor : Cursor
  current : Token
  ahead : Token
  grammar : Grammar
  options : Options
  /-- Expressions being read, one inside the other. -/
  depth : Nat
  trace : Trace
  diagnostics : Array Diagnostic
  /-- Statements left out of the sequences read. -/
  dropped : Nat

namespace Parser

def start (options : Options) (cursor : Cursor) : Parser where
  cursor := cursor.next.2.next.2
  current := cursor.next.1
  ahead := cursor.next.2.next.1
  grammar := .standard
  options := options
  depth := 0
  trace := { enabled := options.trace }
  diagnostics := #[]
  dropped := 0

def advance (parser : Parser) : Parser :=
  { parser with
    cursor := parser.cursor.next.2
    current := parser.ahead
    ahead := parser.cursor.next.1 }

def reportAt (token : Token) (fault : Fault) (parser : Parser) : Parser :=
  { parser with
    diagnostics := parser.diagnostics.push ⟨fault, token.span.file, token.span.start⟩ }

/-- Records a fault at the current token. -/
def report (fault : Fault) (parser : Parser) : Parser := parser.reportAt parser.current fault

/-- Advances onto a token of the kind; any other token ahead is a fault and stays where it is. -/
def expect (kind : Kind) (parser : Parser) : Bool × Parser :=
  if parser.ahead.kind = kind then (true, parser.advance)
  else (false, parser.reportAt parser.ahead (.unexpected kind parser.ahead.kind))

def enter (label : String) (parser : Parser) : Parser :=
  { parser with trace := parser.trace.enter label }

def leave (label : String) (parser : Parser) : Parser :=
  { parser with trace := parser.trace.leave label }

def deepen (parser : Parser) : Parser := { parser with depth := parser.depth + 1 }

def surface (parser : Parser) : Parser := { parser with depth := parser.depth - 1 }

def drop (parser : Parser) : Parser := { parser with dropped := parser.dropped + 1 }

def currentPrecedence (parser : Parser) : Precedence :=
  parser.grammar.precedence parser.current.kind

def aheadPrecedence (parser : Parser) : Precedence :=
  parser.grammar.precedence parser.ahead.kind

end Parser

end MonkeySyntax
