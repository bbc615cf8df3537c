/-! Kinds of tokens and the names they are reported under. -/
namespace MonkeySyntax

inductive Kind where
  | illegal | eof | ident | int
  | assign | plus | minus | bang | asterisk | slash
  | lt | gt | eq | notEq
  | comma | semicolon | lparen | rparen | lbrace | rbrace
  | function | letWord | trueWord | falseWord | ifWord | elseWord | returnWord
  deriving DecidableEq

namespace Kind

instance : Inhabited Kind := ⟨illegal⟩

def name : Kind → String
  | illegal => "ILLEGAL"
  | eof => "EOF"
  | ident => "IDENT"
  | int => "INT"
  | assign => "ASSIGN"
  | plus => "PLUS"
  | minus => "MINUS"
  | bang => "BANG"
  | asterisk => "ASTERISK"
  | slash => "SLASH"
  | lt => "LT"
  | gt => "GT"
  | eq => "EQ"
  | notEq => "NOT_EQ"
  | comma => "COMMA"
  | semicolon => "SEMICOLON"
  | lparen => "LPAREN"
  | rparen => "RPAREN"
  | lbrace => "LBRACE"
  | rbrace => "RBRACE"
  | function => "FUNCTION"
  | letWord => "LET"
  | trueWord => "TRUE"
  | falseWord => "FALSE"
  | ifWord => "IF"
  | elseWord => "ELSE"
  | returnWord => "RETURN"

def all : List Kind :=
  [illegal, eof, ident, int, assign, plus, minus, bang, asterisk, slash, lt, gt, eq, notEq, comma,
    semicolon, lparen, rparen, lbrace, rbrace, function, letWord, trueWord, falseWord, ifWord,
    elseWord, returnWord]

def ofName? (text : String) : Option Kind := all.find? (·.name == text)

theorem ofName?_name (kind : Kind) : ofName? kind.name = some kind := by cases kind <;> decide

/-- The seven reserved words; any other word is an identifier. -/
def ofWord (word : String) : Kind :=
  if word = "fn" then function
  else if word = "let" then letWord
  else if word = "true" then trueWord
  else if word = "false" then falseWord
  else if word = "if" then ifWord
  else if word = "else" then elseWord
  else if word = "return" then returnWord
  else ident

end Kind

end MonkeySyntax
