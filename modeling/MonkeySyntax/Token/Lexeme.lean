import MonkeySyntax.Text.Classes
import MonkeySyntax.Token.Kind

/-! Lexemes: how far the token at the head of a text reaches, and the kind its characters spell.
The empty lexeme is the end of the input. A lexeme is the longest one at its place: no lexeme can
be followed by a character that extends it. -/
namespace MonkeySyntax.Lexeme

open Text

/-- How many characters of `rest` belong to the token that `first` begins. -/
def tail (first : Char) (rest : List Char) : Nat :=
  if isLetter first then (rest.takeWhile isLetter).length
  else if isDigit first then (rest.takeWhile isDigit).length
  else if first == '=' || first == '!' then if rest.head? == some '=' then 1 else 0
  else 0

def size : List Char → Nat
  | [] => 0
  | first :: rest => tail first rest + 1

def symbol : List Char → Kind
  | ['='] => .assign
  | ['=', '='] => .eq
  | ['!'] => .bang
  | ['!', '='] => .notEq
  | [';'] => .semicolon
  | ['('] => .lparen
  | [')'] => .rparen
  | ['\x7b'] => .lbrace
  | ['\x7d'] => .rbrace
  | [','] => .comma
  | ['+'] => .plus
  | ['-'] => .minus
  | ['/'] => .slash
  | ['*'] => .asterisk
  | ['<'] => .lt
  | ['>'] => .gt
  | _ => .illegal

def kind : List Char → Kind
  | [] => .eof
  | first :: rest =>
    if isLetter first then .ofWord (String.ofList (first :: rest))
    else if isDigit first then .int
    else symbol (first :: rest)

theorem size_le (text : List Char) : size text ≤ text.length := by
  cases text with
  | nil => simp [size]
  | cons first rest =>
    have letters := (List.takeWhile_sublist isLetter (l := rest)).length_le
    have digits := (List.takeWhile_sublist isDigit (l := rest)).length_le
    simp only [size, tail, List.length_cons, Nat.add_le_add_iff_right]
    split
    · exact letters
    · split
      · exact digits
      · split
        · cases rest with
          | nil => simp
          | cons c rest => split <;> simp
        · exact Nat.zero_le _

theorem ofWord_ne_eof (word : String) : Kind.ofWord word ≠ .eof := by
  unfold Kind.ofWord
  repeat' split
  all_goals decide

theorem symbol_ne_eof (text : List Char) : symbol text ≠ .eof := by
  unfold symbol
  split <;> decide

/-- Only the end of the input has an empty lexeme. -/
theorem kind_eq_eof_iff (text : List Char) : kind text = .eof ↔ text = [] := by
  cases text with
  | nil => simp [kind]
  | cons first rest =>
    simp only [kind, reduceCtorEq, iff_false]
    split
    · exact ofWord_ne_eof _
    · split
      · decide
      · exact symbol_ne_eof _

end MonkeySyntax.Lexeme
