import MonkeySyntax.Token.Basic
import MonkeySyntax.Token.Lexeme

/-! A cursor over a named text: the offset reached and the characters that remain. Reading a token
skips the blanks before it; at the end of the text it yields the end token, again and again. Each
other token leaves fewer characters, which bounds the list of all tokens. -/
namespace MonkeySyntax

open Text

structure Cursor where
  file : String
  offset : Nat
  rest : List Char
  deriving DecidableEq

namespace Cursor

def defaultFile : String := "shell"

def ofText (file text : String) : Cursor := ⟨file, 0, text.toList⟩

/-- Moves on by a count of characters; the offset grows past the end too. -/
def forward (count : Nat) (cursor : Cursor) : Cursor :=
  ⟨cursor.file, cursor.offset + count, cursor.rest.drop count⟩

def advance (cursor : Cursor) : Cursor := cursor.forward 1

/-- The character after the next one, NUL if there is none. -/
def peek (cursor : Cursor) : Char := (cursor.rest.drop 1).headD '\x00'

def atEnd (cursor : Cursor) : Bool := cursor.rest.isEmpty

def skipBlanks (cursor : Cursor) : Cursor :=
  cursor.forward (cursor.rest.takeWhile isBlank).length

/-- The token made of a count of characters from here. -/
def token (count : Nat) (cursor : Cursor) : Token :=
  let text := cursor.rest.take count
  ⟨Lexeme.kind text, String.ofList text, cursor.file, cursor.offset, cursor.offset + count⟩

def next (cursor : Cursor) : Token × Cursor :=
  let here := cursor.skipBlanks
  let count := Lexeme.size here.rest
  (here.token count, here.forward count)

/-- At the end of the text the cursor stays where it is. -/
theorem next_of_atEnd {cursor : Cursor} (h : cursor.rest = []) :
    cursor.next = (⟨.eof, "", cursor.file, cursor.offset, cursor.offset⟩, cursor) := by
  obtain ⟨file, offset, rest⟩ := cursor
  subst h
  rfl

/-- At most a number of tokens, and then one more. -/
def tokensWithin : Nat → Cursor → List Token
  | 0, cursor => [cursor.next.1]
  | limit + 1, cursor =>
    if cursor.next.1.kind = .eof then [cursor.next.1]
    else cursor.next.1 :: tokensWithin limit cursor.next.2

/-- All tokens up to and including the end token. -/
def tokens (cursor : Cursor) : List Token := tokensWithin cursor.rest.length cursor

theorem length_rest_next (cursor : Cursor) (h : cursor.next.1.kind ≠ .eof) :
    cursor.next.2.rest.length < cursor.rest.length := by
  simp only [next, token, ne_eq, Lexeme.kind_eq_eof_iff] at h
  simp only [next, forward, List.length_drop]
  have blanks : cursor.skipBlanks.rest.length ≤ cursor.rest.length := by
    simp [skipBlanks, forward]
  cases text : cursor.skipBlanks.rest with
  | nil => simp [text] at h
  | cons first rest =>
    simp only [text, List.length_cons, Lexeme.size] at blanks ⊢
    omega

theorem tokensWithin_eq {limit bound : Nat} {cursor : Cursor} (hl : cursor.rest.length ≤ limit)
    (hb : cursor.rest.length ≤ bound) : tokensWithin limit cursor = tokensWithin bound cursor := by
  induction limit generalizing bound cursor with
  | zero =>
    cases bound with
    | zero => rfl
    | succ bound =>
      have ended : cursor.next.1.kind = .eof :=
        Decidable.byContradiction fun more => by have := cursor.length_rest_next more; omega
      simp [tokensWithin, ended]
  | succ limit ih =>
    cases bound with
    | zero =>
      have ended : cursor.next.1.kind = .eof :=
        Decidable.byContradiction fun more => by have := cursor.length_rest_next more; omega
      simp [tokensWithin, ended]
    | succ bound =>
      simp only [tokensWithin]
      split
      · rfl
      · next more =>
        have := cursor.length_rest_next more
        exact congrArg _ (ih (by omega) (by omega))

theorem tokens_eq (cursor : Cursor) :
    cursor.tokens =
      if cursor.next.1.kind = .eof then [cursor.next.1]
      else cursor.next.1 :: cursor.next.2.tokens := by
  rw [tokens, tokensWithin_eq (Nat.le_refl _) (Nat.le_succ _)]
  simp only [tokensWithin]
  split
  · rfl
  · next more =>
    have := cursor.length_rest_next more
    rw [tokens, tokensWithin_eq (Nat.le_of_lt this) (Nat.le_refl _)]

end Cursor

end MonkeySyntax
