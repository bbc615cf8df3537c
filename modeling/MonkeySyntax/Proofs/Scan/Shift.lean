import MonkeySyntax.Token.Cursor

/-! Offsets are counted from where a text begins, and nothing else depends on them. -/
namespace MonkeySyntax

section Shift

variable (count : Nat)

def Span.shift (span : Span) : Span :=
  { span with start := span.start + count, stop := span.stop + count }

def Token.shift (token : Token) : Token := { token with span := token.span.shift count }

@[simp] theorem Token.kind_shift (token : Token) : (token.shift count).kind = token.kind := rfl

namespace Cursor

def shift (cursor : Cursor) : Cursor := { cursor with offset := cursor.offset + count }

theorem skipBlanks_shift (cursor : Cursor) :
    (cursor.shift count).skipBlanks = cursor.skipBlanks.shift count := by
  simp [shift, skipBlanks, forward, Nat.add_right_comm]

/-- What is read does not depend on the offset. -/
theorem next_shift (cursor : Cursor) :
    (cursor.shift count).next = (cursor.next.1.shift count, cursor.next.2.shift count) := by
  simp only [next, skipBlanks_shift]
  simp [shift, forward, token, Token.shift, Span.shift, Nat.add_right_comm]

theorem tokensWithin_shift (limit : Nat) (cursor : Cursor) :
    tokensWithin limit (cursor.shift count) = (tokensWithin limit cursor).map (·.shift count) := by
  induction limit generalizing cursor with
  | zero => simp [tokensWithin, next_shift]
  | succ limit ih =>
    simp only [tokensWithin, next_shift, Token.kind_shift, ih]
    split
    · rfl
    · rfl

theorem tokens_shift (cursor : Cursor) :
    (cursor.shift count).tokens = cursor.tokens.map (·.shift count) :=
  tokensWithin_shift count cursor.rest.length cursor

end Cursor

end Shift

end MonkeySyntax
