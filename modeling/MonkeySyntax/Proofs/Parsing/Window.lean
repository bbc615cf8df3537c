import MonkeySyntax.Parsing.State

/-! The tokens that a parser has still to read, seen through its window of two. The end token is
listed once, although a parser may advance over it for ever. Reading depends on kinds and literals
alone, so these are the terminals of every statement about what is read. -/
namespace MonkeySyntax

structure Terminal where
  kind : Kind
  literal : String
  deriving DecidableEq

def Token.terminal (token : Token) : Terminal := ⟨token.kind, token.literal⟩

@[simp] theorem Token.kind_terminal (token : Token) : token.terminal.kind = token.kind := rfl

@[simp] theorem Token.literal_terminal (token : Token) :
    token.terminal.literal = token.literal := rfl

/-- The kind of the first terminal; behind the last one there is only the end of the input. -/
def headKind : List Terminal → Kind
  | [] => .eof
  | first :: _ => first.kind

@[simp] theorem headKind_cons (first : Terminal) (rest : List Terminal) :
    headKind (first :: rest) = first.kind := rfl

namespace Cursor

def terminals (cursor : Cursor) : List Terminal := cursor.tokens.map Token.terminal

/-- The end token is read where only blanks remain. -/
theorem kind_next_eq_eof_iff (cursor : Cursor) :
    cursor.next.1.kind = .eof ↔ cursor.skipBlanks.rest = [] := by
  simp only [next, token, Lexeme.kind_eq_eof_iff]
  cases cursor.skipBlanks.rest <;> simp [Lexeme.size]

theorem next_next_of_eof {cursor : Cursor} (ended : cursor.next.1.kind = .eof) :
    cursor.next.2.next = cursor.next := by
  have empty := cursor.kind_next_eq_eof_iff.mp ended
  have stays : cursor.next.2 = cursor.skipBlanks := by
    generalize read : cursor.skipBlanks = here at empty
    obtain ⟨file, offset, rest⟩ := here
    subst empty
    simp [next, read, forward, Lexeme.size]
  have again := next_of_atEnd empty
  rw [stays, again]
  simp [next, token, empty, Lexeme.size, Lexeme.kind] at stays ⊢
  exact stays.symm

theorem length_tokensWithin_le (limit : Nat) (cursor : Cursor) :
    (tokensWithin limit cursor).length ≤ limit + 1 := by
  induction limit generalizing cursor with
  | zero => exact Nat.le_refl 1
  | succ limit ih =>
    rw [tokensWithin]
    split
    · exact Nat.succ_le_succ (Nat.zero_le _)
    · exact Nat.succ_le_succ (ih _)

theorem length_tokens_le (cursor : Cursor) : cursor.tokens.length ≤ cursor.rest.length + 1 :=
  length_tokensWithin_le _ cursor

end Cursor

/-- The two tokens that a parser sees and the cursor behind them. -/
structure Window where
  current : Token
  ahead : Token
  cursor : Cursor

def Window.advance (window : Window) : Window :=
  ⟨window.ahead, window.cursor.next.1, window.cursor.next.2⟩

/-- The window that opens on the text at the cursor. -/
def Cursor.window (cursor : Cursor) : Window :=
  ⟨cursor.next.1, cursor.next.2.next.1, cursor.next.2.next.2⟩

theorem Cursor.advance_window (cursor : Cursor) : cursor.window.advance = cursor.next.2.window :=
  rfl

def Parser.window (parser : Parser) : Window := ⟨parser.current, parser.ahead, parser.cursor⟩

namespace Parser

theorem window_advance (parser : Parser) : parser.advance.window = parser.window.advance := rfl

/-- The tokens behind the current one. -/
def following (parser : Parser) : List Token :=
  if parser.ahead.kind = .eof then [parser.ahead] else parser.ahead :: parser.cursor.tokens

/-- The tokens from the current one on. -/
def remaining (parser : Parser) : List Token :=
  if parser.current.kind = .eof then [parser.current] else parser.current :: parser.following

def followingTerminals (parser : Parser) : List Terminal := parser.following.map Token.terminal

def remainingTerminals (parser : Parser) : List Terminal := parser.remaining.map Token.terminal

/-- A window that has reached the end of the input stays there. -/
structure Settled (parser : Parser) : Prop where
  current : parser.current.kind = .eof → parser.ahead = parser.current
  ahead : parser.ahead.kind = .eof → parser.cursor.next = (parser.ahead, parser.cursor)

theorem settled_start (options : Options) (cursor : Cursor) : (start options cursor).Settled where
  current ended := congrArg Prod.fst (Cursor.next_next_of_eof ended)
  ahead ended := by
    have again := Cursor.next_next_of_eof ended
    have stays : cursor.next.2.next.2.next.2 = cursor.next.2.next.2 := congrArg Prod.snd again
    exact Prod.ext (congrArg Prod.fst again) stays

/-- Whether a window is settled depends on nothing but the window. -/
theorem Settled.frame {parser other : Parser} (settled : parser.Settled)
    (same : other.window = parser.window) : other.Settled := by
  have current : other.current = parser.current := congrArg Window.current same
  have ahead : other.ahead = parser.ahead := congrArg Window.ahead same
  have cursor : other.cursor = parser.cursor := congrArg Window.cursor same
  constructor
  · rw [current, ahead]
    exact settled.current
  · rw [ahead, cursor]
    exact settled.ahead

theorem Settled.advance {parser : Parser} (settled : parser.Settled) : parser.advance.Settled where
  current ended := congrArg Prod.fst (settled.ahead ended)
  ahead ended := by
    have again := Cursor.next_next_of_eof ended
    exact Prod.ext (congrArg Prod.fst again) (congrArg Prod.snd again)

theorem following_eq_cons (parser : Parser) :
    ∃ rest, parser.following = parser.ahead :: rest := by
  rw [following]
  split
  · exact ⟨[], rfl⟩
  · exact ⟨_, rfl⟩

theorem remaining_eq_cons (parser : Parser) :
    ∃ rest, parser.remaining = parser.current :: rest := by
  rw [remaining]
  split
  · exact ⟨[], rfl⟩
  · exact ⟨_, rfl⟩

theorem following_ne_nil (parser : Parser) : parser.following ≠ [] := by
  obtain ⟨rest, here⟩ := parser.following_eq_cons
  rw [here]
  exact List.cons_ne_nil _ _

theorem remaining_ne_nil (parser : Parser) : parser.remaining ≠ [] := by
  obtain ⟨rest, here⟩ := parser.remaining_eq_cons
  rw [here]
  exact List.cons_ne_nil _ _

theorem following_advance {parser : Parser} :
    parser.advance.following = parser.cursor.tokens := (Cursor.tokens_eq _).symm

theorem following_of_ne {parser : Parser} (more : parser.ahead.kind ≠ .eof) :
    parser.following = parser.ahead :: parser.advance.following := by
  rw [following_advance]
  exact if_neg more

theorem remaining_advance (parser : Parser) : parser.advance.remaining = parser.following := by
  rw [remaining, following_advance]
  rfl

theorem remaining_start (options : Options) (cursor : Cursor) :
    (start options cursor).remaining = cursor.tokens := by
  have following : (start options cursor).following = cursor.next.2.tokens :=
    (Cursor.tokens_eq _).symm
  rw [remaining, following, Cursor.tokens_eq cursor]
  rfl

theorem following_of_current {parser : Parser} (settled : parser.Settled)
    (ended : parser.current.kind = .eof) : parser.following = [parser.current] := by
  have same := settled.current ended
  simp [following, same, ended]

theorem following_suffix {parser : Parser} (settled : parser.Settled) :
    parser.following <:+ parser.remaining := by
  by_cases ended : parser.current.kind = .eof
  · have same : parser.following = parser.remaining := by
      rw [following_of_current settled ended, remaining, if_pos ended]
    exact same.symm ▸ List.suffix_refl _
  · rw [remaining, if_neg ended]
    exact List.suffix_cons _ _

theorem current_mem (parser : Parser) : parser.current ∈ parser.remaining := by
  obtain ⟨rest, here⟩ := parser.remaining_eq_cons
  rw [here]
  exact .head _

section Terminals

variable {parser : Parser} {first : Terminal} {rest : List Terminal}

@[simp] theorem remainingTerminals_advance (parser : Parser) :
    parser.advance.remainingTerminals = parser.followingTerminals := by
  rw [remainingTerminals, remaining_advance, followingTerminals]

@[simp] theorem headKind_followingTerminals (parser : Parser) :
    headKind parser.followingTerminals = parser.ahead.kind := by
  simp only [followingTerminals, following]
  split <;> rfl

@[simp] theorem headKind_remainingTerminals (parser : Parser) :
    headKind parser.remainingTerminals = parser.current.kind := by
  simp only [remainingTerminals, remaining]
  split <;> rfl

theorem remainingTerminals_of_ne (more : parser.current.kind ≠ .eof) :
    parser.remainingTerminals = parser.current.terminal :: parser.followingTerminals := by
  simp only [remainingTerminals, remaining, if_neg more, List.map_cons, followingTerminals]

theorem followingTerminals_of_ne (more : parser.ahead.kind ≠ .eof) :
    parser.followingTerminals = parser.ahead.terminal :: parser.advance.followingTerminals := by
  simp only [followingTerminals, following_of_ne more, List.map_cons]

theorem followingTerminals_of_kind {kind : Kind} (here : parser.ahead.kind = kind)
    (more : kind ≠ .eof) :
    parser.followingTerminals = parser.ahead.terminal :: parser.advance.followingTerminals :=
  followingTerminals_of_ne (here ▸ more)

/-- Advancing onto a terminal other than the end token takes it off the list. -/
theorem advance_of_cons (here : parser.followingTerminals = first :: rest)
    (more : first.kind ≠ .eof) :
    parser.ahead.terminal = first ∧ parser.advance.followingTerminals = rest := by
  have kind : parser.ahead.kind = first.kind := by
    rw [← headKind_followingTerminals, here, headKind_cons]
  rw [followingTerminals_of_ne (kind ▸ more)] at here
  exact List.cons.inj here

theorem advance_onto {kind : Kind} (here : parser.followingTerminals = first :: rest)
    (is : first.kind = kind) (more : kind ≠ .eof) :
    parser.ahead.kind = kind ∧ parser.advance.followingTerminals = rest := by
  obtain ⟨same, left⟩ := advance_of_cons here (is ▸ more)
  exact ⟨(congrArg Terminal.kind same).trans is, left⟩

theorem current_of_cons (here : parser.remainingTerminals = first :: rest)
    (more : first.kind ≠ .eof) :
    parser.current.terminal = first ∧ parser.followingTerminals = rest := by
  have kind : parser.current.kind = first.kind := by
    rw [← headKind_remainingTerminals, here, headKind_cons]
  rw [remainingTerminals_of_ne (kind ▸ more)] at here
  exact List.cons.inj here

end Terminals

theorem remainingTerminals_length_le (parser : Parser) :
    parser.remainingTerminals.length ≤ parser.cursor.rest.length + 3 := by
  have tokens := parser.cursor.length_tokens_le
  have following : parser.following.length ≤ parser.cursor.rest.length + 2 := by
    rw [following]
    split
    · exact Nat.succ_le_succ (Nat.zero_le _)
    · exact Nat.succ_le_succ tokens
  rw [remainingTerminals, List.length_map, remaining]
  split
  · exact Nat.succ_le_succ (Nat.zero_le _)
  · exact Nat.succ_le_succ following

end Parser

end MonkeySyntax
