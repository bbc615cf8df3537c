import Mathlib.Logic.Function.Iterate
import MonkeySyntax.Proofs.Parsing.Window

/-! The tokens of a text as a stream without end: behind the last one the end token comes again and
again, as a cursor that has reached the end yields it. Reading so many tokens one after the other
leads to the place behind the last of them, and reading on until the end token comes yields them
all. -/
namespace MonkeySyntax.Cursor

theorem tokens_ne_nil (cursor : Cursor) : cursor.tokens ≠ [] := by
  rw [tokens_eq]
  split <;> exact List.cons_ne_nil _ _

def tokenAt (cursor : Cursor) (index : Nat) : Token :=
  cursor.tokens.getD index (cursor.tokens.getLast cursor.tokens_ne_nil)

/-- The cursor behind so many tokens. -/
def past (cursor : Cursor) (count : Nat) : Cursor := (fun here => here.next.2)^[count] cursor

variable {cursor : Cursor}

theorem past_succ (cursor : Cursor) (count : Nat) :
    cursor.past (count + 1) = (cursor.past count).next.2 :=
  Function.iterate_succ_apply' _ count cursor

theorem tokens_of_eof (ended : cursor.next.1.kind = .eof) : cursor.tokens = [cursor.next.1] := by
  rw [tokens_eq, if_pos ended]

theorem tokenAt_zero (cursor : Cursor) : cursor.tokenAt 0 = cursor.next.1 := by
  rw [tokenAt]
  conv => lhs; arg 1; rw [tokens_eq]
  split <;> rfl

theorem tokenAt_succ (cursor : Cursor) (index : Nat) :
    cursor.tokenAt (index + 1) = cursor.next.2.tokenAt index := by
  by_cases ended : cursor.next.1.kind = .eof
  · have again := next_next_of_eof ended
    have one := tokens_of_eof ended
    have rest : cursor.next.2.tokens = [cursor.next.1] := by
      rw [tokens_of_eof (by rwa [again]), again]
    simp only [tokenAt, one, rest]
    cases index <;> rfl
  · have more : cursor.tokens = cursor.next.1 :: cursor.next.2.tokens := by
      rw [tokens_eq, if_neg ended]
    simp only [tokenAt, more, List.getD_cons_succ]
    rw [List.getLast_cons cursor.next.2.tokens_ne_nil]

theorem next_past (cursor : Cursor) (index : Nat) :
    (cursor.past index).next.1 = cursor.tokenAt index := by
  induction index generalizing cursor with
  | zero => exact cursor.tokenAt_zero.symm
  | succ index ih => exact (ih cursor.next.2).trans (cursor.tokenAt_succ index).symm

/-- The window behind so many tokens shows the next two. -/
theorem window_past (cursor : Cursor) (index : Nat) :
    (cursor.past index).window =
      ⟨cursor.tokenAt index, cursor.tokenAt (index + 1), cursor.past (index + 2)⟩ := by
  rw [window, ← past_succ, ← past_succ, next_past, next_past]

theorem advance_window_past (cursor : Cursor) (index count : Nat) :
    Window.advance^[count] (cursor.past index).window = (cursor.past (index + count)).window := by
  induction count with
  | zero => rfl
  | succ count ih =>
    rw [Function.iterate_succ_apply', ih, advance_window, ← past_succ, Nat.add_assoc]

theorem exists_forward (cursor : Cursor) (count : Nat) :
    ∃ passed, cursor.past count = cursor.forward passed := by
  induction count with
  | zero => exact ⟨0, rfl⟩
  | succ count ih =>
    obtain ⟨passed, here⟩ := ih
    rw [past_succ, here]
    simp only [next, skipBlanks, forward, List.drop_drop, Nat.add_assoc]
    exact ⟨_, rfl⟩

/-- Reading a token leads to the place directly behind it. -/
theorem past_eq_forward (file text : String) (index : Nat) :
    (ofText file text).past (index + 1) =
      (ofText file text).forward ((ofText file text).tokenAt index).span.stop := by
  obtain ⟨passed, there⟩ := (ofText file text).exists_forward (index + 1)
  have stop : ((ofText file text).past (index + 1)).offset =
      ((ofText file text).tokenAt index).span.stop := by
    rw [past_succ, ← next_past]
    rfl
  rw [← stop, there]
  simp [forward, ofText]

/-- An index past the end is that of the end token. -/
theorem exists_getElem?_tokenAt (cursor : Cursor) (index : Nat) :
    cursor.tokens[min index (cursor.tokens.length - 1)]? = some (cursor.tokenAt index) := by
  have some := List.length_pos_iff.mpr cursor.tokens_ne_nil
  by_cases inside : index < cursor.tokens.length
  · rw [Nat.min_eq_left (by omega), tokenAt, List.getD_eq_getElem?_getD,
      List.getElem?_eq_getElem inside, Option.getD_some]
  · rw [Nat.min_eq_right (by omega), tokenAt, List.getD_eq_getElem?_getD,
      List.getElem?_eq_none (Nat.le_of_not_lt inside), Option.getD_none]
    exact (List.getLast?_eq_getElem?).symm.trans (List.getLast?_eq_some_getLast _)

/-- Tokens read one after the other until the first end token. -/
inductive Drains : Cursor → List Token → Prop
  | last {cursor : Cursor} : cursor.next.1.kind = .eof → Drains cursor [cursor.next.1]
  | more {cursor : Cursor} {rest : List Token} : cursor.next.1.kind ≠ .eof →
      Drains cursor.next.2 rest → Drains cursor (cursor.next.1 :: rest)

theorem Drains.tokens {cursor : Cursor} {tokens : List Token}
    (drains : cursor.Drains tokens) : cursor.tokens = tokens := by
  induction drains with
  | last ended => exact tokens_of_eof ended
  | more going _ ih => rw [tokens_eq, if_neg going, ih]

theorem drains_tokens (cursor : Cursor) : cursor.Drains cursor.tokens := by
  induction shorter : cursor.rest.length using Nat.strongRecOn generalizing cursor with
  | _ length ih =>
    rw [tokens_eq]
    split
    · next ended => exact .last ended
    · next going =>
      have less := cursor.length_rest_next going
      exact .more going (ih _ (by omega) cursor.next.2 rfl)

end MonkeySyntax.Cursor
