import MonkeySyntax.Proofs.Scan.Spelling
import MonkeySyntax.Token.Cursor

/-! What a cursor yields next, by the form of the text before it. Every text has one of the two
forms: blanks alone, or blanks before a lexeme. -/
namespace MonkeySyntax

open Text

namespace Cursor

variable {file : String} {offset : Nat} {blanks literal after : List Char} {kind : Kind}

theorem next_of_blanks (blank : ∀ c ∈ blanks, isBlank c) :
    (⟨file, offset, blanks⟩ : Cursor).next =
      (⟨.eof, "", file, offset + blanks.length, offset + blanks.length⟩,
        ⟨file, offset + blanks.length, []⟩) := by
  have run : (blanks ++ []).takeWhile isBlank = blanks := takeWhile_exact blank nofun
  rw [List.append_nil] at run
  simp [next, skipBlanks, forward, token, run, Lexeme.size, Lexeme.kind]

/-- Blanks ahead are passed together with those behind them. -/
theorem next_blanks_append (blank : ∀ c ∈ blanks, isBlank c) (text : List Char) :
    (⟨file, offset, blanks ++ text⟩ : Cursor).next =
      (⟨file, offset + blanks.length, text⟩ : Cursor).next := by
  have same : (⟨file, offset, blanks ++ text⟩ : Cursor).skipBlanks =
      (⟨file, offset + blanks.length, text⟩ : Cursor).skipBlanks := by
    simp [skipBlanks, forward, List.takeWhile_append_of_pos blank, Nat.add_assoc,
      List.drop_append]
  rw [next, same, next]

theorem next_of_lexeme (blank : ∀ c ∈ blanks, isBlank c) (spells : Spells kind literal)
    (ends : Ends literal after) :
    (⟨file, offset, blanks ++ (literal ++ after)⟩ : Cursor).next =
      (⟨kind, String.ofList literal, file, offset + blanks.length,
          offset + blanks.length + literal.length⟩,
        ⟨file, offset + blanks.length + literal.length, after⟩) := by
  have stops : ∀ c, (literal ++ after).head? = some c → isBlank c = false := by
    obtain ⟨nonempty, solid⟩ := spells.solid
    obtain ⟨first, tail, rfl⟩ := List.exists_cons_of_ne_nil nonempty
    rintro c ⟨⟩
    exact solid first (.head tail)
  have run := takeWhile_exact blank stops
  have size := spells.size ends
  simp [next, skipBlanks, forward, token, run, size, spells.kind_eq]

theorem exists_tokens (cursor : Cursor) : ∃ rest, cursor.tokens = cursor.next.1 :: rest := by
  rw [tokens_eq]
  split <;> exact ⟨_, rfl⟩

theorem tokens_of_blanks (blank : ∀ c ∈ blanks, isBlank c) :
    (⟨file, offset, blanks⟩ : Cursor).tokens =
      [⟨.eof, "", file, offset + blanks.length, offset + blanks.length⟩] := by
  rw [tokens_eq, next_of_blanks blank]
  rfl

theorem tokens_blanks_append (blank : ∀ c ∈ blanks, isBlank c) (text : List Char) :
    (⟨file, offset, blanks ++ text⟩ : Cursor).tokens =
      (⟨file, offset + blanks.length, text⟩ : Cursor).tokens := by
  rw [tokens_eq, next_blanks_append blank, ← tokens_eq]

theorem tokens_of_lexeme (blank : ∀ c ∈ blanks, isBlank c) (spells : Spells kind literal)
    (ends : Ends literal after) :
    (⟨file, offset, blanks ++ (literal ++ after)⟩ : Cursor).tokens =
      ⟨kind, String.ofList literal, file, offset + blanks.length,
          offset + blanks.length + literal.length⟩ ::
        (⟨file, offset + blanks.length + literal.length, after⟩ : Cursor).tokens := by
  rw [tokens_eq, next_of_lexeme blank spells ends, if_neg spells.ne_eof]

/-- Nothing but blanks, or blanks and then a lexeme. -/
theorem blanks_or_lexeme (text : List Char) :
    (∀ c ∈ text, isBlank c) ∨ ∃ blanks kind literal after, text = blanks ++ (literal ++ after) ∧
      (∀ c ∈ blanks, isBlank c) ∧ Spells kind literal ∧ Ends literal after := by
  have split : text.takeWhile isBlank ++ text.dropWhile isBlank = text :=
    List.takeWhile_append_dropWhile
  have blank : ∀ c ∈ text.takeWhile isBlank, isBlank c := fun c => List.mem_takeWhile_imp
  cases behind : text.dropWhile isBlank with
  | nil =>
    rw [behind, List.append_nil] at split
    exact .inl (split ▸ blank)
  | cons first rest =>
    have front : (text.dropWhile isBlank).head? = some first := by rw [behind]; rfl
    have solid : ¬ isBlank first := Bool.eq_false_iff.mp (head?_dropWhile front)
    obtain ⟨kind, literal, after, same, spells, ends⟩ := exists_lexeme rest solid
    refine .inr ⟨_, kind, literal, after, ?_, blank, spells, ends⟩
    rw [← same, ← behind, split]

end Cursor

end MonkeySyntax
