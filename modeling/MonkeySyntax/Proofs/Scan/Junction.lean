import MonkeySyntax.Proofs.Scan.Shift
import MonkeySyntax.Proofs.Scan.Stream
import MonkeySyntax.Proofs.Scan.Terminals
import MonkeySyntax.Proofs.Scan.Tokenization

/-! Two texts side by side. The tokens of the second do not depend on what stands before them, and
of the first only the last token can be changed by what stands behind it: when it reaches to the end
of its text, it may run on into the other. Where it does not, the tokens are those of either text;
where it does, they never are, since no token of a text is followed by what belongs to it. -/
namespace MonkeySyntax.Cursor

open Text

/-- The last token of the text reaches to its end, and the character that comes next would have
belonged to it. -/
def RunsInto (cursor : Cursor) (more : List Char) : Prop :=
  ∃ token c, cursor.tokens.dropLast.getLast? = some token ∧
    token.span.stop = cursor.offset + cursor.rest.length ∧ more.head? = some c ∧
    Continued token.literal.toList c

section

variable {file : String} {offset : Nat} {blanks literal after more : List Char} {kind : Kind}

/-- A token that runs on is the last one of a longer text too. -/
theorem RunsInto.behind_lexeme (blank : ∀ c ∈ blanks, isBlank c) (spells : Spells kind literal)
    (ends : Ends literal after)
    (runs : (⟨file, offset + blanks.length + literal.length, after⟩ : Cursor).RunsInto more) :
    (⟨file, offset, blanks ++ (literal ++ after)⟩ : Cursor).RunsInto more := by
  obtain ⟨token, c, last, stop, first, continued⟩ := runs
  refine ⟨token, c, ?_, ?_, first, continued⟩
  · rw [tokens_of_lexeme blank spells ends, List.dropLast_cons_of_ne_nil (tokens_ne_nil _),
      List.getLast?_cons, last]
    rfl
  · simpa [Nat.add_assoc] using stop

theorem ends_append (blank : ∀ c ∈ blanks, isBlank c) (spells : Spells kind literal)
    (ends : Ends literal after)
    (apart : ¬ (⟨file, offset, blanks ++ (literal ++ after)⟩ : Cursor).RunsInto more) :
    Ends literal (after ++ more) := by
  cases after with
  | cons first rest => exact fun c here => ends c here
  | nil =>
    intro c here continued
    refine apart ⟨⟨kind, String.ofList literal, file, offset + blanks.length,
      offset + blanks.length + literal.length⟩, c, ?_, ?_, here, ?_⟩
    · rw [tokens_of_lexeme blank spells ends, tokens_of_blanks (by simp)]
      rfl
    · simp [Nat.add_assoc]
    · rwa [String.toList_ofList]

theorem tokens_append {text : List Char}
    (apart : ¬ (⟨file, offset, text⟩ : Cursor).RunsInto more) :
    (⟨file, offset, text ++ more⟩ : Cursor).tokens =
      (⟨file, offset, text⟩ : Cursor).tokens.dropLast ++
        (⟨file, offset + text.length, more⟩ : Cursor).tokens := by
  induction text using lexeme_induction generalizing offset with
  | blanks blanks blank =>
    rw [tokens_blanks_append blank, tokens_of_blanks blank]
    rfl
  | lexeme blanks kind literal after blank spells ends ih =>
    have ends' := ends_append blank spells ends apart
    have rest := ih fun runs => apart (runs.behind_lexeme blank spells ends)
    rw [List.append_assoc, List.append_assoc, tokens_of_lexeme blank spells ends', rest,
      tokens_of_lexeme blank spells ends, List.dropLast_cons_of_ne_nil (tokens_ne_nil _),
      List.cons_append]
    simp only [List.length_append, Nat.add_assoc]

end

theorem not_runsInto_of_tokens {file before after : String} {rest : List Token}
    (same : (ofText file (before ++ after)).tokens =
      (ofText file before).tokens.dropLast ++ rest) :
    ¬ (ofText file before).RunsInto after.toList := by
  rintro ⟨token, c, last, stop, first, continued⟩
  have member : token ∈ (ofText file (before ++ after)).tokens := by
    rw [same]
    exact List.mem_append_left _ (List.mem_of_getLast? last)
  have ends := (Tokenization.of_cursor file (before ++ after)).longest token member
  have behind : (before ++ after).toList.drop token.span.stop = after.toList := by
    rw [stop, String.toList_append]
    simp [ofText]
  rw [behind] at ends
  exact ends c first continued

/-- The tokens of two texts side by side are those of the first without its end token and then those
of the second, as far on as the first is long, exactly if the last token of the first does not run
into the second. -/
theorem tokens_append_iff (file before after : String) :
    (ofText file (before ++ after)).tokens =
        (ofText file before).tokens.dropLast ++
          (ofText file after).tokens.map (·.shift before.length) ↔
      ¬ (ofText file before).RunsInto after.toList := by
  constructor
  · exact not_runsInto_of_tokens
  · intro apart
    have both := tokens_append apart
    have there : (⟨file, 0 + before.toList.length, after.toList⟩ : Cursor) =
        (ofText file after).shift before.length := by
      simp [ofText, shift, String.length_toList]
    rw [there, tokens_shift] at both
    rw [ofText, String.toList_append]
    exact both

end MonkeySyntax.Cursor
