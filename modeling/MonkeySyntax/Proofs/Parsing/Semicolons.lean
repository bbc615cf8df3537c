import MonkeySyntax.Proofs.Parsing.Variation
import MonkeySyntax.Proofs.Scan.Terminals

/-! Semicolons at the end of a block or of the input. In a text read without a fault a semicolon
does nothing but end a statement, and a closing brace or the end of the input ends it as well; so
before these it may be left out. -/
namespace MonkeySyntax

open Text

/-- The other input is the same, or lacks one semicolon before a closing brace or the end. -/
inductive Trims : List Terminal → List Terminal → Prop
  | same {input : List Terminal} : Trims input input
  | here {sign : Terminal} {rest : List Terminal} : sign.kind = .semicolon →
      headKind rest = .rbrace ∨ headKind rest = .eof → Trims (sign :: rest) rest
  | later {first : Terminal} {rest rest' : List Terminal} : Trims rest rest' →
      Trims (first :: rest) (first :: rest')

namespace Trims

variable {first last : Terminal} {input rest other : List Terminal}

theorem uncons (apart : first.kind ≠ .semicolon) (trims : Trims (first :: rest) other) :
    ∃ rest', other = first :: rest' ∧ Trims rest rest' := by
  cases trims with
  | same => exact ⟨rest, rfl, .same⟩
  | here is => exact absurd is apart
  | later more => exact ⟨_, rfl, more⟩

theorem of_eof (is : last.kind = .eof) (trims : Trims [last] other) : other = [last] := by
  obtain ⟨rest, rfl, more⟩ := trims.uncons (by rw [is]; decide)
  cases more
  rfl

theorem endsReturn (trims : Trims input other) (ends : Parts.endsReturn (headKind input)) :
    Parts.endsReturn (headKind other) := by
  cases trims with
  | same => exact ends
  | later => exact ends
  | here _ next => rcases next with next | next <;> rw [next] <;> rfl

/-- A semicolon that ends a statement is taken if it is there. -/
theorem passSemicolon (trims : Trims input other) :
    Trims (passSemicolon input) (passSemicolon other) := by
  cases trims with
  | same => exact .same
  | here is next =>
    have apart : headKind other ≠ .semicolon := by
      rcases next with next | next <;> rw [next] <;> decide
    rw [passSemicolon_of_ne apart, MonkeySyntax.passSemicolon, if_pos is]
    exact .same
  | later more =>
    simp only [MonkeySyntax.passSemicolon]
    split
    · exact more
    · exact .later more

end Trims

theorem variation_trims : Variation True fun _ => Trims where
  inner inner given := given.uncons inner.1.2
  opening is given := given.uncons (by rw [is]; decide)
  closing is given := given.uncons (by rw [is]; decide)
  unclosed is given := by
    obtain rfl := given.of_eof is
    exact ⟨_, .same, fun _ => .finish is⟩
  ended _ is given := ⟨_, given.of_eof is, is⟩
  stops given ends := Kind.stops_of_endsReturn (given.endsReturn ends)
  returns _ given ends := given.endsReturn ends
  pass _ given := given.passSemicolon

theorem Trims.of_append {sign : Terminal} {rest : List Terminal} (before : List Terminal)
    (is : sign.kind = .semicolon) (next : headKind rest = .rbrace ∨ headKind rest = .eof) :
    Trims (before ++ sign :: rest) (before ++ rest) := by
  induction before with
  | nil => exact .here is next
  | cons first before ih => exact .later ih

/-- A blank in the place of a semicolon takes it out of the text, and nothing else. -/
theorem Cursor.terminals_of_blanked {file text : String} {before after : List Token} {sign : Token}
    (is : sign.kind = .semicolon) (tokens : (ofText file text).tokens = before ++ sign :: after) :
    (ofText file (String.ofList (text.toList.set sign.span.start ' '))).terminals =
      (before ++ after).map Token.terminal := by
  obtain ⟨front, literal, back, split, spells, start, scanned, behind⟩ :=
    exists_split (by rw [is]; decide) tokens
  rw [is] at spells
  obtain rfl := spells.eq_semicolon
  have blanked : text.toList.set sign.span.start ' ' = front ++ ([' '] ++ back) := by
    rw [split, start, Nat.zero_add, List.set_append_right _ _ (Nat.le_refl _), Nat.sub_self]
    rfl
  have seam : Seam front ([' '] ++ back) := .to_blank fun c here => Option.some.inj here ▸ rfl
  rw [terminals_eq_scan, ofText, String.toList_ofList, blanked, scan_append seam,
    scan_blanks_append (by decide), scanned, behind, List.map_append]

/-- A semicolon before a closing brace or the end of the input may be left out. -/
theorem readText_semicolon (options : Options) (file text : String) {before after : List Token}
    {sign next : Token} (quiet : (readText options file text).diagnostics = [])
    (tokens : (Cursor.ofText file text).tokens = before ++ sign :: next :: after)
    (is : sign.kind = .semicolon) (final : next.kind = .rbrace ∨ next.kind = .eof) :
    (readText options file (String.ofList (text.toList.set sign.span.start ' '))).program =
        (readText options file text).program ∧
      (readText options file (String.ofList (text.toList.set sign.span.start ' '))).diagnostics =
        [] := by
  refine variation_trims.readText trivial quiet ?_
  rw [Cursor.terminals_of_blanked is tokens, Cursor.terminals, tokens, List.map_append,
    List.map_append]
  exact .of_append _ is final

set_option maxRecDepth 20000 in
/-- The semicolon inside the block goes, the one behind it stays. -/
theorem readText_semicolon_return :
    (readText { maxDepth := 2 } "f" "fn() \x7b return a; \x7d;").diagnostics = [] ∧
    String.ofList ("fn() \x7b return a; \x7d;".toList.set 15 ' ') = "fn() \x7b return a  \x7d;" ∧
    (readText { maxDepth := 2 } "f" "fn() \x7b return a  \x7d;").program =
        [.expression (.function [] [.returning (some (.identifier "a"))])] ∧
      (readText { maxDepth := 2 } "f" "fn() \x7b return a  \x7d;").diagnostics = [] := by
  have quiet : (readText { maxDepth := 2 } "f" "fn() \x7b return a; \x7d;").diagnostics = [] := rfl
  have tokens : (Cursor.ofText "f" "fn() \x7b return a; \x7d;").tokens =
      (Cursor.ofText "f" "fn() \x7b return a; \x7d;").tokens.take 6 ++
        ⟨.semicolon, ";", "f", 15, 16⟩ :: ⟨.rbrace, "\x7d", "f", 17, 18⟩ ::
          (Cursor.ofText "f" "fn() \x7b return a; \x7d;").tokens.drop 8 := by decide
  have blanked : String.ofList ("fn() \x7b return a; \x7d;".toList.set 15 ' ') =
      "fn() \x7b return a  \x7d;" := by decide
  obtain ⟨program, none⟩ := readText_semicolon { maxDepth := 2 } "f" _ quiet tokens rfl (.inl rfl)
  rw [blanked] at program none
  exact ⟨quiet, blanked, program, none⟩

end MonkeySyntax
