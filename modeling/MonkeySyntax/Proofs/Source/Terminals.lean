import MonkeySyntax.Proofs.Language.Derives
import MonkeySyntax.Proofs.Scan.Terminals
import MonkeySyntax.Proofs.Source.Printer

/-! The terminals of what the printer writes, piece by piece. The printer keeps its pieces apart:
what stands before a closing piece or behind an opening one is scanned as it would be alone. -/
namespace MonkeySyntax

open Text

def lexed (text : String) : List Terminal := lex text.toList

theorem Cursor.terminals_ofText (file text : String) :
    (ofText file text).terminals = lexed text ++ [⟨.eof, ""⟩] := by
  rw [terminals_eq_scan, ofText, scan_eq_lex, lexed]

/-- Texts whose last character no other character can continue. -/
def Opening (text : String) : Prop :=
  ∃ d, text.toList.getLast? = some d ∧ ¬ isLetter d ∧ ¬ isDigit d ∧ ¬ (d = '=' ∨ d = '!')

/-- Texts whose first character continues no other. -/
def Closing (text : String) : Prop :=
  ∃ c, text.toList.head? = some c ∧ ¬ isLetter c ∧ ¬ isDigit c ∧ c ≠ '='

section Pieces

variable {before after : String}

theorem Opening.append (opening : Opening after) (before : String) : Opening (before ++ after) := by
  obtain ⟨d, last, apart⟩ := opening
  exact ⟨d, by rw [String.toList_append, List.getLast?_append, last]; rfl, apart⟩

theorem Closing.append (closing : Closing before) (after : String) : Closing (before ++ after) := by
  obtain ⟨c, first, apart⟩ := closing
  exact ⟨c, by rw [String.toList_append, List.head?_append, first]; rfl, apart⟩

theorem lexed_append (seam : Seam before.toList after.toList) :
    lexed (before ++ after) = lexed before ++ lexed after := by
  rw [lexed, String.toList_append, lex_append seam, lexed, lexed]

theorem lexed_of_opening (opening : Opening before) (after : String) :
    lexed (before ++ after) = lexed before ++ lexed after := by
  obtain ⟨d, last, letter, digit, pair⟩ := opening
  refine lexed_append fun d' c last' _ => ?_
  rw [last] at last'
  cases last'
  exact ⟨fun both => letter both.1, fun both => digit both.1, fun both => pair both.1⟩

theorem lexed_of_closing (before : String) (closing : Closing after) :
    lexed (before ++ after) = lexed before ++ lexed after := by
  obtain ⟨c, first, letter, digit, twice⟩ := closing
  refine lexed_append fun d c' _ first' => ?_
  rw [first] at first'
  cases first'
  exact ⟨fun both => letter both.2, fun both => digit both.2, fun both => twice both.2⟩

/-- A piece that closes what stands before it and opens what stands behind it. -/
theorem lexed_between (before after : String) {piece : String} (closing : Closing piece)
    (opening : Opening piece) :
    lexed (before ++ piece ++ after) = lexed before ++ (lexed piece ++ lexed after) := by
  rw [lexed_of_opening (opening.append before), lexed_of_closing before closing, List.append_assoc]

theorem lexed_of_spells {literal : String} {kind : Kind} (spells : Spells kind literal.toList) :
    lexed literal = [⟨kind, literal⟩] := by
  have ends : Ends literal.toList [] := by rintro _ ⟨⟩
  have whole : lex ([] ++ (literal.toList ++ [])) = _ := lex_of_lexeme nofun spells ends
  have none : lex [] = [] := lex_of_blanks nofun
  simpa [lexed, none] using whole

end Pieces

section Words

theorem IsName.ofWord {name : String} (is : IsName name) : Kind.ofWord name = .ident := by
  obtain ⟨_, _, other⟩ := is
  simp only [reserved, List.mem_cons, List.not_mem_nil, or_false, not_or] at other
  simp [Kind.ofWord, other]

theorem IsName.nonempty {name : String} (is : IsName name) : name.toList ≠ [] := fun empty =>
  is.1 (String.toList_eq_nil_iff.mp empty)

theorem IsNumber.digits {value : Int} {literal : String} (is : IsNumber value literal) :
    literal.toList ≠ [] ∧ ∀ c ∈ literal.toList, isDigit c := by
  obtain ⟨numeral, _⟩ := is
  simp only [isNumeral, Bool.and_eq_true, Bool.not_eq_true', List.isEmpty_eq_false_iff,
    List.all_eq_true] at numeral
  exact numeral

theorem lexed_name {name : String} (is : IsName name) : lexed name = [⟨.ident, name⟩] := by
  have spells : Spells (.ofWord (String.ofList name.toList)) name.toList :=
    .word is.nonempty is.2.1
  rw [String.ofList_toList, is.ofWord] at spells
  exact lexed_of_spells spells

theorem lexed_number {value : Int} {literal : String} (is : IsNumber value literal) :
    lexed literal = [⟨.int, literal⟩] := lexed_of_spells (.number is.digits.1 is.digits.2)

theorem lexed_sign {sign : String} (is : sign ∈ prefixOperators) :
    ∃ kind ∈ [Kind.bang, .minus], lexed ("(" ++ sign) = [⟨.lparen, "("⟩, ⟨kind, sign⟩] := by
  simp only [prefixOperators, List.mem_cons, List.not_mem_nil, or_false] at is
  rcases is with rfl | rfl
  · exact ⟨.bang, by decide, rfl⟩
  · exact ⟨.minus, by decide, rfl⟩

theorem lexed_operator {sign : String} (is : sign ∈ binaryOperators) :
    ∃ kind n, level? kind = some n ∧ lexed (" " ++ sign ++ " ") = [⟨kind, sign⟩] := by
  simp only [binaryOperators, List.mem_cons, List.not_mem_nil, or_false] at is
  rcases is with rfl | rfl | rfl | rfl | rfl | rfl | rfl | rfl
  · exact ⟨.plus, 2, rfl, rfl⟩
  · exact ⟨.minus, 2, rfl, rfl⟩
  · exact ⟨.asterisk, 3, rfl, rfl⟩
  · exact ⟨.slash, 3, rfl, rfl⟩
  · exact ⟨.lt, 1, rfl, rfl⟩
  · exact ⟨.gt, 1, rfl, rfl⟩
  · exact ⟨.eq, 0, rfl, rfl⟩
  · exact ⟨.notEq, 0, rfl, rfl⟩

theorem lexed_unary {sign operand : String} (is : sign ∈ prefixOperators)
    (once : operand.toList.head? ≠ some '=') :
    ∃ kind ∈ [Kind.bang, .minus], lexed ("(" ++ sign ++ operand ++ ")") =
      ⟨.lparen, "("⟩ :: ⟨kind, sign⟩ :: (lexed operand ++ [⟨.rparen, ")"⟩]) := by
  obtain ⟨kind, member, signs⟩ := lexed_sign is
  have seam : Seam ("(" ++ sign).toList operand.toList := by
    intro d c last first
    simp only [prefixOperators, List.mem_cons, List.not_mem_nil, or_false] at is
    rcases is with rfl | rfl <;> cases last
    · exact ⟨nofun, nofun, fun both => once (both.2 ▸ first)⟩
    · exact ⟨nofun, nofun, fun both => once (both.2 ▸ first)⟩
  have close : lexed ")" = [⟨.rparen, ")"⟩] := rfl
  rw [lexed_of_closing _ ⟨_, rfl, by decide⟩, lexed_append seam, signs, close]
  exact ⟨kind, member, rfl⟩

theorem lexed_binary {left sign right : String} (is : sign ∈ binaryOperators) :
    ∃ kind n, level? kind = some n ∧ lexed ("(" ++ left ++ (" " ++ sign ++ " ") ++ right ++ ")") =
      ⟨.lparen, "("⟩ :: (lexed left ++ ⟨kind, sign⟩ :: (lexed right ++ [⟨.rparen, ")"⟩])) := by
  obtain ⟨kind, n, level, signs⟩ := lexed_operator is
  have space : Closing " " := ⟨_, rfl, by decide⟩
  have space' : Opening " " := ⟨_, rfl, by decide⟩
  have close : lexed ")" = [⟨.rparen, ")"⟩] := rfl
  rw [lexed_of_closing _ ⟨_, rfl, by decide⟩,
    lexed_between _ _ ((space.append sign).append " ") (space'.append _),
    lexed_of_opening ⟨_, rfl, by decide⟩, signs, close]
  refine ⟨kind, n, level, ?_⟩
  rw [List.append_assoc, List.append_assoc, List.append_assoc]
  rfl

end Words

section Phrases

variable (head tail : String)

theorem lexed_if : lexed ("if (" ++ head ++ ") " ++ tail) =
    ⟨.ifWord, "if"⟩ :: ⟨.lparen, "("⟩ :: (lexed head ++ ⟨.rparen, ")"⟩ :: lexed tail) := by
  rw [lexed_between _ _ ⟨_, rfl, by decide⟩ ⟨_, rfl, by decide⟩,
    lexed_of_opening ⟨_, rfl, by decide⟩]
  rfl

theorem lexed_fn : lexed ("fn(" ++ head ++ ") " ++ tail) =
    ⟨.function, "fn"⟩ :: ⟨.lparen, "("⟩ :: (lexed head ++ ⟨.rparen, ")"⟩ :: lexed tail) := by
  rw [lexed_between _ _ ⟨_, rfl, by decide⟩ ⟨_, rfl, by decide⟩,
    lexed_of_opening ⟨_, rfl, by decide⟩]
  rfl

theorem lexed_else : lexed (head ++ " else " ++ tail) =
    lexed head ++ ⟨.elseWord, "else"⟩ :: lexed tail := by
  rw [lexed_between _ _ ⟨_, rfl, by decide⟩ ⟨_, rfl, by decide⟩]
  rfl

theorem lexed_call : lexed (head ++ "(" ++ tail ++ ")") =
    lexed head ++ ⟨.lparen, "("⟩ :: (lexed tail ++ [⟨.rparen, ")"⟩]) := by
  rw [lexed_of_closing _ ⟨_, rfl, by decide⟩,
    lexed_between _ _ ⟨_, rfl, by decide⟩ ⟨_, rfl, by decide⟩, List.append_assoc]
  rfl

theorem lexed_blockSource (lines : List String) : lexed (blockSource lines) =
    ⟨.lbrace, "\x7b"⟩ :: (lexed (" ".intercalate lines) ++ [⟨.rbrace, "\x7d"⟩]) := by
  rw [blockSource, lexed_of_closing _ ⟨_, rfl, by decide⟩, lexed_of_opening ⟨_, rfl, by decide⟩]
  rfl

theorem lexed_let {name : String} (is : IsName name) :
    lexed ("let " ++ name ++ " = " ++ tail ++ ";") =
      ⟨.letWord, "let"⟩ :: ⟨.ident, name⟩ :: ⟨.assign, "="⟩ ::
        (lexed tail ++ [⟨.semicolon, ";"⟩]) := by
  rw [lexed_of_closing _ ⟨_, rfl, by decide⟩,
    lexed_between _ _ ⟨_, rfl, by decide⟩ ⟨_, rfl, by decide⟩,
    lexed_of_opening ⟨_, rfl, by decide⟩, lexed_name is]
  rfl

theorem lexed_return : lexed ("return " ++ tail ++ ";") =
    ⟨.returnWord, "return"⟩ :: (lexed tail ++ [⟨.semicolon, ";"⟩]) := by
  rw [lexed_of_closing _ ⟨_, rfl, by decide⟩, lexed_of_opening ⟨_, rfl, by decide⟩]
  rfl

theorem lexed_terminated : lexed (head ++ ";") = lexed head ++ [⟨.semicolon, ";"⟩] := by
  rw [lexed_of_closing _ ⟨_, rfl, by decide⟩]
  rfl

theorem lexed_lines (line : String) (lines : List String) :
    lexed (" ".intercalate (head :: line :: lines)) =
      lexed head ++ lexed (" ".intercalate (line :: lines)) := by
  rw [String.intercalate_cons_cons, lexed_between _ _ ⟨_, rfl, by decide⟩ ⟨_, rfl, by decide⟩]
  rfl

theorem lexed_items (item : String) (items : List String) :
    lexed (", ".intercalate (head :: item :: items)) =
      lexed head ++ ⟨.comma, ","⟩ :: lexed (", ".intercalate (item :: items)) := by
  rw [String.intercalate_cons_cons, lexed_between _ _ ⟨_, rfl, by decide⟩ ⟨_, rfl, by decide⟩]
  rfl

end Phrases

end MonkeySyntax
