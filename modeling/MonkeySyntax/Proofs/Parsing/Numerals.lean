import MonkeySyntax.Proofs.Parsing.Loop
import MonkeySyntax.Proofs.Parsing.Soundness
import MonkeySyntax.Proofs.Source.Terminals
import Mathlib.Data.List.Induction
import Mathlib.Data.Nat.Digits.Defs

/-! Numerals at the greatest integer. A numeral is accepted by its value alone, whatever its length:
it is the program of this one integer, or its value is too large and then nothing is left of it but
one diagnostic. -/
namespace MonkeySyntax

namespace Text

/-- The value of a numeral is that of its digits in base ten, the last one being the least. -/
theorem decimalValue_eq_ofDigits (digits : List Char) :
    decimalValue digits = Nat.ofDigits 10 (digits.map digitValue).reverse := by
  induction digits using List.reverseRecOn with
  | nil => rfl
  | append_singleton digits last ih =>
    rw [decimalValue, List.foldl_append, ← decimalValue, ih, List.map_append, List.map_singleton,
      List.reverse_append, List.reverse_singleton, List.singleton_append, Nat.ofDigits_cons]
    exact Nat.add_comm _ _

theorem isNumeral_iff {text : List Char} :
    isNumeral text ↔ text ≠ [] ∧ ∀ c ∈ text, isDigit c := by
  simp [isNumeral]

theorem numeralBelow?_eq_none_iff {bound : Nat} {text : List Char} (numeral : isNumeral text) :
    numeralBelow? bound text = none ↔ bound ≤ decimalValue text := by
  simp [numeralBelow?, numeral]

end Text

open MonkeySyntax.Parser Parse Text

namespace Parser

/-- At the same place there is one diagnostic more: the numeral there is out of range. -/
structure Overran (before after : Parser) : Prop where
  window : after.window = before.window
  diagnostics : after.diagnostics = before.diagnostics.push
    ⟨.integerRange before.current.literal, before.current.span.file, before.current.span.start⟩

namespace Overran

variable {before after : Parser}

theorem traced {label : String} (inside : (before.enter label).Overran after) :
    before.Overran (after.leave label) := ⟨inside.window, inside.diagnostics⟩

theorem nested (inside : before.opened.Overran after) : before.Overran after.closed :=
  ⟨inside.window, inside.diagnostics⟩

theorem skipped (overran : before.Overran after) (last : before.ahead.kind = .eof) :
    skipped .semicolon after = after := by
  have same : after.ahead = before.ahead := congrArg Window.ahead overran.window
  rw [Parse.skipped, if_neg]
  rw [same, last]
  decide

end Overran

end Parser

section

variable {parser : Parser} (grammar : parser.grammar = .standard)
  (int : parser.current.kind = .int)
  (large : numeralBelow? integerBound parser.current.literal.toList = none)

namespace Parts

variable {parts : Parts}

include large in
theorem integer_overran : ∃ after, integer parser = .abandoned after ∧ parser.Overran after := by
  have inside : numeralBelow? integerBound
      (parser.enter "parse_integer_literal").current.literal.toList = none := large
  rw [integer, traced, currentLiteral, read_bind, inside]
  exact ⟨_, rfl, .traced ⟨rfl, rfl⟩⟩

include grammar int large

theorem expressionAbove_overran (floor : Precedence)
    (room : parser.depth < parser.options.maxDepth) :
    ∃ after, parts.expressionAbove floor parser = .abandoned after ∧ parser.Overran after := by
  obtain ⟨after, failed, overran⟩ :
      ∃ after, integer parser.opened = .abandoned after ∧ parser.opened.Overran after :=
    integer_overran large
  have begun : parts.startHere parser.opened = .abandoned after := by
    have rule : parser.opened.grammar.start parser.opened.current.kind = some .integer := by
      change parser.grammar.start parser.current.kind = _
      rw [grammar, int]
      rfl
    rw [startHere, read_bind, rule]
    exact failed
  refine ⟨after.closed, ?_, overran.nested⟩
  rw [expressionAbove_of_lt room, bind_of_abandoned begun, Outcome.after_abandoned]

theorem statement_overran (bound : Nat) (room : parser.depth < parser.options.maxDepth)
    (last : parser.ahead.kind = .eof) :
    ∃ after, (within (bound + 2)).statement parser = .abandoned after ∧ parser.Overran after := by
  let begun := parser.enter "parse_expression_statement"
  obtain ⟨after, failed, overran⟩ :=
    @expressionAbove_overran begun grammar int large (within bound) .lowest room
  have ended : ensuring (skip .semicolon) ((within (bound + 1)).expression .lowest) begun =
      .abandoned after := by
    change ensuring (skip .semicolon) ((within bound).expressionAbove .lowest) begun = _
    rw [ensuring_skip_apply, failed, Outcome.after_abandoned, overran.skipped last]
  have rule : parser.grammar.statementRule parser.current.kind = .expression := by
    rw [grammar, int]
    rfl
  refine ⟨after.leave "parse_expression_statement", ?_, overran.traced⟩
  change (within (bound + 1)).statementHere parser = _
  rw [statementHere_apply, rule, runStatement, expressionStatement, Parse.traced,
    bind_of_abandoned ended, Outcome.after_abandoned]

end Parts

include grammar int large

/-- Such a numeral at the end of the input is left out of the program, and leaves one diagnostic. -/
theorem Parser.readProgram_overran (settled : parser.Settled) (last : parser.ahead.kind = .eof)
    (room : parser.depth < parser.options.maxDepth) :
    ∃ final, parser.readProgram = .built [] final ∧
      final.diagnostics = parser.diagnostics.push
        ⟨.integerRange parser.current.literal, parser.current.span.file,
          parser.current.span.start⟩ := by
  have grounded : parser.grammar.Grounded := grammar ▸ Grammar.grounded_standard
  obtain ⟨bound, same⟩ : ∃ bound, parser.bound = bound + 2 := ⟨parser.bound - 2, by
    have := parser.enough_le_bound
    omega⟩
  obtain ⟨after, failed, overran⟩ := Parts.statement_overran grammar int large bound room last
  rw [← same] at failed
  have moment : parser.Moment [] after.drop.advance := .dropped .first (by rw [int]; decide) failed
  have ended : after.ahead = parser.ahead := congrArg Window.ahead overran.window
  refine ⟨_, moment.readProgram_of_eof grounded settled ?_, overran.diagnostics⟩
  exact (congrArg Token.kind ended).trans last

end

/-- A numeral is one token, and the end is behind it. -/
theorem Cursor.window_of_numeral (file : String) {text : String} (numeral : isNumeral text.toList) :
    (ofText file text).window =
      ⟨⟨.int, text, file, 0, text.length⟩, ⟨.eof, "", file, text.length, text.length⟩,
        ⟨file, text.length, []⟩⟩ := by
  obtain ⟨nonempty, digits⟩ := isNumeral_iff.mp numeral
  have ends : Ends text.toList [] := by rintro _ ⟨⟩
  have first : (⟨file, 0, [] ++ (text.toList ++ [])⟩ : Cursor).next = _ :=
    next_of_lexeme nofun (.number nonempty digits) ends
  simp only [List.nil_append, List.append_nil, List.length_nil, Nat.zero_add,
    String.ofList_toList, String.length_toList] at first
  rw [window, ofText, first, next_of_atEnd rfl]

theorem readText_of_large {options : Options} (file : String) {text : String}
    (numeral : isNumeral text.toList) (room : 0 < options.maxDepth)
    (large : integerBound ≤ decimalValue text.toList) :
    (readText options file text).program = [] ∧
      (readText options file text).diagnostics = [⟨.integerRange text, file, 0⟩] := by
  let start := start options (.ofText file text)
  have window : start.window = _ := Cursor.window_of_numeral file numeral
  have current : start.current = _ := congrArg Window.current window
  have ahead : start.ahead = _ := congrArg Window.ahead window
  obtain ⟨final, run, diagnostics⟩ := @readProgram_overran start rfl (by rw [current])
    (by rw [current]; exact (numeralBelow?_eq_none_iff numeral).mpr large) (settled_start _ _)
    (by rw [ahead]) room
  rw [current] at diagnostics
  rw [readText_of_built run, parsed, diagnostics]
  exact ⟨rfl, rfl⟩

theorem readText_of_small {options : Options} (file : String) {text : String}
    (numeral : isNumeral text.toList) (room : 0 < options.maxDepth)
    (small : decimalValue text.toList < integerBound) :
    (readText options file text).program =
        [.expression (.integer (decimalValue text.toList) text)] ∧
      (readText options file text).diagnostics = [] := by
  have fits : numeralBelow? integerBound text.toList = some (decimalValue text.toList) :=
    numeralBelow?_eq_some_iff.mpr ⟨numeral, small, rfl⟩
  have value : Reads .standard 1 (.expression .lowest) [⟨.int, text⟩, ⟨.eof, ""⟩]
      (.integer (decimalValue text.toList) text) [⟨.eof, ""⟩] :=
    .expression rfl (.integer fits) (.stop rfl)
  have whole : Reads .standard 1 (.statements .program) [⟨.int, text⟩, ⟨.eof, ""⟩]
      [.expression (.integer (decimalValue text.toList) text)] [⟨.eof, ""⟩] :=
    .next rfl (.statement (.expressionStatement value rfl)) (.finish rfl)
  have terminals : (Cursor.ofText file text).terminals = [⟨.int, text⟩, ⟨.eof, ""⟩] := by
    rw [Cursor.terminals_ofText, lexed_number ⟨numeral, rfl, small⟩]
    rfl
  exact readText_of_reads (terminals ▸ whole.mono room)

/-- A text of digits alone, however many, is read as the integer that they denote in base ten if
this is at most the greatest integer. Otherwise nothing is read, and the one diagnostic says so of
the whole text. -/
theorem readText_numeral (options : Options) (file text : String) (nonempty : text ≠ "")
    (digits : ∀ c ∈ text.toList, isDigit c) (room : 1 ≤ options.maxDepth) :
    let value : Nat := Nat.ofDigits 10 (text.toList.map digitValue).reverse
    (value ≤ 9223372036854775807 →
      (readText options file text).program = [.expression (.integer value text)] ∧
      (readText options file text).diagnostics = []) ∧
    (9223372036854775807 < value →
      (readText options file text).program = [] ∧
      (readText options file text).diagnostics = [⟨.integerRange text, file, 0⟩]) := by
  intro value
  have numeral : isNumeral text.toList :=
    isNumeral_iff.mpr ⟨mt String.toList_eq_nil_iff.mp nonempty, digits⟩
  have same : value = decimalValue text.toList := (decimalValue_eq_ofDigits _).symm
  rw [same]
  exact ⟨fun small => readText_of_small file numeral room (Nat.lt_succ_of_le small),
    fun large => readText_of_large file numeral room large⟩

/-- The greatest integer behind zeros that do not count, and the number above it. -/
theorem readText_numeral_limit :
    ("0009223372036854775807" ≠ "" ∧ (∀ c ∈ "0009223372036854775807".toList, isDigit c) ∧ 1 ≤ 1) ∧
    (readText { maxDepth := 1 } "f" "0009223372036854775807").program =
      [.expression (.integer 9223372036854775807 "0009223372036854775807")] ∧
    (readText { maxDepth := 1 } "f" "0009223372036854775807").diagnostics = [] ∧
    (readText { maxDepth := 1 } "f" "9223372036854775808").program = [] ∧
    (readText { maxDepth := 1 } "f" "9223372036854775808").diagnostics =
      [⟨.integerRange "9223372036854775808", "f", 0⟩] := by
  have digits : ∀ c ∈ "0009223372036854775807".toList, isDigit c := by decide
  have greatest : Nat.ofDigits 10 ("0009223372036854775807".toList.map digitValue).reverse =
      9223372036854775807 := (decimalValue_eq_ofDigits _).symm.trans (by decide)
  have above : Nat.ofDigits 10 ("9223372036854775808".toList.map digitValue).reverse =
      9223372036854775808 := (decimalValue_eq_ofDigits _).symm.trans (by decide)
  obtain ⟨program, none⟩ := (readText_numeral { maxDepth := 1 } "f" "0009223372036854775807"
    (by decide) digits (Nat.le_refl 1)).1 (Nat.le_of_eq greatest)
  obtain ⟨program', one⟩ := (readText_numeral { maxDepth := 1 } "f" "9223372036854775808"
    (by decide) (by decide) (Nat.le_refl 1)).2 (above ▸ Nat.lt_succ_self _)
  rw [greatest] at program
  exact ⟨⟨by decide, digits, Nat.le_refl 1⟩, program, none, program', one⟩

end MonkeySyntax
